import DesiredState.Proofs.Matching

/-!
# What identifies an entry

The identity of a desired entry has one value for each identifying field of its schema: the one that
is given, or null. Where these fields hold text, an object shows which identity it has, so that no two
entries of different identities mean the same object.
-/

set_option autoImplicit false

namespace DesiredState

namespace Schema

variable {schema : Schema} {desired : Attributes} {descriptor : Descriptor}

/-! ## Identities that are text -/

/-- A schema whose identifying fields hold text. -/
def IdentifiedByText (schema : Schema) : Prop :=
  ∀ spec ∈ schema.fields, spec.identity = true → spec.kind = .string

/-- Every value in the identity of an entry is text or null. -/
theorem text_or_null_of_identity (byText : schema.IdentifiedByText)
    (accepted : schema.descriptor desired = .ok descriptor) {key : String} {want : Value}
    (found : descriptor.identity.find? key = some want) :
    want = .null ∨ ∃ text, want = .string text := by
  rw [find?_identity accepted] at found
  split at found
  · cases given : (desired.find? key).filter fun _ => schema.identifies key with
    | none =>
        rw [given] at found
        cases found
        exact .inl rfl
    | some value =>
        rw [given] at found
        cases found
        obtain ⟨wanted, identifies⟩ := Option.filter_eq_some_iff.mp given
        obtain ⟨spec, known, identity⟩ := field?_of_identifies identifies
        cases null : value.isNull with
        | true => exact .inl (Value.eq_null_of_isNull null)
        | false =>
            have unopposed := objection?_of_validate (validate_of_descriptor accepted) wanted known
              (by simp [FieldSpec.passesOver, null])
            have accepts : spec.kind.accepts value = true := by
              simpa [FieldSpec.objection?, null] using unopposed
            rw [byText spec (mem_of_field? known) identity] at accepts
            cases value with
            | string text => exact .inr ⟨text, rfl⟩
            | null | bool | number | list | object => cases accepts
  · cases found

end Schema

/-- Text and null agree with nothing but themselves. -/
theorem Value.eq_of_agrees_of_text {want value : Value} (plain : want = .null ∨ ∃ text, want = .string text)
    (agrees : want.agrees value = true) : value = want := by
  rcases plain with rfl | ⟨text, rfl⟩
  · cases value with
    | null => rfl
    | bool | number | string | list | object => simp [Value.agrees, Value.agreesBy] at agrees
  · cases value with
    | string other => simp_all [Value.agrees, Value.agreesBy]
    | null | bool | number | list | object => simp [Value.agrees, Value.agreesBy] at agrees

theorem Catalog.identifiedByText {schema : Schema} (member : schema ∈ Catalog.all) :
    schema.IdentifiedByText := by
  have fields : ∀ schema ∈ Catalog.all, ∀ spec ∈ schema.fields, spec.identity = true →
      spec.kind = .string := by decide
  exact fields schema member

/-! ## Telling objects apart -/

theorem Descriptor.matchesObject_of_identity {first second : Descriptor}
    (same : first.identity = second.identity) (object : RemoteObject) :
    first.matchesObject object = second.matchesObject object := by
  rw [Descriptor.matchesObject, same, Descriptor.matchesObject]

namespace Schema

variable {schema : Schema}

/-- Entries that mean one object have one identity. -/
def TellApart (entries : List Descriptor) : Prop :=
  ∀ first ∈ entries, ∀ second ∈ entries, ∀ object, first.matchesObject object = true →
    second.matchesObject object = true → first.identity = second.identity

/-- No object is meant by both entries. -/
def Apart (first second : Descriptor) : Prop :=
  ∀ object, first.matchesObject object = true → second.matchesObject object = true → False

theorem Apart.symm {first second : Descriptor} (apart : Apart first second) : Apart second first :=
  fun object meansSecond meansFirst => apart object meansFirst meansSecond

theorem TellApart.same_or_apart {entries : List Descriptor} (tell : TellApart entries)
    {first second : Descriptor} (firstMember : first ∈ entries) (secondMember : second ∈ entries) :
    first.identity = second.identity ∨ Apart first second := by
  by_cases same : first.identity = second.identity
  · exact .inl same
  · exact .inr fun object meansFirst meansSecond =>
      same (tell first firstMember second secondMember object meansFirst meansSecond)

theorem TellApart.of_cons {entry : Descriptor} {rest : List Descriptor}
    (tell : TellApart (entry :: rest)) : TellApart rest := fun first firstMember second secondMember =>
  tell first (List.mem_cons_of_mem _ firstMember) second (List.mem_cons_of_mem _ secondMember)

/-- What an entry takes is no candidate of an entry apart from it. -/
theorem Apart.filter_eraseP {first second : Descriptor} (apart : Apart first second)
    (objects : List RemoteObject) :
    (objects.eraseP first.matchesObject).filter second.matchesObject =
      objects.filter second.matchesObject := by
  induction objects with
  | nil => rfl
  | cons object rest ih =>
      by_cases means : first.matchesObject object = true
      · have unmeant : ¬ second.matchesObject object = true := apart object means
        rw [List.eraseP_cons_of_pos means, List.filter_cons_of_neg unmeant]
      · rw [List.eraseP_cons_of_neg means, List.filter_cons, List.filter_cons, ih]

/-- What identifies an object: its values of the identifying fields, where one that is not reported
counts as null. -/
def identityValues (schema : Schema) (object : RemoteObject) : List Value :=
  schema.identityFields.map fun spec => object.getD spec.name

/-- The identity of an entry is what an object shows that the entry means. -/
theorem find?_identity_of_means (byText : schema.IdentifiedByText) {desired : Attributes}
    {entry : Descriptor} (accepted : schema.descriptor desired = .ok entry) {object : RemoteObject}
    (means : entry.matchesObject object = true) (key : String) :
    entry.identity.find? key =
      if key ∈ schema.identityFields.map (·.name) then some (object.getD key) else none := by
  have identity := find?_identity accepted key
  by_cases listed : key ∈ schema.identityFields.map (·.name)
  · rw [if_pos listed] at identity ⊢
    have agrees := Descriptor.matchesObject_iff.mp means key _ identity
    have plain := text_or_null_of_identity byText accepted identity
    rw [identity, Value.eq_of_agrees_of_text plain agrees]
  · rw [if_neg listed] at identity ⊢
    exact identity

theorem identityValues_eq_of_means (byText : schema.IdentifiedByText) {desired : Attributes}
    {entry : Descriptor} (accepted : schema.descriptor desired = .ok entry)
    {first second : RemoteObject} (meansFirst : entry.matchesObject first = true)
    (meansSecond : entry.matchesObject second = true) :
    schema.identityValues first = schema.identityValues second := by
  refine List.map_congr_left fun spec member => ?_
  have listed : spec.name ∈ schema.identityFields.map (·.name) := List.mem_map_of_mem member
  have ofFirst := find?_identity_of_means byText accepted meansFirst spec.name
  have ofSecond := find?_identity_of_means byText accepted meansSecond spec.name
  rw [if_pos listed] at ofFirst ofSecond
  exact Option.some.inj (ofFirst.symm.trans ofSecond)

theorem tellApart_of_descriptors (byText : schema.IdentifiedByText) {desired : List Attributes}
    {entries : List Descriptor} (accepted : schema.descriptors desired = .ok entries) :
    TellApart entries := by
  intro first firstMember second secondMember object firstMeans secondMeans
  obtain ⟨_, ofFirst⟩ := exists_entry_of_descriptors accepted firstMember
  obtain ⟨_, ofSecond⟩ := exists_entry_of_descriptors accepted secondMember
  apply SortedMap.ext_find?
  intro key
  rw [find?_identity_of_means byText ofFirst firstMeans key,
    find?_identity_of_means byText ofSecond secondMeans key]

end Schema

end DesiredState
