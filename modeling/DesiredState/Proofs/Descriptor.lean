import Mathlib.Data.List.Forall2
import Mathlib.Data.List.Nodup
import DesiredState.Proofs.Diff
import DesiredState.Schema.Catalog
import DesiredState.Schema.Descriptor
import DesiredState.Store.State

/-!
# What a desired entry asks for

A descriptor splits its entry into identifying fields and payload without losing a value. An
object made from its create body meets it at once, and changes of the payload never touch the
identity. Every schema of the catalog is regular: its fields have distinct names, and none is
the number of the object.
-/

set_option autoImplicit false

namespace DesiredState

theorem exists_of_forall₂_right {α β : Type} {related : α → β → Prop} {left : List α}
    {right : List β} (aligned : List.Forall₂ related left right) {found : β} (member : found ∈ right) :
    ∃ origin ∈ left, related origin found := by
  induction aligned with
  | nil => cases member
  | cons head _ ih =>
      rcases List.mem_cons.mp member with rfl | inRest
      · exact ⟨_, List.mem_cons_self, head⟩
      · obtain ⟨origin, inLeft, fits⟩ := ih inRest
        exact ⟨origin, List.mem_cons_of_mem _ inLeft, fits⟩

/-- A schema whose fields have distinct names other than that of the object's number. -/
structure Schema.Regular (schema : Schema) : Prop where
  names_nodup : (schema.fields.map (·.name)).Nodup
  id_unknown : schema.knows "id" = false

theorem Catalog.regular {schema : Schema} (member : schema ∈ Catalog.all) : schema.Regular := by
  have names : ∀ schema ∈ Catalog.all, (schema.fields.map (·.name)).Nodup := by decide
  have number : ∀ schema ∈ Catalog.all, schema.knows "id" = false := by decide
  exact ⟨names schema member, number schema member⟩

namespace Schema

variable {schema : Schema}

/-- An object holds the desired attributes: those that the schema knows and does not pass over
agree with the observed values, where one that is absent counts as null. -/
def Holds (schema : Schema) (desired : Attributes) (object : RemoteObject) : Prop :=
  ∀ key want, desired.find? key = some want → ∀ spec, schema.field? key = some spec →
    spec.passesOver want = false → want.agrees (object.getD key) = true

theorem holds_of_diff {policy : MutabilityPolicy} {object : RemoteObject} {desired : Attributes}
    (accepted : schema.diff object desired policy = .ok []) : schema.Holds desired object :=
  fun _ _ wanted spec found notPassed => (settled_of_diff accepted wanted spec found notPassed).2

theorem field?_of_mem (names : (schema.fields.map (·.name)).Nodup) {spec : FieldSpec}
    (member : spec ∈ schema.fields) : schema.field? spec.name = some spec := by
  cases found : schema.field? spec.name with
  | none =>
      have absent := List.find?_eq_none.mp found spec member
      simp at absent
  | some other =>
      have named := name_of_field? found
      have same : other = spec :=
        List.inj_on_of_nodup_map names (mem_of_field? found) member named
      rw [same]

private theorem Regular.ne_id (regular : schema.Regular) {key : String} {spec : FieldSpec}
    (found : schema.field? key = some spec) : key ≠ "id" := by
  intro same
  have unknown := regular.id_unknown
  rw [knows, ← same, found] at unknown
  cases unknown

theorem field?_of_identifies {key : String} (identifies : schema.identifies key = true) :
    ∃ spec, schema.field? key = some spec ∧ spec.identity = true :=
  (Option.any_eq_true _ _).mp identifies

theorem identifies_of_mem (names : (schema.fields.map (·.name)).Nodup) {spec : FieldSpec}
    (member : spec ∈ schema.fields) : schema.identifies spec.name = spec.identity := by
  rw [identifies, field?_of_mem names member]
  rfl

/-! ## Validation -/

theorem objection?_of_validate {desired : Attributes} (valid : schema.validate desired = .ok ())
    {key : String} {want : Value} (wanted : desired.find? key = some want) {spec : FieldSpec}
    (found : schema.field? key = some spec) (notPassed : spec.passesOver want = false) :
    spec.objection? want = none := by
  have unopposed := validateEntries_eq_ok_iff.mp valid _ (SortedMap.mem_entries_iff.mpr wanted)
  rwa [objection?, fieldFor?_eq_some.mpr ⟨found, notPassed⟩, Option.bind_some] at unopposed

theorem validate_filter {desired : Attributes} (valid : schema.validate desired = .ok ())
    (keep : String → Value → Bool) : schema.validate (desired.filter keep) = .ok () :=
  validateEntries_eq_ok_iff.mpr fun entry member =>
    validateEntries_eq_ok_iff.mp valid entry (List.mem_filter.mp member).1

/-! ## The two parts of an entry -/

theorem validate_of_descriptor {desired : Attributes} {descriptor : Descriptor}
    (accepted : schema.descriptor desired = .ok descriptor) : schema.validate desired = .ok () := by
  rw [Schema.descriptor] at accepted
  cases valid : schema.validate desired with
  | error error => simp [valid] at accepted
  | ok done => rfl

/-- The parts of an accepted entry: its completed identity, and the other attributes that are known. -/
theorem parts_of_descriptor {desired : Attributes} {descriptor : Descriptor}
    (accepted : schema.descriptor desired = .ok descriptor) :
    schema.completeIdentity (desired.filter fun key _ => schema.identifies key) schema.identityFields =
        .ok descriptor.identity ∧
      descriptor.payload = desired.filter fun key _ => schema.knows key && !schema.identifies key := by
  rw [Schema.descriptor, validate_of_descriptor accepted] at accepted
  dsimp only at accepted
  split at accepted
  · cases accepted
  · rename_i identity completed
    cases accepted
    exact ⟨completed, rfl⟩

theorem find?_completeIdentity {specs : List FieldSpec} {identity complete : Attributes}
    (accepted : schema.completeIdentity identity specs = .ok complete) (key : String) :
    complete.find? key =
      if key ∈ specs.map (·.name) then some ((identity.find? key).getD .null)
      else identity.find? key := by
  induction specs generalizing identity with
  | nil =>
      cases accepted
      simp
  | cons spec rest ih =>
      unfold completeIdentity at accepted
      by_cases present : (identity.find? spec.name).any (!·.isNull) = true
      · simp only [present, if_true] at accepted
        rw [ih accepted]
        by_cases same : key = spec.name
        · obtain ⟨value, found, _⟩ := (Option.any_eq_true _ _).mp present
          simp [same, found]
        · simp [same]
      · simp only [present, Bool.false_eq_true, if_false] at accepted
        split at accepted
        · rw [ih accepted, SortedMap.find?_insert]
          by_cases same : key = spec.name
          · -- What is replaced by null was absent or null before.
            have given : (identity.find? spec.name).getD .null = .null := by
              cases found : identity.find? spec.name with
              | none => rfl
              | some value =>
                  rw [found] at present
                  exact Value.eq_null_of_isNull (by simpa using present)
            simp [same, given]
          · simp [same, Ne.symm same]
        · cases accepted

/-- An identity can be completed if every field that cannot be cleared has a value other than null. -/
theorem exists_completeIdentity_iff {specs : List FieldSpec} {identity : Attributes} :
    (∃ complete, schema.completeIdentity identity specs = .ok complete) ↔
      ∀ spec ∈ specs, spec.nullable = false → (identity.find? spec.name).any (!·.isNull) = true := by
  induction specs generalizing identity with
  | nil => simp [completeIdentity]
  | cons spec rest ih =>
      unfold completeIdentity
      rw [List.forall_mem_cons]
      by_cases present : (identity.find? spec.name).any (!·.isNull) = true
      · simp only [present, if_true, ih, implies_true, true_and]
      · simp only [present, Bool.false_eq_true, if_false]
        cases nullable : spec.nullable with
        | false => simp
        | true =>
            -- The null that is filled in is no value, so what the other fields have is not touched.
            have filled : ∀ name, ((identity.insert spec.name .null).find? name).any (!·.isNull) =
                (identity.find? name).any (!·.isNull) := by
              intro name
              rw [SortedMap.find?_insert]
              by_cases same : spec.name = name
              · rw [if_pos same, ← same, Bool.eq_false_iff.mpr present]
                rfl
              · rw [if_neg same]
            simp only [if_true, ih, filled, Bool.true_eq_false, false_implies, true_and]

theorem mem_identityFields_of_identifies {key : String} (identifies : schema.identifies key = true) :
    key ∈ schema.identityFields.map (·.name) := by
  obtain ⟨spec, found, identity⟩ := field?_of_identifies identifies
  have inFields : spec ∈ schema.identityFields := List.mem_filter.mpr ⟨mem_of_field? found, identity⟩
  exact List.mem_map.mpr ⟨spec, inFields, name_of_field? found⟩

/-- The identity of an entry has a value for every identifying field and nothing else. It is the desired
one, or null if that is left out. -/
theorem find?_identity {desired : Attributes} {descriptor : Descriptor}
    (accepted : schema.descriptor desired = .ok descriptor) (key : String) :
    descriptor.identity.find? key =
      if key ∈ schema.identityFields.map (·.name) then
        some (((desired.find? key).filter fun _ => schema.identifies key).getD .null)
      else none := by
  rw [find?_completeIdentity (parts_of_descriptor accepted).1, SortedMap.find?_filter]
  by_cases listed : key ∈ schema.identityFields.map (·.name)
  · rw [if_pos listed, if_pos listed]
  · have apart : schema.identifies key = false :=
      Bool.eq_false_iff.mpr fun identifies => listed (mem_identityFields_of_identifies identifies)
    rw [if_neg listed, if_neg listed, apart]
    cases desired.find? key <;> rfl

/-- What is known of the identity of an entry: its keys identify, and its values are those of the
entry or null for one that was left out. -/
structure IdentityOf (schema : Schema) (desired identity : Attributes) : Prop where
  identifies : ∀ key want, identity.find? key = some want → schema.identifies key = true
  given : ∀ key want, desired.find? key = some want → schema.identifies key = true →
    identity.find? key = some want

/-- A split entry: its identity, and as payload the other attributes that the schema knows. -/
structure SplitOf (schema : Schema) (desired : Attributes) (descriptor : Descriptor) : Prop where
  valid : schema.validate desired = .ok ()
  identity : schema.IdentityOf desired descriptor.identity
  payload : descriptor.payload =
    desired.filter fun key _ => schema.knows key && !schema.identifies key

theorem splitOf_of_descriptor (names : (schema.fields.map (·.name)).Nodup) {desired : Attributes}
    {descriptor : Descriptor} (accepted : schema.descriptor desired = .ok descriptor) :
    schema.SplitOf desired descriptor where
  valid := validate_of_descriptor accepted
  identity := by
    refine ⟨fun key want found => ?_, fun key want wanted identifies => ?_⟩
    · rw [find?_identity accepted] at found
      split at found
      · rename_i listed
        obtain ⟨spec, member, rfl⟩ := List.mem_map.mp listed
        obtain ⟨inFields, identity⟩ := List.mem_filter.mp member
        exact (identifies_of_mem names inFields).trans identity
      · cases found
    · rw [find?_identity accepted, if_pos (mem_identityFields_of_identifies identifies), wanted,
        identifies]
      rfl
  payload := (parts_of_descriptor accepted).2

theorem Regular.splitOf (regular : schema.Regular) {desired : Attributes} {descriptor : Descriptor}
    (accepted : schema.descriptor desired = .ok descriptor) : schema.SplitOf desired descriptor :=
  splitOf_of_descriptor regular.names_nodup accepted

namespace SplitOf

variable {desired : Attributes} {descriptor : Descriptor}

theorem payload_find? (split : schema.SplitOf desired descriptor) {key : String} {want : Value}
    (found : descriptor.payload.find? key = some want) :
    desired.find? key = some want ∧ schema.knows key = true ∧ schema.identifies key = false := by
  rw [split.payload, SortedMap.find?_filter, Option.filter_eq_some_iff] at found
  simpa using found

private theorem payload_of_identifies (split : schema.SplitOf desired descriptor) {key : String}
    (identifies : schema.identifies key = true) : descriptor.payload.find? key = none := by
  cases found : descriptor.payload.find? key with
  | none => rfl
  | some want =>
      have apart := (split.payload_find? found).2.2
      rw [identifies] at apart
      cases apart

theorem identity_of_not_identifies (split : schema.SplitOf desired descriptor) {key : String}
    (apart : schema.identifies key = false) : descriptor.identity.find? key = none := by
  cases found : descriptor.identity.find? key with
  | none => rfl
  | some want =>
      have identifies := split.identity.identifies key want found
      rw [apart] at identifies
      cases identifies

/-- Every known attribute of the entry stands in one of the two parts. -/
theorem identity_or_payload (split : schema.SplitOf desired descriptor) {key : String}
    {want : Value} (wanted : desired.find? key = some want) {spec : FieldSpec}
    (found : schema.field? key = some spec) :
    descriptor.identity.find? key = some want ∨ descriptor.payload.find? key = some want := by
  cases identifies : schema.identifies key with
  | true => exact .inl (split.identity.given key want wanted identifies)
  | false =>
      refine .inr ?_
      have knows : schema.knows key = true := by simp [knows, found]
      rw [split.payload, SortedMap.find?_filter, wanted]
      exact Option.filter_some_pos (by simp [knows, identifies])

end SplitOf

end Schema

namespace Descriptor

private theorem find?_createPayload (descriptor : Descriptor) (key : String) :
    descriptor.createPayload.find? key =
      ((descriptor.payload.find? key).filter (!·.isNull)).or
        ((descriptor.identity.find? key).filter (!·.isNull)) := by
  rw [createPayload, SortedMap.find?_insertAll _ (SortedMap.ascending _),
    SortedMap.find?_filter descriptor.identity]
  exact congrArg (Option.or · _) (SortedMap.find?_filter descriptor.payload _ key)

/-- An object meets an entry: it is the one that is meant, and its payload needs no change. -/
structure MetBy (schema : Schema) (descriptor : Descriptor) (object : RemoteObject) : Prop where
  meant : descriptor.matchesObject object = true
  settled : schema.diff object descriptor.payload schema.mutabilityPolicy = .ok []

theorem matchesObject_iff {descriptor : Descriptor} {object : RemoteObject} :
    descriptor.matchesObject object = true ↔
      ∀ key want, descriptor.identity.find? key = some want →
        want.agrees (object.getD key) = true := by
  rw [matchesObject, List.all_eq_true]
  constructor
  · intro agrees key want found
    exact agrees (key, want) (SortedMap.mem_entries_iff.mpr found)
  · intro agrees entry member
    exact agrees entry.1 entry.2 (SortedMap.mem_entries_iff.mp member)

/-- Whether an entry means an object depends on the identifying attributes alone. -/
theorem matchesObject_congr {descriptor : Descriptor} {object other : RemoteObject}
    (same : ∀ key want, descriptor.identity.find? key = some want →
      object.getD key = other.getD key) :
    descriptor.matchesObject object = descriptor.matchesObject other := by
  rw [Bool.eq_iff_iff, matchesObject_iff, matchesObject_iff]
  constructor
  · intro agrees key want found
    exact same key want found ▸ agrees key want found
  · intro agrees key want found
    exact same key want found ▸ agrees key want found

end Descriptor

namespace Schema

variable {schema : Schema} {desired : Attributes} {descriptor : Descriptor}

theorem SplitOf.holds_of_metBy (split : schema.SplitOf desired descriptor) {object : RemoteObject}
    (met : descriptor.MetBy schema object) : schema.Holds desired object := by
  intro key want wanted spec found notPassed
  rcases split.identity_or_payload wanted found with identity | payload
  · exact Descriptor.matchesObject_iff.mp met.meant key want identity
  · exact holds_of_diff met.settled key want payload spec found notPassed

/-- Changes of the payload leave every entry's choice of objects as it was. -/
theorem SplitOf.matchesObject_applyAll (split : schema.SplitOf desired descriptor)
    {changes : List FieldChange}
    (ascending : Entries.Ascending (changes.map fun change => (change.field, change.new)))
    (apart : ∀ change ∈ changes, schema.identifies change.field = false) {object written : RemoteObject}
    (attributes : written.attributes = FieldChange.applyAll changes object.attributes) :
    descriptor.matchesObject written = descriptor.matchesObject object := by
  refine Descriptor.matchesObject_congr fun key want found => ?_
  have untouched : ∀ change ∈ changes, change.field ≠ key := by
    intro change member same
    have identifies := split.identity.identifies key want found
    rw [← same, apart change member] at identifies
    cases identifies
  rw [RemoteObject.getD, RemoteObject.getD, RemoteObject.get?, RemoteObject.get?, attributes,
    FieldChange.find?_applyAll_of_not_mem ascending _ untouched]

theorem SplitOf.identifies_of_change (split : schema.SplitOf desired descriptor)
    {policy : MutabilityPolicy} {object : RemoteObject} {changes : List FieldChange}
    (accepted : schema.diff object descriptor.payload policy = .ok changes) :
    ∀ change ∈ changes, schema.identifies change.field = false := by
  intro change member
  exact (split.payload_find? (desired_of_change accepted member)).2.2

end Schema

/-! ## Payloads that may change -/

namespace Schema

/-- Whatever does not identify an object of this kind may change. -/
def Adaptable (schema : Schema) : Prop :=
  ∀ spec ∈ schema.fields, spec.identity = false → spec.mutable = true

variable {schema : Schema} {desired : Attributes} {descriptor : Descriptor}

private theorem allows_of_field? {key : String} {spec : FieldSpec} (found : schema.field? key = some spec)
    (isMutable : spec.mutable = true) : schema.mutabilityPolicy.allows key = true := by
  have listed : key ∈ (schema.fields.filter (·.mutable)).map (·.name) :=
    List.mem_map.mpr ⟨spec, List.mem_filter.mpr ⟨mem_of_field? found, isMutable⟩, name_of_field? found⟩
  simpa [MutabilityPolicy.allows, mutabilityPolicy] using listed

/-- The payload of an accepted entry can be reached from any object. -/
theorem diff_payload_total (adaptable : schema.Adaptable)
    (accepted : schema.descriptor desired = .ok descriptor) (object : RemoteObject) :
    ∃ changes, schema.diff object descriptor.payload schema.mutabilityPolicy = .ok changes := by
  refine diff_total fun key want wanted spec found notPassed => ?_
  rw [(parts_of_descriptor accepted).2, SortedMap.find?_filter, Option.filter_eq_some_iff] at wanted
  obtain ⟨inEntry, others⟩ := wanted
  have notIdentifying : spec.identity = false := by simpa [knows, identifies, found] using others
  exact ⟨objection?_of_validate (validate_of_descriptor accepted) inEntry found notPassed,
    allows_of_field? found (adaptable spec (mem_of_field? found) notIdentifying)⟩

end Schema

theorem Catalog.adaptable {schema child : Schema} (member : schema ∈ Catalog.all)
    (childMember : child ∈ Catalog.all) (managed : schema.hasChild child.kind = true) :
    child.Adaptable := by
  have fields : ∀ schema ∈ Catalog.all, ∀ child ∈ Catalog.all, schema.hasChild child.kind = true →
      ∀ spec ∈ child.fields, spec.identity = false → spec.mutable = true := by decide
  exact fields schema member child childMember managed

/-! ## Objects made from a create body -/

private theorem StoreState.getD_newObject (collection : Collection) (id : Nat) (attributes : Attributes)
    {key : String} (other : key ≠ "id") :
    (newObject collection id attributes).getD key = (attributes.find? key).getD .null := by
  rw [RemoteObject.getD, RemoteObject.get?, newObject, SortedMap.find?_insert,
    if_neg (Ne.symm other)]

private theorem getD_filter_isNull (value : Option Value) :
    (value.filter (!·.isNull)).getD .null = value.getD .null := by
  cases value with
  | none => rfl
  | some value => cases value <;> rfl

namespace Schema

variable {schema : Schema} {desired : Attributes}

theorem Regular.diff_newObject_createBody (regular : schema.Regular)
    (valid : schema.validate desired = .ok ()) (collection : Collection) (id : Nat)
    (policy : MutabilityPolicy) :
    schema.diff (StoreState.newObject collection id (schema.createBody desired)) desired policy =
      .ok [] := by
  refine diff_of_settled fun key want wanted spec found notPassed => ?_
  have knows : schema.knows key = true := by simp [knows, found]
  have reads : (StoreState.newObject collection id (schema.createBody desired)).getD key = want := by
    rw [StoreState.getD_newObject collection id _ (regular.ne_id found), createBody,
      SortedMap.find?_filter, wanted, knows]
    exact getD_filter_isNull (some want)
  rw [reads]
  exact ⟨objection?_of_validate valid wanted found notPassed, Value.agrees_self want⟩

/-- Both ways to create send the same body. -/
theorem createPayload_eq_createBody {descriptor : Descriptor}
    (accepted : schema.descriptor desired = .ok descriptor) :
    descriptor.createPayload = schema.createBody desired := by
  refine SortedMap.ext_find? fun key => ?_
  rw [Descriptor.find?_createPayload, (parts_of_descriptor accepted).2, find?_identity accepted,
    createBody, SortedMap.find?_filter, SortedMap.find?_filter]
  cases identifies : schema.identifies key with
  | true =>
      obtain ⟨spec, found, _⟩ := field?_of_identifies identifies
      have knows : schema.knows key = true := by simp [knows, found]
      rw [if_pos (mem_identityFields_of_identifies identifies)]
      simp only [knows, Bool.not_true, Bool.and_false, Bool.true_and]
      cases desired.find? key <;> rfl
  | false =>
      -- The identity may list the field, but has no more than a null for it.
      have noIdentity : Option.filter (fun value : Value => !value.isNull)
          (if key ∈ schema.identityFields.map (·.name) then
            some (((desired.find? key).filter fun _ => false).getD .null)
          else none) = none := by
        split <;> cases desired.find? key <;> rfl
      rw [noIdentity, Option.or_none, Option.filter_filter]
      simp only [Bool.not_false, Bool.and_comm, Bool.true_and]

theorem Regular.metBy_newObject (regular : schema.Regular) {descriptor : Descriptor}
    (split : schema.SplitOf desired descriptor) (collection : Collection) (id : Nat) :
    descriptor.MetBy schema
      (StoreState.newObject collection id descriptor.createPayload) where
  meant := by
    refine Descriptor.matchesObject_iff.mpr fun key want found => ?_
    have identifies := split.identity.identifies key want found
    obtain ⟨spec, known, _⟩ := field?_of_identifies identifies
    have reads : (StoreState.newObject collection id descriptor.createPayload).getD key = want := by
      rw [StoreState.getD_newObject collection id _ (regular.ne_id known),
        Descriptor.find?_createPayload, split.payload_of_identifies identifies, found]
      exact getD_filter_isNull (some want)
    rw [reads]
    exact Value.agrees_self want
  settled := by
    refine diff_of_settled fun key want wanted spec found notPassed => ?_
    obtain ⟨inEntry, _, apart⟩ := split.payload_find? wanted
    have reads : (StoreState.newObject collection id descriptor.createPayload).getD key = want := by
      rw [StoreState.getD_newObject collection id _ (regular.ne_id found),
        Descriptor.find?_createPayload, split.identity_of_not_identifies apart, wanted]
      simpa using getD_filter_isNull (some want)
    rw [reads]
    exact ⟨objection?_of_validate split.valid inEntry found notPassed, Value.agrees_self want⟩

theorem forall₂_of_descriptors {entries : List Attributes} {found : List Descriptor}
    (accepted : schema.descriptors entries = .ok found) :
    List.Forall₂ (fun entry descriptor => schema.descriptor entry = .ok descriptor) entries found := by
  induction entries generalizing found with
  | nil => cases accepted; exact .nil
  | cons entry rest ih =>
      rw [descriptors] at accepted
      cases first : schema.descriptor entry with
      | error error => simp [first] at accepted
      | ok head =>
          simp only [first] at accepted
          cases others : schema.descriptors rest with
          | error error => simp [others] at accepted
          | ok tail =>
              simp only [others] at accepted
              cases accepted
              exact .cons first (ih others)

theorem exists_entry_of_descriptors {entries : List Attributes} {found : List Descriptor}
    (accepted : schema.descriptors entries = .ok found) {descriptor : Descriptor}
    (member : descriptor ∈ found) : ∃ entry, schema.descriptor entry = .ok descriptor := by
  obtain ⟨entry, _, described⟩ := exists_of_forall₂_right (forall₂_of_descriptors accepted) member
  exact ⟨entry, described⟩

end Schema

end DesiredState
