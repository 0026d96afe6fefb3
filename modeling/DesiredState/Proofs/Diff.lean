import DesiredState.Pass.Apply
import DesiredState.Proofs.Diff.Attribute
import DesiredState.Proofs.SortedMap
import DesiredState.Proofs.Value

/-!
# What a difference finds

A difference is empty exactly if every desired attribute is settled, and once its changes are
written the object is settled. The changes of a difference are in ascending order of distinct
fields and pass the checks of the update that carries them.
-/

set_option autoImplicit false

namespace DesiredState

namespace Schema

/-- A desired attribute needs no change: the schema does not know it, or it is passed over, or it
suits its field and agrees with the observed value. -/
def Settled (schema : Schema) (object : RemoteObject) (key : String) (want : Value) : Prop :=
  ∀ spec, schema.field? key = some spec → spec.passesOver want = false →
    spec.objection? want = none ∧ want.agrees (object.getD key) = true

/-- A change that a difference makes of a desired attribute. -/
structure ChangeOf (schema : Schema) (object : RemoteObject) (policy : MutabilityPolicy)
    (change : FieldChange) : Prop where
  known : ∃ spec, schema.field? change.field = some spec ∧
    spec.passesOver change.new = false ∧ spec.objection? change.new = none
  old : change.old = object.get? change.field
  differs : change.new.agrees (object.getD change.field) = false
  allowed : policy.allows change.field = true

end Schema

theorem FieldSpec.check_ok {spec : FieldSpec} {value : Value}
    (fine : spec.objection? value = none) (resource : String) :
    spec.check resource value = .ok () := by
  simp [FieldSpec.check, fine]

namespace Schema

variable {schema : Schema} {object : RemoteObject} {policy : MutabilityPolicy}

private theorem settled_iff {key : String} {want : Value} :
    schema.Settled object key want ↔
      schema.objection? key want = none ∧ schema.differs object key want = false := by
  constructor
  · intro settled
    rw [objection?, differs]
    cases asked : schema.fieldFor? key want with
    | none => exact ⟨rfl, rfl⟩
    | some spec =>
        obtain ⟨found, notPassed⟩ := fieldFor?_eq_some.mp asked
        obtain ⟨fine, agrees⟩ := settled spec found notPassed
        exact ⟨fine, by simp [agrees]⟩
  · rintro ⟨fine, same⟩ spec found notPassed
    have asked : schema.fieldFor? key want = some spec := fieldFor?_eq_some.mpr ⟨found, notPassed⟩
    rw [objection?, asked, Option.bind_some] at fine
    rw [differs, asked] at same
    exact ⟨fine, by simpa using same⟩

private theorem diffEntries_of_settled {entries : List (String × Value)}
    (settled : ∀ key want, (key, want) ∈ entries → schema.Settled object key want) :
    schema.diffEntries object policy entries = .ok [] := by
  refine diffEntries_eq_ok_iff.mpr ⟨fun entry member => ?_, ?_⟩
  · obtain ⟨fine, same⟩ := settled_iff.mp (settled entry.1 entry.2 member)
    exact refusal?_eq_none_iff.mpr ⟨fine, fun differs => by simp [same] at differs⟩
  · refine List.filterMap_eq_nil_iff.mpr fun entry member => ?_
    obtain ⟨_, same⟩ := settled_iff.mp (settled entry.1 entry.2 member)
    simp [change?, same]

/-- A difference can fail only at an attribute that does not suit its field or may not change. -/
theorem diffEntries_total {entries : List (String × Value)}
    (fine : ∀ key want, (key, want) ∈ entries → ∀ spec, schema.field? key = some spec →
      spec.passesOver want = false → spec.objection? want = none ∧ policy.allows key = true) :
    ∃ changes, schema.diffEntries object policy entries = .ok changes := by
  refine ⟨_, diffEntries_eq_ok_iff.mpr ⟨fun entry member => refusal?_eq_none_iff.mpr ?_, rfl⟩⟩
  cases asked : schema.fieldFor? entry.1 entry.2 with
  | none => simp [objection?, differs, asked]
  | some spec =>
      obtain ⟨found, notPassed⟩ := fieldFor?_eq_some.mp asked
      obtain ⟨suits, allowed⟩ := fine entry.1 entry.2 member spec found notPassed
      exact ⟨by simp [objection?, asked, suits], fun _ => allowed⟩

private theorem settled_or_changed {entries : List (String × Value)} {changes : List FieldChange}
    (accepted : schema.diffEntries object policy entries = .ok changes) {key : String}
    {want : Value} (member : (key, want) ∈ entries) :
    schema.Settled object key want ∨
      ∃ change ∈ changes, change.field = key ∧ change.new = want := by
  obtain ⟨unopposed, rfl⟩ := diffEntries_eq_ok_iff.mp accepted
  cases differs : schema.differs object key want with
  | false => exact .inl (settled_iff.mpr ⟨(refusal?_eq_none_iff.mp (unopposed _ member)).1, differs⟩)
  | true =>
      have made := change?_eq_some_iff.mpr ⟨differs, rfl⟩
      exact .inr ⟨_, mem_changesFor.mpr ⟨_, member, made⟩, rfl, rfl⟩

theorem changeOf_of_mem {entries : List (String × Value)} {changes : List FieldChange}
    (accepted : schema.diffEntries object policy entries = .ok changes) {change : FieldChange}
    (member : change ∈ changes) : schema.ChangeOf object policy change := by
  obtain ⟨unopposed, rfl⟩ := diffEntries_eq_ok_iff.mp accepted
  obtain ⟨entry, inEntries, made⟩ := mem_changesFor.mp member
  obtain ⟨differs, rfl⟩ := change?_eq_some_iff.mp made
  obtain ⟨fine, allowed⟩ := refusal?_eq_none_iff.mp (unopposed entry inEntries)
  obtain ⟨⟨spec, asked⟩, disagrees⟩ := differs_eq_true_iff.mp differs
  obtain ⟨found, notPassed⟩ := fieldFor?_eq_some.mp asked
  rw [objection?, asked] at fine
  exact ⟨⟨spec, found, notPassed, fine⟩, rfl, disagrees, allowed differs⟩

/-- The changes are desired attributes, in the order of these. -/
theorem changes_sublist {entries : List (String × Value)} {changes : List FieldChange}
    (accepted : schema.diffEntries object policy entries = .ok changes) :
    (changes.map fun change => (change.field, change.new)).Sublist entries := by
  obtain ⟨_, rfl⟩ := diffEntries_eq_ok_iff.mp accepted
  exact changesFor_sublist entries

/-! ## Differences of attribute sets -/

/-- The changes can be sent as they are: their fields ascend, and every value suits its field. -/
structure Sendable (schema : Schema) (changes : List FieldChange) : Prop where
  ascending : Entries.Ascending (changes.map fun change => (change.field, change.new))
  fine : ∀ change ∈ changes, ∀ spec, schema.field? change.field = some spec →
    spec.objection? change.new = none

theorem sendable_of_diff {desired : Attributes} {changes : List FieldChange}
    (accepted : schema.diff object desired policy = .ok changes) : schema.Sendable changes where
  ascending := desired.ascending.sublist (changes_sublist accepted)
  fine := by
    intro change member spec found
    obtain ⟨other, known, _, fine⟩ := (changeOf_of_mem accepted member).known
    rw [found] at known
    cases known
    exact fine

theorem desired_of_change {desired : Attributes} {changes : List FieldChange}
    (accepted : schema.diff object desired policy = .ok changes) {change : FieldChange}
    (member : change ∈ changes) : desired.find? change.field = some change.new :=
  SortedMap.mem_entries_iff.mp
    ((changes_sublist accepted).subset (List.mem_map_of_mem member))

/-- A walk through desired attributes that passes by what the schema does not know depends on the known
ones alone. -/
theorem walk_congr {β : Type} {walk : List (String × Value) → β}
    (passesBy : ∀ key want rest, schema.field? key = none → walk ((key, want) :: rest) = walk rest)
    (goesOn : ∀ head {first second}, walk first = walk second → walk (head :: first) = walk (head :: second))
    {left right : Attributes}
    (same : ∀ key, schema.knows key = true → left.find? key = right.find? key) :
    walk left.entries = walk right.entries := by
  have known : ∀ entries, walk (entries.filter fun entry => schema.knows entry.1) = walk entries := by
    intro entries
    induction entries with
    | nil => rfl
    | cons head rest ih =>
        cases found : schema.field? head.1 with
        | none =>
            have unknown : schema.knows head.1 = false := by simp [knows, found]
            rw [List.filter_cons_of_neg (by simp [unknown]), ih, passesBy head.1 head.2 rest found]
        | some spec =>
            have isKnown : schema.knows head.1 = true := by simp [knows, found]
            rw [List.filter_cons_of_pos (by simp [isKnown])]
            exact goesOn head ih
  have filtered := congrArg (fun map => walk map.entries) (SortedMap.filter_keys_congr same)
  exact (known _).symm.trans (filtered.trans (known _))

theorem diff_of_settled {desired : Attributes}
    (settled : ∀ key want, desired.find? key = some want → schema.Settled object key want) :
    schema.diff object desired policy = .ok [] :=
  diffEntries_of_settled fun key want member =>
    settled key want (SortedMap.mem_entries_iff.mp member)

theorem diff_total {desired : Attributes}
    (fine : ∀ key want, desired.find? key = some want → ∀ spec, schema.field? key = some spec →
      spec.passesOver want = false → spec.objection? want = none ∧ policy.allows key = true) :
    ∃ changes, schema.diff object desired policy = .ok changes :=
  diffEntries_total fun key want member => fine key want (SortedMap.mem_entries_iff.mp member)

theorem settled_of_diff {desired : Attributes}
    (accepted : schema.diff object desired policy = .ok []) {key : String} {want : Value}
    (wanted : desired.find? key = some want) : schema.Settled object key want := by
  rcases settled_or_changed accepted (SortedMap.mem_entries_iff.mpr wanted) with
    settled | ⟨change, member, _⟩
  · exact settled
  · cases member

end Schema

namespace FieldChange

private theorem find?_applyAll {changes : List FieldChange}
    (ascending : Entries.Ascending (changes.map fun change => (change.field, change.new)))
    (attributes : Attributes) (key : String) :
    (applyAll changes attributes).find? key =
      (Entries.find? key (changes.map fun change => (change.field, change.new))).or
        (attributes.find? key) :=
  SortedMap.find?_insertAll attributes ascending key

theorem find?_applyAll_of_mem {changes : List FieldChange}
    (ascending : Entries.Ascending (changes.map fun change => (change.field, change.new)))
    (attributes : Attributes) {change : FieldChange} (member : change ∈ changes) :
    (applyAll changes attributes).find? change.field = some change.new := by
  have found := ascending.find?_of_mem
    (List.mem_map_of_mem (f := fun change : FieldChange => (change.field, change.new)) member)
  rw [find?_applyAll ascending, found]
  rfl

theorem find?_applyAll_of_not_mem {changes : List FieldChange}
    (ascending : Entries.Ascending (changes.map fun change => (change.field, change.new)))
    (attributes : Attributes) {key : String}
    (untouched : ∀ change ∈ changes, change.field ≠ key) :
    (applyAll changes attributes).find? key = attributes.find? key := by
  have absent : Entries.find? key (changes.map fun change => (change.field, change.new)) = none := by
    rw [Entries.find?_eq_none_iff]
    simpa using fun change member => untouched change member
  rw [find?_applyAll ascending, absent]
  rfl

theorem entries_applyAll_perm {changes : List FieldChange} (distinct : (changes.map (·.field)).Nodup) :
    (applyAll changes ∅).entries.Perm (changes.map fun change => (change.field, change.new)) := by
  have keys : ((changes.map fun change => (change.field, change.new)).map (·.1)).Nodup := by
    simpa [Function.comp_def] using distinct
  exact SortedMap.entries_insertAll_perm ∅ keys

/-- Writing the attributes of an update body has the effect of the changes it was made of. -/
theorem insertAll_applyAll_empty {changes : List FieldChange}
    (ascending : Entries.Ascending (changes.map fun change => (change.field, change.new)))
    (attributes : Attributes) :
    attributes.insertAll (applyAll changes ∅).entries = applyAll changes attributes := by
  rw [applyAll, SortedMap.entries_insertAll_empty ascending]
  rfl

end FieldChange

namespace Schema

variable {schema : Schema} {object : RemoteObject} {policy : MutabilityPolicy}

/-- Once the changes of a difference are written nothing differs any more, under any policy. -/
theorem diff_applyAll {desired : Attributes} {changes : List FieldChange}
    (accepted : schema.diff object desired policy = .ok changes) {written : RemoteObject}
    (attributes : written.attributes = FieldChange.applyAll changes object.attributes)
    (later : MutabilityPolicy) : schema.diff written desired later = .ok [] := by
  have sendable := sendable_of_diff accepted
  refine diff_of_settled fun key want wanted => ?_
  have reads : written.getD key = ((FieldChange.applyAll changes object.attributes).find? key).getD
      .null := by
    rw [RemoteObject.getD, RemoteObject.get?, attributes]
  by_cases changed : ∃ change ∈ changes, change.field = key
  · obtain ⟨change, member, rfl⟩ := changed
    have same : change.new = want :=
      Option.some.inj ((desired_of_change accepted member).symm.trans wanted)
    intro spec found _
    rw [reads, FieldChange.find?_applyAll_of_mem sendable.ascending _ member, same]
    exact ⟨same ▸ sendable.fine change member spec found, Value.agrees_self want⟩
  · have untouched : ∀ change ∈ changes, change.field ≠ key :=
      fun change member equal => changed ⟨change, member, equal⟩
    rcases settled_or_changed accepted (SortedMap.mem_entries_iff.mpr wanted) with
      settled | ⟨change, member, field, _⟩
    · rw [Settled, reads, FieldChange.find?_applyAll_of_not_mem sendable.ascending _ untouched]
      exact settled
    · exact absurd field (untouched change member)

theorem updateBody_of_fine {changes : List FieldChange}
    (fine : ∀ change ∈ changes, ∀ spec, schema.field? change.field = some spec →
      spec.objection? change.new = none) (request : Attributes) :
    schema.updateBody changes request = .ok (FieldChange.applyAll changes request) := by
  induction changes generalizing request with
  | nil => rfl
  | cons change rest ih =>
      have restFine := ih fun other member => fine other (List.mem_cons_of_mem _ member)
      rw [updateBody]
      cases found : schema.field? change.field with
      | none => exact restFine _
      | some spec =>
          have named := name_of_field? found
          simp only [FieldSpec.write, FieldSpec.check_ok (fine change List.mem_cons_self spec found), named]
          exact restFine _

theorem updateBody_of_sendable {changes : List FieldChange} (sendable : schema.Sendable changes)
    (request : Attributes) :
    schema.updateBody changes request = .ok (FieldChange.applyAll changes request) :=
  updateBody_of_fine sendable.fine request

/-- Every value suits its field. -/
def Fits (schema : Schema) (changes : List FieldChange) : Prop :=
  ∀ change ∈ changes, ∀ spec, schema.field? change.field = some spec → spec.objection? change.new = none

/-- An error for the first value that does not suit its field. -/
inductive Unsuited (schema : Schema) : List FieldChange → PassError → Prop where
  | here {change : FieldChange} {rest : List FieldChange} {spec : FieldSpec} {reason : String}
      (known : schema.field? change.field = some spec)
      (objection : spec.objection? change.new = some reason) :
      Unsuited schema (change :: rest) (.invalidValue schema.kind change.field reason)
  | later {change : FieldChange} {rest : List FieldChange} {error : PassError}
      (fits : ∀ spec, schema.field? change.field = some spec → spec.objection? change.new = none)
      (unsuited : Unsuited schema rest error) : Unsuited schema (change :: rest) error

theorem fits_or_unsuited (changes : List FieldChange) :
    schema.Fits changes ∨ ∃ error, schema.Unsuited changes error := by
  induction changes with
  | nil => exact .inl fun change member => absurd member List.not_mem_nil
  | cons change rest ih =>
      by_cases suits : ∀ spec, schema.field? change.field = some spec → spec.objection? change.new = none
      · rcases ih with fits | ⟨error, unsuited⟩
        · exact .inl (List.forall_mem_cons.mpr ⟨suits, fits⟩)
        · exact .inr ⟨error, .later suits unsuited⟩
      · obtain ⟨spec, notSuited⟩ := Classical.not_forall.mp suits
        obtain ⟨known, objects⟩ := Classical.not_imp.mp notSuited
        obtain ⟨reason, objection⟩ := Option.ne_none_iff_exists'.mp objects
        exact .inr ⟨_, .here known objection⟩

theorem updateBody_of_unsuited {changes : List FieldChange} {error : PassError}
    (unsuited : schema.Unsuited changes error) (request : Attributes) :
    schema.updateBody changes request = .error error := by
  induction unsuited generalizing request with
  | here known objection =>
      simp only [updateBody, known, FieldSpec.write, FieldSpec.check, objection, name_of_field? known]
  | @later change rest error fits _ ih =>
      rw [updateBody]
      cases found : schema.field? change.field with
      | none => exact ih _
      | some spec =>
          simp only [FieldSpec.write, FieldSpec.check_ok (fits spec found)]
          exact ih _

end Schema

end DesiredState
