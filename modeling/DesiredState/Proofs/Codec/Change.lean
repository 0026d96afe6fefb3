import DesiredState.Proofs.Codec.Persisted
import DesiredState.Proofs.Diff.Least

/-!
# What is left of a change

A change that a difference finds is read back from its value as it was, unless the object reported null for
the field. Null is also what is written for a field that was not reported, and so the old value is gone, and
the change is shown in another way.
-/

set_option autoImplicit false

namespace DesiredState

open Entries

namespace FieldChange

/-- The change without an old value that is null. -/
def reread (change : FieldChange) : FieldChange :=
  { change with old := change.old.filter fun value => !value.isNull }

private theorem reread_eq_self {change : FieldChange} (reported : change.old ≠ some .null) :
    change.reread = change := by
  obtain ⟨field, old, new⟩ := change
  cases old with
  | none => rfl
  | some value =>
      have notNull : value.isNull = false := by
        cases value <;> first | rfl | exact absurd rfl reported
      simp [reread, notNull]

private theorem reread_of_null {change : FieldChange} (reported : change.old = some .null) :
    change.reread = { change with old := none } := by
  rw [reread, reported]
  rfl

private theorem nullable?_getD (old : Option Value) :
    Value.nullable? some (old.getD .null) = some (old.filter fun value => !value.isNull) := by
  cases old with
  | none => rfl
  | some value => cases value <;> rfl

private theorem ofValue?_arranged {order : List (String × Value) → List (String × Value)}
    (keeps : KeepsFound order)
    {change : FieldChange} (old : ∀ value ∈ change.old, value.arranged order = value)
    (new : change.new.arranged order = change.new) :
    ofValue? (change.toValue.arranged order) = some change.reread := by
  have oldInPlace : (change.old.getD .null).arranged order = change.old.getD .null := by
    cases isOld : change.old with
    | none => rfl
    | some value => exact old value isOld
  simp [toValue, ofValue?, Value.required?_arranged keeps, Value.defaulted?_arranged keeps, oldInPlace,
    nullable?_getD, new, reread]

/-- A null that was reported is not shown like a field that was not. -/
theorem text_ne (change : FieldChange) :
    text { change with old := none } ≠ text { change with old := some .null } := by
  intro same
  simp [text, Value.compact, String.append_assoc] at same

/-- Every change that a difference finds is read back with the field, the new value and the old value,
unless that is null. A null is forgotten, though the value is the same that a null of the object would
give. -/
theorem reread_of_diff (schema : Schema) (remote : RemoteObject) (desired : Attributes)
    (policy : MutabilityPolicy) (changes : List FieldChange)
    (differs : schema.diff remote desired policy = .ok changes) :
    ∀ change ∈ changes,
      ofValue? change.toValue = some change.reread ∧
      (remote.attributes.Ordered → desired.Ordered → ofValue? change.toValue.inOrder = some change.reread) ∧
      (remote.get? change.field ≠ some .null → change.reread = change) ∧
      (remote.get? change.field = some .null →
        change.reread = { change with old := none } ∧ change.reread ≠ change ∧
          change.reread.toValue = change.toValue ∧ change.reread.text ≠ change.text) := by
  intro change member
  have isOld : change.old = remote.get? change.field := (Schema.changeOf_of_mem differs member).old
  rw [← isOld]
  refine ⟨?_, ?_, reread_eq_self, ?_⟩
  · have read := ofValue?_arranged keepsFound_id (fun value _ => value.arranged_id) change.new.arranged_id
    rwa [Value.arranged_id] at read
  · intro ordered desiredOrdered
    refine ofValue?_arranged keepsFound_sorted (fun value isValue => ?_) ?_
    · exact ordered.standIn (change.field, value) (mem_of_find? (isOld.symm.trans isValue))
    · exact desiredOrdered.standIn (change.field, change.new) (mem_of_find? (Schema.desired_of_change differs member))
  · intro isNull
    have same : { change with old := some .null } = change := by rw [← isNull]
    have apart := text_ne change
    rw [same] at apart
    rw [reread_of_null isNull]
    refine ⟨rfl, fun unchanged => apart (congrArg text unchanged), ?_, apart⟩
    rw [toValue, toValue, isNull]
    rfl

/-- An instance whose group was cleared by an update, and what is desired of it next. -/
def clearedInstance : RemoteObject × Attributes :=
  (StoreState.withFields ((∅ : Attributes).insert "group" .null) Schema.regroupedInstance.1,
    ((∅ : Attributes).insert "label" (.string "b")).insert "group" (.string "web"))

/-- The group of a cleared instance is read back as one that was not reported. -/
theorem not_always_reread :
    ∃ changes, Catalog.computeInstance.diff clearedInstance.1 clearedInstance.2
        Catalog.computeInstance.mutabilityPolicy = .ok changes ∧
      ∃ change ∈ changes, change.old = some .null ∧ ofValue? change.toValue = some { change with old := none } ∧
        ofValue? change.toValue ≠ some change :=
  ⟨_, rfl, ⟨"group", some .null, .string "web"⟩, by decide, rfl, by decide, by decide⟩

theorem reread_of_diff_clearedInstance :
    ∃ group label, Catalog.computeInstance.diff clearedInstance.1 clearedInstance.2
        Catalog.computeInstance.mutabilityPolicy = .ok [group, label] ∧
      group.reread.old = none ∧ group.reread.text = "group: (unset) -> \"web\"" ∧
      group.text = "group: null -> \"web\"" ∧ group.reread.toValue = group.toValue ∧
      ofValue? label.toValue.inOrder = some label := by
  have each := reread_of_diff Catalog.computeInstance clearedInstance.1 clearedInstance.2
    Catalog.computeInstance.mutabilityPolicy _ rfl
  obtain ⟨_, _, _, forgotten⟩ := each _ List.mem_cons_self
  obtain ⟨isForgotten, _, sameValue, _⟩ := forgotten rfl
  obtain ⟨_, inOrder, kept, _⟩ := each _ (List.mem_cons_of_mem _ List.mem_cons_self)
  have ordered : clearedInstance.1.attributes.Ordered := by
    refine .object (SortedMap.ascending _) fun field inside => ?_
    rcases List.mem_pair.mp inside with rfl | rfl
    · exact .null
    · exact .string
  have desiredOrdered : clearedInstance.2.Ordered := by
    refine .object (SortedMap.ascending _) fun field inside => ?_
    rcases List.mem_pair.mp inside with rfl | rfl
    · exact .string
    · exact .string
  have labelKept := inOrder ordered desiredOrdered
  rw [kept (by decide)] at labelKept
  exact ⟨_, _, rfl, congrArg FieldChange.old isForgotten, by decide, by decide, sameValue, labelKept⟩

end FieldChange

end DesiredState
