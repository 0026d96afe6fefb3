import DesiredState.Codec.Event
import DesiredState.Proofs.Json.Shaped
import DesiredState.Proofs.Timestamp

/-!
# Events written and read

An event record whose numbers have 64 bits is read back from its written form.
-/

set_option autoImplicit false

namespace DesiredState

open Json

theorem EventStatus.ofValue?_toValue (status : EventStatus) : ofValue? status.toValue = some status := by
  cases status <;> rfl

theorem Timestamp.ofValue?_toValue (time : Timestamp) : ofValue? time.toValue = some time := by
  rw [toValue, ofValue?, Value.string?, Option.bind_eq_bind, Option.bind_some]
  exact time.ofText?_text

namespace EventRecord

/-- The numbers of a record have 64 bits. -/
def FitsWord (record : EventRecord) : Prop :=
  record.id < Number.wordLimit ∧ record.entityId < Number.wordLimit

instance (record : EventRecord) : Decidable record.FitsWord :=
  inferInstanceAs (Decidable (record.id < Number.wordLimit ∧ record.entityId < Number.wordLimit))

/-- What is written of a record is read as it is, apart from the order of its fields. -/
theorem valueAs?_toValue (record : EventRecord) (fits : record.FitsWord) (depth : Nat) :
    ∃ value, Draft.valueAs? (depth + 1) shape record.toValue.draft = some value ∧ ofValue? value = some record := by
  refine ⟨_, Draft.valueAs?_record (by simp) (List.forall₂_same.mpr ?_), ?_⟩
  · simp only [List.forall_mem_cons]
    refine ⟨⟨rfl, .whole, rfl, ?_⟩, ⟨rfl, .whole, rfl, ?_⟩, ⟨rfl, .whole, rfl, ?_⟩, ⟨rfl, .whole, rfl, ?_⟩,
      ⟨rfl, .name, rfl, ?_⟩, ⟨rfl, .whole, rfl, ?_⟩, fun _ member => nomatch member⟩
    · exact Draft.valueAs?_ofNat _ fits.1
    · exact Draft.valueAs?_string _ _
    · exact Draft.valueAs?_ofNat _ fits.2
    · exact Draft.valueAs?_string _ _
    · exact Draft.valueAs?_string _ _
    · exact Draft.valueAs?_string _ _
  · rw [ofValue?, Value.components?, Option.bind_eq_bind, Option.bind_some, Value.required?_sorted (by simp),
      Value.required?_sorted (by simp), Value.required?_sorted (by simp), Value.required?_sorted (by simp),
      Value.required?_sorted (by simp), Value.required?_sorted (by simp)]
    simp [Value.required?, Entries.find?_cons, EventStatus.ofValue?_toValue, Timestamp.ofValue?_toValue,
      Value.nat?_ofNat, Value.string?]

end EventRecord

end DesiredState
