import DesiredState.Proofs.Json.Reading
import DesiredState.Proofs.Value.Arrangement

/-!
# Values parsed back

A value is parsed back if its text is read as the value with all fields in ascending order. Then the parts
of the value are parsed back as well, and the value is legible.
-/

set_option autoImplicit false

namespace DesiredState

open Json

namespace Value

/-- The text of the value is read as the value itself, with the fields of its objects in order. -/
def ParsesBack (value : Value) : Prop := ofJson? value.pretty = some value.inOrder

/-- The value is parsed back where lists and objects may be nested to a depth. -/
def ParsesAt (depth : Nat) (value : Value) : Prop := Draft.valueTo? depth value.draft = some value.inOrder

instance (depth : Nat) (value : Value) : Decidable (value.ParsesAt depth) :=
  inferInstanceAs (Decidable (Draft.valueTo? depth value.draft = some value.inOrder))

theorem parsesBack_iff {value : Value} : value.ParsesBack ↔ value.ParsesAt maxDepth := by
  rw [ParsesBack, ofJson?, ofText?_pretty, Option.bind_some, ParsesAt]

theorem ParsesBack.legible {value : Value} (parses : value.ParsesBack) : value.inOrder.Legible maxDepth := by
  have read : ofJsonAs? .whole value.pretty = some value.inOrder := by
    rw [ofJsonAs?, ofText?_pretty, Option.bind_some, Draft.valueAs?_whole]
    exact parsesBack_iff.mp parses
  exact legible_of_ofJsonAs? read

variable {depth : Nat}

theorem ParsesAt.item {items : List Value} (parses : (Value.list items).ParsesAt (depth + 1)) {item : Value}
    (member : item ∈ items) : item.ParsesAt depth := by
  rw [ParsesAt, draft, draftItems_eq, Draft.valueTo?, inOrder, arranged, arrangedItems_eq] at parses
  obtain ⟨results, areRead, same⟩ := Option.map_eq_some_iff.mp parses
  cases same
  rw [mapM_eq_some_iff, List.forall₂_map_left_iff, List.forall₂_map_right_iff] at areRead
  exact List.forall₂_same.mp areRead item member

theorem ParsesAt.field {fields : List (String × Value)} (parses : (Value.object fields).ParsesAt (depth + 1))
    (key : String) (distinct : (fields.map (·.1)).Nodup) {value : Value} (member : (key, value) ∈ fields) :
    value.ParsesAt depth := by
  rw [ParsesAt, draft, draftFields_eq, Draft.valueTo?, inOrder, arranged] at parses
  obtain ⟨results, areRead, same⟩ := Option.bind_eq_some_iff.mp parses
  have sorted : Entries.sorted results = Entries.sorted (arrangedFields Entries.sorted fields) :=
    Value.object.inj (Option.some.inj same)
  rw [List.mapM_map] at areRead
  have readField : ∀ {field result : String × Value}, (Draft.valueTo? depth field.2.draft).bind
      (fun value => some (field.1, value)) = some result →
        result.1 = field.1 ∧ Draft.valueTo? depth field.2.draft = some result.2 := by
    intro field result isRead
    obtain ⟨value, isValue, isField⟩ := Option.bind_eq_some_iff.mp isRead
    cases isField
    exact ⟨rfl, isValue⟩
  have keys : results.map (·.1) = fields.map (·.1) := by
    rw [← List.forall₂_eq_eq_eq, List.forall₂_map_left_iff, List.forall₂_map_right_iff]
    exact ((mapM_eq_some_iff.mp areRead).imp fun _ _ isRead => (readField isRead).1).flip
  obtain ⟨⟨other, result⟩, inResults, isRead⟩ := exists_of_mapM areRead member
  obtain ⟨sameKey, isValue⟩ := readField isRead
  obtain rfl : key = other := sameKey.symm
  have found : some result = some value.inOrder := by
    calc some result
      _ = Entries.find? key results := (Entries.find?_of_mem (keys ▸ distinct) inResults).symm
      _ = Entries.find? key (arrangedFields Entries.sorted fields) := by
        rw [← Entries.find?_sorted (keys ▸ distinct), sorted,
          Entries.find?_sorted (by rwa [keys_arrangedFields])]
      _ = some value.inOrder := by
        rw [find?_arrangedFields, Entries.find?_of_mem distinct member]
        rfl
  exact isValue.trans found

end Value

end DesiredState
