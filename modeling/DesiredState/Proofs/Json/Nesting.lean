import DesiredState.Proofs.Json.Shaped
import DesiredState.Proofs.Number.Reread

/-!
# Values that can be read again

The text of a value is read as some value if its lists and objects are not nested too deep and its
numbers are such as a value can hold.
-/

set_option autoImplicit false

namespace DesiredState

open Json

namespace Value

mutual

/-- How deep the lists and objects in a value are nested. -/
def nesting : Value → Nat
  | .null | .bool _ | .number _ | .string _ => 0
  | .list items => nestingItems items + 1
  | .object fields => nestingFields fields + 1

def nestingItems : List Value → Nat
  | [] => 0
  | item :: rest => max (nesting item) (nestingItems rest)

def nestingFields : List (String × Value) → Nat
  | [] => 0
  | (_, value) :: rest => max (nesting value) (nestingFields rest)

end

mutual

/-- The numbers in a value. -/
def numbers : Value → List Number
  | .null | .bool _ | .string _ => []
  | .number value => [value]
  | .list items => numbersOfItems items
  | .object fields => numbersOfFields fields

def numbersOfItems : List Value → List Number
  | [] => []
  | item :: rest => numbers item ++ numbersOfItems rest

def numbersOfFields : List (String × Value) → List Number
  | [] => []
  | (_, value) :: rest => numbers value ++ numbersOfFields rest

end

private theorem nestingItems_le_iff {items : List Value} {depth : Nat} :
    nestingItems items ≤ depth ↔ ∀ item ∈ items, item.nesting ≤ depth := by
  induction items with
  | nil => simp [nestingItems]
  | cons item rest ih => rw [nestingItems, Nat.max_le, ih, List.forall_mem_cons]

private theorem nestingFields_le_iff {fields : List (String × Value)} {depth : Nat} :
    nestingFields fields ≤ depth ↔ ∀ field ∈ fields, field.2.nesting ≤ depth := by
  induction fields with
  | nil => simp [nestingFields]
  | cons field rest ih => rw [nestingFields, Nat.max_le, ih, List.forall_mem_cons]

theorem mem_numbersOfItems {items : List Value} {number : Number} :
    number ∈ numbersOfItems items ↔ ∃ item ∈ items, number ∈ item.numbers := by
  induction items with
  | nil => simp [numbersOfItems]
  | cons item rest ih => simp [numbersOfItems, ih]

theorem mem_numbersOfFields {fields : List (String × Value)} {number : Number} :
    number ∈ numbersOfFields fields ↔ ∃ field ∈ fields, number ∈ field.2.numbers := by
  induction fields with
  | nil => simp [numbersOfFields]
  | cons field rest ih => simp [numbersOfFields, ih]

/-- A value is legible at a depth if its text can be read where lists and objects may be nested so deep. -/
structure Legible (depth : Nat) (value : Value) : Prop where
  shallow : value.nesting ≤ depth
  numbers : ∀ number ∈ value.numbers, number.FitsWord

instance (depth : Nat) (value : Value) : Decidable (value.Legible depth) :=
  decidable_of_iff (value.nesting ≤ depth ∧ ∀ number ∈ value.numbers, number.FitsWord)
    ⟨fun ⟨shallow, numbers⟩ => ⟨shallow, numbers⟩, fun ⟨shallow, numbers⟩ => ⟨shallow, numbers⟩⟩

/-- The items of a list that is legible are legible one level deeper. -/
theorem legible_list_iff {items : List Value} {depth : Nat} : (Value.list items).Legible depth ↔
    ∃ less, depth = less + 1 ∧ ∀ item ∈ items, item.Legible less := by
  constructor
  · rintro ⟨shallow, fit⟩
    rw [nesting] at shallow
    rw [Value.numbers] at fit
    obtain ⟨less, rfl⟩ : ∃ less, depth = less + 1 := ⟨depth - 1, by omega⟩
    refine ⟨less, rfl, fun item member => ⟨nestingItems_le_iff.mp (by omega) item member, ?_⟩⟩
    exact fun number inside => fit number (mem_numbersOfItems.mpr ⟨item, member, inside⟩)
  · rintro ⟨less, rfl, each⟩
    constructor
    · rw [nesting]
      exact Nat.succ_le_succ (nestingItems_le_iff.mpr fun item member => (each item member).shallow)
    · intro number inside
      rw [Value.numbers, mem_numbersOfItems] at inside
      obtain ⟨item, member, inItem⟩ := inside
      exact (each item member).numbers number inItem

theorem legible_object_iff {fields : List (String × Value)} {depth : Nat} :
    (Value.object fields).Legible depth ↔
      ∃ less, depth = less + 1 ∧ ∀ field ∈ fields, field.2.Legible less := by
  constructor
  · rintro ⟨shallow, fit⟩
    rw [nesting] at shallow
    rw [Value.numbers] at fit
    obtain ⟨less, rfl⟩ : ∃ less, depth = less + 1 := ⟨depth - 1, by omega⟩
    refine ⟨less, rfl, fun field member => ⟨nestingFields_le_iff.mp (by omega) field member, ?_⟩⟩
    exact fun number inside => fit number (mem_numbersOfFields.mpr ⟨field, member, inside⟩)
  · rintro ⟨less, rfl, each⟩
    constructor
    · rw [nesting]
      exact Nat.succ_le_succ (nestingFields_le_iff.mpr fun field member => (each field member).shallow)
    · intro number inside
      rw [Value.numbers, mem_numbersOfFields] at inside
      obtain ⟨field, member, inField⟩ := inside
      exact (each field member).numbers number inField

theorem legible_number_iff {number : Number} {depth : Nat} :
    (Value.number number).Legible depth ↔ number.FitsWord := by
  constructor
  · intro legible
    refine legible.numbers number ?_
    rw [numbers]
    exact List.mem_cons_self
  · intro fits
    constructor
    · rw [nesting]
      exact Nat.zero_le depth
    · intro other inside
      rw [numbers, List.mem_singleton] at inside
      exact inside ▸ fits

theorem isSome_valueTo? (value : Value) {depth : Nat} (legible : value.Legible depth) :
    (Draft.valueTo? depth value.draft).isSome = true := by
  induction value using Value.induction generalizing depth with
  | null | bool value | string text => cases depth <;> rfl
  | number number =>
      have read := Number.isSome_reread? (legible_number_iff.mp legible)
      obtain ⟨again, isAgain⟩ := Option.isSome_iff_exists.mp read
      rw [draft, isAgain]
      cases depth <;> rfl
  | list items each =>
      obtain ⟨less, rfl, inside⟩ := legible_list_iff.mp legible
      have all : (items.mapM fun item => Draft.valueTo? less item.draft).isSome = true :=
        isSome_mapM fun item member => each item member (inside item member)
      rw [draft, draftItems_eq, Draft.valueTo?, Option.isSome_map, List.mapM_map]
      exact all
  | object fields each =>
      obtain ⟨less, rfl, inside⟩ := legible_object_iff.mp legible
      have all : (fields.mapM fun field => (Draft.valueTo? less field.2.draft).map fun value =>
          (field.1, value)).isSome = true := by
        refine isSome_mapM fun field member => ?_
        rw [Option.isSome_map]
        exact each field member (inside field member)
      obtain ⟨read, isRead⟩ := Option.isSome_iff_exists.mp all
      have fieldsRead : Draft.valueTo? (less + 1) (.object (Value.draftFields fields)) =
          some (.object (Entries.sorted read)) := by
        rw [Draft.valueTo?]
        refine Option.bind_eq_some_iff.mpr ⟨read, mapM_eq_some_iff.mpr ?_, rfl⟩
        rw [draftFields_eq, List.forall₂_map_left_iff]
        refine (mapM_eq_some_iff.mp isRead).imp fun field result isField => ?_
        obtain ⟨value, isValue, rfl⟩ := Option.map_eq_some_iff.mp isField
        dsimp only
        rw [isValue]
        rfl
      rw [draft, fieldsRead]
      rfl

end Value

end DesiredState
