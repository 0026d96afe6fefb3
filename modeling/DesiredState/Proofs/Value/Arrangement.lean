import DesiredState.Codec.Record
import DesiredState.Proofs.Value.Tree

/-!
# Fields in another order

Records are read by the names of their components, so that it does not matter in which order the fields of
the objects in a value stand, as long as the same is found under every name. The fields can stand as they
were written or in ascending order, as a value keeps them.
-/

set_option autoImplicit false

namespace DesiredState

/-- An order of fields in which the same is found as before, if every name is there once. -/
structure Entries.KeepsFound (order : List (String × Value) → List (String × Value)) : Prop where
  distinct : ∀ fields, (fields.map (·.1)).Nodup → ((order fields).map (·.1)).Nodup
  found : ∀ fields, (fields.map (·.1)).Nodup → ∀ key, find? key (order fields) = find? key fields

theorem Entries.keepsFound_id : KeepsFound id := ⟨fun _ distinct => distinct, fun _ _ _ => rfl⟩

theorem Entries.keepsFound_sorted : KeepsFound sorted :=
  ⟨fun fields _ => (ascending_sorted fields).nodup_keys, fun _ distinct key => find?_sorted distinct key⟩

namespace Value

mutual

/-- The value with the fields of every object in it put in some order. -/
def arranged (order : List (String × Value) → List (String × Value)) : Value → Value
  | .null => .null
  | .bool value => .bool value
  | .number value => .number value
  | .string text => .string text
  | .list items => .list (arrangedItems order items)
  | .object fields => .object (order (arrangedFields order fields))

def arrangedItems (order : List (String × Value) → List (String × Value)) : List Value → List Value
  | [] => []
  | item :: rest => arranged order item :: arrangedItems order rest

def arrangedFields (order : List (String × Value) → List (String × Value)) :
    List (String × Value) → List (String × Value)
  | [] => []
  | (key, value) :: rest => (key, arranged order value) :: arrangedFields order rest

end

/-- The value with the fields of every object in it in ascending order. -/
def inOrder (value : Value) : Value := value.arranged Entries.sorted

variable {order : List (String × Value) → List (String × Value)}

theorem arrangedItems_eq (items : List Value) : arrangedItems order items = items.map (arranged order) := by
  induction items with
  | nil => rfl
  | cons item rest ih => rw [arrangedItems, ih, List.map_cons]

private theorem arrangedFields_eq (fields : List (String × Value)) :
    arrangedFields order fields = fields.map fun field => (field.1, field.2.arranged order) := by
  induction fields with
  | nil => rfl
  | cons field rest ih => rw [arrangedFields, ih, List.map_cons]

theorem keys_arrangedFields (fields : List (String × Value)) :
    (arrangedFields order fields).map (·.1) = fields.map (·.1) := by
  rw [arrangedFields_eq, List.map_map]
  rfl

theorem find?_arrangedFields (fields : List (String × Value)) (key : String) :
    Entries.find? key (arrangedFields order fields) = (Entries.find? key fields).map (arranged order) := by
  induction fields with
  | nil => rfl
  | cons field rest ih =>
      rw [arrangedFields, Entries.find?_cons, Entries.find?_cons, ih]
      split <;> rfl

/-! ## Values that stay as they are -/

private theorem arrangedItems_eq_self {items : List Value}
    (each : ∀ item ∈ items, item.arranged order = item) :
    arrangedItems order items = items := by
  rw [arrangedItems_eq, List.map_congr_left each, List.map_id']

private theorem arrangedFields_eq_self {fields : List (String × Value)}
    (each : ∀ field ∈ fields, field.2.arranged order = field.2) : arrangedFields order fields = fields := by
  rw [arrangedFields_eq]
  refine (List.map_congr_left fun field member => ?_).trans (List.map_id' fields)
  exact Prod.ext rfl (each field member)

theorem arranged_id (value : Value) : value.arranged id = value := by
  induction value using Value.induction with
  | null | bool _ | number _ | string _ => rfl
  | list items each => rw [arranged, arrangedItems_eq_self each]
  | object fields each => rw [arranged, arrangedFields_eq_self each, id]

theorem Ordered.inOrder_eq {value : Value} (ordered : value.Ordered) : value.inOrder = value := by
  rw [inOrder]
  induction ordered with
  | null | bool | number | string => rfl
  | list _ each => rw [arranged, arrangedItems_eq_self each]
  | object ascending _ each =>
      rw [arranged, arrangedFields_eq_self each]
      exact congrArg (fun map => Value.object map.entries) (SortedMap.ofList_entries ⟨_, ascending⟩)

/-! ## Components of records -/

section Components

variable {α : Type} {fields : List (String × Value)}

@[simp] theorem components?_object (names : List String) : (object fields).components? names = some fields := rfl

@[simp] theorem required?_cons (field : String × Value) (name : String) (read : Value → Option α) :
    required? (field :: fields) name read = if field.1 = name then read field.2 else required? fields name read := by
  rw [required?, Entries.find?_cons]
  by_cases same : field.1 = name
  · rw [if_pos same, if_pos same]
  · rw [if_neg same, if_neg same, required?]

@[simp] theorem defaulted?_nil (name : String) (default : α) (read : Value → Option α) :
    defaulted? [] name default read = some default := rfl

@[simp] theorem defaulted?_cons (field : String × Value) (name : String) (default : α) (read : Value → Option α) :
    defaulted? (field :: fields) name default read =
      if field.1 = name then read field.2 else defaulted? fields name default read := by
  rw [defaulted?, Entries.find?_cons]
  by_cases same : field.1 = name
  · rw [if_pos same, if_pos same]
  · rw [if_neg same, if_neg same, defaulted?]

@[simp] theorem arranged_object (fields : List (String × Value)) :
    (object fields).arranged order = .object (order (arrangedFields order fields)) := rfl

theorem required?_arranged (keeps : Entries.KeepsFound order) (distinct : (fields.map (·.1)).Nodup)
    (name : String) (read : Value → Option α) :
    required? (order (arrangedFields order fields)) name read =
      required? fields name fun value => read (value.arranged order) := by
  rw [required?, keeps.found _ (by rwa [keys_arrangedFields]), find?_arrangedFields, required?]
  cases Entries.find? name fields <;> rfl

theorem defaulted?_arranged (keeps : Entries.KeepsFound order) (distinct : (fields.map (·.1)).Nodup)
    (name : String) (default : α) (read : Value → Option α) :
    defaulted? (order (arrangedFields order fields)) name default read =
      defaulted? fields name default fun value => read (value.arranged order) := by
  rw [defaulted?, keeps.found _ (by rwa [keys_arrangedFields]), find?_arrangedFields, defaulted?]
  cases Entries.find? name fields <;> rfl

@[simp] theorem string?_arranged (text : String) : ((string text).arranged order).string? = some text := rfl

@[simp] theorem nat?_arranged (number : Nat) : ((ofNat number).arranged order).nat? = some number := rfl

@[simp] theorem bool?_arranged (truth : Bool) : ((bool truth).arranged order).bool? = some truth := rfl

/-- Attributes are the same again if their values stay as they are. -/
theorem attributes?_arranged (keeps : Entries.KeepsFound order) {attributes : Attributes}
    (each : ∀ entry ∈ attributes.entries, entry.2.arranged order = entry.2) :
    ((ofAttributes attributes).arranged order).attributes? = some attributes := by
  have distinct := attributes.ascending.nodup_keys
  rw [ofAttributes, arranged, arrangedFields_eq_self each, attributes?]
  refine congrArg some (SortedMap.ext_find? fun key => ?_)
  rw [SortedMap.find?, SortedMap.ofList, Entries.find?_sorted (keeps.distinct _ distinct), keeps.found _ distinct,
    SortedMap.find?]

/-- A list is read item by item. -/
theorem items?_arranged {toValue : α → Value} {ofValue? : Value → Option α} {items : List α}
    (each : ∀ item ∈ items, ofValue? ((toValue item).arranged order) = some item) :
    items? ofValue? ((Value.list (items.map toValue)).arranged order) = some items := by
  rw [arranged, arrangedItems_eq, items?, mapM_eq_some_iff, List.forall₂_map_left_iff, List.forall₂_map_left_iff]
  exact List.forall₂_same.mpr each

end Components

end Value

end DesiredState
