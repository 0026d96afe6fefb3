import DesiredState.Proofs.Json.Reading
import DesiredState.Proofs.Store.Document
import DesiredState.Proofs.Store.Encoding

/-!
# What is loaded

A state that was loaded from a document has numbers of 64 bits, and neither its references nor its
attributes are nested too deep for a text. So it can be saved and loaded again.
-/

set_option autoImplicit false

namespace DesiredState

namespace Value

variable {α : Type} {fields : List (String × Value)} {name : String} {read : Value → Option α} {result : α}

private theorem required?_eq_some (found : required? fields name read = some result) :
    ∃ value, (name, value) ∈ fields ∧ read value = some result := by
  unfold required? at found
  split at found
  · rename_i value isValue
    exact ⟨value, Entries.mem_of_find? isValue, found⟩
  · cases found

private theorem defaulted?_eq_some {default : α} (found : defaulted? fields name default read = some result) :
    result = default ∨ ∃ value, (name, value) ∈ fields ∧ read value = some result := by
  unfold defaulted? at found
  split at found
  · rename_i value isValue
    exact .inr ⟨value, Entries.mem_of_find? isValue, found⟩
  · exact .inl (Option.some.inj found).symm

private theorem items?_eq_some {value : Value} {results : List α} (found : items? read value = some results) :
    ∃ items, value = .list items ∧ items.mapM read = some results := by
  cases value with
  | list items => exact ⟨items, rfl, found⟩
  | null | bool _ | number _ | string _ | object _ => cases found

private theorem nullable?_eq_some {value : Value} {found : Option α}
    (isFound : nullable? read value = some found) :
    ∀ result ∈ found, read value = some result := by
  rintro result rfl
  cases value with
  | null => cases isFound
  | bool _ | number _ | string _ | list _ | object _ =>
      obtain ⟨other, isRead, same⟩ := Option.map_eq_some_iff.mp isFound
      cases same
      exact isRead

private theorem nat?_eq_some {value : Value} {number : Nat} (found : value.nat? = some number) :
    value = .ofNat number := by
  unfold nat? at found
  split at found
  · cases found
    rfl
  · cases found

/-- The components of a legible record are legible one level deeper. -/
theorem Legible.components {value : Value} {depth : Nat} (legible : value.Legible depth) {names : List String}
    (found : value.components? names = some fields) :
    ∃ less, depth = less + 1 ∧ ∀ field ∈ fields, field.2.Legible less := by
  cases value with
  | object entries =>
      cases found
      exact legible_object_iff.mp legible
  | list items =>
      rw [components?] at found
      split at found
      · cases found
        obtain ⟨less, isDepth, each⟩ := legible_list_iff.mp legible
        exact ⟨less, isDepth, fun field member => each field.2 (List.of_mem_zip member).2⟩
      · cases found
  | null | bool _ | number _ | string _ => cases found

private theorem Legible.nat_lt {value : Value} {depth number : Nat} (legible : value.Legible depth)
    (isNumber : value.nat? = some number) : number < Number.wordLimit := by
  rw [nat?_eq_some isNumber, ofNat, legible_number_iff] at legible
  have fits : Number.fitsWord number = true := legible
  rw [Number.fitsWord, Bool.and_eq_true, decide_eq_true_iff, decide_eq_true_iff] at fits
  omega

private theorem Legible.attributes {value : Value} {depth : Nat} (legible : value.Legible depth)
    {attributes : Attributes}
    (isRead : value.attributes? = some attributes) : (ofAttributes attributes).Legible depth := by
  cases value with
  | object fields =>
      cases isRead
      obtain ⟨less, isDepth, each⟩ := legible_object_iff.mp legible
      exact legible_object_iff.mpr ⟨less, isDepth, fun field member => each field (Entries.mem_of_mem_sorted member)⟩
  | null | bool _ | number _ | string _ | list _ => cases isRead

end Value

/-! ## References -/

namespace ResourceRef

theorem fitsWord_under {parent : Option ResourceRef} {kind : String} {id : Nat} (fits : id < Number.wordLimit)
    (parentFits : ∀ reference ∈ parent, reference.FitsWord) : (under parent kind id).FitsWord := by
  cases parent with
  | none => exact fits
  | some reference => exact ⟨fits, parentFits reference rfl⟩

theorem levels_under {parent : Option ResourceRef} {kind : String} {id depth : Nat}
    (shallow : ∀ reference ∈ parent, reference.levels ≤ depth) : (under parent kind id).levels ≤ depth + 1 := by
  cases parent with
  | none => exact Nat.le_add_left 1 depth
  | some reference => exact Nat.succ_le_succ (shallow reference rfl)

private theorem levels_pos (reference : ResourceRef) : 0 < reference.levels := by
  cases reference with
  | top kind id => exact Nat.one_pos
  | child parent kind id => exact Nat.succ_pos _

/-- A reference is nested no deeper than the value that it was read from. -/
theorem bounded_of_ofValue? (value : Value) {reference : ResourceRef} (isRead : ofValue? value = some reference)
    {depth : Nat} (legible : value.Legible depth) : reference.FitsWord ∧ reference.levels ≤ depth := by
  induction value using Value.induction generalizing reference depth with
  | null | bool value | number number | string text => cases isRead
  | list items each =>
      obtain ⟨less, rfl, inside⟩ := Value.legible_list_iff.mp legible
      unfold ofValue? at isRead
      split at isRead
      · rename_i impossible
        cases impossible
      · rename_i kind id isList
        cases isList
        obtain ⟨number, isNumber, rfl⟩ := Option.map_eq_some_iff.mp isRead
        exact ⟨(inside id (by simp)).nat_lt isNumber, Nat.le_add_left 1 less⟩
      · rename_i kind id parent isList
        cases isList
        have parentInside : parent ∈ [.string kind, id, parent] := by simp
        split at isRead
        · rename_i number isNumber
          cases isRead
          exact ⟨(inside id (by simp)).nat_lt isNumber, Nat.le_add_left 1 less⟩
        · rename_i parent _ _ _ number above isNumber _ isAbove
          cases isRead
          obtain ⟨fits, shallow⟩ := each parent parentInside isAbove (inside parent parentInside)
          exact ⟨⟨(inside id (by simp)).nat_lt isNumber, fits⟩, Nat.succ_le_succ shallow⟩
        · cases isRead
      · cases isRead
  | object fields each =>
      obtain ⟨less, rfl, inside⟩ := Value.legible_object_iff.mp legible
      rw [ofValue?] at isRead
      split at isRead
      · rename_i kind id parent isKind isId isParent
        cases isRead
        obtain ⟨number, isField, isNumber⟩ := Value.required?_eq_some isId
        have fits := (inside _ isField).nat_lt isNumber
        have parentBounded : ∀ reference ∈ parent, reference.FitsWord ∧ reference.levels ≤ less := by
          rintro above rfl
          rw [parentOfFields?_eq] at isParent
          rcases Value.defaulted?_eq_some isParent with absent | ⟨value, isField, isValue⟩
          · cases absent
          · exact each _ isField (Value.nullable?_eq_some isValue above rfl) (inside _ isField)
        exact ⟨fitsWord_under fits fun above isAbove => (parentBounded above isAbove).1,
          levels_under fun above isAbove => (parentBounded above isAbove).2⟩
      · cases isRead

end ResourceRef

/-! ## Objects and events -/

private theorem RemoteObject.bounded_of_ofValue? {value : Value} {object : RemoteObject}
    (isRead : ofValue? value = some object) {depth : Nat} (legible : value.Legible (depth + 1)) :
    (object.reference.FitsWord ∧ object.reference.levels ≤ depth) ∧
      (Value.ofAttributes object.attributes).Legible depth := by
  obtain ⟨fields, areFields, isRead⟩ := Option.bind_eq_some_iff.mp isRead
  obtain ⟨reference, isReference, isRead⟩ := Option.bind_eq_some_iff.mp isRead
  obtain ⟨attributes, areAttributes, isRead⟩ := Option.bind_eq_some_iff.mp isRead
  cases isRead
  obtain ⟨less, isDepth, inside⟩ := legible.components areFields
  cases isDepth
  obtain ⟨referenceValue, isField, referenceRead⟩ := Value.required?_eq_some isReference
  have bounded := ResourceRef.bounded_of_ofValue? referenceValue referenceRead (inside _ isField)
  refine ⟨bounded, ?_⟩
  rcases Value.defaulted?_eq_some areAttributes with rfl | ⟨attributesValue, isField, attributesRead⟩
  · obtain ⟨less, rfl⟩ := Nat.exists_eq_add_one.mpr (Nat.lt_of_lt_of_le reference.levels_pos bounded.2)
    exact Value.legible_object_iff.mpr ⟨less, rfl, nofun⟩
  · exact (inside _ isField).attributes attributesRead

private theorem EventRecord.fitsWord_of_ofValue? {value : Value} {record : EventRecord}
    (isRead : ofValue? value = some record)
    {depth : Nat} (legible : value.Legible depth) : record.FitsWord := by
  obtain ⟨fields, areFields, isRead⟩ := Option.bind_eq_some_iff.mp isRead
  obtain ⟨id, isId, isRead⟩ := Option.bind_eq_some_iff.mp isRead
  obtain ⟨entityType, _, isRead⟩ := Option.bind_eq_some_iff.mp isRead
  obtain ⟨entityId, isEntityId, isRead⟩ := Option.bind_eq_some_iff.mp isRead
  obtain ⟨action, _, isRead⟩ := Option.bind_eq_some_iff.mp isRead
  obtain ⟨status, _, isRead⟩ := Option.bind_eq_some_iff.mp isRead
  obtain ⟨createdAt, _, isRead⟩ := Option.bind_eq_some_iff.mp isRead
  cases isRead
  obtain ⟨_, _, inside⟩ := legible.components areFields
  obtain ⟨_, idField, idRead⟩ := Value.required?_eq_some isId
  obtain ⟨_, entityIdField, entityIdRead⟩ := Value.required?_eq_some isEntityId
  exact ⟨(inside _ idField).nat_lt idRead, (inside _ entityIdField).nat_lt entityIdRead⟩

private theorem StoredEvent.fitsWord_of_ofValue? {value : Value} {event : StoredEvent}
    (isRead : ofValue? value = some event)
    {depth : Nat} (legible : value.Legible depth) : event.record.FitsWord := by
  obtain ⟨fields, areFields, isRead⟩ := Option.bind_eq_some_iff.mp isRead
  obtain ⟨record, isRecord, isRead⟩ := Option.bind_eq_some_iff.mp isRead
  obtain ⟨pending, _, isRead⟩ := Option.bind_eq_some_iff.mp isRead
  cases isRead
  obtain ⟨_, _, inside⟩ := legible.components areFields
  obtain ⟨_, recordField, recordRead⟩ := Value.required?_eq_some isRecord
  exact EventRecord.fitsWord_of_ofValue? recordRead (inside _ recordField)

namespace StoreState

private theorem counter_lt {fields : List (String × Value)} {name : String} {number depth : Nat}
    (inside : ∀ field ∈ fields, field.2.Legible depth)
    (isNumber : Value.defaulted? fields name 0 Value.nat? = some number) : number < Number.wordLimit := by
  rcases Value.defaulted?_eq_some isNumber with rfl | ⟨value, isField, isRead⟩
  · decide
  · exact (inside _ isField).nat_lt isRead

/-- The items of a component are read from values that are legible one level deeper. -/
theorem mem_items {α : Type} {fields : List (String × Value)} {name : String} {read : Value → Option α}
    {results : List α} {depth : Nat} (inside : ∀ field ∈ fields, field.2.Legible (depth + 1))
    (areResults : Value.defaulted? fields name [] (Value.items? read) = some results) {result : α}
    (member : result ∈ results) : ∃ value, value.Legible depth ∧ read value = some result := by
  rcases Value.defaulted?_eq_some areResults with rfl | ⟨value, isField, isRead⟩
  · cases member
  · obtain ⟨items, rfl, areRead⟩ := Value.items?_eq_some isRead
    obtain ⟨item, isItem, itemRead⟩ := mem_of_mapM areRead member
    obtain ⟨less, isDepth, each⟩ := Value.legible_list_iff.mp (inside _ isField)
    cases isDepth
    exact ⟨item, each item isItem, itemRead⟩

/-- A state that was read from a legible value has a legible text. -/
theorem legible_of_ofValue? {value : Value} {state : StoreState} (isRead : ofValue? value = some state)
    (legible : value.Legible Json.maxDepth) : state.Legible := by
  obtain ⟨fields, areFields, isRead⟩ := Option.bind_eq_some_iff.mp isRead
  obtain ⟨nextId, isNextId, isRead⟩ := Option.bind_eq_some_iff.mp isRead
  obtain ⟨nextEventId, isNextEventId, isRead⟩ := Option.bind_eq_some_iff.mp isRead
  obtain ⟨eventLatency, _, isRead⟩ := Option.bind_eq_some_iff.mp isRead
  obtain ⟨objects, areObjects, isRead⟩ := Option.bind_eq_some_iff.mp isRead
  obtain ⟨events, areEvents, isRead⟩ := Option.bind_eq_some_iff.mp isRead
  cases isRead
  obtain ⟨less, isDepth, inside⟩ := legible.components areFields
  cases isDepth
  have bounded : ∀ object ∈ objects, (object.reference.FitsWord ∧ object.reference.levels ≤ attributeDepth) ∧
      (Value.ofAttributes object.attributes).Legible attributeDepth := by
    intro object member
    obtain ⟨value, inItem, objectRead⟩ := mem_items inside areObjects member
    exact RemoteObject.bounded_of_ofValue? objectRead inItem
  refine ⟨⟨counter_lt inside isNextId, counter_lt inside isNextEventId, ?_, ?_⟩, ?_⟩
  · exact fun object member => (bounded object member).1
  · intro event member
    obtain ⟨value, inItem, eventRead⟩ := mem_items inside areEvents member
    exact StoredEvent.fitsWord_of_ofValue? eventRead inItem
  · exact fun object member => (bounded object member).2

private theorem legible_empty : empty.Legible := by
  decide

end StoreState

namespace StateDocument

/-- A state that was loaded can be saved and loaded again. -/
theorem legible_of_load {disk : Disk} {home : Path} {name : String} {state : StoreState}
    (loads : load disk home name = .ok state) : state.Legible := by
  rw [load_eq] at loads
  split at loads
  · cases loads
    exact StoreState.legible_empty
  · cases loads
  · split at loads
    · rename_i loaded isRead
      cases loads
      obtain ⟨value, isValue, isState⟩ := Option.bind_eq_some_iff.mp isRead
      exact StoreState.legible_of_ofValue? isState (Value.legible_of_ofJsonAs? isValue)
    · cases loads

end StateDocument

end DesiredState
