import DesiredState.Proofs.Codec.Event
import DesiredState.Proofs.Codec.Resource
import DesiredState.Store.Document

/-!
# Stored states written and read

Everything in a state but the attributes of its objects is read back from the text of the state as it
was. The attributes are read back as the text of their values is read.
-/

set_option autoImplicit false

namespace DesiredState

open Json

namespace StoredEvent

private theorem items?_ofValue? (statuses : List EventStatus) :
    Value.items? EventStatus.ofValue? (.list (statuses.map EventStatus.toValue)) = some statuses := by
  rw [Value.items?, mapM_eq_some_iff, List.forall₂_map_left_iff]
  exact List.forall₂_same.mpr fun status _ => status.ofValue?_toValue

private theorem valueAs?_toValue (event : StoredEvent) (fits : event.record.FitsWord) (depth : Nat) :
    ∃ value, Draft.valueAs? (depth + 2) shape event.toValue.draft = some value ∧ ofValue? value = some event := by
  obtain ⟨record, pending⟩ := event
  obtain ⟨value, isValue, isRecord⟩ := record.valueAs?_toValue fits depth
  cases pending with
  | nil =>
      refine ⟨.object (Entries.sorted [("record", value)]), Draft.valueAs?_record (by simp) ?_, ?_⟩
      · exact .cons ⟨rfl, EventRecord.shape, rfl, isValue⟩ .nil
      · rw [ofValue?, Value.components?, Option.bind_eq_bind, Option.bind_some,
          Value.required?_sorted (by simp), Value.defaulted?_sorted (by simp)]
        simp [Value.required?, Value.defaulted?, Entries.find?_cons, isRecord]
  | cons next rest =>
      have statuses : Draft.valueAs? (depth + 1) (.items .name)
          (Value.list ((next :: rest).map EventStatus.toValue)).draft =
            some (.list ((next :: rest).map EventStatus.toValue)) := by
        refine Draft.valueAs?_items (List.forall₂_same.mpr fun item member => ?_)
        obtain ⟨status, _, rfl⟩ := List.mem_map.mp member
        exact Draft.valueAs?_string _ _
      refine ⟨.object (Entries.sorted [("record", value),
        ("pending", .list ((next :: rest).map EventStatus.toValue))]), Draft.valueAs?_record (by simp) ?_, ?_⟩
      · exact .cons ⟨rfl, EventRecord.shape, rfl, isValue⟩ (.cons ⟨rfl, .items .name, rfl, statuses⟩ .nil)
      · rw [ofValue?, Value.components?, Option.bind_eq_bind, Option.bind_some,
          Value.required?_sorted (by simp), Value.defaulted?_sorted (by simp)]
        have isPending := items?_ofValue? (next :: rest)
        rw [List.map_cons] at isPending
        simp [Value.required?, Value.defaulted?, Entries.find?_cons, isRecord, isPending]

end StoredEvent

namespace StoreState

/-- How deep the lists and objects in an object's attributes may be nested, the attributes themselves
counted: the text of a state has three levels above them. -/
def attributeDepth : Nat := 124

/-- All numbers of a state have 64 bits, and no reference is nested too deep for a text. -/
structure Encodable (state : StoreState) : Prop where
  nextId : state.nextId < Number.wordLimit
  nextEventId : state.nextEventId < Number.wordLimit
  references : ∀ object ∈ state.objects,
    object.reference.FitsWord ∧ object.reference.levels ≤ attributeDepth
  records : ∀ event ∈ state.events, event.record.FitsWord

instance (state : StoreState) : Decidable state.Encodable :=
  decidable_of_iff (state.nextId < Number.wordLimit ∧ state.nextEventId < Number.wordLimit ∧
      (∀ object ∈ state.objects, object.reference.FitsWord ∧ object.reference.levels ≤ attributeDepth) ∧
      ∀ event ∈ state.events, event.record.FitsWord)
    ⟨fun ⟨nextId, nextEventId, references, records⟩ => ⟨nextId, nextEventId, references, records⟩,
      fun ⟨nextId, nextEventId, references, records⟩ => ⟨nextId, nextEventId, references, records⟩⟩

/-- The state with the attributes of its objects as they come out of their text. -/
def reread? (state : StoreState) : Option StoreState :=
  (state.objects.mapM (RemoteObject.reread? attributeDepth)).map fun objects => { state with objects }

theorem word?_toNat (word : UInt32) : word? (.ofNat word.toNat) = some word := by
  rw [word?, Value.nat?_ofNat, Option.bind_eq_bind, Option.bind_some, if_pos word.toNat_lt, UInt32.ofNat_toNat]

/-- A list is read back if each of its items is. -/
theorem valueAs?_list {α : Type} {each : Shape} {depth : Nat} {toValue : α → Value} {ofValue? : Value → Option α}
    {written read : List α}
    (items : List.Forall₂ (fun before after => ∃ value,
      Draft.valueAs? depth each (toValue before).draft = some value ∧ ofValue? value = some after) written read) :
    ∃ value, Draft.valueAs? (depth + 1) (.items each) (Value.list (written.map toValue)).draft = some value ∧
      Value.items? ofValue? value = some read := by
  have values : ∃ values, List.Forall₂ (fun before value =>
        Draft.valueAs? depth each (toValue before).draft = some value) written values ∧
      List.Forall₂ (fun value after => ofValue? value = some after) values read := by
    induction items with
    | nil => exact ⟨[], .nil, .nil⟩
    | cons first _ ih =>
        obtain ⟨value, isValue, isRead⟩ := first
        obtain ⟨values, areValues, areRead⟩ := ih
        exact ⟨value :: values, .cons isValue areValues, .cons isRead areRead⟩
  obtain ⟨values, areValues, areRead⟩ := values
  exact ⟨.list values, Draft.valueAs?_items (List.forall₂_map_left_iff.mpr areValues), mapM_eq_some_iff.mpr areRead⟩

private theorem valueAs?_toValue {state again : StoreState} (encodable : state.Encodable)
    (reread : state.reread? = some again) :
    ∃ value, Draft.valueAs? maxDepth shape state.toValue.draft = some value ∧ ofValue? value = some again := by
  obtain ⟨rereadObjects, areReread, rfl⟩ := Option.map_eq_some_iff.mp reread
  have eachObject : List.Forall₂ (fun before after => ∃ value,
      Draft.valueAs? (attributeDepth + 1) RemoteObject.shape before.toValue.draft = some value ∧
        RemoteObject.ofValue? value = some after) state.objects rereadObjects := by
    have each := (List.forall₂_and_left _ _).mpr ⟨encodable.references, mapM_eq_some_iff.mp areReread⟩
    refine each.imp fun object after known => ?_
    obtain ⟨⟨fits, shallow⟩, isReread⟩ := known
    exact RemoteObject.valueAs?_toValue fits shallow (Nat.le_trans shallow (by decide)) isReread
  have eachEvent : List.Forall₂ (fun before after => ∃ value,
      Draft.valueAs? (attributeDepth + 1) StoredEvent.shape before.toValue.draft = some value ∧
        StoredEvent.ofValue? value = some after) state.events state.events :=
    List.forall₂_same.mpr fun event member => event.valueAs?_toValue (encodable.records event member) 123
  obtain ⟨objects, areObjects, objectsRead⟩ := valueAs?_list eachObject
  obtain ⟨events, areEvents, eventsRead⟩ := valueAs?_list eachEvent
  have latency : state.eventLatency.toNat < Number.wordLimit :=
    Nat.lt_trans state.eventLatency.toNat_lt (by decide)
  refine ⟨.object (Entries.sorted [("next_id", .ofNat state.nextId), ("next_event_id", .ofNat state.nextEventId),
    ("event_latency", .ofNat state.eventLatency.toNat), ("objects", objects), ("events", events)]),
    Draft.valueAs?_record (by simp) ?_, ?_⟩
  · exact .cons ⟨rfl, .whole, rfl, Draft.valueAs?_ofNat _ encodable.nextId⟩
      (.cons ⟨rfl, .whole, rfl, Draft.valueAs?_ofNat _ encodable.nextEventId⟩
        (.cons ⟨rfl, .whole, rfl, Draft.valueAs?_ofNat _ latency⟩
          (.cons ⟨rfl, .items RemoteObject.shape, rfl, areObjects⟩
            (.cons ⟨rfl, .items StoredEvent.shape, rfl, areEvents⟩ .nil))))
  · rw [ofValue?, Value.components?, Option.bind_eq_bind, Option.bind_some,
      Value.defaulted?_sorted (by simp), Value.defaulted?_sorted (by simp), Value.defaulted?_sorted (by simp),
      Value.defaulted?_sorted (by simp), Value.defaulted?_sorted (by simp)]
    simp [Value.defaulted?, Entries.find?_cons, Value.nat?_ofNat, word?_toNat, objectsRead, eventsRead]

/-- The text of a state can be read: it is not nested too deep, and its numbers are such as a value can
hold. -/
structure Legible (state : StoreState) : Prop where
  encodable : state.Encodable
  attributes : ∀ object ∈ state.objects, (Value.ofAttributes object.attributes).Legible attributeDepth

instance (state : StoreState) : Decidable state.Legible :=
  decidable_of_iff (state.Encodable ∧
      ∀ object ∈ state.objects, (Value.ofAttributes object.attributes).Legible attributeDepth)
    ⟨fun ⟨encodable, attributes⟩ => ⟨encodable, attributes⟩,
      fun ⟨encodable, attributes⟩ => ⟨encodable, attributes⟩⟩

end StoreState

/-- The text of each of the values is read as the same value. In the document of a state their lists and
objects may be nested one level less than the attributes. -/
def Attributes.ReadsBack (attributes : Attributes) : Prop :=
  ∀ entry ∈ attributes.entries, Draft.valueTo? (StoreState.attributeDepth - 1) entry.2.draft = some entry.2

instance (attributes : Attributes) : Decidable attributes.ReadsBack :=
  inferInstanceAs (Decidable (∀ entry ∈ attributes.entries,
    Draft.valueTo? (StoreState.attributeDepth - 1) entry.2.draft = some entry.2))

private theorem Attributes.ReadsBack.valueTo? {attributes : Attributes} (same : attributes.ReadsBack) :
    Draft.valueTo? StoreState.attributeDepth (Value.ofAttributes attributes).draft =
      some (Value.ofAttributes attributes) := by
  have sorted : Entries.sorted attributes.entries = attributes.entries :=
    congrArg SortedMap.entries attributes.ofList_entries
  have read := Draft.valueTo?_object same
  rwa [sorted] at read

/-- The text of a state is read as the same state, as long as the values of its attributes are. -/
structure StoreState.ReadsBack (state : StoreState) : Prop where
  encodable : state.Encodable
  attributes : ∀ object ∈ state.objects, object.attributes.ReadsBack

/-- The text of a state is read as the draft that has every part of the state. -/
theorem StateDocument.ofText?_eq (state : StoreState) : ofText? (text state) =
    (Draft.valueAs? maxDepth StoreState.shape state.toValue.draft).bind StoreState.ofValue? := by
  rw [ofText?, Value.ofJsonAs?, text, Value.ofText?_pretty, Option.bind_some]

/-- The text of a state is read as the state with its attributes reread. -/
theorem StateDocument.ofText?_text {state again : StoreState} (encodable : state.Encodable)
    (reread : state.reread? = some again) : ofText? (text state) = some again := by
  obtain ⟨value, isValue, isState⟩ := StoreState.valueAs?_toValue encodable reread
  rw [ofText?_eq, isValue, Option.bind_some, isState]

theorem StateDocument.ofText?_of_legible {state : StoreState} (legible : state.Legible) :
    ∃ again, ofText? (text state) = some again := by
  have objects : (state.objects.mapM (RemoteObject.reread? StoreState.attributeDepth)).isSome = true :=
    isSome_mapM fun object member => RemoteObject.isSome_reread? (legible.attributes object member)
  obtain ⟨rereadObjects, areReread⟩ := Option.isSome_iff_exists.mp objects
  exact ⟨_, ofText?_text legible.encodable (by rw [StoreState.reread?, areReread]; rfl)⟩

theorem StateDocument.ofText?_of_readsBack {state : StoreState} (same : state.ReadsBack) :
    ofText? (text state) = some state := by
  have objects : state.objects.mapM (RemoteObject.reread? StoreState.attributeDepth) = some state.objects :=
    mapM_eq_some_iff.mpr (List.forall₂_same.mpr fun object member =>
      RemoteObject.reread?_eq_self (same.attributes object member).valueTo?)
  exact ofText?_text same.encodable (by rw [StoreState.reread?, objects]; rfl)

end DesiredState
