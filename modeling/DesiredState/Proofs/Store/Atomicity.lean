import DesiredState.Proofs.SortedMap
import DesiredState.Proofs.Store.Growth

/-!
# Calls are all or nothing

A write that a store in memory refuses leaves its state as it was. One that it accepts makes its own
change, leaves everything else alone and files exactly one event. Of the reads only that of an event
changes anything, and of that event its status at most. So a log never loses or rewrites an event.
-/

set_option autoImplicit false

namespace DesiredState

namespace StoreState

/-- One event came to the end of the log, about an operation on the object at an address. -/
def FiledWrite (before : StoreState) (reference : ResourceRef) (operation : OperationKind)
    (after : StoreState) : Prop :=
  ∃ event, after.events = before.events ++ [event] ∧
    event.record.id = before.nextEventId + 1 ∧
    event.record.entityType = reference.kind ∧ event.record.entityId = reference.id ∧
    event.record.action = reference.kind ++ "_" ++ operation.text ∧
    after.nextEventId = before.nextEventId + 1

/-- A collection got an object behind its others, and no other collection got any. -/
structure Gained (before : StoreState) (collection : Collection) (object : RemoteObject)
    (after : StoreState) : Prop where
  objects : after.objects = before.objects ++ [object]
  contained : collection.contains object.reference = true
  members : after.members collection = before.members collection ++ [object]
  others : ∀ other, other ≠ collection → after.members other = before.members other

/-- The first object at an address got some values at their keys, and kept the values at all others. -/
def ChangedFirst (before : StoreState) (reference : ResourceRef) (fields : Attributes)
    (object : RemoteObject) (after : StoreState) : Prop :=
  ∃ front old back, before.objects = front ++ old :: back ∧
    after.objects = front ++ object :: back ∧ after.nextId = before.nextId ∧
    (∀ other ∈ front, other.reference ≠ reference) ∧
    old.reference = reference ∧ object.reference = reference ∧
    ∀ key, object.get? key = (fields.find? key).or (old.get? key)

/-- At most one event of the log got another status and other statuses to come. -/
inductive MovedOn (before : StoreState) : StoreState → Prop where
  | nothing : MovedOn before before
  | event (front : List StoredEvent) (old : StoredEvent) (back : List StoredEvent)
      (status : EventStatus) (pending : List EventStatus) (events : before.events = front ++ old :: back) :
      MovedOn before { before with
        events := front ++ ⟨{ old.record with status := status }, pending⟩ :: back }

variable {state : StoreState}

private theorem filedWrite_written (state : StoreState) (write : Write) (now : Timestamp) :
    state.FiledWrite (write.address state.nextId) write.operation (state.written write now) :=
  ⟨_, state.events_written write now, rfl, rfl, rfl, rfl, state.nextEventId_written write now⟩

/-! ## Objects -/

private theorem contains_nextObject (state : StoreState) (collection other : Collection)
    (payload : Attributes) :
    other.contains (state.nextObject collection payload).reference = true ↔ other = collection := by
  rw [nextObject, reference_newObject, Collection.contains_iff, ResourceRef.kind_under,
    ResourceRef.parent?_under]
  constructor
  · rintro ⟨kinds, parents⟩
    cases other
    cases collection
    exact Collection.mk.injEq .. ▸ ⟨kinds.symm, parents.symm⟩
  · rintro rfl
    exact ⟨rfl, rfl⟩

private theorem gained_written (state : StoreState) (collection : Collection) (payload : Attributes)
    (now : Timestamp) :
    state.Gained collection (state.nextObject collection payload)
      (state.written (.create collection payload) now) := by
  have objects : (state.written (.create collection payload) now).objects =
      state.objects ++ [state.nextObject collection payload] := rfl
  have contained : collection.contains (state.nextObject collection payload).reference = true :=
    (state.contains_nextObject collection collection payload).mpr rfl
  constructor
  · exact objects
  · exact contained
  · rw [members, objects, List.filter_append, List.filter_singleton, contained]
    rfl
  · intro other different
    have apart : other.contains (state.nextObject collection payload).reference = false := by
      rw [Bool.eq_false_iff, ne_eq, state.contains_nextObject collection other payload]
      exact different
    rw [members, objects, List.filter_append, List.filter_singleton, apart]
    exact List.append_nil _

private theorem modifyFirst_of_find? (change : RemoteObject → RemoteObject) {reference : ResourceRef}
    {objects : List RemoteObject} {object : RemoteObject}
    (found : objects.find? (·.reference == reference) = some object) :
    ∃ front back, objects = front ++ object :: back ∧
      (∀ other ∈ front, other.reference ≠ reference) ∧ object.reference = reference ∧
      modifyFirst reference change objects = front ++ change object :: back := by
  induction objects with
  | nil => cases found
  | cons head rest ih =>
      by_cases same : head.reference = reference
      · rw [List.find?_cons_of_pos (by simpa using same)] at found
        cases found
        exact ⟨[], rest, rfl, by simp, same, by simp [modifyFirst, same]⟩
      · rw [List.find?_cons_of_neg (by simpa using same)] at found
        obtain ⟨front, back, isRest, apart, addressed, changed⟩ := ih found
        refine ⟨head :: front, back, by simp [isRest], ?_, addressed, by simp [modifyFirst, same, changed]⟩
        intro other member
        rcases List.mem_cons.mp member with rfl | inFront
        · exact same
        · exact apart other inFront

theorem get?_withFields (fields : Attributes) (object : RemoteObject) (key : String) :
    (withFields fields object).get? key = (fields.find? key).or (object.get? key) :=
  object.attributes.find?_insertAll fields.ascending key

theorem find?_written_update (state : StoreState) (reference : ResourceRef) (fields : Attributes)
    (now : Timestamp) (other : ResourceRef) :
    (state.written (.update reference fields) now).find? other =
      if other = reference then (state.find? other).map (withFields fields) else state.find? other :=
  state.find?_setFields reference other fields

private theorem changedFirst_written {reference : ResourceRef} {object : RemoteObject}
    (found : state.find? reference = some object) (fields : Attributes) (now : Timestamp) :
    state.ChangedFirst reference fields (withFields fields object)
      (state.written (.update reference fields) now) := by
  obtain ⟨front, back, isSplit, apart, addressed, changed⟩ :=
    modifyFirst_of_find? (withFields fields) found
  exact ⟨front, object, back, isSplit, changed, rfl, apart, addressed, addressed,
    get?_withFields fields object⟩

/-! ## Events -/

private theorem modifyEvent_of_find? (change : StoredEvent → StoredEvent) {id : Nat}
    {events : List StoredEvent} {event : StoredEvent}
    (found : events.find? (·.record.id == id) = some event) :
    ∃ front back, events = front ++ event :: back ∧
      modifyEvent id change events = front ++ change event :: back := by
  induction events with
  | nil => cases found
  | cons head rest ih =>
      by_cases same : head.record.id = id
      · rw [List.find?_cons_of_pos (by simpa using same)] at found
        cases found
        exact ⟨[], rest, rfl, by simp [modifyEvent, same]⟩
      · rw [List.find?_cons_of_neg (by simpa using same)] at found
        obtain ⟨front, back, isRest, changed⟩ := ih found
        exact ⟨head :: front, back, by simp [isRest], by simp [modifyEvent, same, changed]⟩

private theorem movedOn_advanceEvent {id : Nat} {event : StoredEvent}
    (found : state.findEvent? id = some event) : state.MovedOn (state.advanceEvent id) := by
  obtain ⟨front, back, isSplit, changed⟩ := modifyEvent_of_find? StoredEvent.advanced found
  have advanced : ∃ status pending,
      event.advanced = ⟨{ event.record with status := status }, pending⟩ := by
    cases event with
    | mk record pending =>
        cases pending with
        | nil => exact ⟨record.status, [], rfl⟩
        | cons next rest => exact ⟨next, rest, rfl⟩
  obtain ⟨status, pending, isAdvanced⟩ := advanced
  rw [advanceEvent, changed, isAdvanced]
  exact .event front event back status pending isSplit

end StoreState

namespace MemoryStore

open StoreState

private theorem movedOn_getEvent (store : MemoryStore) (id : Nat) :
    store.state.MovedOn (getEvent id store).2.state := by
  cases found : store.state.findEvent? id with
  | none =>
      rw [getEvent_of_none found]
      exact .nothing
  | some event =>
      rw [getEvent_of_some found]
      exact movedOn_advanceEvent found

variable {store after : MemoryStore}

private theorem create_refused {collection : Collection} {payload : Attributes} {error : StoreError}
    (refused : create collection payload store = (.error error, after)) : after.state = store.state := by
  rcases create_cases store collection payload with ⟨_, ran⟩ | ⟨_, ran⟩
  · rw [ran] at refused
    cases refused
    rfl
  · rw [ran] at refused
    cases refused

private theorem update_refused {reference : ResourceRef} {fields : Attributes} {error : StoreError}
    (refused : update reference fields store = (.error error, after)) : after.state = store.state := by
  rcases update_cases store reference fields with ⟨_, ran⟩ | ⟨_, _, ran⟩
  · rw [ran] at refused
    cases refused
    rfl
  · rw [ran] at refused
    cases refused

private theorem delete_refused {reference : ResourceRef} {error : StoreError}
    (refused : delete reference store = (.error error, after)) : after.state = store.state := by
  rcases delete_cases store reference with ⟨_, ran⟩ | ⟨_, ran⟩
  · rw [ran] at refused
    cases refused
    rfl
  · rw [ran] at refused
    cases refused

private theorem create_accepted {collection : Collection} {payload : Attributes} {object : RemoteObject}
    (accepted : create collection payload store = (.ok object, after)) :
    store.state.FiledWrite object.reference .create after.state ∧
      store.state.Gained collection object after.state := by
  rcases create_cases store collection payload with ⟨_, ran⟩ | ⟨_, ran⟩
  · rw [ran] at accepted
    cases accepted
  · rw [ran] at accepted
    cases accepted
    exact ⟨filedWrite_written store.state (.create collection payload) _, gained_written _ _ _ _⟩

private theorem update_accepted {reference : ResourceRef} {fields : Attributes} {object : RemoteObject}
    (accepted : update reference fields store = (.ok object, after)) :
    store.state.FiledWrite reference .update after.state ∧
      store.state.ChangedFirst reference fields object after.state := by
  rcases update_cases store reference fields with ⟨_, ran⟩ | ⟨_, found, ran⟩
  · rw [ran] at accepted
    cases accepted
  · rw [ran] at accepted
    cases accepted
    exact ⟨filedWrite_written store.state (.update reference fields) _,
      changedFirst_written found fields _⟩

private theorem delete_accepted {reference : ResourceRef} {done : Unit}
    (accepted : delete reference store = (.ok done, after)) :
    store.state.FiledWrite reference .delete after.state := by
  rcases delete_cases store reference with ⟨_, ran⟩ | ⟨_, ran⟩
  · rw [ran] at accepted
    cases accepted
  · rw [ran] at accepted
    cases accepted
    exact filedWrite_written store.state (.delete reference) _

/-- Calls are all or nothing, and the log of a store only grows, whatever the store holds and whatever it
is told to refuse. A refused write leaves the whole state as it was, and an accepted one files its one event
and changes the objects as it says. A read leaves the state as it was, apart from the status of an event
that is read. Along a history the log is appended to, once for each accepted write and each placed event. -/
theorem calls_all_or_nothing (store : MemoryStore) :
    ((∀ collection payload error after, create collection payload store = (.error error, after) →
        after.state = store.state) ∧
      (∀ reference fields error after, update reference fields store = (.error error, after) →
        after.state = store.state) ∧
      ∀ reference error after, delete reference store = (.error error, after) →
        after.state = store.state) ∧
    ((∀ collection payload object after, create collection payload store = (.ok object, after) →
        store.state.FiledWrite object.reference .create after.state ∧
          store.state.Gained collection object after.state) ∧
      (∀ reference fields object after, update reference fields store = (.ok object, after) →
        store.state.FiledWrite reference .update after.state ∧
          store.state.ChangedFirst reference fields object after.state) ∧
      ∀ reference after, delete reference store = (.ok (), after) →
        store.state.FiledWrite reference .delete after.state) ∧
    ((∀ reference, (get reference store).2.state = store.state) ∧
      (∀ collection, (list collection store).2.state = store.state) ∧
      (∀ filter, (listEvents filter store).2.state = store.state) ∧
      ∀ id, store.state.MovedOn (getEvent id store).2.state) ∧
    ∀ actions, store.state.headings <+: (store.performAll actions).state.headings ∧
      (store.performAll actions).state.events.length =
        store.state.events.length + store.acceptedAmong actions +
          actions.countP StoreAction.placesEvent := by
  refine ⟨⟨?_, ?_, ?_⟩, ⟨?_, ?_, ?_⟩, ⟨?_, ?_, ?_, store.movedOn_getEvent⟩, store.log_performAll⟩
  · exact fun _ _ _ _ refused => create_refused refused
  · exact fun _ _ _ _ refused => update_refused refused
  · exact fun _ _ _ refused => delete_refused refused
  · exact fun _ _ _ _ accepted => create_accepted accepted
  · exact fun _ _ _ _ accepted => update_accepted accepted
  · exact fun _ _ accepted => delete_accepted accepted
  · exact fun _ => rfl
  · exact fun _ => rfl
  · exact fun _ => rfl

end MemoryStore

end DesiredState
