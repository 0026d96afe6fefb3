import DesiredState.Codec.Event
import DesiredState.Codec.Resource

/-!
# The state of a store

The objects a store holds, in the order of their creation, its event log, and the counters from
which both take their numbers. A write appends one event. If the store has a latency, the event
starts out unfinished, and the statuses that the next reads of it will find wait in a queue.
-/

set_option autoImplicit false

namespace DesiredState

/-- A record of the log and the statuses that its next reads find, in order. -/
structure StoredEvent where
  record : EventRecord
  pending : List EventStatus
  deriving DecidableEq

def StoredEvent.advanced (event : StoredEvent) : StoredEvent :=
  match event.pending with
  | [] => event
  | next :: rest => ⟨{ event.record with status := next }, rest⟩

/-- Everything a store holds. The counters are the last numbers that were given out. They have no limit
here; that a counter of 64 bits overflows after its last number is left out. -/
structure StoreState where
  nextId : Nat
  nextEventId : Nat
  /-- The number of reads after which the event of a write is found finished. -/
  eventLatency : UInt32
  objects : List RemoteObject
  events : List StoredEvent
  deriving DecidableEq

def eventPageSize : Nat := 25

namespace StoreState

def empty : StoreState := ⟨0, 0, 0, [], []⟩

def records (state : StoreState) : List EventRecord := state.events.map (·.record)

/-! ## Objects -/

def find? (state : StoreState) (reference : ResourceRef) : Option RemoteObject :=
  state.objects.find? (·.reference == reference)

def holds (state : StoreState) (reference : ResourceRef) : Bool := (state.find? reference).isSome

/-- The first object of a kind with a number, whatever it belongs to. -/
def objectNumbered? (state : StoreState) (kind : String) (id : Nat) : Option RemoteObject :=
  state.objects.find? fun object => object.reference.kind == kind && object.id == id

def missingParent? (state : StoreState) (collection : Collection) : Option ResourceRef :=
  match collection.parent with
  | none => none
  | some parent => if state.holds parent then none else some parent

def members (state : StoreState) (collection : Collection) : List RemoteObject :=
  state.objects.filter fun object => collection.contains object.reference

/-- The object that gets the number `id` in a collection. Its attribute `id` is that number,
whatever the attributes say. -/
def newObject (collection : Collection) (id : Nat) (attributes : Attributes) : RemoteObject :=
  ⟨.under collection.parent collection.kind id, attributes.insert "id" (.ofNat id)⟩

def nextObject (state : StoreState) (collection : Collection) (attributes : Attributes) :
    RemoteObject :=
  newObject collection (state.nextId + 1) attributes

def insertObject (state : StoreState) (collection : Collection) (attributes : Attributes) :
    StoreState :=
  { state with
    nextId := state.nextId + 1
    objects := state.objects ++ [state.nextObject collection attributes] }

def modifyFirst (reference : ResourceRef) (change : RemoteObject → RemoteObject) :
    List RemoteObject → List RemoteObject
  | [] => []
  | object :: rest =>
      if object.reference = reference then change object :: rest
      else object :: modifyFirst reference change rest

def withFields (fields : Attributes) (object : RemoteObject) : RemoteObject :=
  { object with attributes := object.attributes.insertAll fields.entries }

def setFields (state : StoreState) (reference : ResourceRef) (fields : Attributes) :
    StoreState :=
  { state with objects := modifyFirst reference (withFields fields) state.objects }

/-- Remove the object at an address and everything that belongs to it. -/
def removeTree (state : StoreState) (reference : ResourceRef) : StoreState :=
  { state with
    objects := state.objects.filter fun object =>
      object.reference != reference && !object.reference.isDescendantOf reference }

/-! ## Events -/

def nextRecord (state : StoreState) (entityType : String) (entityId : Nat) (action : String)
    (status : EventStatus) (now : Timestamp) : EventRecord :=
  ⟨state.nextEventId + 1, entityType, entityId, action, status, now⟩

def appendEvent (state : StoreState) (entityType : String) (entityId : Nat) (action : String)
    (status : EventStatus) (pending : List EventStatus) (now : Timestamp) : StoreState :=
  { state with
    nextEventId := state.nextEventId + 1
    events := state.events ++
      [⟨state.nextRecord entityType entityId action status now, pending⟩] }

def firstStatus (latency : Nat) : EventStatus :=
  if latency = 0 then .finished else .started

/-- The statuses that the reads of the event of a write find: unfinished up to the read with
the number of the latency. -/
def laterStatuses (latency : Nat) : List EventStatus :=
  if latency = 0 then [] else List.replicate (latency - 1) .started ++ [.finished]

def appendMutation (state : StoreState) (reference : ResourceRef) (operation : OperationKind)
    (now : Timestamp) : StoreState :=
  let latency := state.eventLatency.toNat
  state.appendEvent reference.kind reference.id (reference.kind ++ "_" ++ operation.text)
    (firstStatus latency) (laterStatuses latency) now

/-- The last page of the matching events in the order of the log. -/
def page (state : StoreState) (filter : EventFilter) : List EventRecord :=
  let found := (state.records.filter filter.accepts).mergeSort EventRecord.notAfter
  found.drop (found.length - eventPageSize)

def modifyEvent (id : Nat) (change : StoredEvent → StoredEvent) :
    List StoredEvent → List StoredEvent
  | [] => []
  | event :: rest =>
      if event.record.id = id then change event :: rest else event :: modifyEvent id change rest

def findEvent? (state : StoreState) (id : Nat) : Option StoredEvent :=
  state.events.find? (·.record.id == id)

def advanceEvent (state : StoreState) (id : Nat) : StoreState :=
  { state with events := modifyEvent id StoredEvent.advanced state.events }

def scriptEvent (state : StoreState) (id : Nat) (statuses : List EventStatus) : StoreState :=
  { state with
    events := modifyEvent id (fun event => { event with pending := statuses }) state.events }

end StoreState

/-! ## Encoding -/

namespace StoredEvent

def toValue (event : StoredEvent) : Value :=
  match event.pending with
  | [] => .object [("record", event.record.toValue)]
  | pending =>
      .object [("record", event.record.toValue),
        ("pending", .list (pending.map EventStatus.toValue))]

def ofValue? (value : Value) : Option StoredEvent := do
  let fields ← value.components? ["record", "pending"]
  let record ← Value.required? fields "record" EventRecord.ofValue?
  let pending ← Value.defaulted? fields "pending" [] (Value.items? EventStatus.ofValue?)
  return ⟨record, pending⟩

def shape : Json.Shape := .record [("record", EventRecord.shape), ("pending", .items .name)]

end StoredEvent

namespace StoreState

def toValue (state : StoreState) : Value :=
  .object [("next_id", .ofNat state.nextId), ("next_event_id", .ofNat state.nextEventId),
    ("event_latency", .ofNat state.eventLatency.toNat),
    ("objects", .list (state.objects.map RemoteObject.toValue)),
    ("events", .list (state.events.map StoredEvent.toValue))]

def word? (value : Value) : Option UInt32 := do
  let number ← value.nat?
  if number < UInt32.size then some (.ofNat number) else none

def ofValue? (value : Value) : Option StoreState := do
  let fields ← value.components? ["next_id", "next_event_id", "event_latency", "objects", "events"]
  let nextId ← Value.defaulted? fields "next_id" 0 Value.nat?
  let nextEventId ← Value.defaulted? fields "next_event_id" 0 Value.nat?
  let eventLatency ← Value.defaulted? fields "event_latency" 0 word?
  let objects ← Value.defaulted? fields "objects" [] (Value.items? RemoteObject.ofValue?)
  let events ← Value.defaulted? fields "events" [] (Value.items? StoredEvent.ofValue?)
  return ⟨nextId, nextEventId, eventLatency, objects, events⟩

def shape : Json.Shape :=
  .record [("next_id", .whole), ("next_event_id", .whole), ("event_latency", .whole),
    ("objects", .items RemoteObject.shape), ("events", .items StoredEvent.shape)]

end StoreState

end DesiredState
