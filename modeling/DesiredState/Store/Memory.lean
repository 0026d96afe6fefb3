import DesiredState.Store
import DesiredState.Store.State

/-!
# A store in memory

A store that behaves like a small remote service. It numbers its objects, files an event for
every write, keeps a journal of the calls it received, and can be told to refuse certain
writes. A refused write changes nothing but the journal.
-/

set_option autoImplicit false

namespace DesiredState

/-- A clock, as the readings it gives one after the other. -/
structure Clock where
  reading : Nat → Timestamp
  taken : Nat

namespace Clock

def stopped (time : Timestamp) : Clock := ⟨fun _ => time, 0⟩

def now (clock : Clock) : Timestamp := clock.reading clock.taken

def advanced (clock : Clock) : Clock := { clock with taken := clock.taken + 1 }

end Clock

/-- A rule for refusing writes: those of one operation and kind, of all objects or of those
with a certain value in a field. -/
structure InjectedFailure where
  operation : OperationKind
  kind : String
  matching : Option (String × Value)
  code : Nat
  message : String
  deriving DecidableEq

namespace InjectedFailure

def of (operation : OperationKind) (kind : String) : InjectedFailure :=
  ⟨operation, kind, none, 400, "injected failure"⟩

/-- Whether the rule refuses a write, given the attributes sent or stored. -/
def applies (failure : InjectedFailure) (operation : OperationKind) (kind : String)
    (attributes : Attributes) : Bool :=
  failure.operation == operation && failure.kind == kind &&
    match failure.matching with
    | none => true
    | some (field, value) => (attributes.find? field).any (·.sameForm value)

def error (failure : InjectedFailure) : StoreError := .status failure.code failure.message

end InjectedFailure

/-- A store in memory: its state, the journal of its calls, the rules for refusing writes, and
the clock that dates its events. -/
structure MemoryStore where
  state : StoreState
  journal : List StoreCall
  failures : List InjectedFailure
  clock : Clock

namespace MemoryStore

def ofState (state : StoreState) (clock : Clock) : MemoryStore := ⟨state, [], [], clock⟩

def noted (store : MemoryStore) (call : StoreCall) : MemoryStore :=
  { store with journal := store.journal ++ [call] }

def injected? (store : MemoryStore) (operation : OperationKind) (kind : String)
    (attributes : Attributes) : Option StoreError :=
  (store.failures.find? fun failure => failure.applies operation kind attributes).map
    InjectedFailure.error

def notFound (reference : ResourceRef) : StoreError := .notFound reference.text

def committed (store : MemoryStore) (state : StoreState) (reference : ResourceRef)
    (operation : OperationKind) : MemoryStore :=
  { store with
    state := state.appendMutation reference operation store.clock.now
    clock := store.clock.advanced }

/-! ## Calls -/

def get (reference : ResourceRef) (store : MemoryStore) :
    Except StoreError (Option RemoteObject) × MemoryStore :=
  (.ok (store.state.find? reference), store.noted (.get reference))

def list (collection : Collection) (store : MemoryStore) :
    Except StoreError (List RemoteObject) × MemoryStore :=
  (.ok (store.state.members collection), store.noted (.list collection))

/-- Create an object, unless a rule refuses it or the parent is missing. -/
def create (collection : Collection) (payload : Attributes) (store : MemoryStore) :
    Except StoreError RemoteObject × MemoryStore :=
  let store := store.noted (.create collection payload)
  match store.injected? .create collection.kind payload with
  | some error => (.error error, store)
  | none =>
      match store.state.missingParent? collection with
      | some parent => (.error (notFound parent), store)
      | none =>
          let object := store.state.nextObject collection payload
          (.ok object,
            store.committed (store.state.insertObject collection payload) object.reference .create)

/-- Set attributes of an object, unless it is missing or a rule refuses it. -/
def update (reference : ResourceRef) (fields : Attributes) (store : MemoryStore) :
    Except StoreError RemoteObject × MemoryStore :=
  let store := store.noted (.update reference fields.keys)
  match store.state.find? reference with
  | none => (.error (notFound reference), store)
  | some object =>
      match store.injected? .update reference.kind object.attributes with
      | some error => (.error error, store)
      | none =>
          (.ok (StoreState.withFields fields object),
            store.committed (store.state.setFields reference fields) reference .update)

/-- Delete an object with everything that belongs to it, unless it is missing or a rule refuses
it. -/
def delete (reference : ResourceRef) (store : MemoryStore) :
    Except StoreError Unit × MemoryStore :=
  let store := store.noted (.delete reference)
  match store.state.find? reference with
  | none => (.error (notFound reference), store)
  | some object =>
      match store.injected? .delete reference.kind object.attributes with
      | some error => (.error error, store)
      | none => (.ok (), store.committed (store.state.removeTree reference) reference .delete)

def listEvents (filter : EventFilter) (store : MemoryStore) :
    Except StoreError (List EventRecord) × MemoryStore :=
  (.ok (store.state.page filter), store.noted (.listEvents filter))

def getEvent (id : Nat) (store : MemoryStore) :
    Except StoreError (Option EventRecord) × MemoryStore :=
  let store := store.noted (.getEvent id)
  match store.state.findEvent? id with
  | none => (.ok none, store)
  | some event =>
      (.ok (some event.advanced.record),
        { store with state := store.state.advanceEvent id })

def remote : RemoteStore MemoryStore where
  get := get
  list := list
  create := create
  update := update
  delete := delete
  listEvents := listEvents
  getEvent := getEvent

/-! ## Preparing a store -/

def seed (store : MemoryStore) (collection : Collection) (attributes : Attributes) :
    RemoteObject × MemoryStore :=
  (store.state.nextObject collection attributes,
    { store with state := store.state.insertObject collection attributes })

def seedEvent (store : MemoryStore) (entityType : String) (entityId : Nat) (action : String)
    (status : EventStatus) : EventRecord × MemoryStore :=
  (store.state.nextRecord entityType entityId action status store.clock.now,
    { store with
      state := store.state.appendEvent entityType entityId action status [] store.clock.now
      clock := store.clock.advanced })

def scriptEvent (store : MemoryStore) (id : Nat) (statuses : List EventStatus) : MemoryStore :=
  { store with state := store.state.scriptEvent id statuses }

def failing (store : MemoryStore) (failure : InjectedFailure) : MemoryStore :=
  { store with failures := store.failures ++ [failure] }

def clearFailures (store : MemoryStore) : MemoryStore := { store with failures := [] }

def clearJournal (store : MemoryStore) : MemoryStore := { store with journal := [] }

def countCalls (store : MemoryStore) (counted : StoreCall → Bool) : Nat :=
  store.journal.countP counted

end MemoryStore

end DesiredState
