import DesiredState.Event
import DesiredState.Error

/-!
# Stores

A store is what holds the remote resources: a set of calls on some state. Every call answers a
result or an error and leaves a state behind. Nothing is assumed of a store beyond that;
`RemoteStore.recorded` is the same store with a record of the calls it received.
-/

set_option autoImplicit false

namespace DesiredState

/-- The calls of a store whose state is `σ`. -/
structure RemoteStore (σ : Type) where
  get : ResourceRef → σ → Except StoreError (Option RemoteObject) × σ
  /-- The members of a collection, in the store's own stable order. -/
  list : Collection → σ → Except StoreError (List RemoteObject) × σ
  create : Collection → Attributes → σ → Except StoreError RemoteObject × σ
  /-- Set the given attributes of an object and leave the others as they are. -/
  update : ResourceRef → Attributes → σ → Except StoreError RemoteObject × σ
  delete : ResourceRef → σ → Except StoreError Unit × σ
  /-- The latest page of the matching events, oldest first. -/
  listEvents : EventFilter → σ → Except StoreError (List EventRecord) × σ
  getEvent : Nat → σ → Except StoreError (Option EventRecord) × σ

/-- One request to a store. Of an update only the names of the attributes are kept. -/
inductive StoreCall where
  | get (reference : ResourceRef)
  | list (collection : Collection)
  | create (collection : Collection) (payload : Attributes)
  | update (reference : ResourceRef) (fields : List String)
  | delete (reference : ResourceRef)
  | listEvents (filter : EventFilter)
  | getEvent (id : Nat)
  deriving DecidableEq

namespace StoreCall

def isMutation : StoreCall → Bool
  | .create _ _ | .update _ _ | .delete _ => true
  | .get _ | .list _ | .listEvents _ | .getEvent _ => false

end StoreCall

/-- A request with everything that was sent, and whether the store accepted it. -/
inductive Exchange where
  | get (reference : ResourceRef) (answer : Except StoreError (Option RemoteObject))
  | list (collection : Collection) (answer : Except StoreError (List RemoteObject))
  | create (collection : Collection) (payload : Attributes)
      (answer : Except StoreError RemoteObject)
  | update (reference : ResourceRef) (fields : Attributes)
      (answer : Except StoreError RemoteObject)
  | delete (reference : ResourceRef) (answer : Except StoreError Unit)
  | listEvents (filter : EventFilter) (answer : Except StoreError (List EventRecord))
  | getEvent (id : Nat) (answer : Except StoreError (Option EventRecord))

/-- A state together with the exchanges so far, oldest first. -/
structure Recorded (σ : Type) where
  state : σ
  exchanges : List Exchange

namespace RemoteStore

variable {σ τ : Type}

def onEither {α : Type} (first : σ → Except StoreError α × σ)
    (second : τ → Except StoreError α × τ) : σ ⊕ τ → Except StoreError α × (σ ⊕ τ)
  | .inl state =>
      match first state with
      | (answer, state) => (answer, .inl state)
  | .inr state =>
      match second state with
      | (answer, state) => (answer, .inr state)

def either (first : RemoteStore σ) (second : RemoteStore τ) : RemoteStore (σ ⊕ τ) where
  get reference := onEither (first.get reference) (second.get reference)
  list collection := onEither (first.list collection) (second.list collection)
  create collection payload :=
    onEither (first.create collection payload) (second.create collection payload)
  update reference fields :=
    onEither (first.update reference fields) (second.update reference fields)
  delete reference := onEither (first.delete reference) (second.delete reference)
  listEvents filter := onEither (first.listEvents filter) (second.listEvents filter)
  getEvent id := onEither (first.getEvent id) (second.getEvent id)

def recordCall {α : Type} (call : σ → Except StoreError α × σ)
    (exchange : Except StoreError α → Exchange) (recorded : Recorded σ) :
    Except StoreError α × Recorded σ :=
  match call recorded.state with
  | (answer, state) => (answer, ⟨state, recorded.exchanges ++ [exchange answer]⟩)

def recorded (store : RemoteStore σ) : RemoteStore (Recorded σ) where
  get reference := recordCall (store.get reference) (.get reference)
  list collection := recordCall (store.list collection) (.list collection)
  create collection payload :=
    recordCall (store.create collection payload) (.create collection payload)
  update reference fields :=
    recordCall (store.update reference fields) (.update reference fields)
  delete reference := recordCall (store.delete reference) (.delete reference)
  listEvents filter := recordCall (store.listEvents filter) (.listEvents filter)
  getEvent id := recordCall (store.getEvent id) (.getEvent id)

end RemoteStore

end DesiredState
