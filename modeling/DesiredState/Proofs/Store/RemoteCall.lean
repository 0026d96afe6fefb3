import DesiredState.Proofs.Store.Growth
import DesiredState.Store.Document

/-!
# Calls as data

A call can be sent to any store, and what comes of it is an exchange and a state. A store on disk
answers what the store in memory inside it answers. After an accepted write and after the read of an
event it also saves, and where that fails it answers the failure instead.
-/

set_option autoImplicit false

namespace DesiredState

namespace Exchange

/-- Whether a store on disk saves its state after the exchange: it was an accepted write, or an event
was read. -/
def savesState : Exchange → Bool
  | .create _ _ answer | .update _ _ answer => answer.isOk
  | .delete _ answer => answer.isOk
  | .getEvent _ answer => answer.isOk
  | .get _ _ | .list _ _ | .listEvents _ _ => false

/-- The same exchange, answered with an error. -/
def failed (error : StoreError) : Exchange → Exchange
  | .get reference _ => .get reference (.error error)
  | .list collection _ => .list collection (.error error)
  | .create collection payload _ => .create collection payload (.error error)
  | .update reference fields _ => .update reference fields (.error error)
  | .delete reference _ => .delete reference (.error error)
  | .listEvents filter _ => .listEvents filter (.error error)
  | .getEvent id _ => .getEvent id (.error error)

private theorem savesState_failed (exchange : Exchange) (error : StoreError) :
    (exchange.failed error).savesState = false := by
  cases exchange <;> rfl

end Exchange

/-- A call of a store. -/
inductive RemoteCall where
  | get (reference : ResourceRef)
  | list (collection : Collection)
  | create (collection : Collection) (payload : Attributes)
  | update (reference : ResourceRef) (fields : Attributes)
  | delete (reference : ResourceRef)
  | listEvents (filter : EventFilter)
  | getEvent (id : Nat)

namespace RemoteCall

variable {σ : Type}

def perform (store : RemoteStore σ) (state : σ) : RemoteCall → Exchange × σ
  | .get reference => (store.get reference state).map (.get reference) id
  | .list collection => (store.list collection state).map (.list collection) id
  | .create collection payload =>
      (store.create collection payload state).map (.create collection payload) id
  | .update reference fields => (store.update reference fields state).map (.update reference fields) id
  | .delete reference => (store.delete reference state).map (.delete reference) id
  | .listEvents filter => (store.listEvents filter state).map (.listEvents filter) id
  | .getEvent number => (store.getEvent number state).map (.getEvent number) id

/-- The call as something that is done to a store in memory. -/
def action : RemoteCall → StoreAction
  | .get reference => .get reference
  | .list collection => .list collection
  | .create collection payload => .create collection payload
  | .update reference fields => .update reference fields
  | .delete reference => .delete reference
  | .listEvents filter => .listEvents filter
  | .getEvent id => .getEvent id

theorem perform_memory (store : MemoryStore) (call : RemoteCall) :
    (call.perform MemoryStore.remote store).2 = call.action.perform store := by
  cases call <;> rfl

end RemoteCall

namespace MemoryStore

/-- A call after which nothing needs to be saved leaves a line in the journal and nothing else. -/
theorem perform_of_not_savesState {store : MemoryStore} {call : RemoteCall}
    (looked : (call.perform remote store).1.savesState = false) :
    ∃ noted, (call.perform remote store).2 = store.noted noted := by
  cases call with
  | get reference => exact ⟨_, rfl⟩
  | list collection => exact ⟨_, rfl⟩
  | listEvents filter => exact ⟨_, rfl⟩
  | create collection payload =>
      rcases store.create_cases collection payload with ⟨error, ran⟩ | ⟨_, ran⟩
      · exact ⟨_, congrArg Prod.snd ran⟩
      · simp only [RemoteCall.perform, remote, ran] at looked
        cases looked
  | update reference fields =>
      rcases store.update_cases reference fields with ⟨error, ran⟩ | ⟨object, _, ran⟩
      · exact ⟨_, congrArg Prod.snd ran⟩
      · simp only [RemoteCall.perform, remote, ran] at looked
        cases looked
  | delete reference =>
      rcases store.delete_cases reference with ⟨error, ran⟩ | ⟨_, ran⟩
      · exact ⟨_, congrArg Prod.snd ran⟩
      · simp only [RemoteCall.perform, remote, ran] at looked
        cases looked
  | getEvent id =>
      cases found : store.state.findEvent? id with
      | none =>
          simp only [RemoteCall.perform, remote, getEvent_of_none found] at looked
          cases looked
      | some event =>
          simp only [RemoteCall.perform, remote, getEvent_of_some found] at looked
          cases looked

end MemoryStore

namespace DocumentStore

/-- What becomes of an exchange with the memory of a store on disk. -/
def afterExchange (store : DocumentStore) (exchange : Exchange) (memory : MemoryStore) :
    Exchange × DocumentStore :=
  if exchange.savesState then
    match StateDocument.save store.disk store.home store.name memory.state with
    | (.ok (), disk) => (exchange, { store with memory, disk })
    | (.error error, disk) => (exchange.failed (.backend (.document error)), { store with memory, disk })
  else (exchange, { store with memory })

theorem afterExchange_of_not_savesState {exchange : Exchange} (looked : exchange.savesState = false)
    (store : DocumentStore) (memory : MemoryStore) :
    store.afterExchange exchange memory = (exchange, { store with memory }) := by
  rw [afterExchange, looked, if_neg Bool.false_ne_true]

/-- After a save the disk is that of the save, and the answer tells whether it succeeded. -/
theorem afterExchange_of_savesState {exchange : Exchange} (saves : exchange.savesState = true)
    (store : DocumentStore) (memory : MemoryStore) :
    (store.afterExchange exchange memory).2 =
        { store with
          memory
          disk := (StateDocument.save store.disk store.home store.name memory.state).2 } ∧
      (store.afterExchange exchange memory).1.savesState =
        (StateDocument.save store.disk store.home store.name memory.state).1.isOk := by
  rw [afterExchange, saves, if_pos rfl]
  cases StateDocument.save store.disk store.home store.name memory.state with
  | mk result disk =>
      cases result with
      | ok done => exact ⟨rfl, saves⟩
      | error error => exact ⟨rfl, exchange.savesState_failed _⟩

private theorem map_persist {α : Type} {exchange : Except StoreError α → Exchange}
    (saves : ∀ answer, (exchange answer).savesState = answer.isOk)
    (fails : ∀ answer error, (exchange answer).failed error = exchange (.error error))
    (call : MemoryStore → Except StoreError α × MemoryStore) (store : DocumentStore) :
    (store.persist call).map exchange id =
      store.afterExchange (exchange (call store.memory).1) (call store.memory).2 := by
  rw [persist, look, afterExchange]
  cases ran : call store.memory with
  | mk answer memory =>
      cases answer with
      | error error => rw [if_neg (by simp [saves, Except.isOk, Except.toBool])]; rfl
      | ok value =>
          rw [if_pos (by rw [saves]; rfl)]
          dsimp only
          rw [save]
          dsimp only
          cases StateDocument.save store.disk store.home store.name memory.state with
          | mk result disk =>
              cases result with
              | ok _ => rfl
              | error error =>
                  dsimp only
                  rw [fails]
                  rfl

/-- A call of a store on disk is one of its memory, and a save if one is due. -/
theorem perform_remote (store : DocumentStore) (call : RemoteCall) :
    call.perform remote store =
      store.afterExchange (call.perform MemoryStore.remote store.memory).1
        (call.perform MemoryStore.remote store.memory).2 := by
  cases call with
  | get _ | list _ | listEvents _ => rfl
  | create collection payload => exact store.map_persist (fun _ => rfl) (fun _ _ => rfl) _
  | update reference fields => exact store.map_persist (fun _ => rfl) (fun _ _ => rfl) _
  | delete reference => exact store.map_persist (fun _ => rfl) (fun _ _ => rfl) _
  | getEvent number => exact store.map_persist (fun _ => rfl) (fun _ _ => rfl) _

end DocumentStore

end DesiredState
