import DesiredState.Proofs.Store.Agreement
import DesiredState.Proofs.Store.State
import DesiredState.Store.Memory

/-!
# Calls of a store in memory

A write is refused and changes nothing but the journal, or it is carried out and filed as one event.
`StoreState.Became` says what else a state can become from one moment to the next, so that an
invariant is proved once for all calls.
-/

set_option autoImplicit false

namespace DesiredState

namespace Write

def operation : Write → OperationKind
  | .create _ _ => .create
  | .update _ _ => .update
  | .delete _ => .delete

/-- The address that a write is about, if `nextId` is the last number that was given. -/
def address (nextId : Nat) : Write → ResourceRef
  | .create collection _ => .under collection.parent collection.kind (nextId + 1)
  | .update reference _ | .delete reference => reference

end Write

namespace StoreState

/-- The parent of an object to create is there, and so is an object to update or delete. -/
def Allows (state : StoreState) : Write → Prop
  | .create collection _ => state.missingParent? collection = none
  | .update reference _ | .delete reference => state.holds reference = true

/-- The state after an accepted write, with its event. -/
def written (state : StoreState) (write : Write) (now : Timestamp) : StoreState :=
  (state.performed write).appendMutation (write.address state.nextId) write.operation now

/-- The state with the first event of a number changed. -/
def reviseEvent (state : StoreState) (id : Nat) (change : StoredEvent → StoredEvent) : StoreState :=
  { state with events := modifyEvent id change state.events }

/-- What a state can become in one step: a call, or a step that prepares a store. -/
inductive Became (state : StoreState) : StoreState → Prop where
  | same : Became state state
  | written (write : Write) (allowed : state.Allows write) (now : Timestamp) :
      Became state (state.written write now)
  | placed (collection : Collection) (attributes : Attributes)
      (allowed : state.missingParent? collection = none) :
      Became state (state.insertObject collection attributes)
  | filed (entityType : String) (entityId : Nat) (action : String) (status : EventStatus)
      (pending : List EventStatus) (now : Timestamp) :
      Became state (state.appendEvent entityType entityId action status pending now)
  | revised (id : Nat) (change : StoredEvent → StoredEvent)
      (sameId : ∀ event, (change event).record.id = event.record.id) :
      Became state (state.reviseEvent id change)

end StoreState

theorem StoredEvent.id_advanced (event : StoredEvent) :
    event.advanced.record.id = event.record.id := by
  unfold StoredEvent.advanced
  cases event.pending with
  | nil => rfl
  | cons next rest => rfl

namespace MemoryStore

open StoreState

/-- The store after an accepted write. -/
def written (store : MemoryStore) (write : Write) : MemoryStore :=
  { store with
    state := store.state.written write store.clock.now
    journal := store.journal ++ [write.call]
    clock := store.clock.advanced }

theorem getEvent_of_none {store : MemoryStore} {id : Nat} (unfiled : store.state.findEvent? id = none) :
    getEvent id store = (.ok none, store.noted (.getEvent id)) := by
  have absent : (store.noted (.getEvent id)).state.findEvent? id = none := unfiled
  simp only [getEvent, absent]

theorem getEvent_of_some {store : MemoryStore} {id : Nat} {event : StoredEvent}
    (found : store.state.findEvent? id = some event) :
    getEvent id store = (.ok (some event.advanced.record),
      { store.noted (.getEvent id) with state := store.state.advanceEvent id }) := by
  have present : (store.noted (.getEvent id)).state.findEvent? id = some event := found
  simp only [getEvent, present]
  rfl

variable (store : MemoryStore)

/-- A create is refused, or its parent is there and it is carried out. -/
theorem create_cases (collection : Collection) (payload : Attributes) :
    (∃ error, create collection payload store =
      (.error error, store.noted (.create collection payload))) ∨
    store.state.missingParent? collection = none ∧
      create collection payload store = (.ok (store.state.nextObject collection payload),
        store.written (.create collection payload)) := by
  cases answer : (store.noted (.create collection payload)).injected? .create collection.kind
      payload with
  | some error =>
      left
      exact ⟨error, by simp only [create, answer]⟩
  | none =>
      cases parent : store.state.missingParent? collection with
      | some missing =>
          have absent : (store.noted (.create collection payload)).state.missingParent? collection =
              some missing := parent
          left
          exact ⟨notFound missing, by simp only [create, answer, absent]⟩
      | none =>
          have present : (store.noted (.create collection payload)).state.missingParent? collection =
              none := parent
          right
          refine ⟨rfl, ?_⟩
          simp only [create, answer, present]
          rfl

/-- An update is refused, or its object is there and it is carried out. -/
theorem update_cases (reference : ResourceRef) (fields : Attributes) :
    (∃ error, update reference fields store =
      (.error error, store.noted (.update reference fields.keys))) ∨
    ∃ object, store.state.find? reference = some object ∧
      update reference fields store =
        (.ok (withFields fields object), store.written (.update reference fields)) := by
  cases found : (store.noted (.update reference fields.keys)).state.find? reference with
  | none =>
      left
      exact ⟨notFound reference, by simp only [update, found]⟩
  | some object =>
      cases answer : (store.noted (.update reference fields.keys)).injected? .update reference.kind
          object.attributes with
      | some error =>
          left
          exact ⟨error, by simp only [update, found, answer]⟩
      | none =>
          right
          refine ⟨object, found, ?_⟩
          simp only [update, found, answer]
          rfl

/-- A delete is refused, or its object is there and it is carried out. -/
theorem delete_cases (reference : ResourceRef) :
    (∃ error, delete reference store = (.error error, store.noted (.delete reference))) ∨
    store.state.holds reference = true ∧
      delete reference store = (.ok (), store.written (.delete reference)) := by
  cases found : (store.noted (.delete reference)).state.find? reference with
  | none =>
      left
      exact ⟨notFound reference, by simp only [delete, found]⟩
  | some object =>
      cases answer : (store.noted (.delete reference)).injected? .delete reference.kind
          object.attributes with
      | some error =>
          left
          exact ⟨error, by simp only [delete, found, answer]⟩
      | none =>
          right
          refine ⟨Option.isSome_of_eq_some found, ?_⟩
          simp only [delete, found, answer]
          rfl

/-! ## What becomes of the state -/

/-- The store after it was asked for a write. -/
def sent (store : MemoryStore) : Write → MemoryStore
  | .create collection payload => (create collection payload store).2
  | .update reference fields => (update reference fields store).2
  | .delete reference => (delete reference store).2

theorem sent_cases (write : Write) :
    store.sent write = store.noted write.call ∨
      store.state.Allows write ∧ store.sent write = store.written write := by
  cases write with
  | create collection payload =>
      rcases create_cases store collection payload with ⟨error, ran⟩ | ⟨parentHeld, ran⟩
      · exact .inl (congrArg Prod.snd ran)
      · exact .inr ⟨parentHeld, congrArg Prod.snd ran⟩
  | update reference fields =>
      rcases update_cases store reference fields with ⟨error, ran⟩ | ⟨object, found, ran⟩
      · exact .inl (congrArg Prod.snd ran)
      · exact .inr ⟨Option.isSome_of_eq_some found, congrArg Prod.snd ran⟩
  | delete reference =>
      rcases delete_cases store reference with ⟨error, ran⟩ | ⟨held, ran⟩
      · exact .inl (congrArg Prod.snd ran)
      · exact .inr ⟨held, congrArg Prod.snd ran⟩

theorem became_sent (write : Write) : store.state.Became (store.sent write).state := by
  rcases sent_cases store write with refused | ⟨allowed, accepted⟩
  · rw [refused]
    exact .same
  · rw [accepted]
    exact .written write allowed store.clock.now

theorem became_getEvent (id : Nat) : store.state.Became (getEvent id store).2.state := by
  cases found : store.state.findEvent? id with
  | none =>
      rw [getEvent_of_none found]
      exact .same
  | some event =>
      rw [getEvent_of_some found]
      exact .revised id _ StoredEvent.id_advanced

/-- What holds of a state whatever it becomes is kept by every call. -/
theorem callsAgree_of_became {holds : StoreState → Prop}
    (closed : ∀ before after, before.Became after → holds before → holds after) :
    RemoteStore.CallsAgree (Kept fun store => holds store.state) remote remote where
  get _ := agree_kept_iff.mpr fun _ held => held
  list _ := agree_kept_iff.mpr fun _ held => held
  listEvents _ := agree_kept_iff.mpr fun _ held => held
  getEvent id := agree_kept_iff.mpr fun store => closed _ _ (became_getEvent store id)
  create collection payload :=
    agree_kept_iff.mpr fun store => closed _ _ (became_sent store (.create collection payload))
  update reference fields :=
    agree_kept_iff.mpr fun store => closed _ _ (became_sent store (.update reference fields))
  delete reference := agree_kept_iff.mpr fun store => closed _ _ (became_sent store (.delete reference))

/-! ## What is accepted -/

/-- Whether the store carries a write out when it is asked to. -/
def accepts (store : MemoryStore) : Write → Bool
  | .create collection payload => (create collection payload store).1.isOk
  | .update reference fields => (update reference fields store).1.isOk
  | .delete reference => (delete reference store).1.isOk

/-- Looking at a store adds to its journal and to nothing else. -/
def LookedAt (before after : MemoryStore) : Prop :=
  ∃ journal, after = { before with journal := journal }

theorem LookedAt.refl (store : MemoryStore) : LookedAt store store := ⟨store.journal, rfl⟩

theorem LookedAt.noted {before after : MemoryStore} (looked : LookedAt before after)
    (call : StoreCall) : LookedAt before (after.noted call) := by
  obtain ⟨journal, rfl⟩ := looked
  exact ⟨_, rfl⟩

theorem pagesAgree_lookedAt (before : MemoryStore) :
    RemoteStore.PagesAgree (Kept before.LookedAt) remote remote where
  get _ := agree_kept_iff.mpr fun _ looked => looked.noted _
  list _ := agree_kept_iff.mpr fun _ looked => looked.noted _
  listEvents _ := agree_kept_iff.mpr fun _ looked => looked.noted _

variable {before store : MemoryStore}

/-- A create is accepted if no rule refuses it and the parent is there. -/
theorem isOk_create (collection : Collection) (payload : Attributes) :
    (create collection payload store).1.isOk =
      ((store.injected? .create collection.kind payload).isNone &&
        (store.state.missingParent? collection).isNone) := by
  have answered : (store.noted (.create collection payload)).injected? .create collection.kind payload =
      store.injected? .create collection.kind payload := rfl
  have parent : (store.noted (.create collection payload)).state.missingParent? collection =
      store.state.missingParent? collection := rfl
  simp only [create, answered, parent]
  cases store.injected? .create collection.kind payload with
  | some error => rfl
  | none => cases store.state.missingParent? collection <;> rfl

/-- An update is accepted if its object is there and no rule refuses it. -/
theorem isOk_update (reference : ResourceRef) (fields : Attributes) :
    (update reference fields store).1.isOk = (store.state.find? reference).any fun object =>
      (store.injected? .update reference.kind object.attributes).isNone := by
  have stored : (store.noted (.update reference fields.keys)).state.find? reference =
      store.state.find? reference := rfl
  have answered : ∀ attributes, (store.noted (.update reference fields.keys)).injected? .update
      reference.kind attributes = store.injected? .update reference.kind attributes := fun _ => rfl
  simp only [update, stored, answered]
  cases store.state.find? reference with
  | none => rfl
  | some object =>
      rw [Option.any_some]
      dsimp only
      cases store.injected? .update reference.kind object.attributes <;> rfl

/-- Looks do not change what a store accepts. -/
theorem create_of_accepts {collection : Collection} {payload : Attributes}
    (accepted : before.accepts (.create collection payload) = true) (looked : before.LookedAt store) :
    create collection payload store = (.ok (store.state.nextObject collection payload),
      store.written (.create collection payload)) := by
  have stillAccepted : (create collection payload store).1.isOk = true := by
    obtain ⟨journal, rfl⟩ := looked
    rw [accepts, isOk_create] at accepted
    rw [isOk_create]
    exact accepted
  rcases create_cases store collection payload with ⟨error, ran⟩ | ⟨_, ran⟩
  · rw [ran] at stillAccepted
    cases stillAccepted
  · exact ran

theorem update_of_accepts {reference : ResourceRef} {fields : Attributes}
    (accepted : before.accepts (.update reference fields) = true) (looked : before.LookedAt store) :
    ∃ object, update reference fields store = (.ok object, store.written (.update reference fields)) := by
  have stillAccepted : (update reference fields store).1.isOk = true := by
    obtain ⟨journal, rfl⟩ := looked
    rw [accepts, isOk_update] at accepted
    rw [isOk_update]
    exact accepted
  rcases update_cases store reference fields with ⟨error, ran⟩ | ⟨object, _, ran⟩
  · rw [ran] at stillAccepted
    cases stillAccepted
  · exact ⟨_, ran⟩

end MemoryStore

end DesiredState
