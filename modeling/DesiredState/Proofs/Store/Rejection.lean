import DesiredState.Proofs.Store.Document

/-!
# Rejected writes

A store on disk rejects a write for one of two reasons. If its memory refuses the write, the call leaves
a line in the journal and nothing else. If the memory accepts the write and the document cannot be
saved, the caller is answered an error, but the write stays in memory: the reads after it see it, and its
event is in every document that is saved from then on.
-/

set_option autoImplicit false

namespace DesiredState

/-- The call that asks for a write. -/
def Write.request : Write → RemoteCall
  | .create collection payload => .create collection payload
  | .update reference fields => .update reference fields
  | .delete reference => .delete reference

namespace Exchange

private theorem savesState_of_isRefused {exchange : Exchange} (refused : exchange.isRefused = true) :
    exchange.savesState = false := by
  cases exchange with
  | create collection payload answer =>
      cases answer with
      | error error => rfl
      | ok object => cases refused
  | update reference fields answer =>
      cases answer with
      | error error => rfl
      | ok object => cases refused
  | delete reference answer =>
      cases answer with
      | error error => rfl
      | ok done => cases refused
  | get _ _ | list _ _ | listEvents _ _ | getEvent _ _ => cases refused

end Exchange

private theorem Write.perform_request (write : Write) (memory : MemoryStore) :
    (write.request.perform MemoryStore.remote memory).1.savesState = memory.accepts write ∧
      (write.request.perform MemoryStore.remote memory).2 = memory.sent write := by
  cases write <;> exact ⟨rfl, rfl⟩

namespace HandleAction

private theorem memory_perform_call (store : DocumentStore) (request : RemoteCall) :
    (perform store (.call request)).memory = request.action.perform store.memory := by
  rw [perform, DocumentStore.perform_remote, ← RemoteCall.perform_memory]
  cases saves : (request.perform MemoryStore.remote store.memory).1.savesState with
  | false => rw [DocumentStore.afterExchange_of_not_savesState saves]
  | true => rw [(DocumentStore.afterExchange_of_savesState saves _ _).1]

/-- Whatever is done with a store on disk, the log in its memory keeps every event it holds. -/
theorem headings_perform (store : DocumentStore) (action : HandleAction) :
    store.memory.state.headings <+: (action.perform store).memory.state.headings := by
  cases action with
  | call request =>
      rw [memory_perform_call]
      exact (request.action.filed_perform store.memory).headings_extend
  | save => exact List.prefix_rfl
  | prepare action => exact (action.filed_perform store.memory).headings_extend

/-- What an action saves is what the memory holds behind it. -/
theorem eq_of_savedState? {store : DocumentStore} {action : HandleAction} {saved : StoreState}
    (saves : action.savedState? store = some saved) : saved = (action.perform store).memory.state := by
  cases action with
  | call request =>
      unfold savedState? at saves
      dsimp only at saves
      split at saves
      · exact (Option.some.inj saves).symm
      · cases saves
  | save =>
      rw [savedState?] at saves
      split at saves
      · exact (Option.some.inj saves).symm
      · cases saves
  | prepare action => cases saves

end HandleAction

namespace DocumentStore

/-- Every state that is saved later holds the events that are in memory now. -/
theorem headings_savedStates (store : DocumentStore) (actions : List HandleAction) :
    ∀ saved ∈ store.savedStates actions, store.memory.state.headings <+: saved.headings := by
  induction actions generalizing store with
  | nil => exact fun _ member => nomatch member
  | cons action rest ih =>
      intro saved member
      rw [savedStates, List.mem_append, Option.mem_toList] at member
      rcases member with now | later
      · rw [HandleAction.eq_of_savedState? now]
        exact action.headings_perform store
      · exact (action.headings_perform store).trans (ih (action.perform store) saved later)

/-- A rejected write has no effect exactly as far as the memory refused it: the document is not touched
either way, but a write that the memory accepted is in the reads and in the documents that follow. -/
theorem rejected_write {store : DocumentStore} (anchored : store.Anchored) (write : Write)
    (rejected : (write.request.perform remote store).1.isRefused = true) :
    (write.request.perform remote store).2.document? = store.document? ∧
    (store.memory.accepts write = false →
      (write.request.perform remote store).2 = { store with memory := store.memory.noted write.call }) ∧
    (store.memory.accepts write = true →
      (∃ error, (write.request.perform remote store).1 =
        (write.request.perform MemoryStore.remote store.memory).1.failed (.backend (.document error))) ∧
      (write.request.perform remote store).2.memory = store.memory.written write ∧
      ∀ disk actions, ∀ saved ∈
          ({ (write.request.perform remote store).2 with disk } : DocumentStore).savedStates actions,
        (store.memory.state.eventOf write .finished store.memory.clock.now).heading ∈ saved.headings) := by
  obtain ⟨saves, sent⟩ := write.perform_request store.memory
  have step := HandleAction.step anchored (.call write.request)
  have unsaved := Exchange.savesState_of_isRefused rejected
  refine ⟨?_, fun refused => ?_, fun accepted => ?_⟩
  · refine step.document.trans ?_
    simp only [HandleAction.savedState?, unsaved]
    rfl
  · rw [refused] at saves
    rw [perform_remote, afterExchange_of_not_savesState saves, sent, MemoryStore.sent_eq, refused]
    rfl
  · rw [accepted] at saves
    rw [MemoryStore.sent_eq, accepted, if_pos rfl] at sent
    have memory : (write.request.perform remote store).2.memory = store.memory.written write := by
      rw [perform_remote, (afterExchange_of_savesState saves _ _).1, sent]
    refine ⟨?_, memory, fun disk actions saved member => ?_⟩
    · rw [perform_remote, afterExchange, saves, if_pos rfl] at unsaved ⊢
      split at unsaved
      · rw [saves] at unsaved
        cases unsaved
      · exact ⟨_, rfl⟩
    · have kept := headings_savedStates _ actions saved member
      refine kept.subset ?_
      dsimp only
      rw [memory, MemoryStore.written, StoreState.headings_written]
      exact List.mem_append_right _ List.mem_cons_self

/-- An empty store with a directory in the place of its temporary file. -/
def blockedStore : DocumentStore :=
  ⟨[], "default", .ofState .empty (.stopped .epoch),
    (Disk.empty.makeDirectory [".converge", "state", "default.json.tmp"]).2⟩

def firewallCreation : Write := .create ⟨"firewall", none⟩ ∅

/-- No document can be saved beside the directory, so the creation is rejected and stays in memory. -/
theorem rejected_write_firewallCreation :
    blockedStore.Anchored ∧ (firewallCreation.request.perform remote blockedStore).1.isRefused = true ∧
      (firewallCreation.request.perform remote blockedStore).2.memory =
        blockedStore.memory.written firewallCreation := by
  have anchored : blockedStore.Anchored := anchored_of_down (by decide)
  have rejected : (firewallCreation.request.perform remote blockedStore).1.isRefused = true := by decide
  exact ⟨anchored, rejected, ((rejected_write anchored firewallCreation rejected).2.2 (by decide)).2.1⟩

/-- A rejected creation shows up in the next list, and in the document once one can be saved. -/
theorem rejected_write_not_undone :
    (firewallCreation.request.perform remote blockedStore).1.isRefused = true ∧
      (remote.list ⟨"firewall", none⟩ blockedStore).1 = .ok [] ∧
      (remote.list ⟨"firewall", none⟩ (firewallCreation.request.perform remote blockedStore).2).1 =
        .ok [⟨.top "firewall" 1, .ofList [("id", .ofNat 1)]⟩] ∧
      (({ (firewallCreation.request.perform remote blockedStore).2 with
          disk := .empty } : DocumentStore).savedStates [.save]).map StoreState.headings =
        [[⟨1, "firewall", 1, "firewall_create", .scheduled, .epoch⟩]] := by
  refine ⟨by decide, rfl, rfl, ?_⟩
  decide

end DocumentStore

end DesiredState
