import DesiredState.Proofs.Pass.Agreement
import DesiredState.Schema.Catalog
import DesiredState.Store.Document

/-!
# What happens before the first write

A plan is made by looks alone, and a pass that fails has done nothing but read: every way to fail
lies before the first write. On a store in memory or on disk such reads leave everything as it was.
-/

set_option autoImplicit false

namespace DesiredState

open RemoteStore

namespace MemoryStore

/-- A store in memory has been read since, and nothing more: the state is the same, and the journal
has got no write. -/
structure ReadSince (before after : MemoryStore) : Prop where
  state : after.state = before.state
  journal : ∃ calls, after.journal = before.journal ++ calls ∧
    ∀ call ∈ calls, call.isMutation = false

theorem ReadSince.refl (store : MemoryStore) : store.ReadSince store := ⟨rfl, [], by simp⟩

theorem ReadSince.noted {before after : MemoryStore} (since : before.ReadSince after) {call : StoreCall}
    (reads : call.isMutation = false) : before.ReadSince (after.noted call) where
  state := since.state
  journal := by
    obtain ⟨calls, journal, others⟩ := since.journal
    refine ⟨calls ++ [call], by simp [MemoryStore.noted, journal], fun other member => ?_⟩
    rcases List.mem_append.mp member with earlier | last
    · exact others other earlier
    · rwa [List.mem_singleton.mp last]

theorem pagesAgree_readSince (before : MemoryStore) :
    PagesAgree (Kept before.ReadSince) remote remote where
  get _ := agree_kept_iff.mpr fun _ since => since.noted rfl
  list _ := agree_kept_iff.mpr fun _ since => since.noted rfl
  listEvents _ := agree_kept_iff.mpr fun _ since => since.noted rfl

end MemoryStore

private theorem DocumentStore.pagesAgree_disk (state : StoreState) (disk : Disk) :
    PagesAgree (Kept fun store : DocumentStore => store.memory.state = state ∧ store.disk = disk)
      remote remote where
  get _ := agree_kept_iff.mpr fun _ same => same
  list _ := agree_kept_iff.mpr fun _ same => same
  listEvents _ := agree_kept_iff.mpr fun _ same => same

namespace PassRequest

variable {σ : Type} (store : RemoteStore σ) (request : PassRequest)

private theorem plan_recorded (state : σ) (before : List Exchange) :
    ∃ looks : List Exchange, (∀ exchange ∈ looks, exchange.isLook = true) ∧
      request.plan store.recorded ⟨state, before⟩ =
        ((request.plan store state).1, ⟨(request.plan store state).2, before ++ looks⟩) := by
  obtain ⟨answer, after, recorded, ran, otherRan, same, looks, exchanges, fine⟩ :=
    (agree_plan (looksAgree_recorded store before) request).run (Recorded.traces_start state before _)
  refine ⟨looks, fine, ?_⟩
  rw [otherRan, ran]
  cases recorded
  cases same
  cases exchanges
  rfl

variable {store request} {intervals : WaitIntervals}

private theorem prepare_of_converge_error {state after : PassState σ} {error : PassError}
    (failed : request.converge store intervals state = (.error error, after)) :
    ∃ last, request.prepare store intervals state.store = (.error error, last) ∧
      after = { state with store := last } := by
  rw [converge_eq] at failed
  rcases prepared : request.prepare store intervals state.store with ⟨answer, last⟩
  rw [prepared] at failed
  cases answer with
  | error other =>
      cases failed
      exact ⟨last, rfl, rfl⟩
  | ok made => cases failed

/-- A failed pass leaves alone whatever the looks and the pages leave alone. -/
theorem kept_of_converge_error {holds : σ → Prop}
    (kept : PagesAgree (Kept holds) store store) {state after : PassState σ} {error : PassError}
    (failed : request.converge store intervals state = (.error error, after))
    (start : holds state.store) : holds after.store := by
  obtain ⟨last, prepared, rfl⟩ := prepare_of_converge_error failed
  have held := agree_kept_iff.mp (agree_prepare kept request intervals) state.store start
  rw [prepared] at held
  exact held

theorem kept_of_plan {holds : σ → Prop} (kept : LooksAgree (Kept holds) store store) {state : σ}
    (start : holds state) : holds (request.plan store state).2 :=
  agree_kept_iff.mp (agree_plan kept request) state start

/-- A failed pass has noted nothing and only read. -/
theorem converge_recorded_of_error {state after : PassState σ} {error : PassError}
    (failed : request.converge store intervals state = (.error error, after)) :
    after.log = state.log ∧ ∃ reads : List Exchange, (∀ exchange ∈ reads, exchange.isRead = true) ∧
      request.converge store.recorded intervals ⟨⟨state.store, []⟩, state.log, state.clock⟩ =
        (.error error, ⟨⟨after.store, reads⟩, after.log, after.clock⟩) := by
  obtain ⟨last, prepared, rfl⟩ := prepare_of_converge_error failed
  obtain ⟨answer, _, recorded, ran, otherRan, same, reads, exchanges, fine⟩ :=
    (agree_prepare (readsAgree_recorded store []).toPagesAgree request intervals).run
      (Recorded.traces_start state.store [] _)
  cases ran.symm.trans prepared
  cases recorded
  cases same
  cases exchanges
  refine ⟨rfl, reads, fine, ?_⟩
  rw [converge_eq, otherRan]

/-- Failures come before the first write. On every store a plan looks at objects and collections
and does nothing else, and a pass that fails has noted nothing and only read. So a store in memory
keeps its state, and one on disk keeps its state and the disk. -/
theorem failure_precedes_writes (store : RemoteStore σ) (request : PassRequest)
    (intervals : WaitIntervals) :
    (∀ state : σ, ∃ looks : List Exchange, (∀ exchange ∈ looks, exchange.isLook = true) ∧
      request.plan store.recorded ⟨state, []⟩ =
        ((request.plan store state).1, ⟨(request.plan store state).2, looks⟩)) ∧
    (∀ (state after : PassState σ) (error : PassError),
      request.converge store intervals state = (.error error, after) →
        after.log = state.log ∧
        ∃ reads : List Exchange, (∀ exchange ∈ reads, exchange.isRead = true) ∧
          request.converge store.recorded intervals ⟨⟨state.store, []⟩, state.log, state.clock⟩ =
            (.error error, ⟨⟨after.store, reads⟩, after.log, after.clock⟩)) ∧
    (∀ memory : MemoryStore, (request.plan MemoryStore.remote memory).2.state = memory.state) ∧
    (∀ (state after : PassState MemoryStore) (error : PassError),
      request.converge MemoryStore.remote intervals state = (.error error, after) →
        after.store.state = state.store.state) ∧
    (∀ document : DocumentStore,
      (request.plan DocumentStore.remote document).2.memory.state = document.memory.state ∧
        (request.plan DocumentStore.remote document).2.disk = document.disk) ∧
    (∀ (state after : PassState DocumentStore) (error : PassError),
      request.converge DocumentStore.remote intervals state = (.error error, after) →
        after.store.memory.state = state.store.memory.state ∧
          after.store.disk = state.store.disk) := by
  refine ⟨fun state => ?_, fun state after error failed => ?_, fun memory => ?_,
    fun state after error failed => ?_, fun document => ?_, fun state after error failed => ?_⟩
  · exact plan_recorded store request state []
  · exact converge_recorded_of_error failed
  · exact (kept_of_plan (MemoryStore.pagesAgree_readSince memory).toLooksAgree (.refl memory)).state
  · exact (kept_of_converge_error (MemoryStore.pagesAgree_readSince state.store) failed
      (.refl state.store)).state
  · exact kept_of_plan
      (DocumentStore.pagesAgree_disk document.memory.state document.disk).toLooksAgree ⟨rfl, rfl⟩
  · exact kept_of_converge_error
      (DocumentStore.pagesAgree_disk state.store.memory.state state.store.disk) failed ⟨rfl, rfl⟩

/-- A cluster in one region that is desired in another, on a store in memory with nothing else. -/
def movedCluster : PassRequest × PassState MemoryStore :=
  (.of Catalog.lkeCluster (.existing (.top "lke_cluster" 1))
      ((∅ : Attributes).insert "region" (.string "us")),
    ⟨.ofState ⟨1, 0, 0, [⟨.top "lke_cluster" 1, (∅ : Attributes).insert "region" (.string "eu")⟩], []⟩
      (.stopped .epoch), [], 0⟩)

theorem failure_precedes_writes_movedCluster :
    ∃ after, movedCluster.1.converge MemoryStore.remote .standard movedCluster.2 =
        (.error (.nonMutableField "lke_cluster/1" "region"), after) ∧
      after.log = [] ∧ after.store.state = movedCluster.2.store.state := by
  obtain ⟨_, failed, _, memory, _⟩ :=
    failure_precedes_writes MemoryStore.remote movedCluster.1 .standard
  exact ⟨_, rfl, (failed movedCluster.2 _ _ rfl).1, memory movedCluster.2 _ _ rfl⟩

end PassRequest

end DesiredState
