import DesiredState.Proofs.Pass.Frame
import DesiredState.Proofs.Pass.Report
import DesiredState.Proofs.Store.Memory

/-!
# What a pass sends to a store in memory

A pass sends writes of its plan in their order, and all of them unless one is refused. On a store in
memory the plan says at which address its collections are, whether the top-level write is accepted or
not, and the objects in the end are explained by the writes that were accepted.
-/

set_option autoImplicit false

namespace DesiredState

open StoreState

namespace StoreState

def Finds (state : StoreState) (reference : ResourceRef) (found : Option RemoteObject) : Prop :=
  found = state.find? reference

def Lists (state : StoreState) (collection : Collection) (objects : List RemoteObject) : Prop :=
  objects = state.members collection

end StoreState

private theorem MemoryStore.shows (state : StoreState) :
    remote.Shows (fun store => store.state = state) state.Finds state.Lists where
  get := by
    rintro reference store answer after rfl ran
    cases ran
    exact ⟨rfl, rfl⟩
  list := by
    rintro collection store answer after rfl ran
    cases ran
    exact ⟨rfl, rfl⟩

/-- To read an object again is to look it up where it is. -/
theorem Schema.refetch_memory (reference : ResourceRef) (state : PassState MemoryStore) :
    refetch MemoryStore.remote reference state =
      ((state.store.state.find? reference).elim (.error (.vanished reference.text)) .ok,
        { state with store := state.store.noted (.get reference) }) := by
  simp only [refetch, PassState.call, MemoryStore.remote, MemoryStore.get]
  cases state.store.state.find? reference with
  | none => rfl
  | some object => rfl

theorem acceptedWritesOf_of_noneRefused {exchanges : List Exchange} (none : NoneRefused exchanges) :
    acceptedWritesOf exchanges = writesOf exchanges := by
  rw [acceptedWritesOf, writesOf, writesOf, List.filterMap_filter]
  refine List.filterMap_congr fun exchange member => ?_
  cases accepted : exchange.isAccepted with
  | true => rfl
  | false =>
      have reads := Exchange.isRead_of_not_isRefused (none exchange member) accepted
      rw [Exchange.write?_of_isRead reads]
      rfl

private theorem acceptedWritesOf_of_writesOf {exchanges : List Exchange} (none : writesOf exchanges = []) :
    acceptedWritesOf exchanges = [] :=
  List.filterMap_eq_nil_iff.mpr fun exchange member =>
    List.filterMap_eq_nil_iff.mp none exchange (List.mem_filter.mp member).1

/-- On a store in memory a pass goes on at the address that its action leads to. -/
theorem ResourceAction.GoesOnAt.address_eq {home : Collection} {exchanges : List Exchange}
    {action : ResourceAction} {parent : ResourceRef} (goesOn : action.GoesOnAt home exchanges parent)
    {initial : StoreState} {store : MemoryStore}
    (explained : MemoryStore.Explained initial ⟨store, exchanges⟩) :
    action.address home initial.nextId = parent := by
  cases goesOn with
  | found remote changes => rfl
  | reached reaches =>
      cases reaches with
      | @created payload object earlier later sent first =>
          obtain ⟨_, isNext⟩ := explained.answers earlier _ later sent
          rw [acceptedWritesOf_of_writesOf first] at isNext
          rw [isNext]
          rfl
      | unchanged remote => rfl
      | @reread remote object changes read =>
          obtain ⟨earlier, later, sent⟩ := List.append_of_mem read
          have answer := Except.ok.inj (explained.answers earlier _ later sent)
          exact (mem_of_find? answer.symm).2.symm

namespace PassRequest

/-- How a pass on a store in memory got from one state to another, failures or not. -/
structure Passed (request : PassRequest) (before after : MemoryStore) (plan : Plan)
    (exchanges : List Exchange) : Prop where
  planned : request.Planned before.state.Finds before.state.Lists plan
  sent : SentOf (plan.writes request.homeCollection
    (plan.action.address request.homeCollection before.state.nextId)) exchanges
  explained : MemoryStore.Explained before.state ⟨after, exchanges⟩
  journaled : MemoryStore.Journaled before.journal ⟨after, exchanges⟩

variable {request : PassRequest}

theorem Passed.accepted_sublist {before after : MemoryStore} {plan : Plan} {exchanges : List Exchange}
    (passed : request.Passed before after plan exchanges) :
    (acceptedWritesOf exchanges).Sublist (plan.writes request.homeCollection
      (plan.action.address request.homeCollection before.state.nextId)) :=
  (List.filter_sublist.filterMap _).trans passed.sent.sublist

theorem planned_of_plan_memory {store : MemoryStore} {plan : Plan}
    (planned : (request.plan MemoryStore.remote store).1 = .ok plan) :
    request.Planned store.state.Finds store.state.Lists plan := by
  rcases made : request.plan MemoryStore.remote store with ⟨answer, last⟩
  rw [made] at planned
  cases planned
  exact (planned_of_plan (MemoryStore.shows store.state) rfl made).1

/-- An update is planned of the object that the request names, as it was found. -/
theorem Planned.found_of_update {state : StoreState} {plan : Plan}
    (planned : request.Planned state.Finds state.Lists plan) {remote : RemoteObject}
    {changes : List FieldChange} (action : plan.action = .update remote changes) :
    request.target = .existing remote.reference ∧ state.find? remote.reference = some remote ∧
      request.schema.diff remote request.desired request.schema.mutabilityPolicy = .ok changes := by
  obtain ⟨found, fetched, acted⟩ := planned.action
  rw [action] at acted
  obtain ⟨rfl, differs⟩ := diff_of_action acted
  cases target : request.target with
  | new parent =>
      rw [target] at fetched
      cases fetched
  | existing reference =>
      rw [target] at fetched
      have inState : state.find? reference = some remote := Eq.symm fetched
      obtain ⟨_, rfl⟩ := mem_of_find? inState
      exact ⟨rfl, inState, differs⟩

theorem converge_passed {intervals : WaitIntervals} {state after : PassState MemoryStore}
    {report : PassReport}
    (ran : request.converge MemoryStore.remote intervals state = (.ok report, after)) :
    ∃ plan exchanges, (request.plan MemoryStore.remote state.store).1 = .ok plan ∧
      request.converge MemoryStore.remote.recorded intervals
          ⟨⟨state.store, []⟩, state.log, state.clock⟩ =
        (.ok report, ⟨⟨after.store, exchanges⟩, after.log, after.clock⟩) ∧
      request.Accounted plan ⟨⟨state.store, []⟩, state.log, state.clock⟩
        ⟨⟨after.store, exchanges⟩, after.log, after.clock⟩ exchanges report ∧
      request.Passed state.store after.store plan exchanges := by
  obtain ⟨plan, exchanges, planned, recorded, accounted⟩ := converge_accounted MemoryStore.remote ran
  refine ⟨plan, exchanges, planned, recorded, accounted, ?_⟩
  have explained : MemoryStore.Explained state.store.state ⟨after.store, exchanges⟩ :=
    kept_of_converge (MemoryStore.callsAgree_explained state.store.state) recorded
      (MemoryStore.explained_start state.store)
  constructor
  · exact planned_of_plan_memory planned
  · rcases accounted.sent with sent | ⟨parent, goesOn, sent⟩
    · exact sent _
    · rw [goesOn.address_eq explained]
      exact sent
  · exact explained
  · exact kept_of_converge (MemoryStore.callsAgree_journaled state.store.journal) recorded
      (List.append_nil _).symm

theorem prepare_of_startWaiter {store looked ready : MemoryStore} {plan : Plan}
    {intervals : WaitIntervals} {waiter : Option EventWaiter}
    (planned : request.plan MemoryStore.remote store = (.ok plan, looked))
    (started : request.startWaiter MemoryStore.remote intervals plan looked = (.ok waiter, ready)) :
    request.prepare MemoryStore.remote intervals store = (.ok (plan, waiter), ready) := by
  simp only [prepare, planned, started]

theorem prepare_of_plan {store looked : MemoryStore} {plan : Plan}
    (planned : request.plan MemoryStore.remote store = (.ok plan, looked))
    (intervals : WaitIntervals) :
    ∃ waiter last, request.prepare MemoryStore.remote intervals store = (.ok (plan, waiter), last) := by
  have started : ∃ waiter last,
      request.startWaiter MemoryStore.remote intervals plan looked = (.ok waiter, last) := by
    unfold startWaiter
    cases request.awaited? plan with
    | none => exact ⟨none, looked, rfl⟩
    | some action =>
        unfold EventWaiter.start
        dsimp only
        cases (awaitedFilter plan action).entityId with
        | none => exact ⟨_, _, rfl⟩
        | some id => exact ⟨_, _, rfl⟩
  obtain ⟨waiter, last, started⟩ := started
  exact ⟨waiter, last, prepare_of_startWaiter planned started⟩

/-- On a store in memory nothing but the plan can fail before the first write. -/
theorem converge_of_plan {state : PassState MemoryStore} {plan : Plan} {looked : MemoryStore}
    (planned : request.plan MemoryStore.remote state.store = (.ok plan, looked))
    (intervals : WaitIntervals) :
    ∃ report after, request.converge MemoryStore.remote intervals state = (.ok report, after) := by
  obtain ⟨waiter, last, prepared⟩ := prepare_of_plan planned intervals
  rw [converge_eq, prepared]
  exact ⟨_, _, rfl⟩

end PassRequest

end DesiredState
