import DesiredState.Proofs.Pass.Aside
import DesiredState.Proofs.Pass.ReadOnly
import DesiredState.Proofs.Wait.Timing

/-!
# Waiting for one's own event

A pass that waits for the event of its top-level write finds that very event, whatever the log held
before, and finds it finished as soon as the latency of the store allows.
-/

set_option autoImplicit false

namespace DesiredState

open StoreState

/-- The top-level write is about the object that a plan leads to. -/
theorem ResourceAction.address_of_writes {home : Collection} {action : ResourceAction} {write : Write}
    (writes : action.writes home = [write]) (nextId : Nat) :
    action.address home nextId = write.address nextId := by
  cases action with
  | create payload =>
      obtain rfl := List.singleton_inj.mp writes
      rfl
  | update remote changes =>
      cases changes with
      | nil => cases writes
      | cons change rest =>
          obtain rfl := List.singleton_inj.mp writes
          rfl

namespace PassRequest

variable {request : PassRequest} {intervals : WaitIntervals} {store : MemoryStore} {plan : Plan}
  {write : Write}

/-- What watches for the event of a top-level write. -/
def ownWaiter (request : PassRequest) (intervals : WaitIntervals) (state : StoreState) (write : Write) :
    EventWaiter :=
  let filter : EventFilter :=
    ⟨request.schema.kind, some (write.address state.nextId).id,
      request.schema.eventAction write.operation⟩
  ⟨filter, .seeded (state.page filter), intervals⟩

/-- The top-level write was carried out as the first one, and is watched for. -/
structure TopLevel.Wrote (request : PassRequest) (intervals : WaitIntervals) (before : MemoryStore)
    (write : Write) (clock : Nat) (top : TopLevel MemoryStore) : Prop where
  state : top.state.store.state = before.state.written write before.clock.now
  clock : top.state.clock = clock
  waiter : top.waiter = some (request.ownWaiter intervals before.state write)
  unread : top.report.object = none
  reached : ∃ object, top.reached = some (object, true) ∧
    object.reference = write.address before.state.nextId

/-! ## The write -/

private theorem page_of_absent {state : StoreState} {filter : EventFilter} {id : Nat}
    (entity : filter.entityId = some id) (absent : ∀ record ∈ state.records, record.entityId ≠ id) :
    state.page filter = [] := by
  have none : state.records.filter filter.accepts = [] := by
    rw [List.filter_eq_nil_iff]
    intro record member accepted
    simp only [EventFilter.accepts, entity, Option.all_some, Bool.and_eq_true, beq_iff_eq] at accepted
    exact absent record member accepted.2
  simp [page, none]

private theorem createTop_wrote {ready : MemoryStore} (looked : store.LookedAt ready) {payload : Attributes}
    (accepted : store.accepts (.create request.homeCollection payload) = true)
    (given : ∀ record ∈ store.state.records, record.entityId ≤ store.state.nextId)
    (label : String) (log : List String) (clock : Nat) :
    TopLevel.Wrote request intervals store (.create request.homeCollection payload) clock
      (request.createTop MemoryStore.remote payload
        (some ⟨⟨request.schema.kind, none, request.schema.eventAction .create⟩, .empty, intervals⟩)
        (.start label) ⟨ready, log, clock⟩) := by
  have ran := MemoryStore.create_of_accepts accepted looked
  obtain ⟨journal, rfl⟩ := looked
  simp only [createTop, PassState.call, MemoryStore.remote, ran]
  refine ⟨rfl, rfl, ?_, rfl, _, rfl, rfl⟩
  have none : store.state.page ⟨request.schema.kind, some (store.state.nextId + 1),
      request.schema.eventAction .create⟩ = [] := by
    apply page_of_absent rfl
    intro record member same
    have := given record member
    omega
  simp only [ownWaiter, Write.address, Write.operation, ResourceRef.id_under, none]
  rw [Option.map_some, EventWaiter.withEntityId, nextObject, id_newObject]
  rfl

private theorem updateTop_wrote {ready : MemoryStore} (looked : store.LookedAt ready) {remote : RemoteObject}
    {change : FieldChange} {rest : List FieldChange}
    (sendable : request.schema.Sendable (change :: rest))
    (accepted : store.accepts
      (.update remote.reference (FieldChange.applyAll (change :: rest) ∅)) = true)
    (label : String) (log : List String) (clock : Nat) :
    TopLevel.Wrote request intervals store
      (.update remote.reference (FieldChange.applyAll (change :: rest) ∅)) clock
      (request.updateTop MemoryStore.remote remote (change :: rest)
        (some (request.ownWaiter intervals store.state
          (.update remote.reference (FieldChange.applyAll (change :: rest) ∅))))
        (.start label) ⟨ready, log, clock⟩) := by
  obtain ⟨object, ran⟩ := MemoryStore.update_of_accepts accepted looked
  obtain ⟨journal, rfl⟩ := looked
  have sent : (⟨{ store with journal := journal }, log, clock⟩ : PassState MemoryStore).call
      (MemoryStore.remote.update remote.reference (FieldChange.applyAll (change :: rest) ∅)) =
      (.ok object, ⟨({ store with journal := journal } : MemoryStore).written
        (.update remote.reference (FieldChange.applyAll (change :: rest) ∅)), log, clock⟩) := by
    simp only [PassState.call, MemoryStore.remote, ran]
  simp only [updateTop, Schema.applyChanges, List.isEmpty_cons, Bool.false_eq_true, if_false,
    Schema.updateBody_of_sendable sendable, sent, PassState.noted, Schema.refetch_memory]
  generalize found : StoreState.find? _ remote.reference = reread
  cases reread with
  | none => exact ⟨rfl, rfl, rfl, rfl, remote, rfl, rfl⟩
  | some object => exact ⟨rfl, rfl, rfl, rfl, object, rfl, (mem_of_find? found).2⟩

private theorem startWaiter_create {payload : Attributes} (action : plan.action = .create payload)
    (schema : plan.schema = request.schema) (unnamed : request.awaitAction = none)
    (intervals : WaitIntervals) (store : MemoryStore) :
    request.startWaiter MemoryStore.remote intervals plan store =
      (.ok (some ⟨⟨request.schema.kind, none, request.schema.eventAction .create⟩, .empty, intervals⟩),
        store) := by
  have awaited : request.awaited? plan = some (request.schema.eventAction .create) := by
    simp only [awaited?, unnamed, Plan.defaultAction?, action, schema, Option.none_or]
  simp only [startWaiter, awaited, awaitedFilter, action, schema, EventWaiter.start]

private theorem startWaiter_update {remote : RemoteObject} {change : FieldChange} {rest : List FieldChange}
    (action : plan.action = .update remote (change :: rest)) (schema : plan.schema = request.schema)
    (unnamed : request.awaitAction = none) (intervals : WaitIntervals) (store : MemoryStore) :
    ∃ call, request.startWaiter MemoryStore.remote intervals plan store =
      (.ok (some (request.ownWaiter intervals store.state
        (.update remote.reference (FieldChange.applyAll (change :: rest) ∅)))), store.noted call) := by
  have awaited : request.awaited? plan = some (request.schema.eventAction .update) := by
    simp only [awaited?, unnamed, Plan.defaultAction?, action, schema, Option.none_or]
  refine ⟨.listEvents (awaitedFilter plan (request.schema.eventAction .update)), ?_⟩
  simp only [startWaiter, awaited, awaitedFilter, action, schema, EventWaiter.start]
  rfl

/-- The waiter is there before the write, and the write is the first one. -/
theorem prepare_wrote {looked : MemoryStore}
    (planned : request.plan MemoryStore.remote store = (.ok plan, looked))
    (unnamed : request.awaitAction = none)
    (writes : plan.action.writes request.homeCollection = [write])
    (accepted : store.accepts write = true)
    (given : ∀ record ∈ store.state.records, record.entityId ≤ store.state.nextId)
    (intervals : WaitIntervals) :
    ∃ waiter ready, request.prepare MemoryStore.remote intervals store = (.ok (plan, waiter), ready) ∧
      ∀ log clock, TopLevel.Wrote request intervals store write clock
        (request.applyTop MemoryStore.remote plan.action waiter (.start plan.label)
          ⟨ready, log, clock⟩) := by
  have follows := planned_of_plan_memory (congrArg Prod.fst planned)
  have lookedAt : store.LookedAt (request.plan MemoryStore.remote store).2 :=
    kept_of_plan (MemoryStore.pagesAgree_lookedAt store).toLooksAgree (.refl store)
  rw [planned] at lookedAt
  cases action : plan.action with
  | create payload =>
      rw [action] at writes
      obtain rfl : .create request.homeCollection payload = write := List.singleton_inj.mp writes
      have started := startWaiter_create action follows.schema unnamed intervals looked
      exact ⟨_, looked, prepare_of_startWaiter planned started,
        createTop_wrote lookedAt accepted given plan.label⟩
  | update remote changes =>
      rw [action] at writes
      cases changes with
      | nil => cases writes
      | cons change rest =>
          obtain rfl : .update remote.reference (FieldChange.applyAll (change :: rest) ∅) = write :=
            List.singleton_inj.mp writes
          have sendable : request.schema.Sendable (change :: rest) :=
            follows.schema ▸ follows.sendable.action remote (change :: rest) action
          obtain ⟨call, started⟩ := startWaiter_update action follows.schema unnamed intervals looked
          obtain ⟨journal, rfl⟩ := lookedAt
          exact ⟨_, _, prepare_of_startWaiter planned started,
            updateTop_wrote (.noted ⟨journal, rfl⟩ call) sendable accepted plan.label⟩

/-! ## The wait -/

/-- Whatever else is filed on the side, the first event that is new to the waiter is that of the write. -/
theorem ownWaiter_awaits {state after : StoreState} (wellFormed : state.WellFormed)
    {now : Timestamp} (dated : ∀ record ∈ state.records, record.createdAt.rank ≤ now.rank)
    (kind : (write.address state.nextId).kind = request.schema.kind)
    (beside : FiledBeside request.schema.kind (state.written write now) after)
    (intervals : WaitIntervals) :
    (request.ownWaiter intervals state write).Awaits after
      (state.eventOf write (firstStatus state.eventLatency.toNat) now) state.eventLatency.toNat := by
  let filter := (request.ownWaiter intervals state write).filter
  let newest := state.eventOf write (firstStatus state.eventLatency.toNat) now
  have accepted : filter.accepts newest = true := by
    simp [filter, newest, ownWaiter, EventFilter.accepts, eventOf, nextRecord, kind, Schema.eventAction]
  have filed : after.records.filter filter.accepts = state.records.filter filter.accepts ++ [newest] := by
    have alone : [newest].filter filter.accepts = [newest] := List.filter_cons_of_pos accepted
    rw [beside.filter_records rfl, records, events_written, List.map_append, List.filter_append]
    exact congrArg _ alone
  have latest : ∀ record ∈ state.records,
      record.id < newest.id ∧ record.createdAt.rank ≤ newest.createdAt.rank := fun record member =>
    ⟨Nat.lt_succ_of_le (wellFormed.eventId_le record member), dated record member⟩
  obtain ⟨older, page, seen⟩ := page_of_newest filed wellFormed.eventIds_nodup latest
  have fresh : ∀ record ∈ state.page filter, record.id ≠ newest.id := fun record member =>
    Nat.ne_of_lt (latest record (page_subset state filter member)).1
  constructor
  · rw [page]
    exact EventWaiter.firstUnseen?_of_newest rfl seen accepted fresh
  · rfl
  · exact beside.findEvent? (findEvent?_written wellFormed.eventId_le write now)

section

variable {waiter : EventWaiter} {state : PassState MemoryStore} {event : EventRecord} {latency : Nat}
  {budget : Budget}

private theorem awaitStep_completed (block : request.wait = .block)
    (awaits : waiter.Awaits state.store.state event latency) (positive : 0 < waiter.intervals.terminal)
    (inTime : state.clock + EventWaiter.unfinishedLooks latency * waiter.intervals.terminal <
      budget.deadline) (report : PassReport) :
    ∃ last, request.awaitStep MemoryStore.remote (some waiter) true budget report state =
        ({ report with completion := .completed { event with status := .finished } },
          ⟨last, state.log,
            state.clock + EventWaiter.unfinishedLooks latency * waiter.intervals.terminal⟩) ∧
      { event with status := .finished } ∈ last.state.records := by
  obtain ⟨last, ended, isThere⟩ := awaits.completed positive inTime
  refine ⟨last, ?_, isThere⟩
  simp only [awaitStep, block, awaitCompletion, awaitBlocking, ended, Bool.true_or, if_true,
    List.append_nil]

private theorem awaitStep_timeout (block : request.wait = .block)
    (awaits : waiter.Awaits state.store.state event latency) (positive : 0 < waiter.intervals.terminal)
    (begun : state.clock ≤ budget.deadline)
    (late : budget.deadline ≤
      state.clock + EventWaiter.unfinishedLooks latency * waiter.intervals.terminal)
    (report : PassReport) :
    ∃ what last, request.awaitStep MemoryStore.remote (some waiter) true budget report state =
      ({ report with
          completion := .timedOut
          errors := report.errors ++ [budget.timeout what budget.deadline] },
        ⟨last, state.log, budget.deadline⟩) := by
  obtain ⟨what, ⟨_, last⟩, ended⟩ := awaits.timeout positive begun late
  refine ⟨what, last, ?_⟩
  simp only [awaitStep, block, awaitCompletion, awaitBlocking, ended, Bool.true_or, if_true,
    Budget.timeout, PassError.isTimeout]

end

private theorem finish_memory (reference : ResourceRef) (report : PassReport)
    (state : PassState MemoryStore) :
    ∃ last, finish MemoryStore.remote reference report state =
        (last, { state with store := state.store.noted (.get reference) }) ∧
      last.completion = report.completion := by
  simp only [finish, Schema.refetch_memory]
  cases state.store.state.find? reference with
  | none => exact ⟨_, rfl, rfl⟩
  | some object => exact ⟨_, rfl, rfl⟩

/-! ## The whole pass -/

/-- After the top-level write and the work on the collections the pass waits for the event of the
write. -/
theorem carryOut_of_wrote (planned : request.Planned store.state.Finds store.state.Lists plan)
    (catalog : request.schema ∈ Catalog.all)
    (writes : plan.action.writes request.homeCollection = [write]) {waiter : Option EventWaiter}
    {ready : MemoryStore} {log : List String} {clock : Nat}
    (wrote : TopLevel.Wrote request intervals store write clock
      (request.applyTop MemoryStore.remote plan.action waiter (.start plan.label) ⟨ready, log, clock⟩))
    (budget : Budget) :
    ∃ reference report middle, report.object = none ∧ middle.clock = clock ∧
      FiledBeside request.schema.kind (store.state.written write store.clock.now) middle.store.state ∧
      ∀ waited last, request.awaitStep MemoryStore.remote
          (some (request.ownWaiter intervals store.state write)) true budget report middle =
            (waited, last) →
        request.carryOut MemoryStore.remote plan waiter budget ⟨ready, log, clock⟩ =
          if waited.completion = .timedOut then (waited, last)
          else finish MemoryStore.remote reference waited last := by
  obtain ⟨object, reached, same⟩ := wrote.reached
  have within := planned.withinParent request.homeCollection
  rw [ResourceAction.address_of_writes writes, ← same] at within
  obtain ⟨report, middle, ran, aside, unread⟩ := aside_applyCollections within
    (planned.foreign catalog)
    (request.applyTop MemoryStore.remote plan.action waiter (.start plan.label) ⟨ready, log, clock⟩).report
    (request.applyTop MemoryStore.remote plan.action waiter (.start plan.label) ⟨ready, log, clock⟩).state
  refine ⟨object.reference, report, middle, unread.trans wrote.unread,
    aside.clock.trans wrote.clock, ?_, ?_⟩
  · rw [← wrote.state]
    exact aside.filed
  · intro waited last awaited
    simp only [carryOut, reached, wrote.waiter, ran, awaited]

/-- The object of a request is of its kind, be it there or to be made. -/
theorem Planned.kind_address {state : StoreState}
    (planned : request.Planned state.Finds state.Lists plan)
    (sameKind : ∀ reference, request.target = .existing reference →
      reference.kind = request.schema.kind) :
    (plan.action.address request.homeCollection state.nextId).kind = request.schema.kind := by
  cases action : plan.action with
  | create payload => exact ResourceRef.kind_under _ _ _
  | update remote changes => exact sameKind remote.reference (planned.found_of_update action).1

/-- A pass that waits for its top-level write reports the event of that very write, finished, after as
many intervals as the latency of the store wants, or else runs out of time. The log may hold any events
of objects that there were, as long as none is dated later than the write. -/
theorem converge_reports_own_event (request : PassRequest) (intervals : WaitIntervals)
    (state : PassState MemoryStore) (plan : Plan) (looked : MemoryStore) (write : Write)
    (wellFormed : state.store.state.WellFormed)
    (past : ∀ record ∈ state.store.state.records, record.entityId ≤ state.store.state.nextId ∧
      record.createdAt.rank ≤ state.store.clock.now.rank)
    (catalog : request.schema ∈ Catalog.all)
    (sameKind : ∀ reference, request.target = .existing reference →
      reference.kind = request.schema.kind)
    (unnamed : request.awaitAction = none) (block : request.wait = .block)
    (positive : 0 < intervals.terminal)
    (planned : request.plan MemoryStore.remote state.store = (.ok plan, looked))
    (writes : plan.action.writes request.homeCollection = [write])
    (accepted : state.store.accepts write = true) :
    let own := state.store.state.eventOf write .finished state.store.clock.now
    let waited := EventWaiter.unfinishedLooks state.store.state.eventLatency.toNat * intervals.terminal
    ∃ report after, request.converge MemoryStore.remote intervals state = (.ok report, after) ∧
      if waited < request.timeout then
        report.completion = .completed own ∧ own ∈ after.store.state.records ∧
          after.clock = state.clock + waited
      else
        report.completion = .timedOut ∧ report.object = none ∧
          (∃ what errors, report.errors =
            errors ++ [.timeoutExceeded what (.ofMillis request.timeout)]) ∧
          after.clock = state.clock + request.timeout := by
  intro own waited
  have follows := planned_of_plan_memory (congrArg Prod.fst planned)
  obtain ⟨waiter, ready, prepared, wrote⟩ := prepare_wrote planned unnamed writes accepted
    (fun record member => (past record member).1) intervals
  obtain ⟨reference, report, middle, unread, clock, beside, carried⟩ := carryOut_of_wrote follows
    catalog writes (wrote state.log state.clock) (.starting state.clock request.timeout)
  have kind := follows.kind_address sameKind
  rw [ResourceAction.address_of_writes writes] at kind
  have awaits := ownWaiter_awaits wellFormed (fun record member => (past record member).2) kind beside
    intervals
  have deadline : (Budget.starting state.clock request.timeout).deadline =
      state.clock + request.timeout := rfl
  rw [converge_eq, prepared]
  by_cases inTime : waited < request.timeout
  · have early : middle.clock + waited < (Budget.starting state.clock request.timeout).deadline := by
      omega
    obtain ⟨last, ended, isThere⟩ := awaitStep_completed block awaits positive early report
    obtain ⟨final, finished, completion⟩ := finish_memory reference
      { report with completion := .completed own } ⟨last, middle.log, middle.clock + waited⟩
    have done := ((carried _ _ ended).trans (if_neg fun late => by cases late)).trans finished
    simp only [done, if_pos inTime]
    exact ⟨final, _, rfl, completion, isThere, by rw [clock]⟩
  · have late : (Budget.starting state.clock request.timeout).deadline ≤ middle.clock + waited := by
      omega
    have begun : middle.clock ≤ (Budget.starting state.clock request.timeout).deadline := by omega
    obtain ⟨what, last, ended⟩ := awaitStep_timeout block awaits positive begun late report
    have done := (carried _ _ ended).trans (if_pos rfl)
    simp only [done, if_neg inTime]
    refine ⟨_, _, rfl, rfl, unread, ⟨what, report.errors, ?_⟩, rfl⟩
    simp [Budget.timeout, Budget.elapsed, Budget.starting]

/-- A firewall that gets another label and other rules, on a store that refuses to delete rules, holds an
earlier event of the same action, and lets the third read find an event finished. -/
def labelChange : PassRequest × PassState MemoryStore :=
  ({ ruleChange.1 with desired := (∅ : Attributes).insert "label" (.string "core") },
    { ruleChange.2 with
      store := { ruleChange.2.store with
        failures := [.of .delete "firewall_rule"]
        state := { ruleChange.2.store.state with
          nextEventId := 1
          eventLatency := 3
          events := [⟨⟨1, "firewall", 1, "firewall_update", .finished, .epoch⟩, []⟩] } } })

theorem converge_reports_own_event_labelChange :
    labelChange.2.store.state.WellFormed ∧ ∃ report after,
      labelChange.1.converge MemoryStore.remote .standard labelChange.2 = (.ok report, after) ∧
      report.completion = .completed ⟨2, "firewall", 1, "firewall_update", .finished, .epoch⟩ ∧
      after.clock = 1000 := by
  have wellFormed : labelChange.2.store.state.WellFormed :=
    ⟨⟨by decide, by decide⟩, by decide, by decide, by decide⟩
  have sameKind : ∀ reference, labelChange.1.target = .existing reference →
      reference.kind = labelChange.1.schema.kind := by
    intro reference target
    cases target
    rfl
  obtain ⟨report, after, ran, completed, _, clock⟩ := converge_reports_own_event labelChange.1 .standard
    labelChange.2 _ _ _ wellFormed (by decide) (by decide) sameKind rfl rfl (by decide) rfl rfl rfl
  exact ⟨wellFormed, report, after, ran, completed, clock⟩

end PassRequest

end DesiredState
