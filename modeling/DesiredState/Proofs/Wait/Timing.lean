import DesiredState.Proofs.Store.EventLog
import DesiredState.Proofs.Wait.Loop
import DesiredState.Wait.Waiter

/-!
# When a wait ends

A wait looks at once and then after every interval. If its looks find nothing for some times and then
something, it ends with that after as many intervals, or at the deadline if that comes first. The event
of a write is new to a waiter that saw the page before, and a store with a latency lets it be found
finished after as many reads.
-/

set_option autoImplicit false

namespace DesiredState

/-! ## Probes -/

namespace Probe

variable {σ α : Type}

/-- Looks that find nothing for a number of times, and then a value. -/
inductive FindsAfter (look : σ → Except PassError (Option α) × σ) : Nat → σ → α → σ → Prop where
  | now {state after : σ} {value : α} (found : look state = (.ok (some value), after)) :
      FindsAfter look 0 state value after
  | later {misses : Nat} {state middle after : σ} {value : α} (missed : look state = (.ok none, middle))
      (rest : FindsAfter look misses middle value after) :
      FindsAfter look (misses + 1) state value after

variable {look : σ → Except PassError (Option α) × σ} {interval : Nat} {budget : Budget}
  {misses clock : Nat} {state after : σ} {value : α} (what : String)

/-- What no look changes is the same in the end. -/
theorem FindsAfter.kept {β : Type} (view : σ → β) (keeps : ∀ state, view (look state).2 = view state)
    (finds : FindsAfter look misses state value after) : view after = view state := by
  induction finds with
  | @now state after value found =>
      have same := keeps state
      rwa [found] at same
  | @later misses state middle after value missed rest ih =>
      have same := keeps state
      rw [missed] at same
      exact ih.trans same

theorem FindsAfter.found (finds : FindsAfter look misses state value after) :
    ∃ before, look before = (.ok (some value), after) := by
  induction finds with
  | now found => exact ⟨_, found⟩
  | later missed rest ih => exact ih

/-- An interval that reaches the deadline ends the wait there. -/
theorem retry_late (waiting : clock < budget.deadline) (late : budget.deadline ≤ clock + interval) :
    retry interval budget what (.instant look) ⟨clock, state⟩ =
      (.error (budget.timeout what budget.deadline), ⟨budget.deadline, state⟩) := by
  have unspent : budget.remaining clock ≠ 0 := by
    rw [Budget.remaining]
    omega
  have woken : clock + sleepLength interval (budget.remaining clock) = budget.deadline := by
    rw [sleepLength, Budget.remaining]
    omega
  rw [retry, dif_neg unspent]
  simp only [woken, budget.isExhausted_deadline, if_true]

/-- Before the deadline the wait looks again after an interval. -/
theorem retry_early (positive : 0 < interval) (early : clock + interval < budget.deadline) :
    retry interval budget what (.instant look) ⟨clock, state⟩ =
      match look state with
      | (.error error, after) => (.error error, ⟨clock + interval, after⟩)
      | (.ok (some value), after) => (.ok value, ⟨clock + interval, after⟩)
      | (.ok none, after) => retry interval budget what (.instant look) ⟨clock + interval, after⟩ := by
  have unspent : budget.remaining clock ≠ 0 := by
    rw [Budget.remaining]
    omega
  have woken : clock + sleepLength interval (budget.remaining clock) = clock + interval := by
    rw [sleepLength, Budget.remaining]
    omega
  rw [retry, dif_neg unspent]
  simp only [woken, Budget.isExhausted_eq_false.mpr early, Bool.false_eq_true, if_false, instant]
  rcases look state with ⟨error | found, last⟩
  · simp
  · cases found <;> simp

private theorem retry_found (positive : 0 < interval) (finds : FindsAfter look misses state value after)
    (inTime : clock + (misses + 1) * interval < budget.deadline) :
    retry interval budget what (.instant look) ⟨clock, state⟩ =
      (.ok value, ⟨clock + (misses + 1) * interval, after⟩) := by
  induction finds generalizing clock with
  | now found =>
      rw [Nat.zero_add, Nat.one_mul] at inTime ⊢
      rw [retry_early what positive inTime, found]
  | @later misses state middle after value missed rest ih =>
      rw [Nat.add_mul _ 1, Nat.one_mul] at inTime ⊢
      have early : clock + interval < budget.deadline := by omega
      rw [retry_early what positive early, missed]
      dsimp only
      rw [ih (by omega), Nat.add_assoc clock, Nat.add_comm interval]

private theorem retry_timeout (positive : 0 < interval) (finds : FindsAfter look misses state value after)
    (waiting : clock < budget.deadline)
    (late : budget.deadline ≤ clock + (misses + 1) * interval) :
    ∃ last, retry interval budget what (.instant look) ⟨clock, state⟩ =
      (.error (budget.timeout what budget.deadline), ⟨budget.deadline, last⟩) := by
  induction finds generalizing clock with
  | @now state after value found =>
      rw [Nat.zero_add, Nat.one_mul] at late
      exact ⟨state, retry_late what waiting late⟩
  | @later misses state middle after value missed rest ih =>
      rw [Nat.add_mul _ 1, Nat.one_mul] at late
      by_cases early : clock + interval < budget.deadline
      · rw [retry_early what positive early, missed]
        exact ih early (by omega)
      · exact ⟨state, retry_late what waiting (Nat.not_lt.mp early)⟩

theorem await_found (positive : 0 < interval) (finds : FindsAfter look misses state value after)
    (inTime : clock + misses * interval < budget.deadline) :
    await interval budget what (.instant look) ⟨clock, state⟩ =
      (.ok value, ⟨clock + misses * interval, after⟩) := by
  have unexhausted : budget.isExhausted clock = false := Budget.isExhausted_eq_false.mpr (by omega)
  cases finds with
  | now found => simp [await, unexhausted, instant, found]
  | later missed rest =>
      simp only [await, unexhausted, Bool.false_eq_true, if_false, instant, missed, Nat.max_self]
      exact retry_found what positive rest inTime

theorem await_timeout (positive : 0 < interval) (finds : FindsAfter look misses state value after)
    (begun : clock ≤ budget.deadline) (late : budget.deadline ≤ clock + misses * interval) :
    ∃ last, await interval budget what (.instant look) ⟨clock, state⟩ =
      (.error (budget.timeout what budget.deadline), ⟨budget.deadline, last⟩) := by
  by_cases waiting : clock < budget.deadline
  · have unexhausted : budget.isExhausted clock = false := Budget.isExhausted_eq_false.mpr waiting
    cases finds with
    | now found => omega
    | later missed rest =>
        simp only [await, unexhausted, Bool.false_eq_true, if_false, instant, missed, Nat.max_self]
        exact retry_timeout what positive rest waiting late
  · obtain rfl : clock = budget.deadline := by omega
    exact ⟨state, by simp only [await, budget.isExhausted_deadline, if_true]⟩

end Probe

/-! ## Ledgers -/

namespace EventLedger

theorem hasSeen_merge (ledger : EventLedger) (record : EventRecord) (id : Nat) :
    (ledger.merge record).2.hasSeen id = true ↔ ledger.hasSeen id = true ∨ record.id = id := by
  unfold merge
  by_cases seen : ledger.hasSeen record.id = true
  · rw [if_pos seen]
    constructor
    · exact Or.inl
    · rintro (before | rfl)
      · exact before
      · exact seen
  · rw [if_neg seen]
    simp only [hasSeen, List.contains_cons, Bool.or_eq_true, beq_iff_eq]
    rw [or_comm, @eq_comm _ id]

private theorem hasSeen_seed (records : List EventRecord) (ledger : EventLedger) (id : Nat) :
    (ledger.seed records).hasSeen id = true ↔
      ledger.hasSeen id = true ∨ ∃ record ∈ records, record.id = id := by
  induction records generalizing ledger with
  | nil => simp [seed]
  | cons record rest ih =>
      have first : ledger.seed (record :: rest) = (ledger.merge record).2.seed rest := rfl
      rw [first, ih, hasSeen_merge]
      simp [or_assoc]

theorem hasSeen_seeded (records : List EventRecord) (id : Nat) :
    (seeded records).hasSeen id = true ↔ ∃ record ∈ records, record.id = id := by
  rw [seeded, hasSeen_seed]
  simp [empty, hasSeen]

end EventLedger

namespace EventWaiter

/-- A waiter that saw a page finds an event that came onto it since, behind what was there. -/
theorem firstUnseen?_of_newest {waiter : EventWaiter} {page older : List EventRecord}
    {newest : EventRecord} (ledger : waiter.ledger = .seeded page) (seen : older ⊆ page)
    (accepted : waiter.filter.accepts newest = true) (fresh : ∀ record ∈ page, record.id ≠ newest.id) :
    waiter.firstUnseen? (older ++ [newest]) = some newest := by
  have unseen : waiter.ledger.hasSeen newest.id = false := by
    rw [Bool.eq_false_iff, ledger, ne_eq, EventLedger.hasSeen_seeded]
    rintro ⟨record, member, same⟩
    exact fresh record member same
  have passedOver : older.find? (fun record => waiter.filter.accepts record &&
      !waiter.ledger.hasSeen record.id) = none := by
    rw [List.find?_eq_none]
    intro record member
    have known : waiter.ledger.hasSeen record.id = true := by
      rw [ledger, EventLedger.hasSeen_seeded]
      exact ⟨record, seen member, rfl⟩
    simp [known]
  rw [firstUnseen?, List.find?_append, passedOver]
  simp [accepted, unseen]

/-! ## On a store in memory -/

open Probe StoreState

/-- An event is read as finished once its later statuses are used up. -/
theorem readTerminal_findsAfter {store : MemoryStore} {id misses : Nat} {record : EventRecord}
    (filed : store.state.findEvent? id =
      some ⟨record, List.replicate misses .started ++ [.finished]⟩) :
    ∃ last, FindsAfter (readTerminal MemoryStore.remote id) misses store
        { record with status := .finished } last ∧
      { record with status := .finished } ∈ last.state.records := by
  induction misses generalizing store record with
  | zero =>
      refine ⟨{ store.noted (.getEvent id) with state := store.state.advanceEvent id }, .now ?_, ?_⟩
      · simp only [readTerminal, MemoryStore.remote, MemoryStore.getEvent_of_some filed]
        rfl
      · exact mem_records_of_findEvent? (findEvent?_advanceEvent filed)
  | succ misses ih =>
      have advanced : ({ store.noted (.getEvent id) with
            state := store.state.advanceEvent id } : MemoryStore).state.findEvent? id =
          some ⟨{ record with status := .started }, List.replicate misses .started ++ [.finished]⟩ :=
        findEvent?_advanceEvent filed
      obtain ⟨last, finds, isThere⟩ := ih advanced
      refine ⟨last, .later ?_ finds, isThere⟩
      simp only [readTerminal, MemoryStore.remote, MemoryStore.getEvent_of_some filed]
      rfl

/-- The number of looks at the event of a write that find it unfinished. -/
def unfinishedLooks (latency : Nat) : Nat := max latency 1 - 1

private theorem readTerminal_findsAfter_latency {store : MemoryStore} {latency : Nat} {event : EventRecord}
    (status : event.status = firstStatus latency)
    (filed : store.state.findEvent? event.id = some ⟨event, laterStatuses latency⟩) :
    ∃ last, FindsAfter (readTerminal MemoryStore.remote event.id) (unfinishedLooks latency) store
        { event with status := .finished } last ∧
      { event with status := .finished } ∈ last.state.records := by
  cases latency with
  | zero =>
      obtain ⟨id, entityType, entityId, action, _, createdAt⟩ := event
      obtain rfl : _ = EventStatus.finished := status
      refine ⟨{ store.noted (.getEvent id) with state := store.state.advanceEvent id }, .now ?_, ?_⟩
      · simp only [readTerminal, MemoryStore.remote, MemoryStore.getEvent_of_some filed]
        rfl
      · exact mem_records_of_findEvent? (findEvent?_advanceEvent filed)
  | succ misses =>
      have looks : unfinishedLooks (misses + 1) = misses := by
        rw [unfinishedLooks]
        omega
      rw [looks]
      exact readTerminal_findsAfter filed

/-- The first event that is new to a waiter is one that a store with this latency has just filed. -/
structure Awaits (waiter : EventWaiter) (state : StoreState) (event : EventRecord) (latency : Nat) :
    Prop where
  unseen : waiter.firstUnseen? (state.page waiter.filter) = some event
  status : event.status = firstStatus latency
  filed : state.findEvent? event.id = some ⟨event, laterStatuses latency⟩

variable {waiter : EventWaiter} {store : MemoryStore} {event : EventRecord} {latency clock : Nat}
  {budget : Budget}

private theorem Awaits.awaitNext_eq (awaits : waiter.Awaits store.state event latency)
    (waiting : clock < budget.deadline) :
    awaitNext MemoryStore.remote budget ⟨clock, ⟨waiter, store⟩⟩ =
      (.ok event, ⟨clock, ⟨waiter.saw event, store.noted (.listEvents waiter.filter)⟩⟩) := by
  simp [awaitNext, await, Budget.isExhausted_eq_false.mpr waiting, instant, pollOnce,
    MemoryStore.remote, MemoryStore.listEvents, awaits.unseen]

private theorem Awaits.findsAfter (awaits : waiter.Awaits store.state event latency) (call : StoreCall) :
    ∃ last, FindsAfter (readTerminal MemoryStore.remote event.id) (unfinishedLooks latency)
        (store.noted call) { event with status := .finished } last ∧
      { event with status := .finished } ∈ last.state.records := by
  have filed : (store.noted call).state.findEvent? event.id = some ⟨event, laterStatuses latency⟩ :=
    awaits.filed
  exact readTerminal_findsAfter_latency awaits.status filed

/-- A wait that finds the event of a write reads it as often as the store's latency wants. -/
theorem Awaits.completed (awaits : waiter.Awaits store.state event latency)
    (positive : 0 < waiter.intervals.terminal)
    (inTime : clock + unfinishedLooks latency * waiter.intervals.terminal < budget.deadline) :
    ∃ last, awaitNextFinished MemoryStore.remote budget ⟨clock, ⟨waiter, store⟩⟩ =
        (.ok (.completed { event with status := .finished }),
          ⟨clock + unfinishedLooks latency * waiter.intervals.terminal, ⟨waiter.saw event, last⟩⟩) ∧
      { event with status := .finished } ∈ last.state.records := by
  obtain ⟨last, finds, isThere⟩ := awaits.findsAfter (.listEvents waiter.filter)
  have found := await_found (terminalGoal event) positive finds inTime
  refine ⟨last, ?_, isThere⟩
  rw [awaitNextFinished, awaits.awaitNext_eq (by omega)]
  simp only [saw, awaitTerminal, found, TerminalOutcome.ofRecord]
  rfl

theorem Awaits.timeout (awaits : waiter.Awaits store.state event latency)
    (positive : 0 < waiter.intervals.terminal) (begun : clock ≤ budget.deadline)
    (late : budget.deadline ≤ clock + unfinishedLooks latency * waiter.intervals.terminal) :
    ∃ what last, awaitNextFinished MemoryStore.remote budget ⟨clock, ⟨waiter, store⟩⟩ =
      (.error (budget.timeout what budget.deadline), ⟨budget.deadline, last⟩) := by
  by_cases waiting : clock < budget.deadline
  · obtain ⟨_, finds, _⟩ := awaits.findsAfter (.listEvents waiter.filter)
    obtain ⟨last, ended⟩ := await_timeout (terminalGoal event) positive finds begun late
    refine ⟨terminalGoal event, ⟨waiter.saw event, last⟩, ?_⟩
    rw [awaitNextFinished, awaits.awaitNext_eq waiting]
    simp only [saw, awaitTerminal, ended]
  · obtain rfl : clock = budget.deadline := by omega
    refine ⟨"next " ++ waiter.filter.action ++ " event", ⟨waiter, store⟩, ?_⟩
    simp [awaitNextFinished, awaitNext, await, budget.isExhausted_deadline]

end EventWaiter

end DesiredState
