import DesiredState.Proofs.Wait.Agreement
import DesiredState.Proofs.Wait.Calls

/-!
# Two waits within one budget

A wait asks its store once at the beginning and then after every interval, and never at the deadline or
later. The wait for an event and the wait for its end draw on one budget: they succeed if the intervals
of both together stay below it.
-/

set_option autoImplicit false

namespace DesiredState

variable {σ τ α : Type}

/-- The same call once at the beginning and then after every interval. -/
def callsEvery (interval begun : Nat) (call : StoreCall) (count : Nat) : List (Nat × StoreCall) :=
  (List.range count).map fun turn => (begun + turn * interval, call)

private theorem callsEvery_succ (interval begun : Nat) (call : StoreCall) (count : Nat) :
    callsEvery interval begun call (count + 1) =
      callsEvery interval begun call count ++ [(begun + count * interval, call)] := by
  simp [callsEvery, List.range_succ]

private theorem lt_of_mem_callsEvery {interval begun count bound : Nat} {call : StoreCall}
    (inTime : ∀ turn < count, begun + turn * interval < bound) {entry : Nat × StoreCall}
    (member : entry ∈ callsEvery interval begun call count) : entry.1 < bound := by
  obtain ⟨turn, isTurn, rfl⟩ := List.mem_map.mp member
  exact inTime turn (List.mem_range.mp isTurn)

namespace Probe

/-- A look that makes the same call every time and writes down when. -/
structure Journaled (look : Nat → τ → Except PassError (Option α) × τ) (call : τ → StoreCall)
    (journal : τ → List (Nat × StoreCall)) : Prop where
  noted : ∀ clock state, journal (look clock state).2 = journal state ++ [(clock, call state)]
  same : ∀ clock state, call (look clock state).2 = call state
  refused : ∀ clock state error, (look clock state).1 = .error error → ∃ cause, error = .store cause

/-- How a wait of so many looks ends. All of them come before the deadline, and so does the end, if it is
not the deadline itself. -/
structure Paced (interval begun : Nat) (budget : Budget) (count : Nat) (answer : Except PassError α)
    (ended : Nat) : Prop where
  inTime : ∀ turn < count, begun + turn * interval < budget.deadline
  ended_le : ended ≤ budget.deadline
  found : ∀ value, answer = .ok value → ∃ turn, count = turn + 1 ∧ ended = begun + turn * interval
  failed : ∀ error, answer = .error error →
    (∃ what, error = budget.timeout what budget.deadline) ∨ ∃ cause, error = .store cause

section Journaled

variable {look : Nat → τ → Except PassError (Option α) × τ} {call : τ → StoreCall}
  {journal : τ → List (Nat × StoreCall)} {interval begun : Nat} {budget : Budget} {initial : τ}

/-- The state after so many looks. -/
structure Looked (call : τ → StoreCall) (journal : τ → List (Nat × StoreCall)) (interval begun : Nat)
    (budget : Budget) (initial : τ) (count : Nat) (state : τ) : Prop where
  calls : journal state = journal initial ++ callsEvery interval begun (call initial) count
  same : call state = call initial
  inTime : ∀ turn < count, begun + turn * interval < budget.deadline

private theorem Looked.again (journaled : Journaled look call journal) {count : Nat} {state : τ}
    (looked : Looked call journal interval begun budget initial count state)
    (waiting : begun + count * interval < budget.deadline) :
    Looked call journal interval begun budget initial (count + 1)
      (look (begun + count * interval) state).2 where
  calls := by rw [journaled.noted, looked.calls, looked.same, callsEvery_succ, List.append_assoc]
  same := (journaled.same _ _).trans looked.same
  inTime turn earlier := by
    rcases Nat.lt_succ_iff_lt_or_eq.mp earlier with before | rfl
    · exact looked.inTime turn before
    · exact waiting

/-- Before a look the clock stands at the beginning of a turn or at the deadline. -/
theorem course_journaled (journaled : Journaled look call journal) (what : String)
    (positive : 0 < interval) (begun : Nat) (budget : Budget) (initial : τ) :
    Course interval budget what (timely look)
      (fun now => ∃ count, Looked call journal interval begun budget initial count now.state ∧
        now.clock ≤ budget.deadline ∧
        (now.clock < budget.deadline → now.clock = begun + count * interval))
      (fun now => ∃ count, Looked call journal interval begun budget initial (count + 1) now.state ∧
        now.clock = begun + count * interval)
      (fun answer now => ∃ count, Looked call journal interval begun budget initial count now.state ∧
        Paced interval begun budget count answer now.clock) where
  missed := by
    rintro ⟨clock, state⟩ after ⟨count, looked, -, onTime⟩ waiting ran
    obtain rfl : clock = begun + count * interval := onTime waiting
    obtain rfl : _ = after := congrArg Prod.snd ran
    exact ⟨count, looked.again journaled waiting, Nat.max_self _⟩
  found := by
    rintro ⟨clock, state⟩ value after ⟨count, looked, -, onTime⟩ waiting ran
    obtain rfl : clock = begun + count * interval := onTime waiting
    obtain rfl : _ = after := congrArg Prod.snd ran
    have next := looked.again journaled waiting
    refine ⟨count + 1, next, next.inTime, ?_, ?_, ?_⟩
    · exact Nat.max_le.mpr ⟨Nat.le_of_lt waiting, Nat.le_of_lt waiting⟩
    · exact fun _ _ => ⟨count, rfl, Nat.max_self _⟩
    · rintro error ⟨⟩
  failed := by
    rintro ⟨clock, state⟩ error after ⟨count, looked, -, onTime⟩ waiting ran
    obtain rfl : clock = begun + count * interval := onTime waiting
    obtain rfl : _ = after := congrArg Prod.snd ran
    have next := looked.again journaled waiting
    refine ⟨count + 1, next, next.inTime, ?_, ?_, ?_⟩
    · exact Nat.max_le.mpr ⟨Nat.le_of_lt waiting, Nat.le_of_lt waiting⟩
    · rintro value ⟨⟩
    · rintro _ ⟨⟩
      exact .inr (journaled.refused _ _ _ (congrArg Prod.fst ran))
  again := by
    rintro ⟨clock, state⟩ ⟨count, looked, rfl⟩ waiting
    refine ⟨count + 1, looked, slept_clock_le waiting, ?_⟩
    -- A sleep that the deadline cut short ends at the deadline.
    simp only [slept, sleepLength, Budget.remaining, Nat.add_mul, Nat.one_mul] at waiting ⊢
    omega
  late := by
    rintro ⟨clock, state⟩ before late
    have atDeadline : ∃ count, Looked call journal interval begun budget initial count state ∧
        clock = budget.deadline := by
      rcases before with ⟨count, looked, notAfter, -⟩ | ⟨count, looked, rfl⟩
      · exact ⟨count, looked, Nat.le_antisymm notAfter late⟩
      · exact absurd (looked.inTime count (Nat.lt_succ_self count)) (Nat.not_lt.mpr late)
    obtain ⟨count, looked, rfl⟩ := atDeadline
    refine ⟨count, looked, looked.inTime, Nat.le_refl _, ?_, ?_⟩
    · rintro value ⟨⟩
    · rintro _ ⟨⟩
      exact .inl ⟨what, rfl⟩

end Journaled

/-- A wait and the same wait with a journal. -/
theorem await_journaled {related : σ → τ → Prop} {look : σ → Except PassError (Option α) × σ}
    {dated : Nat → τ → Except PassError (Option α) × τ} {call : τ → StoreCall}
    {journal : τ → List (Nat × StoreCall)} (agree : ∀ clock, Agree related look (dated clock))
    (journaled : Journaled dated call journal) {interval : Nat} (positive : 0 < interval)
    {budget : Budget} (what : String) {begun : Nat} (granted : begun ≤ budget.deadline) {left : σ}
    {right : τ} (start : related left right) :
    ∃ answer ended after datedAfter count,
      await interval budget what (.instant look) ⟨begun, left⟩ = (answer, ⟨ended, after⟩) ∧
      await interval budget what (.timely dated) ⟨begun, right⟩ = (answer, ⟨ended, datedAfter⟩) ∧
      related after datedAfter ∧
      journal datedAfter = journal right ++ callsEvery interval begun (call right) count ∧
      Paced interval begun budget count answer ended := by
  have both : Agree (Timed.Related related) (await interval budget what (.instant look))
      (await interval budget what (.timely dated)) :=
    agree_await interval budget what (agree_timely agree)
  have begins : Timed.Related related ⟨begun, left⟩ ⟨begun, right⟩ := ⟨rfl, start⟩
  obtain ⟨answer, ⟨ended, after⟩, ⟨_, datedAfter⟩, ran, datedRan, rfl, states⟩ := both.run begins
  have first : Looked call journal interval begun budget right 0 right :=
    ⟨(List.append_nil _).symm, rfl, by simp⟩
  have course := course_journaled journaled what positive begun budget right
  obtain ⟨count, looked, paced⟩ := course.await_ends ⟨begun, right⟩ ⟨0, first, granted, by simp⟩
  rw [datedRan] at looked paced
  exact ⟨answer, ended, after, datedAfter, count, ran, datedRan, states, looked.calls, paced⟩

end Probe

namespace EventWaiter

open Probe RemoteStore

variable {waiter : EventWaiter} {state : σ} {begun : Nat} {budget : Budget}

/-! ## When both waits succeed -/

section Outcome

variable {store : RemoteStore σ} {misses unfinished : Nat} {event record : EventRecord} {found : Watch σ}
  {last : σ}

private theorem intervals_of_findsAfter
    (shows : FindsAfter (pollOnce store) misses ⟨waiter, state⟩ event found) :
    found.waiter.intervals = waiter.intervals :=
  shows.kept (fun watch => watch.waiter.intervals) fun watch => (hands_pollOnce store watch).intervals_eq

private theorem isTerminal_of_findsAfter {id : Nat}
    (ends : FindsAfter (readTerminal store id) unfinished state record last) :
    record.status.isTerminal = true := by
  obtain ⟨before, ran⟩ := ends.found
  rcases read : store.getEvent id before with ⟨error | answer, after⟩
  · simp only [readTerminal, read] at ran
    cases ran
  · simp only [readTerminal, read] at ran
    injection ran with answered
    injection answered with isRecord
    exact (Option.filter_eq_some_iff.mp isRecord).2

/-- The outcome is told by the status, which is one of those that end an event. -/
theorem ofRecord_cases (terminal : record.status.isTerminal = true) :
    record.status = .failed ∧ TerminalOutcome.ofRecord record = .failed record ∨
      (record.status = .finished ∨ record.status = .notification) ∧
        TerminalOutcome.ofRecord record = .completed record := by
  unfold TerminalOutcome.ofRecord EventStatus.isFailure
  cases status : record.status with
  | scheduled | started =>
      rw [status] at terminal
      cases terminal
  | finished | notification | failed => simp

variable (eventPositive : 0 < waiter.intervals.event) (terminalPositive : 0 < waiter.intervals.terminal)
  (shows : FindsAfter (pollOnce store) misses ⟨waiter, state⟩ event found)
  (ends : FindsAfter (readTerminal store event.id) unfinished found.state record last)

include eventPositive shows

private theorem awaitNext_found (inTime : begun + misses * waiter.intervals.event < budget.deadline) :
    awaitNext store budget ⟨begun, ⟨waiter, state⟩⟩ =
      (.ok event, ⟨begun + misses * waiter.intervals.event, found⟩) :=
  await_found _ eventPositive shows inTime

private theorem eq_of_awaitNext (inTime : begun + misses * waiter.intervals.event < budget.deadline)
    {shown : EventRecord} {fetches : Nat} {reached : Watch σ}
    (ran : awaitNext store budget ⟨begun, ⟨waiter, state⟩⟩ =
      (.ok shown, ⟨begun + fetches * waiter.intervals.event, reached⟩)) :
    shown = event ∧ fetches = misses := by
  rw [awaitNext_found eventPositive shows inTime] at ran
  obtain ⟨isEvent, isReached⟩ := Prod.mk.inj ran
  have turns := Nat.add_left_cancel (congrArg Timed.clock isReached)
  exact ⟨(Except.ok.inj isEvent).symm, (Nat.eq_of_mul_eq_mul_right eventPositive turns).symm⟩

include terminalPositive ends

private theorem awaitNextFinished_found
    (inTime : begun + misses * waiter.intervals.event + unfinished * waiter.intervals.terminal <
      budget.deadline) :
    awaitNextFinished store budget ⟨begun, ⟨waiter, state⟩⟩ =
      (.ok (.ofRecord record),
        ⟨begun + misses * waiter.intervals.event + unfinished * waiter.intervals.terminal,
          ⟨found.waiter, last⟩⟩) := by
  have firstInTime : begun + misses * waiter.intervals.event < budget.deadline := by omega
  have first := awaitNext_found eventPositive shows firstInTime
  have second := await_found (terminalGoal event) terminalPositive ends inTime
  rw [awaitNextFinished, first]
  simp only [awaitTerminal, intervals_of_findsAfter shows, second]

private theorem awaitNextFinished_late (granted : begun ≤ budget.deadline)
    (late : budget.deadline ≤
      begun + misses * waiter.intervals.event + unfinished * waiter.intervals.terminal) :
    ∃ what last, awaitNextFinished store budget ⟨begun, ⟨waiter, state⟩⟩ =
      (.error (budget.timeout what budget.deadline), ⟨budget.deadline, last⟩) := by
  by_cases inTime : begun + misses * waiter.intervals.event < budget.deadline
  · have first := awaitNext_found eventPositive shows inTime
    obtain ⟨last, second⟩ :=
      await_timeout (terminalGoal event) terminalPositive ends (Nat.le_of_lt inTime) late
    refine ⟨terminalGoal event, ⟨found.waiter, last⟩, ?_⟩
    rw [awaitNextFinished, first]
    simp only [awaitTerminal, intervals_of_findsAfter shows, second]
  · obtain ⟨last, first⟩ := await_timeout ("next " ++ waiter.filter.action ++ " event") eventPositive
      shows granted (Nat.not_lt.mp inTime)
    refine ⟨"next " ++ waiter.filter.action ++ " event", last, ?_⟩
    have ran : awaitNext store budget ⟨begun, ⟨waiter, state⟩⟩ = _ := first
    rw [awaitNextFinished, ran]

end Outcome

/-! ## What is asked, and when -/

def pageCalls (waiter : EventWaiter) (begun count : Nat) : List (Nat × StoreCall) :=
  callsEvery waiter.intervals.event begun (.listEvents waiter.filter) count

def readCalls (waiter : EventWaiter) (id begun count : Nat) : List (Nat × StoreCall) :=
  callsEvery waiter.intervals.terminal begun (.getEvent id) count

section Journal

variable (store : RemoteStore σ)

private theorem journaled_pollOnce :
    Journaled (fun clock => pollOnce (store.dated clock)) (fun watch => .listEvents watch.waiter.filter)
      (fun watch => watch.state.journal) where
  noted clock watch := by
    rw [state_pollOnce]
    rfl
  same clock watch := congrArg StoreCall.listEvents (hands_pollOnce (store.dated clock) watch).filter_eq
  refused clock watch error failed := by
    rcases listed : (store.dated clock).listEvents watch.waiter.filter watch.state with
      ⟨cause | page, after⟩
    · simp only [pollOnce, listed, Except.error.injEq] at failed
      exact ⟨cause, failed.symm⟩
    · simp only [pollOnce, listed] at failed
      cases unseen : watch.waiter.firstUnseen? page with
      | none =>
          simp only [unseen] at failed
          cases failed
      | some record =>
          simp only [unseen] at failed
          cases failed

private theorem journaled_readTerminal (id : Nat) :
    Journaled (fun clock => readTerminal (store.dated clock) id) (fun _ => .getEvent id) Dated.journal
    where
  noted clock dated := by
    rw [readTerminal]
    cases read : (store.getEvent id dated.state).1 with
    | error error => simp only [RemoteStore.dated, dateCall, read]
    | ok answer => simp only [RemoteStore.dated, dateCall, read]
  same _ _ := rfl
  refused clock dated error failed := by
    rcases read : (store.dated clock).getEvent id dated with ⟨cause | answer, after⟩
    · simp only [readTerminal, read, Except.error.injEq] at failed
      exact ⟨cause, failed.symm⟩
    · simp only [readTerminal, read] at failed
      cases failed

private theorem awaitNext_dated (positive : 0 < waiter.intervals.event)
    (granted : begun ≤ budget.deadline) (state : σ) :
    ∃ answer ended watch count,
      awaitNext store budget ⟨begun, ⟨waiter, state⟩⟩ = (answer, ⟨ended, watch⟩) ∧
      awaitNextAt store.dated budget ⟨begun, ⟨waiter, ⟨state, []⟩⟩⟩ =
        (answer, ⟨ended, ⟨watch.waiter, ⟨watch.state, waiter.pageCalls begun count⟩⟩⟩) ∧
      Paced waiter.intervals.event begun budget count answer ended := by
  have agree : ∀ clock, Agree (Watch.Related Undated) (pollOnce store) (pollOnce (store.dated clock)) :=
    fun clock => agree_pollOnce (store.readsAgree_dated clock).toPagesAgree
  have start : Watch.Related Undated ⟨waiter, state⟩ ⟨waiter, ⟨state, []⟩⟩ := ⟨rfl, rfl⟩
  obtain ⟨answer, ended, watch, ⟨_, _, journal⟩, count, ran, datedRan, ⟨rfl, rfl⟩, isJournal, paced⟩ :=
    await_journaled agree (journaled_pollOnce store) positive
      ("next " ++ waiter.filter.action ++ " event") granted start
  obtain rfl : journal = _ := isJournal
  exact ⟨answer, ended, watch, count, ran, datedRan, paced⟩

private theorem awaitTerminal_dated {interval : Nat} (positive : 0 < interval)
    (granted : begun ≤ budget.deadline) (event : EventRecord) (state : σ)
    (earlier : List (Nat × StoreCall)) :
    ∃ answer ended last count,
      awaitTerminal store interval event budget ⟨begun, state⟩ = (answer, ⟨ended, last⟩) ∧
      awaitTerminalAt store.dated interval event budget ⟨begun, ⟨state, earlier⟩⟩ =
        (answer, ⟨ended, ⟨last, earlier ++ callsEvery interval begun (.getEvent event.id) count⟩⟩) ∧
      Paced interval begun budget count answer ended := by
  have agree : ∀ clock, Agree Undated (readTerminal store event.id)
      (readTerminal (store.dated clock) event.id) :=
    fun clock => agree_readTerminal (store.readsAgree_dated clock) event.id
  have start : Undated state ⟨state, earlier⟩ := rfl
  obtain ⟨answer, ended, _, ⟨last, journal⟩, count, ran, datedRan, rfl, isJournal, paced⟩ :=
    await_journaled agree (journaled_readTerminal store event.id) positive (terminalGoal event) granted
      start
  obtain rfl : journal = _ := isJournal
  simp only [awaitTerminal, awaitTerminalAt, ran, datedRan]
  cases answer with
  | error error =>
      refine ⟨.error error, ended, last, count, rfl, rfl, paced.inTime, paced.ended_le, ?_, ?_⟩
      · rintro value ⟨⟩
      · rintro _ ⟨⟩
        exact paced.failed error rfl
  | ok record =>
      refine ⟨.ok (.ofRecord record), ended, last, count, rfl, rfl, paced.inTime, paced.ended_le, ?_, ?_⟩
      · intro _ _
        exact paced.found record rfl
      · rintro error ⟨⟩

/-- Both waits, and the same with a journal. -/
theorem awaitNextFinished_dated (eventPositive : 0 < waiter.intervals.event)
    (terminalPositive : 0 < waiter.intervals.terminal) (granted : begun ≤ budget.deadline) (state : σ) :
    ∃ outcome ended watch journal,
      awaitNextFinished store budget ⟨begun, ⟨waiter, state⟩⟩ = (outcome, ⟨ended, watch⟩) ∧
      awaitNextFinishedAt store.dated budget ⟨begun, ⟨waiter, ⟨state, []⟩⟩⟩ =
        (outcome, ⟨ended, ⟨watch.waiter, ⟨watch.state, journal⟩⟩⟩) ∧
      ended ≤ budget.deadline ∧ (∀ entry ∈ journal, entry.1 < budget.deadline) ∧
      (∀ error, outcome = .error error →
        (∃ what, error = budget.timeout what budget.deadline) ∨ ∃ cause, error = .store cause) ∧
      ∀ result, outcome = .ok result → ∃ event reached fetches reads,
        awaitNext store budget ⟨begun, ⟨waiter, state⟩⟩ =
          (.ok event, ⟨begun + fetches * waiter.intervals.event, reached⟩) ∧
        ended = begun + fetches * waiter.intervals.event + reads * waiter.intervals.terminal ∧
        journal = waiter.pageCalls begun (fetches + 1) ++
          waiter.readCalls event.id (begun + fetches * waiter.intervals.event) (reads + 1) := by
  obtain ⟨answer, reached, watch, count, ran, datedRan, paced⟩ :=
    awaitNext_dated store eventPositive granted state
  cases answer with
  | error error =>
      refine ⟨.error error, reached, watch, waiter.pageCalls begun count, ?_, ?_, paced.ended_le, ?_,
        ?_, ?_⟩
      · rw [awaitNextFinished, ran]
      · rw [awaitNextFinishedAt, datedRan]
      · exact fun entry member => lt_of_mem_callsEvery paced.inTime member
      · rintro _ ⟨⟩
        exact paced.failed error rfl
      · rintro result ⟨⟩
  | ok event =>
      obtain ⟨fetches, rfl, rfl⟩ := paced.found event rfl
      have same : watch.waiter.intervals = waiter.intervals := by
        have hands := hands_awaitNext store budget ⟨begun, ⟨waiter, state⟩⟩
        rw [ran] at hands
        exact hands.intervals_eq
      obtain ⟨outcome, ended, last, count, ranOn, datedRanOn, pacedOn⟩ :=
        awaitTerminal_dated store terminalPositive paced.ended_le event watch.state
          (waiter.pageCalls begun (fetches + 1))
      refine ⟨outcome, ended, ⟨watch.waiter, last⟩, waiter.pageCalls begun (fetches + 1) ++
        waiter.readCalls event.id (begun + fetches * waiter.intervals.event) count, ?_, ?_,
        pacedOn.ended_le, ?_, pacedOn.failed, ?_⟩
      · rw [awaitNextFinished, ran]
        simp only [same, ranOn]
      · rw [awaitNextFinishedAt, datedRan]
        simp only [same, datedRanOn]
        rfl
      · intro entry member
        rcases List.mem_append.mp member with fetched | read
        · exact lt_of_mem_callsEvery paced.inTime fetched
        · exact lt_of_mem_callsEvery pacedOn.inTime read
      · intro result succeeded
        obtain ⟨reads, rfl, rfl⟩ := pacedOn.found result succeeded
        exact ⟨event, watch, fetches, reads, ran, rfl, rfl⟩

end Journal

/-- The wait for an event and the wait for its end draw on one budget. Whatever the store answers, they
sleep no longer than to its deadline and ask nothing there or later. If the store shows an event and then
the end of it, they succeed exactly if both come before the deadline. -/
theorem awaitNextFinished_within_budget (store : RemoteStore σ) (waiter : EventWaiter) (state : σ)
    (begun total : Nat) (eventPositive : 0 < waiter.intervals.event)
    (terminalPositive : 0 < waiter.intervals.terminal) :
    ∃ outcome ended watch journal,
      awaitNextFinished store (.starting begun total) ⟨begun, ⟨waiter, state⟩⟩ =
        (outcome, ⟨ended, watch⟩) ∧
      awaitNextFinishedAt store.dated (.starting begun total) ⟨begun, ⟨waiter, ⟨state, []⟩⟩⟩ =
        (outcome, ⟨ended, ⟨watch.waiter, ⟨watch.state, journal⟩⟩⟩) ∧
      ended ≤ begun + total ∧ (∀ entry ∈ journal, entry.1 < begun + total) ∧
      (∀ error, outcome = .error error →
        (∃ what, error = .timeoutExceeded what (.ofMillis total)) ∨ ∃ cause, error = .store cause) ∧
      ∀ misses unfinished event found record last,
        FindsAfter (pollOnce store) misses ⟨waiter, state⟩ event found →
        FindsAfter (readTerminal store event.id) unfinished found.state record last →
        let reached := misses * waiter.intervals.event
        let finished := reached + unfinished * waiter.intervals.terminal
        (finished < total →
          (record.status = .failed ∧ outcome = .ok (.failed record) ∨
            (record.status = .finished ∨ record.status = .notification) ∧
              outcome = .ok (.completed record)) ∧
          ended = begun + finished ∧
          journal = waiter.pageCalls begun (misses + 1) ++
            waiter.readCalls event.id (begun + reached) (unfinished + 1)) ∧
        (total ≤ finished → ∃ what, outcome = .error (.timeoutExceeded what (.ofMillis total))) := by
  have granted : begun ≤ (Budget.starting begun total).deadline := Nat.le_add_right begun total
  have timeout : ∀ what, (Budget.starting begun total).timeout what (begun + total) =
      .timeoutExceeded what (.ofMillis total) := by
    intro what
    simp only [Budget.timeout, Budget.elapsed, Budget.starting, Nat.add_sub_cancel_left]
  obtain ⟨outcome, ended, watch, journal, ran, datedRan, inTime, asked, failed, succeeded⟩ :=
    awaitNextFinished_dated store eventPositive terminalPositive granted state
  refine ⟨outcome, ended, watch, journal, ran, datedRan, inTime, asked, ?_, ?_⟩
  · intro error isError
    rcases failed error isError with ⟨what, late⟩ | refused
    · exact .inl ⟨what, late.trans (timeout what)⟩
    · exact .inr refused
  · intro misses unfinished event found record last shows ends reached finished
    have terminal := isTerminal_of_findsAfter ends
    constructor
    · intro early
      have before : begun + reached + unfinished * waiter.intervals.terminal <
          (Budget.starting begun total).deadline := by
        simp only [Budget.starting]
        omega
      have both := awaitNextFinished_found eventPositive terminalPositive shows ends before
      rw [ran] at both
      obtain ⟨rfl, last⟩ := Prod.mk.inj both
      obtain rfl : ended = _ := congrArg Timed.clock last
      -- The time of each end tells how many calls went before it.
      obtain ⟨shown, _, fetches, reads, first, isEnd, rfl⟩ := succeeded _ rfl
      have firstInTime := Nat.lt_of_le_of_lt (Nat.le_add_right _ _) before
      obtain ⟨rfl, rfl⟩ := eq_of_awaitNext eventPositive shows firstInTime first
      obtain rfl : unfinished = reads :=
        Nat.eq_of_mul_eq_mul_right terminalPositive (Nat.add_left_cancel isEnd)
      refine ⟨?_, Nat.add_assoc _ _ _, rfl⟩
      rcases ofRecord_cases terminal with ⟨status, isOutcome⟩ | ⟨status, isOutcome⟩
      · exact .inl ⟨status, congrArg Except.ok isOutcome⟩
      · exact .inr ⟨status, congrArg Except.ok isOutcome⟩
    · intro reachesEnd
      have late : (Budget.starting begun total).deadline ≤
          begun + reached + unfinished * waiter.intervals.terminal := by
        simp only [Budget.starting]
        omega
      obtain ⟨what, _, both⟩ :=
        awaitNextFinished_late eventPositive terminalPositive shows ends granted late
      rw [ran] at both
      obtain ⟨rfl, -⟩ := Prod.mk.inj both
      exact ⟨what, congrArg Except.error (timeout what)⟩

/-- A store that shows an event on the second page, and answers its end on the second read. Its state is
the number of fetches and reads. -/
def slowStore : RemoteStore (Nat × Nat) where
  get _ state := (.ok none, state)
  list _ state := (.ok [], state)
  create _ _ state := (.error (.transport "closed"), state)
  update _ _ state := (.error (.transport "closed"), state)
  delete _ state := (.error (.transport "closed"), state)
  listEvents filter state :=
    let event : EventRecord := ⟨5, filter.entityType, 1, filter.action, .started, .epoch⟩
    (.ok (if state.1 = 0 then [] else [event]), (state.1 + 1, state.2))
  getEvent id state :=
    let event : EventRecord := ⟨id, "firewall", 1, "firewall_update", .finished, .epoch⟩
    (.ok (if state.2 = 0 then none else some event), (state.1, state.2 + 1))

/-- With looks after 1000 and 500 milliseconds the budget has to be longer than both together. -/
theorem awaitNextFinished_within_budget_slowStore :
    let filter : EventFilter := ⟨"firewall", some 1, "firewall_update"⟩
    let waiter : EventWaiter := ⟨filter, .empty, .standard⟩
    let record : EventRecord := ⟨5, "firewall", 1, "firewall_update", .finished, .epoch⟩
    (0 < waiter.intervals.event ∧ 0 < waiter.intervals.terminal) ∧
      (awaitNextFinished slowStore (.starting 0 1501) ⟨0, ⟨waiter, (0, 0)⟩⟩).1 =
        .ok (.completed record) ∧
      (awaitNextFinishedAt slowStore.dated (.starting 0 1501)
          ⟨0, ⟨waiter, ⟨(0, 0), []⟩⟩⟩).2.state.state.journal =
        [(0, .listEvents filter), (1000, .listEvents filter), (1000, .getEvent 5),
          (1500, .getEvent 5)] ∧
      ∃ what, (awaitNextFinished slowStore (.starting 0 1500) ⟨0, ⟨waiter, (0, 0)⟩⟩).1 =
        .error (.timeoutExceeded what (.ofMillis 1500)) := by
  intro filter waiter record
  have shows : FindsAfter (pollOnce slowStore) 1 ⟨waiter, (0, 0)⟩ { record with status := .started }
      ⟨waiter.saw { record with status := .started }, (2, 0)⟩ := .later rfl (.now rfl)
  have ends : FindsAfter (readTerminal slowStore 5) 1 (2, 0) record (2, 2) := .later rfl (.now rfl)
  obtain ⟨_, _, _, _, ran, datedRan, -, -, -, early⟩ :=
    awaitNextFinished_within_budget slowStore waiter (0, 0) 0 1501 (by decide) (by decide)
  obtain ⟨_, _, _, _, ranLate, _, -, -, -, late⟩ :=
    awaitNextFinished_within_budget slowStore waiter (0, 0) 0 1500 (by decide) (by decide)
  obtain ⟨⟨failed, -⟩ | ⟨-, rfl⟩, rfl, rfl⟩ := (early 1 1 _ _ _ _ shows ends).1 (by decide)
  · cases failed
  · obtain ⟨what, rfl⟩ := (late 1 1 _ _ _ _ shows ends).2 (by decide)
    rw [ran, datedRan, ranLate]
    exact ⟨by decide, rfl, rfl, what, rfl⟩

end EventWaiter

end DesiredState
