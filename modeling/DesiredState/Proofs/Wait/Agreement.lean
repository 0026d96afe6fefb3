import DesiredState.Proofs.Wait.Dated

/-!
# Waiting on stores that agree

Along agreeing stores every wait takes the same course: it looks at the same times, finds the
same events and ends in the same way.
-/

set_option autoImplicit false

namespace DesiredState

variable {σ τ α : Type} {related : σ → τ → Prop}

structure Timed.Related (related : σ → τ → Prop) (left : Timed σ) (right : Timed τ) : Prop where
  clock : left.clock = right.clock
  state : related left.state right.state

structure Watch.Related (related : σ → τ → Prop) (left : Watch σ) (right : Watch τ) : Prop where
  waiter : left.waiter = right.waiter
  state : related left.state right.state

namespace Probe

theorem agree_timely {first : Nat → σ → Except PassError (Option α) × σ}
    {second : Nat → τ → Except PassError (Option α) × τ}
    (agree : ∀ clock, Agree related (first clock) (second clock)) :
    Agree (Timed.Related related) (timely first) (timely second) := by
  rintro ⟨clock, left⟩ ⟨_, right⟩ ⟨rfl, start⟩
  obtain ⟨answer, leftAfter, rightAfter, ran, otherRan, after⟩ := (agree clock).run start
  simp only [timely, instant, ran, otherRan]
  exact ⟨trivial, rfl, after⟩

variable {probe : Probe σ α} {other : Probe τ α} {interval : Nat} {budget : Budget} {what : String}

private theorem woken {left : Timed σ} {right : Timed τ} (start : Timed.Related related left right)
    (clock : Nat) : Timed.Related related ⟨clock, left.state⟩ ⟨clock, right.state⟩ :=
  ⟨rfl, start.state⟩

private theorem agree_retry (agree : Agree (Timed.Related related) probe other) :
    Agree (Timed.Related related) (retry interval budget what probe)
      (retry interval budget what other) := by
  intro left right start
  induction left using retry.induct interval budget probe generalizing right with
  | case1 left spent =>
      rw [retry, retry, ← start.clock, dif_pos spent, dif_pos spent]
      exact ⟨rfl, start⟩
  | case2 left unspent clock exhausted =>
      rw [retry, retry, ← start.clock, dif_neg unspent, dif_neg unspent]
      simp only [clock] at exhausted
      simp only [exhausted, if_true]
      exact ⟨trivial, rfl, start.state⟩
  | case3 left unspent clock fresh error after failed =>
      rw [retry, retry, ← start.clock, dif_neg unspent, dif_neg unspent]
      obtain ⟨_, _, rightAfter, ran, otherRan, clocks, states⟩ := agree.run (woken start clock)
      cases failed.symm.trans ran
      simp only [clock] at fresh failed otherRan
      simp only [fresh, failed, otherRan, Bool.false_eq_true, if_false, clocks]
      exact ⟨trivial, rfl, states⟩
  | case4 left unspent clock fresh value after found =>
      rw [retry, retry, ← start.clock, dif_neg unspent, dif_neg unspent]
      obtain ⟨_, _, rightAfter, ran, otherRan, clocks, states⟩ := agree.run (woken start clock)
      cases found.symm.trans ran
      simp only [clock] at fresh found otherRan
      simp only [fresh, found, otherRan, Bool.false_eq_true, if_false, clocks]
      exact ⟨trivial, rfl, states⟩
  | case5 left unspent clock fresh after nothing ih =>
      rw [retry, retry, ← start.clock, dif_neg unspent, dif_neg unspent]
      obtain ⟨_, _, rightAfter, ran, otherRan, clocks, states⟩ := agree.run (woken start clock)
      cases nothing.symm.trans ran
      have later := ih _ (woken ⟨clocks, states⟩ (max clock after.clock))
      simp only [clock] at fresh nothing otherRan later
      simp only [fresh, nothing, otherRan, Bool.false_eq_true, if_false, ← clocks]
      exact later

theorem agree_await (interval : Nat) (budget : Budget) (what : String)
    (agree : Agree (Timed.Related related) probe other) :
    Agree (Timed.Related related) (await interval budget what probe)
      (await interval budget what other) := by
  rintro ⟨clock, left⟩ ⟨_, right⟩ ⟨rfl, start⟩
  rw [await, await]
  dsimp only
  cases exhausted : budget.isExhausted clock with
  | true => exact ⟨rfl, rfl, start⟩
  | false =>
      have atOnce : Timed.Related related ⟨clock, left⟩ ⟨clock, right⟩ := ⟨rfl, start⟩
      obtain ⟨answer, ⟨later, leftAfter⟩, ⟨_, rightAfter⟩, ran, otherRan, rfl, states⟩ :=
        agree.run atOnce
      simp only [Bool.false_eq_true, if_false, ran, otherRan]
      cases answer with
      | error error => exact ⟨rfl, rfl, states⟩
      | ok found =>
          cases found with
          | some value => exact ⟨rfl, rfl, states⟩
          | none => exact agree_retry agree _ _ ⟨rfl, states⟩

end Probe

namespace EventWaiter

open RemoteStore

variable {first : RemoteStore σ} {second : RemoteStore τ}

theorem agree_start (agree : first.PagesAgree related second) (filter : EventFilter)
    (intervals : WaitIntervals) :
    Agree related (start first filter intervals) (start second filter intervals) := by
  intro left right begun
  unfold start
  cases filter.entityId with
  | none => exact ⟨rfl, begun⟩
  | some id =>
      obtain ⟨answer, leftAfter, rightAfter, ran, otherRan, after⟩ := (agree.listEvents filter).run begun
      simp only [ran, otherRan]
      cases answer with
      | error error => exact ⟨rfl, after⟩
      | ok records => exact ⟨rfl, after⟩

theorem agree_pollOnce (agree : first.PagesAgree related second) :
    Agree (Watch.Related related) (pollOnce first) (pollOnce second) := by
  rintro ⟨waiter, left⟩ ⟨_, right⟩ ⟨rfl, begun⟩
  obtain ⟨answer, leftAfter, rightAfter, ran, otherRan, after⟩ :=
    (agree.listEvents waiter.filter).run begun
  simp only [pollOnce, ran, otherRan]
  cases answer with
  | error error => exact ⟨rfl, rfl, after⟩
  | ok page =>
      dsimp only
      cases waiter.firstUnseen? page with
      | none => exact ⟨rfl, rfl, after⟩
      | some record => exact ⟨rfl, rfl, after⟩

theorem agree_readTerminal (agree : first.ReadsAgree related second) (id : Nat) :
    Agree related (readTerminal first id) (readTerminal second id) := by
  intro left right begun
  obtain ⟨answer, leftAfter, rightAfter, ran, otherRan, after⟩ := (agree.getEvent id).run begun
  simp only [readTerminal, ran, otherRan]
  cases answer with
  | error error => exact ⟨rfl, after⟩
  | ok found => exact ⟨rfl, after⟩

/-! Stores may agree at every time. -/

variable {firstAt : Nat → RemoteStore σ} {secondAt : Nat → RemoteStore τ}

private theorem agree_awaitNextAt (agree : ∀ clock, (firstAt clock).PagesAgree related (secondAt clock))
    (budget : Budget) :
    Agree (Timed.Related (Watch.Related related)) (awaitNextAt firstAt budget)
      (awaitNextAt secondAt budget) := by
  rintro ⟨clock, waiter, left⟩ ⟨_, _, right⟩ ⟨rfl, rfl, begun⟩
  exact Probe.agree_await _ _ _ (Probe.agree_timely fun clock => agree_pollOnce (agree clock)) _ _
    ⟨rfl, rfl, begun⟩

private theorem agree_awaitTerminalAt (agree : ∀ clock, (firstAt clock).ReadsAgree related (secondAt clock))
    (interval : Nat) (event : EventRecord) (budget : Budget) :
    Agree (Timed.Related related) (awaitTerminalAt firstAt interval event budget)
      (awaitTerminalAt secondAt interval event budget) := by
  intro left right begun
  obtain ⟨answer, leftAfter, rightAfter, ran, otherRan, after⟩ :=
    (Probe.agree_await interval budget (terminalGoal event)
      (Probe.agree_timely fun clock => agree_readTerminal (agree clock) event.id)).run begun
  simp only [awaitTerminalAt, ran, otherRan]
  cases answer with
  | error error => exact ⟨rfl, after⟩
  | ok record => exact ⟨rfl, after⟩

private theorem agree_awaitNextFinishedAt
    (agree : ∀ clock, (firstAt clock).ReadsAgree related (secondAt clock)) (budget : Budget) :
    Agree (Timed.Related (Watch.Related related)) (awaitNextFinishedAt firstAt budget)
      (awaitNextFinishedAt secondAt budget) := by
  intro left right begun
  obtain ⟨answer, ⟨clock, waiter, leftAfter⟩, ⟨_, _, rightAfter⟩, ran, otherRan, rfl, rfl, after⟩ :=
    (agree_awaitNextAt (fun clock => (agree clock).toPagesAgree) budget).run begun
  simp only [awaitNextFinishedAt, ran, otherRan]
  cases answer with
  | error error => exact ⟨rfl, rfl, rfl, after⟩
  | ok event =>
      have now : Timed.Related related ⟨clock, leftAfter⟩ ⟨clock, rightAfter⟩ := ⟨rfl, after⟩
      obtain ⟨outcome, leftLast, rightLast, ended, otherEnded, clocks, states⟩ :=
        (agree_awaitTerminalAt agree waiter.intervals.terminal event budget).run now
      simp only [ended, otherEnded]
      exact ⟨trivial, clocks, rfl, states⟩

theorem agree_awaitNextFinished (agree : first.ReadsAgree related second) (budget : Budget) :
    Agree (Timed.Related (Watch.Related related)) (awaitNextFinished first budget)
      (awaitNextFinished second budget) := by
  rw [← awaitNextFinishedAt_const, ← awaitNextFinishedAt_const]
  exact agree_awaitNextFinishedAt (fun _ => agree) budget

end EventWaiter

end DesiredState
