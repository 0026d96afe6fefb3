import DesiredState.Wait.Poll

/-!
# The course of a wait

A wait looks, sleeps, and looks again, until a look ends it or its time is up. What holds whenever it is
about to look and whenever it has looked in vain says what holds when it ends, whatever the probe does
and however long it takes.
-/

set_option autoImplicit false

namespace DesiredState

namespace Budget

theorem remaining_eq_zero_iff {budget : Budget} {now : Nat} :
    budget.remaining now = 0 ↔ budget.deadline ≤ now := by
  rw [remaining, Nat.sub_eq_zero_iff_le]

theorem isExhausted_iff {budget : Budget} {now : Nat} :
    budget.isExhausted now = true ↔ budget.deadline ≤ now := by
  rw [isExhausted, beq_iff_eq, remaining_eq_zero_iff]

private theorem lt_deadline_of_remaining {budget : Budget} {now : Nat} (unspent : ¬budget.remaining now = 0) :
    now < budget.deadline := by
  rw [remaining_eq_zero_iff] at unspent
  exact Nat.not_le.mp unspent

private theorem lt_deadline_of_not_exhausted {budget : Budget} {now : Nat}
    (fresh : ¬budget.isExhausted now = true) : now < budget.deadline := by
  rw [isExhausted_iff] at fresh
  exact Nat.not_le.mp fresh

theorem isExhausted_eq_false {budget : Budget} {now : Nat} :
    budget.isExhausted now = false ↔ now < budget.deadline := by
  rw [Bool.eq_false_iff, ne_eq, isExhausted_iff, Nat.not_le]

theorem isExhausted_deadline (budget : Budget) : budget.isExhausted budget.deadline = true :=
  isExhausted_iff.mpr (Nat.le_refl _)

end Budget

namespace Probe

variable {σ α : Type} {interval : Nat} {budget : Budget} {what : String} {probe : Probe σ α}
  {ready tried : Timed σ → Prop} {ends : Except PassError α → Timed σ → Prop}

theorem instant_eq (look : σ → Except PassError (Option α) × σ) (now : Timed σ) :
    instant look now = ((look now.state).1, ⟨now.clock, (look now.state).2⟩) := rfl

/-- The state after a look. The clock never runs backwards. -/
def later (before after : Timed σ) : Timed σ := ⟨max before.clock after.clock, after.state⟩

/-- The state after the sleep between two looks. -/
def slept (interval : Nat) (budget : Budget) (now : Timed σ) : Timed σ :=
  ⟨now.clock + sleepLength interval (budget.remaining now.clock), now.state⟩

theorem slept_clock_le {now : Timed σ} (waiting : now.clock < budget.deadline) :
    (slept interval budget now).clock ≤ budget.deadline := by
  simp only [slept, sleepLength, Budget.remaining]
  omega

/-- What holds along a wait: one thing before every look, another after each that found nothing, and a
third at the end. Looks are only taken before the deadline. -/
structure Course (interval : Nat) (budget : Budget) (what : String) (probe : Probe σ α)
    (ready tried : Timed σ → Prop) (ends : Except PassError α → Timed σ → Prop) : Prop where
  missed : ∀ now after, ready now → now.clock < budget.deadline → probe now = (.ok none, after) →
    tried (later now after)
  found : ∀ now value after, ready now → now.clock < budget.deadline →
    probe now = (.ok (some value), after) → ends (.ok value) (later now after)
  failed : ∀ now error after, ready now → now.clock < budget.deadline →
    probe now = (.error error, after) → ends (.error error) (later now after)
  again : ∀ now, tried now → now.clock < budget.deadline → ready (slept interval budget now)
  late : ∀ now, ready now ∨ tried now → budget.deadline ≤ now.clock →
    ends (.error (budget.timeout what now.clock)) now

namespace Course

private theorem retry_ends (course : Course interval budget what probe ready tried ends) {now : Timed σ}
    (begun : tried now) :
    ends (retry interval budget what probe now).1 (retry interval budget what probe now).2 := by
  induction now using retry.induct interval budget probe with
  | case1 now spent =>
      rw [retry, dif_pos spent]
      exact course.late now (.inr begun) (Budget.remaining_eq_zero_iff.mp spent)
  | case2 now unspent clock exhausted =>
      rw [retry, dif_neg unspent]
      simp only [clock] at exhausted
      simp only [exhausted, if_true]
      have awake := course.again now begun (Budget.lt_deadline_of_remaining unspent)
      exact course.late (slept interval budget now) (.inl awake) (Budget.isExhausted_iff.mp exhausted)
  | case3 now unspent clock fresh error after failed =>
      rw [retry, dif_neg unspent]
      simp only [clock] at fresh failed
      simp only [fresh, failed, Bool.false_eq_true, if_false]
      have awake := course.again now begun (Budget.lt_deadline_of_remaining unspent)
      exact course.failed _ error after awake (Budget.lt_deadline_of_not_exhausted fresh) failed
  | case4 now unspent clock fresh value after found =>
      rw [retry, dif_neg unspent]
      simp only [clock] at fresh found
      simp only [fresh, found, Bool.false_eq_true, if_false]
      have awake := course.again now begun (Budget.lt_deadline_of_remaining unspent)
      exact course.found _ value after awake (Budget.lt_deadline_of_not_exhausted fresh) found
  | case5 now unspent clock fresh after nothing ih =>
      rw [retry, dif_neg unspent]
      simp only [clock] at fresh nothing ih
      simp only [fresh, nothing, Bool.false_eq_true, if_false]
      have awake := course.again now begun (Budget.lt_deadline_of_remaining unspent)
      exact ih (course.missed _ after awake (Budget.lt_deadline_of_not_exhausted fresh) nothing)

theorem await_ends (course : Course interval budget what probe ready tried ends) (now : Timed σ)
    (begun : ready now) :
    ends (await interval budget what probe now).1 (await interval budget what probe now).2 := by
  rw [await]
  by_cases exhausted : budget.isExhausted now.clock = true
  · rw [if_pos exhausted]
    exact course.late now (.inl begun) (Budget.isExhausted_iff.mp exhausted)
  · have waiting := Budget.lt_deadline_of_not_exhausted exhausted
    rw [if_neg exhausted]
    rcases looked : probe now with ⟨error | found, after⟩
    · exact course.failed now error after begun waiting looked
    · cases found with
      | none => exact course.retry_ends (course.missed now after begun waiting looked)
      | some value => exact course.found now value after begun waiting looked

end Course

end Probe

end DesiredState
