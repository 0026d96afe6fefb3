import DesiredState.Wait.Budget

/-!
# Polling

A probe is tried at once, and again after every interval, until it finds something, fails, or
the budget is used up. No probe starts at or after the deadline, and no sleep reaches beyond
it. A probe may itself take time; the clock never runs backwards, and a sleep takes at least one
tick, so every wait comes to an end.
-/

set_option autoImplicit false

namespace DesiredState

/-- A look at a state that may find a value, and that may take time. -/
abbrev Probe (σ α : Type) := Timed σ → Except PassError (Option α) × Timed σ

namespace Probe

variable {σ α : Type}

def instant (look : σ → Except PassError (Option α) × σ) : Probe σ α := fun now =>
  match look now.state with
  | (answer, state) => (answer, ⟨now.clock, state⟩)

/-- How long to sleep before the next look. Even at an interval of zero a sleep takes one millisecond here,
where the clock need not move at all. That brings every wait to an end, and bounds the looks of such a wait
by the milliseconds that are left. -/
def sleepLength (interval remaining : Nat) : Nat := max 1 (min interval remaining)

def retry (interval : Nat) (budget : Budget) (what : String) (probe : Probe σ α)
    (now : Timed σ) : Except PassError α × Timed σ :=
  if _spent : budget.remaining now.clock = 0 then
    (.error (budget.timeout what now.clock), now)
  else
    let clock := now.clock + sleepLength interval (budget.remaining now.clock)
    if budget.isExhausted clock then (.error (budget.timeout what clock), ⟨clock, now.state⟩)
    else
      match probe ⟨clock, now.state⟩ with
      | (.error error, after) => (.error error, ⟨max clock after.clock, after.state⟩)
      | (.ok (some value), after) => (.ok value, ⟨max clock after.clock, after.state⟩)
      | (.ok none, after) =>
          retry interval budget what probe ⟨max clock after.clock, after.state⟩
termination_by budget.deadline - now.clock
decreasing_by
  simp only [Budget.remaining, sleepLength] at *
  omega

/-- Wait for a probe to find something. With an exhausted budget it is not tried at all. -/
def await (interval : Nat) (budget : Budget) (what : String) (probe : Probe σ α)
    (now : Timed σ) : Except PassError α × Timed σ :=
  if budget.isExhausted now.clock then (.error (budget.timeout what now.clock), now)
  else
    match probe now with
    | (.error error, after) => (.error error, ⟨max now.clock after.clock, after.state⟩)
    | (.ok (some value), after) => (.ok value, ⟨max now.clock after.clock, after.state⟩)
    | (.ok none, after) =>
        retry interval budget what probe ⟨max now.clock after.clock, after.state⟩

/-- A condition as a probe that finds nothing but the fact that it holds. -/
def ofCondition (condition : Timed σ → Except PassError Bool × Timed σ) : Probe σ Unit :=
  fun now =>
    match condition now with
    | (.ok true, after) => (.ok (some ()), after)
    | (.ok false, after) => (.ok none, after)
    | (.error error, after) => (.error error, after)

def awaitCondition (interval : Nat) (budget : Budget) (what : String)
    (condition : Timed σ → Except PassError Bool × Timed σ) (now : Timed σ) :
    Except PassError Unit × Timed σ :=
  await interval budget what (ofCondition condition) now

end Probe

end DesiredState
