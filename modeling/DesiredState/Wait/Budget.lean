import DesiredState.Error

/-!
# Time limits

Waiting runs on a clock that counts milliseconds. A budget is a span of it, from the moment it
was granted to a deadline that every nested wait shares.
-/

set_option autoImplicit false

namespace DesiredState

/-- The span in which some waits have to come to an end. -/
structure Budget where
  started : Nat
  deadline : Nat
  deadline_ge : started ≤ deadline
  deriving DecidableEq

namespace Budget

/-- A budget that is granted now. Times have no greatest value here, so every total has its deadline; a
total whose deadline a clock of limited range cannot show, and what stands in for it there, is left out. -/
def starting (now total : Nat) : Budget := ⟨now, now + total, Nat.le_add_right now total⟩

def remaining (budget : Budget) (now : Nat) : Nat := budget.deadline - now

def isExhausted (budget : Budget) (now : Nat) : Bool := budget.remaining now == 0

def elapsed (budget : Budget) (now : Nat) : Duration := .ofMillis (now - budget.started)

def timeout (budget : Budget) (what : String) (now : Nat) : PassError :=
  .timeoutExceeded what (budget.elapsed now)

end Budget

/-- A state together with the time at which it was reached. -/
structure Timed (σ : Type) where
  clock : Nat
  state : σ

end DesiredState
