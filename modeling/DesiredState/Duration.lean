/-!
# Spans of time

A span is a number of nanoseconds. Its text counts in the largest of the units second,
millisecond, microsecond and nanosecond that is not longer than the span, with as many decimals
as are needed.
-/

set_option autoImplicit false

namespace DesiredState

/-- A span of time. -/
structure Duration where
  nanoseconds : Nat
  deriving DecidableEq

namespace Duration

def second : Nat := 1000000000

def millisecond : Nat := 1000000

def microsecond : Nat := 1000

def ofMillis (millis : Nat) : Duration := ⟨millis * millisecond⟩

def decimals (rest places : Nat) : List Char :=
  let digits := Nat.toDigits 10 rest
  let padded := List.replicate (places - digits.length) '0' ++ digits
  (padded.reverse.dropWhile (· == '0')).reverse

def countedIn (duration : Duration) (places : Nat) (unit : String) : String :=
  let whole := Nat.repr (duration.nanoseconds / Nat.pow 10 places)
  let rest := duration.nanoseconds % Nat.pow 10 places
  if rest = 0 then whole ++ unit
  else whole ++ "." ++ String.ofList (decimals rest places) ++ unit

def text (duration : Duration) : String :=
  if second ≤ duration.nanoseconds then duration.countedIn 9 "s"
  else if millisecond ≤ duration.nanoseconds then duration.countedIn 6 "ms"
  else if microsecond ≤ duration.nanoseconds then duration.countedIn 3 "µs"
  else duration.countedIn 0 "ns"

end Duration

end DesiredState
