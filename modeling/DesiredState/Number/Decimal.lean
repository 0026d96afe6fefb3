import DesiredState.Number.Double

/-!
# Decimal text of doubles

A double is written with the fewest significant digits that read back as the same double, and
of the numerals that short with the one nearest to it. The digits are found by cutting the
exact decimal expansion shorter and shorter; the full expansion always reads back, so the
search cannot fail.
-/

set_option autoImplicit false

namespace DesiredState

/-- The decimal number `digits × 10 ^ scale`. -/
structure Decimal where
  digits : Nat
  scale : Int
  deriving DecidableEq

namespace Decimal

/-- The two numbers next to `exact` on the grid that has `dropped` digits fewer, the nearer
one first; at equal distance the even one is first. -/
def neighbours (exact : Decimal) (dropped : Nat) : List Decimal :=
  let unit := Nat.pow 10 dropped
  let kept := exact.digits / unit
  let twice := 2 * (exact.digits % unit)
  let scale := exact.scale + dropped
  if twice < unit ∨ (twice = unit ∧ kept % 2 = 0) then
    [⟨kept, scale⟩, ⟨kept + 1, scale⟩]
  else
    [⟨kept + 1, scale⟩, ⟨kept, scale⟩]

/-- The digits without trailing zeros, and the power of ten that the last of them counts. -/
def significant (decimal : Decimal) : List Char × Int :=
  let all := Nat.toDigits 10 decimal.digits
  let kept := (all.reverse.dropWhile (· == '0')).reverse
  (kept, decimal.scale + ((all.length - kept.length : Nat) : Int))

end Decimal

namespace Double

/-- The exact value of a double without its sign: a power of two in the denominator becomes a
power of ten by as many factors of five. -/
def exactDecimal (double : Double) : Decimal :=
  if 0 ≤ double.exponent then
    ⟨double.significand * Nat.pow 2 double.exponent.toNat, 0⟩
  else
    ⟨double.significand * Nat.pow 5 (-double.exponent).toNat, double.exponent⟩

def readsBack (double : Double) (decimal : Decimal) : Bool :=
  ofDecimal? double.negative decimal.digits decimal.scale == some double

def shortestFrom (double : Double) (exact : Decimal) : Nat → Decimal
  | 0 => exact
  | dropped + 1 =>
      match (exact.neighbours (dropped + 1)).find? double.readsBack with
      | some decimal => decimal
      | none => shortestFrom double exact dropped

def shortest (double : Double) : Decimal :=
  let exact := double.exactDecimal
  double.shortestFrom exact ((Nat.toDigits 10 exact.digits).length - 1)

/-! ## Layout -/

/-- Where positional notation is used: from `0.00001` up to, and without, `10 ^ 16`. The count
is that of the digits in front of the point, with leading zeros after it counted negative. -/
def isPositional (integerDigits : Int) : Bool :=
  -4 ≤ integerDigits && integerDigits ≤ 16

def positional (digits : List Char) (integerDigits : Int) : List Char :=
  if integerDigits ≤ 0 then
    '0' :: '.' :: (List.replicate (-integerDigits).toNat '0' ++ digits)
  else
    let whole := integerDigits.toNat
    if digits.length ≤ whole then
      digits ++ List.replicate (whole - digits.length) '0' ++ ['.', '0']
    else
      digits.take whole ++ '.' :: digits.drop whole

def scientific (digits : List Char) (integerDigits : Int) : List Char :=
  let power := integerDigits - 1
  let sign := if power < 0 then '-' else '+'
  let fraction := match digits.drop 1 with
    | [] => []
    | rest => '.' :: rest
  digits.take 1 ++ fraction ++ 'e' :: sign :: Nat.toDigits 10 power.natAbs

def text (double : Double) : String :=
  let sign := if double.negative then ['-'] else []
  let body :=
    if double.significand = 0 then ['0', '.', '0']
    else
      let (digits, scale) := double.shortest.significant
      let integerDigits := (digits.length : Int) + scale
      if isPositional integerDigits then positional digits integerDigits
      else scientific digits integerDigits
  String.ofList (sign ++ body)

end Double

end DesiredState
