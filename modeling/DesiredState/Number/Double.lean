/-!
# Finite doubles

A finite binary double is a sign, a significand and a power of two, kept in the one form in
which every value occurs once. Everything here is exact arithmetic on natural numbers:
`Double.nearest?` rounds a quotient to the closest double, a tie going to the even significand,
and has no answer exactly when the quotient is too large for a finite double.
-/

set_option autoImplicit false

namespace DesiredState

/-- The double `± significand × 2 ^ exponent`. The significand fills its 53 bits unless the
exponent is already the least one, so two doubles are equal exactly when their parts are. -/
structure Double where
  negative : Bool
  significand : Nat
  exponent : Int
  canonical : significand < 9007199254740992 ∧ -1074 ≤ exponent ∧ exponent ≤ 971 ∧
    (4503599627370496 ≤ significand ∨ exponent = -1074)
  deriving DecidableEq

namespace Double

def zero (negative : Bool) : Double := ⟨negative, 0, -1074, by decide⟩

def ofParts? (negative : Bool) (significand : Nat) (exponent : Int) : Option Double :=
  if canonical : significand < 9007199254740992 ∧ -1074 ≤ exponent ∧ exponent ≤ 971 ∧
      (4503599627370496 ≤ significand ∨ exponent = -1074) then
    some ⟨negative, significand, exponent, canonical⟩
  else none

/-- Equality of values: the two zeros count as one, every other double equals only itself. -/
def agrees (a b : Double) : Bool :=
  (a.significand == 0 && b.significand == 0) || a == b

/-! ## Rounding -/

def roundDiv (num den : Nat) : Nat :=
  let quotient := num / den
  let twice := 2 * (num % den)
  if twice < den then quotient
  else if den < twice then quotient + 1
  else if quotient % 2 = 0 then quotient
  else quotient + 1

/-- `n × 2 ^ e` for a power `e ≥ 0`, and `n` for a negative one: a quotient is scaled by
`2 ^ e` as `scaleUp num e / scaleUp den (-e)`. -/
def scaleUp (n : Nat) (e : Int) : Nat := n * Nat.pow 2 e.toNat

/-- The exponent of the greatest power of two that is at most `num / den`, for a positive
quotient. The bit lengths alone leave two candidates. -/
def floorLog2 (num den : Nat) : Int :=
  let guess : Int := (Nat.log2 num : Int) - (Nat.log2 den : Int)
  if scaleUp den guess ≤ scaleUp num (-guess) then guess else guess - 1

/-- The double nearest to `± num / den`, a tie going to the even significand; nothing when
that lies beyond the greatest finite double. -/
def nearest? (negative : Bool) (num den : Nat) : Option Double :=
  if num = 0 then some (zero negative)
  else
    let exponent := max (-1074) (floorLog2 num den - 52)
    let significand := roundDiv (scaleUp num (-exponent)) (scaleUp den exponent)
    if significand = 9007199254740992 then ofParts? negative 4503599627370496 (exponent + 1)
    else ofParts? negative significand exponent

def ofInt? (value : Int) : Option Double :=
  nearest? (value < 0) value.natAbs 1

/-- The double nearest to `± digits × 10 ^ scale`. A numeral far outside the range of doubles
is settled by its magnitude alone, so that a long exponent costs nothing. -/
def ofDecimal? (negative : Bool) (digits : Nat) (scale : Int) : Option Double :=
  let magnitude : Int := ((Nat.toDigits 10 digits).length : Int) + scale
  if digits = 0 ∨ magnitude < -330 then some (zero negative)
  else if 310 < magnitude then none
  else nearest? negative (digits * Nat.pow 10 scale.toNat) (Nat.pow 10 (-scale).toNat)

/-! ## Arithmetic -/

def times? (a b : Double) : Option Double :=
  let exponent := a.exponent + b.exponent
  nearest? (a.negative != b.negative) (scaleUp (a.significand * b.significand) exponent)
    (scaleUp 1 (-exponent))

def over? (a b : Double) : Option Double :=
  let exponent := a.exponent - b.exponent
  nearest? (a.negative != b.negative) (scaleUp a.significand exponent)
    (scaleUp b.significand (-exponent))

def powerOfTen? (exponent : Nat) : Option Double := nearest? false (Nat.pow 10 exponent) 1

/-- A double times `10 ^ scale`, by one multiplication or division with a power of ten; a scale
below that of the least power takes two divisions, and one below both leaves nothing of a double
less than `2 ^ 64`. Every step rounds, so that the result may miss the nearest double. -/
def shifted? (double : Double) (scale : Int) : Option Double :=
  if double.significand = 0 then some double
  else if 308 < scale then none
  else if 0 ≤ scale then (powerOfTen? scale.toNat).bind double.times?
  else if -308 ≤ scale then (powerOfTen? (-scale).toNat).bind double.over?
  else if -616 ≤ scale then
    match (powerOfTen? 308).bind double.over?, powerOfTen? (-308 - scale).toNat with
    | some part, some power => part.over? power
    | _, _ => none
  else some (zero double.negative)

end Double

end DesiredState
