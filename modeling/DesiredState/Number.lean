import DesiredState.Number.Decimal

/-!
# Numbers

A number keeps the form it was written in: an integer is exact, anything with a fraction or an
exponent is a double. The two forms are told apart by field checks and by the text written
back, but compare by value.
-/

set_option autoImplicit false

namespace DesiredState

/-- A number in the form it was written in. -/
inductive Number where
  | integer (value : Int)
  | double (value : Double)
  deriving DecidableEq

namespace Number

def toDouble? : Number → Option Double
  | .integer value => Double.ofInt? value
  | .double value => some value

/-- Comparison by value. Two integers compare exactly; as soon as one side is a double, both
sides are compared as doubles. -/
def agrees : Number → Number → Bool
  | .integer a, .integer b => a == b
  | a, b =>
      match a.toDouble?, b.toDouble? with
      | some x, some y => x.agrees y
      | _, _ => false

def sameForm : Number → Number → Bool
  | .integer a, .integer b => a == b
  | .double a, .double b => a.agrees b
  | _, _ => false

def text : Number → String
  | .integer value => if value < 0 then "-" ++ Nat.repr value.natAbs else Nat.repr value.natAbs
  | .double value => value.text

/-! ## Numerals -/

def wordLimit : Nat := 18446744073709551616

def fitsWord (value : Int) : Bool := -9223372036854775808 ≤ value && value < wordLimit

/-- The number with digits put behind it, as long as it stays below `2 ^ 64`, and the digits
that are left. -/
def withDigits (value : Nat) : List Char → Nat × List Char
  | [] => (value, [])
  | digit :: rest =>
      let longer := value * 10 + (digit.toNat - '0'.toNat)
      if longer < wordLimit then withDigits longer rest else (value, digit :: rest)

/-- The number a numeral stands for, given the digits before and after the point and the
exponent. Without fraction and exponent it is an integer if that fits into 64 bits and is not
a negative zero.

Any other numeral is read quickly rather than exactly. Of its digits count as many as fit into
64 bits; the integer that they form is rounded to a double and shifted to its place. There is no
number if that is too large for a double. -/
def ofNumeral? (negative : Bool) (whole : List Char) (fraction : Option (List Char))
    (exponent : Option Int) : Option Number :=
  let (head, dropped) := withDigits 0 whole
  let value : Int := if negative then -(head : Int) else head
  if fraction.isNone && exponent.isNone && dropped.isEmpty && fitsWord value &&
      !(negative && head == 0) then
    some (.integer value)
  else
    let decimals := fraction.getD []
    let (significand, ignored) := withDigits head decimals
    let scale : Int := dropped.length - ((decimals.length - ignored.length : Nat) : Int)
    ((Double.nearest? negative significand 1).bind fun double =>
      double.shifted? (exponent.getD 0 + scale)).map .double

end Number

end DesiredState
