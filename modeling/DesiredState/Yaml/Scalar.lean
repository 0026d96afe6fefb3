import DesiredState.Json.Reader

/-!
# The meaning of plain scalars

A plain scalar is null, a truth value or a number if it has the form of one, and text otherwise.
Integers are written in base ten, or in base sixteen, eight or two behind `0x`, `0o` or `0b`.
Digits with a leading zero are text. An integer that needs more than 64 but at most 128 bits has
no value; a longer one is a number with a fraction.
-/

set_option autoImplicit false

namespace DesiredState

namespace Yaml

def isNull (text : String) : Bool := ["", "~", "null", "Null", "NULL"].contains text

def bool? (text : String) : Option Bool :=
  if ["true", "True", "TRUE"].contains text then some true
  else if ["false", "False", "FALSE"].contains text then some false
  else none

/-! ## Integers -/

def digits? (base : Nat) (digits : List Char) : Option Nat :=
  if digits.isEmpty then none
  else
    digits.foldl (fun value digit =>
      match value, Json.hexDigit? digit with
      | some value, some digit => if digit < base then some (value * base + digit) else none
      | _, _ => none) (some 0)

def base? : List Char → Option (Nat × List Char)
  | '0' :: 'x' :: rest => some (16, rest)
  | '0' :: 'o' :: rest => some (8, rest)
  | '0' :: 'b' :: rest => some (2, rest)
  | _ => none

def hasLeadingZero : List Char → Bool
  | '0' :: rest => !rest.isEmpty && rest.all Char.isDigit
  | _ => false

def sign : List Char → Option Char × List Char
  | '+' :: rest => (some '+', rest)
  | '-' :: rest => (some '-', rest)
  | rest => (none, rest)

def magnitude? (text : List Char) : Option Nat :=
  match base? text with
  | some (base, digits) => digits? base digits
  | none => if hasLeadingZero text then none else digits? 10 text

def integer? (text : List Char) : Option Int :=
  match sign text with
  | (some '-', rest) => (magnitude? rest).map fun value => -(value : Int)
  | (_, rest) => (magnitude? rest).map fun value => (value : Int)

/-- The integer of a plain scalar that may only be a natural number of 64 bits. It has no minus
sign, not even if it is zero. -/
def unsigned? (text : String) : Option Nat :=
  match sign text.toList with
  | (some '-', _) => none
  | (_, digits) => (magnitude? digits).filter (· < Number.wordLimit)

def fitsDoubleWord (value : Int) : Bool :=
  -170141183460469231731687303715884105728 ≤ value &&
    value < 340282366920938463463374607431768211456

/-! ## Fractions -/

def fraction : List Char → List Char × List Char
  | '.' :: rest => rest.span Char.isDigit
  | rest => ([], rest)

/-- The number with a fraction or an exponent that a plain scalar is. There is a digit in front
of the point or behind it. -/
def double? (text : List Char) : Option Double :=
  let (sign, rest) := sign text
  let (whole, rest) := rest.span Char.isDigit
  let (decimals, rest) := fraction rest
  if whole.isEmpty && decimals.isEmpty then none
  else
    match Json.readExponent? rest with
    | some (exponent, []) =>
        Double.ofDecimal? (sign == some '-') (Nat.ofDigitChars 10 (whole ++ decimals) 0)
          (exponent.getD 0 - (decimals.length : Int))
    | _ => none

/-- Whether a plain scalar stands for an infinity or for no number at all. There are no such
values, and null takes their place. -/
def isBeyondNumbers (text : String) : Bool :=
  [".inf", ".Inf", ".INF", "+.inf", "+.Inf", "+.INF", "-.inf", "-.Inf", "-.INF", ".nan", ".NaN",
    ".NAN"].contains text

/-! ## Values -/

/-- The value of a number with a fraction or an exponent, or of what is beyond numbers. -/
def floatValue? (text : String) : Option Value :=
  if isBeyondNumbers text then some .null
  else (double? text.toList).map fun value => .number (.double value)

def integerValue? (value : Int) : Option Value :=
  if Number.fitsWord value then some (.number (.integer value)) else none

def otherValue (text : String) : Value :=
  let digits := (sign text.toList).2
  ((if hasLeadingZero digits then none else floatValue? text)).getD (.string text)

def value? (text : String) : Option Value :=
  if isNull text then some .null
  else
    match bool? text, integer? text.toList with
    | some value, _ => some (.bool value)
    | none, none => some (otherValue text)
    | none, some value =>
        if fitsDoubleWord value then integerValue? value else some (otherValue text)

end Yaml

end DesiredState
