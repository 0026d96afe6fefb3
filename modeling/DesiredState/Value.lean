import DesiredState.Number
import DesiredState.SortedMap

/-!
# Attribute values

What an attribute of a resource can hold: null, a boolean, a number, text, a list, or an
object whose fields stand in ascending order of their keys.

* `Value.agrees` is the comparison of desired with observed values: deep, and by value for
  numbers.
* `Value.sameForm` also tells the number forms apart.
* Equality of values is decidable.
-/

set_option autoImplicit false

namespace DesiredState

/-- An attribute value. The fields of an object are in ascending order of their keys. -/
inductive Value where
  | null
  | bool (value : Bool)
  | number (value : Number)
  | string (value : String)
  | list (items : List Value)
  | object (fields : List (String × Value))
  deriving Inhabited

/-- The attributes of a resource, a desired set of them, or the body of a request. -/
abbrev Attributes := SortedMap Value

namespace Value

/-! ## Equality -/

mutual

def decideEq : (a b : Value) → Decidable (a = b)
  | .null, .null => .isTrue rfl
  | .bool a, .bool b => if same : a = b then .isTrue (same ▸ rfl) else .isFalse (by simpa using same)
  | .number a, .number b =>
      if same : a = b then .isTrue (same ▸ rfl) else .isFalse (by simpa using same)
  | .string a, .string b =>
      if same : a = b then .isTrue (same ▸ rfl) else .isFalse (by simpa using same)
  | .list a, .list b =>
      match decideItemsEq a b with
      | .isTrue same => .isTrue (same ▸ rfl)
      | .isFalse different => .isFalse (by simpa using different)
  | .object a, .object b =>
      match decideFieldsEq a b with
      | .isTrue same => .isTrue (same ▸ rfl)
      | .isFalse different => .isFalse (by simpa using different)
  | .null, .bool _ | .null, .number _ | .null, .string _ | .null, .list _ | .null, .object _
  | .bool _, .null | .bool _, .number _ | .bool _, .string _ | .bool _, .list _
  | .bool _, .object _ | .number _, .null | .number _, .bool _ | .number _, .string _
  | .number _, .list _ | .number _, .object _ | .string _, .null | .string _, .bool _
  | .string _, .number _ | .string _, .list _ | .string _, .object _ | .list _, .null
  | .list _, .bool _ | .list _, .number _ | .list _, .string _ | .list _, .object _
  | .object _, .null | .object _, .bool _ | .object _, .number _ | .object _, .string _
  | .object _, .list _ => .isFalse nofun

def decideItemsEq : (a b : List Value) → Decidable (a = b)
  | [], [] => .isTrue rfl
  | [], _ :: _ => .isFalse nofun
  | _ :: _, [] => .isFalse nofun
  | a :: as, b :: bs =>
      match decideEq a b, decideItemsEq as bs with
      | .isTrue head, .isTrue tail => .isTrue (by rw [head, tail])
      | .isFalse different, _ => .isFalse (by simp [different])
      | _, .isFalse different => .isFalse (by simp [different])

def decideFieldsEq : (a b : List (String × Value)) → Decidable (a = b)
  | [], [] => .isTrue rfl
  | [], _ :: _ => .isFalse nofun
  | _ :: _, [] => .isFalse nofun
  | (k, a) :: as, (l, b) :: bs =>
      match decEq k l, decideEq a b, decideFieldsEq as bs with
      | .isTrue key, .isTrue head, .isTrue tail => .isTrue (by rw [key, head, tail])
      | .isFalse different, _, _ => .isFalse (by simp [different])
      | _, .isFalse different, _ => .isFalse (by simp [different])
      | _, _, .isFalse different => .isFalse (by simp [different])

end

instance : DecidableEq Value := decideEq

/-! ## Comparison -/

mutual

/-- Deep comparison under a comparison of numbers: lists element by element, objects field by
field, which meets equal keys at equal places because fields are in key order. -/
def agreesBy (same : Number → Number → Bool) : Value → Value → Bool
  | .null, .null => true
  | .bool a, .bool b => a == b
  | .number a, .number b => same a b
  | .string a, .string b => a == b
  | .list as, .list bs => itemsAgreeBy same as bs
  | .object as, .object bs => fieldsAgreeBy same as bs
  | _, _ => false

def itemsAgreeBy (same : Number → Number → Bool) : List Value → List Value → Bool
  | [], [] => true
  | a :: as, b :: bs => agreesBy same a b && itemsAgreeBy same as bs
  | _, _ => false

def fieldsAgreeBy (same : Number → Number → Bool) :
    List (String × Value) → List (String × Value) → Bool
  | [], [] => true
  | (k, a) :: as, (l, b) :: bs => k == l && agreesBy same a b && fieldsAgreeBy same as bs
  | _, _ => false

end

/-- The comparison of desired with observed values: numbers compare by value, so that `3` and
`3.0` agree. -/
def agrees (a b : Value) : Bool := agreesBy Number.agrees a b

def sameForm (a b : Value) : Bool := agreesBy Number.sameForm a b

/-! ## Kinds -/

def isNull : Value → Bool
  | .null => true
  | _ => false

def string? : Value → Option String
  | .string value => some value
  | _ => none

def bool? : Value → Option Bool
  | .bool value => some value
  | _ => none

def nat? : Value → Option Nat
  | .number (.integer (.ofNat value)) => some value
  | _ => none

def attributes? : Value → Option Attributes
  | .object fields => some (.ofList fields)
  | _ => none

def ofNat (value : Nat) : Value := .number (.integer value)

def ofAttributes (attributes : Attributes) : Value := .object attributes.entries

end Value

end DesiredState
