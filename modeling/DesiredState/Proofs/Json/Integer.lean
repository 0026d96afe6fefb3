import DesiredState.Proofs.Json.Numeral

/-!
# Integers written and read

An integer of 64 bits is written with its decimal digits and read back as it was.
-/

set_option autoImplicit false

namespace DesiredState

namespace Number

private theorem le_ofDigitChars (digits : List Char) (value : Nat) :
    value ≤ Nat.ofDigitChars 10 digits value := by
  induction digits generalizing value with
  | nil => exact Nat.le_of_eq Nat.ofDigitChars_nil.symm
  | cons digit rest ih =>
      rw [Nat.ofDigitChars_cons]
      exact Nat.le_trans (by omega) (ih _)

/-- All digits count if the number stays small enough. -/
theorem withDigits_eq {digits : List Char} {value : Nat}
    (fits : Nat.ofDigitChars 10 digits value < wordLimit) :
    withDigits value digits = (Nat.ofDigitChars 10 digits value, []) := by
  induction digits generalizing value with
  | nil => rw [withDigits, Nat.ofDigitChars_nil]
  | cons digit rest ih =>
      rw [Nat.ofDigitChars_cons, Nat.mul_comm] at fits ⊢
      rw [withDigits, if_pos (Nat.lt_of_le_of_lt (le_ofDigitChars rest _) fits)]
      exact ih fits

/-- The text of an integer is its digits behind its sign. -/
theorem readNumber?_text_integer (value : Int) :
    Json.readNumber? (text (.integer value)).toList =
      some (ofNumeral? (value < 0) (Nat.toDigits 10 value.natAbs) none none, []) := by
  rw [text]
  by_cases negative : value < 0
  · have signed : ("-" ++ Nat.repr value.natAbs).toList = '-' :: Nat.toDigits 10 value.natAbs := by
      rw [String.toList_append, Nat.toList_repr]
      rfl
    rw [if_pos negative, signed, Json.readNumber?_minus, (Json.isNumeral_toDigits _).readUnsigned?,
      decide_eq_true negative]
  · rw [if_neg negative, Nat.toList_repr, (Json.isNumeral_toDigits _).readNumber?, decide_eq_false negative]

/-- An integer of 64 bits is read back from its text. -/
theorem ofNumeral?_toDigits {value : Int} (fits : fitsWord value = true) :
    ofNumeral? (value < 0) (Nat.toDigits 10 value.natAbs) none none = some (.integer value) := by
  have bounds : -9223372036854775808 ≤ value ∧ value < 18446744073709551616 := by
    rw [fitsWord, Bool.and_eq_true, decide_eq_true_iff, decide_eq_true_iff] at fits
    exact fits
  have counted : withDigits 0 (Nat.toDigits 10 value.natAbs) = (value.natAbs, []) := by
    rw [withDigits_eq] <;> rw [Nat.ofDigitChars_ten_toDigits]
    rw [wordLimit]
    omega
  have isValue : (if decide (value < 0) = true then -(value.natAbs : Int) else value.natAbs) = value := by
    by_cases negative : value < 0
    · rw [if_pos (decide_eq_true negative)]
      omega
    · rw [if_neg (by simpa using negative)]
      omega
  have notNegativeZero : (decide (value < 0) && value.natAbs == 0) = false := by
    rw [Bool.and_eq_false_iff, decide_eq_false_iff_not, beq_eq_false_iff_ne]
    omega
  rw [ofNumeral?, counted]
  dsimp only
  rw [isValue, fits, notNegativeZero]
  rfl

end Number

end DesiredState
