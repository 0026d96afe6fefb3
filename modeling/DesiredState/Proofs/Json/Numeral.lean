import DesiredState.Proofs.Json.Token
import Mathlib.Data.List.TakeWhile

/-!
# Numerals

A text is read as one number, and nothing more, if it has a whole part without a superfluous zero,
and digits behind its point and the mark of its exponent, where there are any.
-/

set_option autoImplicit false

namespace DesiredState

/-! ## Digits -/

/-- Some digits, at least one. -/
structure Digits (text : List Char) : Prop where
  nonempty : text ≠ []
  all : ∀ c ∈ text, c.isDigit = true

namespace Digits

variable {text rest : List Char}

private theorem span_self (digits : Digits text) : text.span Char.isDigit = (text, []) := by
  rw [List.span_eq_takeWhile_dropWhile, List.takeWhile_eq_self_iff.mpr digits.all,
    List.dropWhile_eq_nil_iff.mpr digits.all]

private theorem span (digits : Digits text) (ends : ∀ c ∈ rest.head?, c.isDigit = false) :
    (text ++ rest).span Char.isDigit = (text, rest) := by
  rw [Json.span_append ends, digits.span_self, List.nil_append]

theorem append (first : Digits text) (second : ∀ c ∈ rest, c.isDigit = true) : Digits (text ++ rest) where
  nonempty := by simp [first.nonempty]
  all c member := (List.mem_append.mp member).elim (first.all c) (second c)

theorem head?_append (digits : Digits text) (rest : List Char) : (text ++ rest).head? = text.head? := by
  rw [List.head?_append, Option.or_of_isSome (List.isSome_head?.mpr digits.nonempty)]

theorem take (digits : Digits text) {count : Nat} (positive : 0 < count) : Digits (text.take count) where
  nonempty := by
    rw [ne_eq, List.take_eq_nil_iff, not_or]
    exact ⟨Nat.pos_iff_ne_zero.mp positive, digits.nonempty⟩
  all c member := digits.all c (List.mem_of_mem_take member)

theorem drop (digits : Digits text) {count : Nat} (short : count < text.length) : Digits (text.drop count) where
  nonempty := by
    rw [ne_eq, List.drop_eq_nil_iff]
    exact Nat.not_le_of_lt short
  all c member := digits.all c (List.mem_of_mem_drop member)

theorem toDigits (n : Nat) : Digits (Nat.toDigits 10 n) where
  nonempty := Nat.toDigits_ne_nil
  all _ member := Nat.isDigit_of_mem_toDigits (by decide) (by decide) member

/-- The digits of a positive number do not start with a zero. -/
theorem head?_toDigits {n : Nat} (positive : 0 < n) : (Nat.toDigits 10 n).head? ≠ some '0' := by
  induction n using Nat.strongRecOn with
  | ind n ih =>
      by_cases small : n < 10
      · rw [Nat.toDigits_of_lt_base small, List.head?_cons, ne_eq, Option.some.injEq]
        have allSmall : ∀ m < 10, 0 < m → ¬ Nat.digitChar m = '0' := by decide
        exact allSmall n small positive
      · rw [Nat.toDigits_of_base_le (by decide) (Nat.le_of_not_lt small),
          List.head?_append, Option.or_of_isSome (List.isSome_head?.mpr Nat.toDigits_ne_nil)]
        exact ih (n / 10) (by omega) (by omega)

end Digits

namespace Json

/-- Nothing, or a point with digits. -/
inductive IsFraction : List Char → Option (List Char) → Prop where
  | absent : IsFraction [] none
  | digits {text : List Char} (digits : Digits text) : IsFraction ('.' :: text) (some text)

/-- Nothing, or the mark of an exponent with a sign and digits. -/
inductive IsExponent : List Char → Option Int → Prop where
  | absent : IsExponent [] none
  | negative {text : List Char} (digits : Digits text) :
      IsExponent ('e' :: '-' :: text) (some (-(Nat.ofDigitChars 10 text 0 : Int)))
  | positive {text : List Char} (digits : Digits text) :
      IsExponent ('e' :: '+' :: text) (some (Nat.ofDigitChars 10 text 0 : Int))

/-- A whole part without a superfluous zero, and digits behind a point and behind the mark of an exponent,
where there are any. -/
inductive IsNumeral : List Char → List Char → Option (List Char) → Option Int → Prop where
  | parts {whole fractionText exponentText : List Char} {fraction : Option (List Char)} {exponent : Option Int}
      (digits : Digits whole) (noZero : whole.length ≤ 1 ∨ whole.head? ≠ some '0')
      (isFraction : IsFraction fractionText fraction) (isExponent : IsExponent exponentText exponent) :
      IsNumeral (whole ++ (fractionText ++ exponentText)) whole fraction exponent

theorem isNumeral_toDigits (n : Nat) : IsNumeral (Nat.toDigits 10 n) (Nat.toDigits 10 n) none none := by
  have noZero : (Nat.toDigits 10 n).length ≤ 1 ∨ (Nat.toDigits 10 n).head? ≠ some '0' := by
    rcases Nat.eq_zero_or_pos n with rfl | positive
    · exact .inl (by decide)
    · exact .inr (Digits.head?_toDigits positive)
  have numeral := IsNumeral.parts (Digits.toDigits n) noZero .absent .absent
  rwa [List.append_nil, List.append_nil] at numeral

variable {fractionText exponentText : List Char} {fraction : Option (List Char)} {exponent : Option Int}

private theorem IsExponent.head? (isExponent : IsExponent exponentText exponent) :
    ∀ c ∈ exponentText.head?, c.isDigit = false ∧ c ≠ '.' := by
  cases isExponent with
  | absent => exact fun _ first => nomatch first
  | negative digits | positive digits =>
      intro c first
      cases first
      decide

private theorem IsFraction.head? (isFraction : IsFraction fractionText fraction)
    (isExponent : IsExponent exponentText exponent) :
    ∀ c ∈ (fractionText ++ exponentText).head?, c.isDigit = false := by
  cases isFraction with
  | absent => exact fun c first => (isExponent.head? c first).1
  | digits digits =>
      intro c first
      cases first
      rfl

private theorem readFraction?_eq (isFraction : IsFraction fractionText fraction)
    (isExponent : IsExponent exponentText exponent) :
    readFraction? (fractionText ++ exponentText) = some (fraction, exponentText) := by
  cases isFraction with
  | absent => exact readFraction?_of_no_point fun c first => (isExponent.head? c first).2
  | @digits text digits =>
      rw [List.cons_append, readFraction?, digits.span fun c first => (isExponent.head? c first).1]
      cases text with
      | nil => exact absurd rfl digits.nonempty
      | cons digit rest => rfl

private theorem readExponent?_eq (isExponent : IsExponent exponentText exponent) :
    readExponent? exponentText = some (exponent, []) := by
  cases isExponent with
  | absent => rfl
  | @negative text digits | @positive text digits =>
      have spanned := digits.span_self
      cases text with
      | nil => exact absurd rfl digits.nonempty
      | cons digit rest =>
          simp only [readExponent?, readSign, spanned]
          rfl

namespace IsNumeral

variable {text whole : List Char}

theorem readUnsigned? (numeral : IsNumeral text whole fraction exponent) (negative : Bool) :
    Json.readUnsigned? negative text = some (Number.ofNumeral? negative whole fraction exponent, []) := by
  obtain ⟨digits, noZero, isFraction, isExponent⟩ := numeral
  have plain : (whole.isEmpty || (decide (whole.length > 1) && whole.head? == some '0')) = false := by
    rw [List.isEmpty_eq_false_iff.mpr digits.nonempty, Bool.false_or, Bool.and_eq_false_iff]
    rcases noZero with short | notZero
    · exact .inl (by simpa using short)
    · exact .inr (beq_false_of_ne notZero)
  rw [Json.readUnsigned?, digits.span (isFraction.head? isExponent)]
  dsimp only
  rw [plain, readFraction?_eq isFraction isExponent]
  simp [readExponent?_eq isExponent]

theorem readNumber? (numeral : IsNumeral text whole fraction exponent) :
    Json.readNumber? text = some (Number.ofNumeral? false whole fraction exponent, []) := by
  obtain ⟨c, tail, rfl, digit⟩ := head?_of_readUnsigned? (numeral.readUnsigned? false)
  refine (readNumber?_of_no_minus ?_).trans (numeral.readUnsigned? false)
  rintro other first rfl
  cases first
  cases digit

/-- A numeral has no sign of its own. -/
theorem head? (numeral : IsNumeral text whole fraction exponent) : ∀ c ∈ text.head?, c.isDigit = true := by
  obtain ⟨digits, _, _, _⟩ := numeral
  intro c first
  rw [digits.head?_append] at first
  exact digits.all c (List.mem_of_mem_head? first)

/-- A text has one whole part, one fraction and one exponent at most. -/
theorem unique {otherWhole : List Char} {otherFraction : Option (List Char)} {otherExponent : Option Int}
    (numeral : IsNumeral text whole fraction exponent)
    (other : IsNumeral text otherWhole otherFraction otherExponent) :
    whole = otherWhole ∧ fraction = otherFraction ∧ exponent = otherExponent := by
  generalize isText : text = same at other
  obtain ⟨digits, _, isFraction, isExponent⟩ := numeral
  obtain ⟨otherDigits, _, isOtherFraction, isOtherExponent⟩ := other
  have wholes := congrArg (List.span Char.isDigit) isText
  rw [digits.span (isFraction.head? isExponent),
    otherDigits.span (isOtherFraction.head? isOtherExponent)] at wholes
  obtain ⟨sameWhole, sameRest⟩ := Prod.ext_iff.mp wholes
  have fractions := congrArg readFraction? sameRest
  rw [readFraction?_eq isFraction isExponent, readFraction?_eq isOtherFraction isOtherExponent] at fractions
  obtain ⟨sameFraction, sameEnd⟩ := Prod.ext_iff.mp (Option.some.inj fractions)
  have exponents := congrArg readExponent? sameEnd
  rw [readExponent?_eq isExponent, readExponent?_eq isOtherExponent] at exponents
  exact ⟨sameWhole, sameFraction, (Prod.ext_iff.mp (Option.some.inj exponents)).1⟩

end IsNumeral

end Json

end DesiredState
