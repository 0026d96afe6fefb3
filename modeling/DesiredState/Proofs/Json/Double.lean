import DesiredState.Proofs.Json.Integer
import Mathlib.Tactic.Ring

/-!
# The text of a double

Whatever the double, its text is read as one number and nothing more, though not always as the same
one.
-/

set_option autoImplicit false

namespace DesiredState

namespace Decimal

/-- The significant digits of a positive number do not start with a zero. -/
theorem digits_significant {decimal : Decimal} (positive : decimal.digits ≠ 0) :
    Digits decimal.significant.1 ∧ decimal.significant.1.head? ≠ some '0' := by
  have all := Digits.toDigits decimal.digits
  have first := Digits.head?_toDigits (Nat.pos_of_ne_zero positive)
  have kept : decimal.significant.1 <+: Nat.toDigits 10 decimal.digits := by
    have cut := List.dropWhile_suffix (l := (Nat.toDigits 10 decimal.digits).reverse) (· == '0')
    have turned := List.reverse_prefix.mpr cut
    rwa [List.reverse_reverse] at turned
  have nonempty : decimal.significant.1 ≠ [] := by
    intro none
    have zeros := List.dropWhile_eq_nil_iff.mp (List.reverse_eq_nil_iff.mp none)
    obtain ⟨digit, rest, split⟩ := List.exists_cons_of_ne_nil all.nonempty
    have zero := zeros digit (List.mem_reverse.mpr (split ▸ List.mem_cons_self))
    rw [split, List.head?_cons, beq_iff_eq.mp zero] at first
    exact first rfl
  have digits : Digits decimal.significant.1 := ⟨nonempty, fun c member => all.all c (kept.subset member)⟩
  refine ⟨digits, ?_⟩
  obtain ⟨zeros, joined⟩ := kept
  rwa [← joined, digits.head?_append] at first

end Decimal

/-- A numeral stands for digits at a place: it has these digits, perhaps between zeros. -/
def Json.StandsFor (whole : List Char) (fraction : Option (List Char)) (exponent : Option Int)
    (digits : List Char) (scale : Int) : Prop :=
  ∃ zeros : Nat,
    Nat.ofDigitChars 10 (whole ++ fraction.getD []) 0 = Nat.ofDigitChars 10 digits 0 * 10 ^ zeros ∧
      exponent.getD 0 + zeros = scale + (fraction.getD []).length

namespace Double

variable {digits : List Char}

/-- The decimal that is written for a double other than zero is not zero either. -/
theorem digits_shortest_ne_zero {double : Double} (positive : double.significand ≠ 0) :
    double.shortest.digits ≠ 0 := by
  have exactPositive : double.exactDecimal.digits ≠ 0 := by
    unfold exactDecimal
    split
    · exact Nat.mul_ne_zero positive (Nat.pos_iff_ne_zero.mp (Nat.pow_pos (by decide)))
    · exact Nat.mul_ne_zero positive (Nat.pos_iff_ne_zero.mp (Nat.pow_pos (by decide)))
  have from_ne : ∀ dropped, (double.shortestFrom double.exactDecimal dropped).digits ≠ 0 := by
    intro dropped
    induction dropped with
    | zero => exact exactPositive
    | succ dropped ih =>
        rw [shortestFrom]
        split
        · rename_i decimal found
          intro zero
          have same := List.find?_some found
          rw [readsBack, ofDecimal?, if_pos (.inl zero), beq_iff_eq, Option.some.injEq] at same
          exact positive (same ▸ rfl)
        · exact ih
  exact from_ne _

private theorem digits_zeros (count : Nat) : ∀ c ∈ List.replicate count '0', c.isDigit = true := by
  intro c member
  rw [List.eq_of_mem_replicate member]
  rfl

private theorem isNumeral_positional (valid : Digits digits) (noZero : digits.head? ≠ some '0')
    (scale : Int) :
    ∃ whole fraction, Json.IsNumeral (positional digits (digits.length + scale)) whole (some fraction) none ∧
      Digits whole ∧ whole.length ≤ max 1 (digits.length + scale).toNat ∧
      Json.StandsFor whole (some fraction) none digits scale := by
  have zero : Digits ['0'] := ⟨by simp, by simp⟩
  generalize isCount : (digits.length : Int) + scale = integerDigits
  unfold positional
  split
  · have decimals : Digits (List.replicate (-integerDigits).toNat '0' ++ digits) := by
      constructor
      · simp [valid.nonempty]
      · intro c member
        exact (List.mem_append.mp member).elim (digits_zeros _ c) (valid.all c)
    have numeral := Json.IsNumeral.parts zero (.inl (Nat.le_refl 1)) (.digits decimals) .absent
    rw [List.append_nil] at numeral
    refine ⟨_, _, numeral, zero, Nat.le_max_left _ _, 0, ?_, ?_⟩
    · simp [Nat.ofDigitChars_cons, Nat.ofDigitChars_append, Nat.ofDigitChars_replicate_zero]
    · simp
      omega
  · dsimp only
    split
    · rename_i short
      have whole := valid.append (digits_zeros (integerDigits.toNat - digits.length))
      have numeral := Json.IsNumeral.parts whole (.inr (by rwa [valid.head?_append])) (.digits zero) .absent
      rw [List.append_nil] at numeral
      refine ⟨_, _, numeral, whole, ?_, integerDigits.toNat - digits.length + 1, ?_, ?_⟩
      · rw [List.length_append, List.length_replicate]
        omega
      · simp [Nat.ofDigitChars_cons, Nat.ofDigitChars_append, Nat.ofDigitChars_replicate_zero]
        ring
      · simp
        omega
    · rename_i notPositive short
      have some : 0 < integerDigits.toNat := by omega
      have whole := valid.take some
      have decimals := valid.drop (Nat.lt_of_not_le short)
      have first : (digits.take integerDigits.toNat).head? ≠ Option.some '0' := by
        rwa [List.head?_take, if_neg (Nat.pos_iff_ne_zero.mp some)]
      have numeral := Json.IsNumeral.parts whole (.inr first) (.digits decimals) .absent
      rw [List.append_nil] at numeral
      refine ⟨_, _, numeral, whole, Nat.le_trans (List.length_take_le _ _) (Nat.le_max_right _ _), 0, ?_, ?_⟩
      · simp
      · simp
        omega

private theorem isExponent_toDigits (power : Int) :
    Json.IsExponent ('e' :: (if power < 0 then '-' else '+') :: Nat.toDigits 10 power.natAbs) (some power) := by
  have magnitude : Nat.ofDigitChars 10 (Nat.toDigits 10 power.natAbs) 0 = power.natAbs := Nat.ofDigitChars_ten_toDigits
  split
  · have read := Json.IsExponent.negative (Digits.toDigits power.natAbs)
    have same : -(power.natAbs : Int) = power := by omega
    rwa [magnitude, same] at read
  · have read := Json.IsExponent.positive (Digits.toDigits power.natAbs)
    have same : (power.natAbs : Int) = power := by omega
    rwa [magnitude, same] at read

private theorem isNumeral_scientific (valid : Digits digits) (scale : Int) :
    ∃ fraction, Json.IsNumeral (scientific digits (digits.length + scale)) (digits.take 1) fraction
        (some (digits.length + scale - 1)) ∧ fraction.getD [] = digits.drop 1 ∧
      Json.StandsFor (digits.take 1) fraction (some (digits.length + scale - 1)) digits scale := by
  have whole := valid.take Nat.one_pos
  have short : (digits.take 1).length ≤ 1 := List.length_take_le 1 digits
  have isExponent := isExponent_toDigits (digits.length + scale - 1)
  have standsFor : ∀ fraction : Option (List Char), fraction.getD [] = digits.drop 1 →
      Json.StandsFor (digits.take 1) fraction (some (digits.length + scale - 1)) digits scale := by
    intro fraction decimals
    refine ⟨0, by rw [decimals, List.take_append_drop, Nat.pow_zero, Nat.mul_one], ?_⟩
    have length := List.length_pos_iff.mpr valid.nonempty
    rw [decimals, List.length_drop, Option.getD_some]
    omega
  unfold scientific
  cases more : digits.drop 1 with
  | nil =>
      have numeral := Json.IsNumeral.parts whole (.inl short) .absent isExponent
      dsimp only
      rw [List.append_nil]
      exact ⟨none, numeral, rfl, standsFor none more.symm⟩
  | cons digit rest =>
      have decimals : Digits (digit :: rest) := by
        rw [← more]
        refine valid.drop (Nat.lt_of_not_le fun none => ?_)
        rw [List.drop_eq_nil_of_le none] at more
        cases more
      have numeral := Json.IsNumeral.parts whole (.inl short) (.digits decimals) isExponent
      rw [← List.append_assoc] at numeral
      exact ⟨_, numeral, rfl, standsFor _ more.symm⟩

/-- The parts of the text of a double. -/
inductive Parts (double : Double) : List Char → Option (List Char) → Option Int → Prop where
  | positional {whole : List Char} (digits : Digits whole) (short : whole.length ≤ 16) (fraction : List Char) :
      Parts double whole (some fraction) none
  | scientific {fraction : Option (List Char)} (positive : double.significand ≠ 0)
      (decimals : fraction.getD [] = double.shortest.significant.1.drop 1) :
      Parts double (double.shortest.significant.1.take 1) fraction
        (some (double.shortest.significant.1.length + double.shortest.significant.2 - 1))

/-- What the text of a double says: zero, or the digits that were found for it at their place. -/
def Spells (double : Double) (whole : List Char) (fraction : Option (List Char)) (exponent : Option Int) :
    Prop :=
  if double.significand = 0 then Json.StandsFor whole fraction exponent ['0'] 0
  else Json.StandsFor whole fraction exponent double.shortest.significant.1 double.shortest.significant.2

theorem text_eq (double : Double) : ∃ body whole fraction exponent,
    Json.IsNumeral body whole fraction exponent ∧ double.Parts whole fraction exponent ∧
      double.Spells whole fraction exponent ∧
      double.text.toList = if double.negative then '-' :: body else body := by
  have signed : ∀ body : List Char, (String.ofList ((if double.negative then ['-'] else []) ++ body)).toList =
      if double.negative then '-' :: body else body := by
    intro body
    rw [String.toList_ofList]
    cases double.negative <;> rfl
  by_cases zero : double.significand = 0
  · have digit : Digits ['0'] := ⟨by simp, by simp⟩
    refine ⟨['0', '.', '0'], ['0'], some ['0'], none, ?_, .positional digit (by decide) _, ?_,
      by rw [text, if_pos zero, signed]⟩
    · exact Json.IsNumeral.parts digit (.inl (Nat.le_refl 1)) (.digits digit) .absent
    · rw [Spells, if_pos zero]
      exact ⟨1, rfl, rfl⟩
  · obtain ⟨valid, noZero⟩ := Decimal.digits_significant (digits_shortest_ne_zero zero)
    simp only [Spells, zero, if_false]
    rw [text, if_neg zero, signed]
    dsimp only
    cases inRange : isPositional (double.shortest.significant.1.length + double.shortest.significant.2) with
    | true =>
        obtain ⟨whole, fraction, numeral, digits, short, standsFor⟩ :=
          isNumeral_positional valid noZero double.shortest.significant.2
        rw [isPositional, Bool.and_eq_true, decide_eq_true_iff, decide_eq_true_iff] at inRange
        exact ⟨_, _, _, _, numeral, .positional digits (by omega) fraction, standsFor, rfl⟩
    | false =>
        obtain ⟨fraction, numeral, decimals, standsFor⟩ :=
          isNumeral_scientific valid double.shortest.significant.2
        exact ⟨_, _, _, _, numeral, .scientific zero decimals, standsFor, rfl⟩

/-- The text of a double is read as one number. -/
theorem readNumber?_text (double : Double) : ∃ whole fraction exponent, double.Parts whole fraction exponent ∧
    Json.readNumber? double.text.toList = some (Number.ofNumeral? double.negative whole fraction exponent, []) := by
  obtain ⟨body, whole, fraction, exponent, numeral, parts, _, isText⟩ := double.text_eq
  refine ⟨whole, fraction, exponent, parts, ?_⟩
  rw [isText]
  cases double.negative with
  | true => exact numeral.readUnsigned? true
  | false => exact numeral.readNumber?

end Double

namespace Number

/-- What is read from the text of a number: nothing if it is beyond the doubles. -/
def reread? (number : Number) : Option Number := (Json.readNumber? number.text.toList).bind Prod.fst

theorem readNumber?_text (number : Number) :
    Json.readNumber? number.text.toList = some (number.reread?, []) := by
  have wholly : ∃ read, Json.readNumber? number.text.toList = some (read, []) := by
    cases number with
    | double double =>
        obtain ⟨_, _, _, _, read⟩ := double.readNumber?_text
        exact ⟨_, read⟩
    | integer value => exact ⟨_, readNumber?_text_integer value⟩
  obtain ⟨read, isRead⟩ := wholly
  rw [reread?, isRead, Option.bind_some]

/-- An integer of 64 bits is read back from its text. -/
theorem reread?_integer {value : Int} (fits : fitsWord value = true) :
    reread? (.integer value) = some (.integer value) := by
  rw [reread?, readNumber?_text_integer, Option.bind_some]
  exact ofNumeral?_toDigits fits

end Number

end DesiredState
