import DesiredState.Proofs.Json.Double
import DesiredState.Proofs.Number.Rounding

/-!
# Numbers can be read again

Every double is read from its text as some double: reading rounds twice, but never beyond the greatest
double. So the text of a number never keeps the text around it from being read.
-/

set_option autoImplicit false

namespace DesiredState

namespace Digits

theorem ofDigitChars_lt {digits : List Char} (valid : ∀ c ∈ digits, c.isDigit = true) (value : Nat) :
    Nat.ofDigitChars 10 digits value < (value + 1) * 10 ^ digits.length := by
  induction digits generalizing value with
  | nil => simp
  | cons digit rest ih =>
      have small : digit.toNat - '0'.toNat ≤ 9 := by
        have isDigit := valid digit List.mem_cons_self
        rw [Char.isDigit, Bool.and_eq_true, decide_eq_true_iff, decide_eq_true_iff] at isDigit
        have high : digit.toNat ≤ 57 := isDigit.2
        have zero : '0'.toNat = 48 := rfl
        omega
      rw [Nat.ofDigitChars_cons, List.length_cons, Nat.pow_succ', ← Nat.mul_assoc]
      refine Nat.lt_of_lt_of_le (ih (fun c member => valid c (List.mem_cons_of_mem digit member)) _) ?_
      exact Nat.mul_le_mul_right _ (by omega)

private theorem ofDigitChars_append_le (kept rest : List Char) :
    Nat.ofDigitChars 10 kept 0 * 10 ^ rest.length ≤ Nat.ofDigitChars 10 (kept ++ rest) 0 := by
  rw [Nat.ofDigitChars_append, Nat.mul_comm, Nat.ofDigitChars_eq_ofDigitChars_zero (l := rest)]
  exact Nat.le_add_right _ _

end Digits

namespace Decimal

/-- The number that a decimal stands for. -/
def value (decimal : Decimal) : ℚ := decimal.digits * 10 ^ decimal.scale

/-- A decimal as the quotient that is rounded for it. -/
theorem value_eq_div (decimal : Decimal) :
    decimal.value = ((decimal.digits * Nat.pow 10 decimal.scale.toNat : Nat) : ℚ) /
      (Nat.pow 10 (-decimal.scale).toNat : Nat) := by
  rw [value]
  rcases Int.le_total 0 decimal.scale with up | down
  · obtain ⟨steps, isSteps⟩ := Int.eq_ofNat_of_zero_le up
    have none : (-(steps : ℤ)).toNat = 0 := by omega
    rw [isSteps, none]
    simp
  · obtain ⟨steps, isSteps⟩ := Int.eq_ofNat_of_zero_le (show 0 ≤ -decimal.scale by omega)
    have isScale : decimal.scale = -(steps : ℤ) := by omega
    have none : (-(steps : ℤ)).toNat = 0 := by omega
    rw [isSteps, isScale, none, zpow_neg, zpow_natCast]
    simp
    rfl

/-- Zeros at the end of a decimal only move its scale. -/
theorem value_significant (decimal : Decimal) :
    (Nat.ofDigitChars 10 decimal.significant.1 0 : ℚ) * 10 ^ decimal.significant.2 = decimal.value := by
  have isSplit := List.takeWhile_append_dropWhile (p := (· == '0')) (l := (Nat.toDigits 10 decimal.digits).reverse)
  generalize isZeros : (Nat.toDigits 10 decimal.digits).reverse.takeWhile (· == '0') = zeros at isSplit
  have allZeros : zeros = List.replicate zeros.length '0' := by
    rw [List.eq_replicate_length]
    intro c member
    rw [← isZeros] at member
    simpa using List.mem_takeWhile_imp member
  have digits : Nat.toDigits 10 decimal.digits = decimal.significant.1 ++ List.replicate zeros.length '0' := by
    rw [← List.reverse_reverse (Nat.toDigits 10 decimal.digits), ← isSplit, List.reverse_append, allZeros,
      List.reverse_replicate, List.length_replicate]
    rfl
  have scale : decimal.significant.2 = decimal.scale + zeros.length := by
    have lengths := congrArg List.length digits
    rw [List.length_append, List.length_replicate] at lengths
    rw [significant]
    dsimp only
    rw [significant] at lengths
    dsimp only at lengths
    omega
  have counted : decimal.digits = Nat.ofDigitChars 10 decimal.significant.1 0 * 10 ^ zeros.length := by
    have read := Nat.ofDigitChars_ten_toDigits (n := decimal.digits)
    rw [digits, Nat.ofDigitChars_append, Nat.ofDigitChars_replicate_zero, Nat.mul_comm] at read
    exact read.symm
  rw [value, counted, scale, zpow_add₀ (by norm_num), zpow_natCast]
  push_cast
  ring

end Decimal

namespace Double

theorem value_exactDecimal (double : Double) : double.exactDecimal.value = double.magnitude := by
  unfold exactDecimal
  split
  · rename_i up
    obtain ⟨steps, isSteps⟩ := Int.eq_ofNat_of_zero_le up
    rw [Decimal.value, magnitude, isSteps]
    simp
  · rename_i down
    obtain ⟨steps, isSteps⟩ := Int.eq_ofNat_of_zero_le (show 0 ≤ -double.exponent by omega)
    have isExponent : double.exponent = -(steps : ℤ) := by omega
    have two : (10 : ℚ) = 5 * 2 := by norm_num
    rw [Decimal.value, magnitude, isSteps, isExponent, zpow_neg, zpow_neg, zpow_natCast, zpow_natCast, two, mul_pow]
    simp only [Int.toNat_natCast, Nat.pow_eq, Nat.cast_mul, Nat.cast_pow, Nat.cast_ofNat]
    field_simp

/-- A decimal that reads back as a double exceeds it by at most half a step. -/
theorem value_le_of_readsBack {double : Double} {decimal : Decimal} (positive : double.significand ≠ 0)
    (same : double.readsBack decimal = true) : decimal.value ≤ double.magnitude + 2 ^ double.exponent / 2 := by
  rw [readsBack, beq_iff_eq, ofDecimal?] at same
  split at same
  · rw [← Option.some.inj same] at positive
    exact absurd rfl positive
  · rename_i notZero
    split at same
    · cases same
    · have numPositive : 0 < decimal.digits * Nat.pow 10 decimal.scale.toNat :=
        Nat.mul_pos (Nat.pos_of_ne_zero fun zero => notZero (.inl zero)) (Nat.pow_pos (by decide))
      have bounded := le_magnitude_nearest? numPositive (Nat.pow_pos (by decide)) same
      exact le_of_eq_of_le decimal.value_eq_div bounded

private theorem value_shortest_le {double : Double} (positive : double.significand ≠ 0) :
    double.shortest.value ≤ double.magnitude + 2 ^ double.exponent / 2 := by
  have from_le : ∀ dropped, (double.shortestFrom double.exactDecimal dropped).value ≤
      double.magnitude + 2 ^ double.exponent / 2 := by
    intro dropped
    induction dropped with
    | zero =>
        rw [shortestFrom, value_exactDecimal]
        have step := two_zpow_pos double.exponent
        linarith
    | succ dropped ih =>
        rw [shortestFrom]
        split
        · rename_i decimal found
          exact value_le_of_readsBack positive (List.find?_some found)
        · exact ih
  exact from_le _

end Double

namespace Number

/-- As many digits count as fit into 64 bits. -/
theorem withDigits_split {digits rest : List Char} {value longer : Nat}
    (split : withDigits value digits = (longer, rest)) :
    ∃ kept, digits = kept ++ rest ∧ longer = Nat.ofDigitChars 10 kept value ∧
      (value < wordLimit → longer < wordLimit) := by
  induction digits generalizing value with
  | nil =>
      cases split
      exact ⟨[], rfl, rfl, id⟩
  | cons digit tail ih =>
      rw [withDigits] at split
      split at split
      · rename_i fits
        obtain ⟨kept, isSplit, isLonger, stays⟩ := ih split
        refine ⟨digit :: kept, by rw [isSplit]; rfl, ?_, fun _ => stays fits⟩
        rw [Nat.ofDigitChars_cons, Nat.mul_comm 10]
        exact isLonger
      · cases split
        exact ⟨[], rfl, rfl, id⟩

variable {negative : Bool} {whole : List Char} {fraction : Option (List Char)} {exponent : Option Int}

/-- A numeral is a number if the digits of it that count can be shifted to their place. -/
theorem isSome_ofNumeral? {head significand : Nat} {dropped ignored : List Char}
    (isHead : withDigits 0 whole = (head, dropped))
    (isSignificand : withDigits head (fraction.getD []) = (significand, ignored))
    (shifts : ∀ double, Double.nearest? negative significand 1 = some double →
      (double.shifted? (exponent.getD 0 +
        (dropped.length - (((fraction.getD []).length - ignored.length : Nat) : Int)))).isSome = true) :
    (ofNumeral? negative whole fraction exponent).isSome = true := by
  obtain ⟨_, _, _, fits⟩ := withDigits_split isHead
  obtain ⟨_, _, _, stillFits⟩ := withDigits_split isSignificand
  have small : (significand : ℚ) / ((1 : Nat) : ℚ) < Double.limit := by
    have cast : (significand : ℚ) < 18446744073709551616 := by exact_mod_cast stillFits (fits (by decide))
    rw [Nat.cast_one, div_one]
    exact Double.lt_limit (by linarith)
  obtain ⟨double, isNearest⟩ := Option.isSome_iff_exists.mp (Double.isSome_nearest? negative _ Nat.one_pos small)
  obtain ⟨shifted, isShifted⟩ := Option.isSome_iff_exists.mp (shifts double isNearest)
  rw [ofNumeral?, isHead]
  dsimp only
  rw [isSignificand]
  dsimp only
  rw [isNearest, Option.bind_some, isShifted]
  generalize (if negative = true then -(head : Int) else head) = integer
  split <;> rfl

/-- A numeral of at most sixteen digits before its point and no exponent is a number. -/
theorem isSome_ofNumeral?_positional (digits : Digits whole) (short : whole.length ≤ 16) (decimals : List Char) :
    (ofNumeral? negative whole (some decimals) none).isSome = true := by
  have fits : Nat.ofDigitChars 10 whole 0 < wordLimit := by
    have bounded := Digits.ofDigitChars_lt digits.all 0
    have most : 10 ^ whole.length ≤ 10 ^ 16 := Nat.pow_le_pow_right (by decide) short
    have least : 10 ^ 16 < wordLimit := by decide
    omega
  cases split : withDigits (Nat.ofDigitChars 10 whole 0) decimals with
  | mk significand ignored =>
      obtain ⟨_, _, _, stillFits⟩ := withDigits_split split
      refine isSome_ofNumeral? (withDigits_eq fits) split fun double isNearest => ?_
      refine Double.isSome_shifted? (stillFits fits) (fun up => absurd up ?_) isNearest
      simp

/-- A numeral in scientific notation is a number if what it stands for is below the limit by more than
two roundings. -/
theorem isSome_ofNumeral?_scientific {digits : List Char} (valid : Digits digits) {scale : Int}
    (decimals : fraction.getD [] = digits.drop 1)
    (bounded : (Nat.ofDigitChars 10 digits 0 : ℚ) * 10 ^ scale * (1 + Double.unit) ^ 2 < Double.limit) :
    (ofNumeral? negative (digits.take 1) fraction (some (digits.length + scale - 1))).isSome = true := by
  have fits : Nat.ofDigitChars 10 (digits.take 1) 0 < wordLimit := by
    have one := Digits.ofDigitChars_lt (valid.take Nat.one_pos).all 0
    have most : 10 ^ (digits.take 1).length ≤ 10 ^ 1 := Nat.pow_le_pow_right (by decide) (List.length_take_le 1 digits)
    have least : 10 ^ 1 < wordLimit := by decide
    omega
  cases split : withDigits (Nat.ofDigitChars 10 (digits.take 1) 0) (fraction.getD []) with
  | mk significand ignored =>
      obtain ⟨kept, isSplit, isSignificand, stillFits⟩ := withDigits_split split
      rw [decimals] at isSplit
      have isDigits : digits = digits.take 1 ++ kept ++ ignored := by
        rw [List.append_assoc, ← isSplit, List.take_append_drop]
      have isWhole : significand = Nat.ofDigitChars 10 (digits.take 1 ++ kept) 0 := by
        rw [Nat.ofDigitChars_append, isSignificand]
      have counted : (significand : ℚ) * 10 ^ (scale + ignored.length) ≤
          Nat.ofDigitChars 10 digits 0 * 10 ^ scale := by
        have natural := Digits.ofDigitChars_append_le (digits.take 1 ++ kept) ignored
        rw [← isDigits, ← isWhole] at natural
        have cast : (significand : ℚ) * 10 ^ ignored.length ≤ Nat.ofDigitChars 10 digits 0 := by exact_mod_cast natural
        rw [zpow_add₀ (by norm_num), zpow_natCast, mul_comm ((10 : ℚ) ^ scale), ← mul_assoc]
        exact mul_le_mul_of_nonneg_right cast (zpow_nonneg (by norm_num) _)
      refine isSome_ofNumeral? (withDigits_eq fits) split fun double isNearest => ?_
      have place : (some ((digits.length : Int) + scale - 1)).getD 0 +
          (([] : List Char).length - (((fraction.getD []).length - ignored.length : Nat) : Int)) =
            scale + ignored.length := by
        have length := List.length_pos_of_ne_nil valid.nonempty
        have lengths := congrArg List.length isSplit
        rw [List.length_drop, List.length_append] at lengths
        rw [decimals, List.length_drop, Option.getD_some, List.length_nil]
        omega
      rw [place]
      refine Double.isSome_shifted? (stillFits fits) (fun _ => ?_) isNearest
      exact (mul_le_mul_of_nonneg_right counted (sq_nonneg _)).trans_lt bounded

end Number

namespace Double

/-- The two greatest doubles are read again, too. -/
theorem isSome_reread?_greatest {double : Double} (exponent : double.exponent = 971)
    (significand : 9007199254740990 ≤ double.significand) : (Number.reread? (.double double)).isSome = true := by
  obtain ⟨negative, bits, power, canonical⟩ := double
  dsimp only at exponent significand
  subst exponent
  have either : bits ∈ [9007199254740990, 9007199254740991] := by
    rw [List.mem_cons, List.mem_singleton]
    omega
  have all : ∀ negative, ∀ bits ∈ [9007199254740990, 9007199254740991], (ofParts? negative bits 971).all
      (fun double => (Number.reread? (.double double)).isSome) = true := by
    decide +kernel
  have read := all negative bits either
  rwa [ofParts?, dif_pos canonical, Option.all_some] at read

/-- What is written for a double below the two greatest stays below the limit by more than two
roundings. -/
theorem value_shortest_lt {double : Double} (positive : double.significand ≠ 0)
    (lesser : double.exponent = 971 → double.significand < 9007199254740990) :
    double.shortest.value * (1 + unit) ^ 2 < limit := by
  have near := value_shortest_le positive
  have step := two_zpow_pos double.exponent
  have bounded : double.magnitude + 2 ^ double.exponent / 2 ≤
      (9007199254740989 + 1 / 2) * 2 ^ (971 : ℤ) := by
    obtain ⟨short, _, most, _⟩ := double.canonical
    rw [magnitude]
    rcases Int.lt_or_eq_of_le most with lower | greatest
    · have cast : (double.significand : ℚ) ≤ 9007199254740991 := by exact_mod_cast Nat.le_of_lt_succ short
      have steps : (2 : ℚ) ^ (double.exponent + 1) ≤ 2 ^ (971 : ℤ) := zpow_le_zpow_right₀ (by norm_num) (by omega)
      rw [zpow_add_one₀ two_ne_zero] at steps
      generalize (2 : ℚ) ^ (971 : ℤ) = greatest at steps
      nlinarith
    · have cast : (double.significand : ℚ) ≤ 9007199254740989 := by
        exact_mod_cast Nat.le_of_lt_succ (lesser greatest)
      rw [greatest] at step ⊢
      generalize (2 : ℚ) ^ (971 : ℤ) = greatest at step
      nlinarith
  have margin : (9007199254740989 + 1 / 2) * (1 + unit) ^ 2 < (9007199254740992 - 1 / 2 : ℚ) := by norm_num [unit]
  have greatest := two_zpow_pos 971
  rw [limit]
  generalize (2 : ℚ) ^ (971 : ℤ) = size at bounded greatest
  calc double.shortest.value * (1 + unit) ^ 2 ≤ (9007199254740989 + 1 / 2) * size * (1 + unit) ^ 2 :=
        mul_le_mul_of_nonneg_right (near.trans bounded) (sq_nonneg _)
    _ = (9007199254740989 + 1 / 2) * (1 + unit) ^ 2 * size := by ring
    _ < (9007199254740992 - 1 / 2) * size := mul_lt_mul_of_pos_right margin greatest

/-- Every double is read from its text as a number. -/
theorem isSome_reread? (double : Double) : (Number.reread? (.double double)).isSome = true := by
  by_cases greatest : double.exponent = 971 ∧ 9007199254740990 ≤ double.significand
  · exact isSome_reread?_greatest greatest.1 greatest.2
  · obtain ⟨whole, fraction, exponent, parts, read⟩ := double.readNumber?_text
    have isRead : Number.reread? (.double double) =
        Number.ofNumeral? double.negative whole fraction exponent := congrArg (·.bind Prod.fst) read
    rw [isRead]
    cases parts with
    | positional digits short fraction => exact Number.isSome_ofNumeral?_positional digits short fraction
    | scientific positive decimals =>
        obtain ⟨valid, _⟩ := Decimal.digits_significant (digits_shortest_ne_zero positive)
        refine Number.isSome_ofNumeral?_scientific valid decimals ?_
        rw [Decimal.value_significant]
        exact value_shortest_lt positive fun isGreatest => Nat.lt_of_not_le fun large => greatest ⟨isGreatest, large⟩

end Double

namespace Number

/-- A number that a value can hold: an integer of 64 bits, or a double. -/
def FitsWord : Number → Prop
  | .integer value => fitsWord value = true
  | .double _ => True

instance : (number : Number) → Decidable number.FitsWord
  | .integer value => inferInstanceAs (Decidable (fitsWord value = true))
  | .double _ => inferInstanceAs (Decidable True)

theorem isSome_reread? {number : Number} (fits : number.FitsWord) : number.reread?.isSome = true := by
  cases number with
  | integer value =>
      rw [reread?_integer fits]
      rfl
  | double double => exact double.isSome_reread?

end Number

end DesiredState
