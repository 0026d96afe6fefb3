import DesiredState.Proofs.Number.Exact

/-!
# Numbers told apart by their texts

What a decimal is rounded to depends on its value only, and the decimal that is written for a double is
rounded to that double. So no two numbers have the same text: an integer has neither a fraction nor an
exponent, and of a double the text gives the sign and the value of its decimal.
-/

set_option autoImplicit false

namespace DesiredState

namespace Double

/-! ## Rounding of equal quotients -/

private theorem roundDiv_mul (num den : Nat) {factor : Nat} (positive : 0 < factor) :
    roundDiv (factor * num) (factor * den) = roundDiv num den := by
  have twice : 2 * (factor * (num % den)) = factor * (2 * (num % den)) := Nat.mul_left_comm _ _ _
  simp only [roundDiv, Nat.mul_div_mul_left _ _ positive, Nat.mul_mod_mul_left, twice,
    Nat.mul_lt_mul_left positive]

variable {num den otherNum otherDen : Nat}

private theorem roundDiv_congr (positive : 0 < den) (otherPositive : 0 < otherDen)
    (same : (num / den : ℚ) = otherNum / otherDen) : roundDiv num den = roundDiv otherNum otherDen := by
  have cross : otherDen * num = den * otherNum := by
    have nonzero : (den : ℚ) ≠ 0 := by positivity
    have otherNonzero : (otherDen : ℚ) ≠ 0 := by positivity
    rw [div_eq_div_iff nonzero otherNonzero] at same
    have natural : num * otherDen = otherNum * den := by exact_mod_cast same
    rw [Nat.mul_comm otherDen, natural, Nat.mul_comm]
  rw [← roundDiv_mul num den otherPositive, cross, Nat.mul_comm otherDen den, roundDiv_mul _ _ positive]

/-- A number lies between two neighbouring powers in one way only. -/
theorem eq_of_zpow_bounds {base quotient : ℚ} (large : 1 < base) {first second : ℤ}
    (low : base ^ first ≤ quotient) (high : quotient < base ^ (first + 1))
    (otherLow : base ^ second ≤ quotient) (otherHigh : quotient < base ^ (second + 1)) : first = second := by
  have least : first < second + 1 := (zpow_lt_zpow_iff_right₀ large).mp (low.trans_lt otherHigh)
  have most : second < first + 1 := (zpow_lt_zpow_iff_right₀ large).mp (otherLow.trans_lt high)
  omega

/-- Equal quotients are rounded to one double. -/
theorem nearest?_congr (negative : Bool) (positive : 0 < den) (otherPositive : 0 < otherDen)
    (same : (num / den : ℚ) = otherNum / otherDen) :
    nearest? negative num den = nearest? negative otherNum otherDen := by
  have nonzero : (den : ℚ) ≠ 0 := by positivity
  have otherNonzero : (otherDen : ℚ) ≠ 0 := by positivity
  have zeros : num = 0 ↔ otherNum = 0 := by
    have first : (num / den : ℚ) = 0 ↔ num = 0 := by simp [nonzero]
    have second : (otherNum / otherDen : ℚ) = 0 ↔ otherNum = 0 := by simp [otherNonzero]
    rw [← first, same, second]
  by_cases zero : num = 0
  · rw [nearest?, nearest?, if_pos zero, if_pos (zeros.mp zero)]
  · obtain ⟨low, high⟩ := floorLog2_bounds (Nat.pos_of_ne_zero zero) positive
    obtain ⟨otherLow, otherHigh⟩ := floorLog2_bounds (Nat.pos_of_ne_zero (mt zeros.mpr zero)) otherPositive
    rw [same] at low high
    have exponents : floorLog2 num den = floorLog2 otherNum otherDen :=
      eq_of_zpow_bounds (by norm_num) low high otherLow otherHigh
    have significands : ∀ exponent, roundDiv (scaleUp num (-exponent)) (scaleUp den exponent) =
        roundDiv (scaleUp otherNum (-exponent)) (scaleUp otherDen exponent) := by
      intro exponent
      apply roundDiv_congr (scaleUp_pos positive exponent) (scaleUp_pos otherPositive exponent)
      rw [scaleUp_div_scaleUp num positive, scaleUp_div_scaleUp otherNum otherPositive, same]
    rw [nearest?, nearest?, if_neg zero, if_neg (mt zeros.mpr zero), exponents]
    dsimp only
    rw [significands]

end Double

namespace Decimal

/-! ## The magnitude of a decimal -/

private theorem pow_le_of_toDigits {n : Nat} (positive : 0 < n) :
    10 ^ ((Nat.toDigits 10 n).length - 1) ≤ n := by
  induction n using Nat.strongRecOn with
  | ind n ih =>
      by_cases small : n < 10
      · rw [Nat.toDigits_of_lt_base small]
        exact positive
      · have shorter := ih (n / 10) (by omega) (by omega)
        have someDigits := List.length_pos_iff.mpr (Digits.toDigits (n / 10)).nonempty
        rw [Nat.toDigits_of_base_le (by decide) (Nat.le_of_not_lt small), List.length_append,
          List.length_singleton, Nat.add_sub_cancel]
        obtain ⟨less, isLength⟩ := Nat.exists_eq_add_one.mpr someDigits
        rw [isLength, Nat.add_sub_cancel] at shorter
        rw [isLength, Nat.pow_succ]
        omega

private theorem lt_pow_of_toDigits (n : Nat) : n < 10 ^ (Nat.toDigits 10 n).length := by
  have bounded := Digits.ofDigitChars_lt (Digits.toDigits n).all 0
  rwa [Nat.ofDigitChars_ten_toDigits, Nat.zero_add, Nat.one_mul] at bounded

/-- The number of digits and the scale of a decimal give the powers of ten it lies between. -/
theorem value_bounds {decimal : Decimal} (positive : decimal.digits ≠ 0) :
    (10 : ℚ) ^ (((Nat.toDigits 10 decimal.digits).length : ℤ) + decimal.scale - 1) ≤ decimal.value ∧
      decimal.value < 10 ^ (((Nat.toDigits 10 decimal.digits).length : ℤ) + decimal.scale - 1 + 1) := by
  have someDigits := List.length_pos_iff.mpr (Digits.toDigits decimal.digits).nonempty
  have unit : (0 : ℚ) < 10 ^ decimal.scale := zpow_pos (by norm_num) _
  have low : (10 : ℚ) ^ (((Nat.toDigits 10 decimal.digits).length : ℤ) - 1) ≤ decimal.digits := by
    have natural := pow_le_of_toDigits (Nat.pos_of_ne_zero positive)
    have isNatural : ((Nat.toDigits 10 decimal.digits).length : ℤ) - 1 =
        (((Nat.toDigits 10 decimal.digits).length - 1 : Nat) : ℤ) := by omega
    rw [isNatural, zpow_natCast]
    exact_mod_cast natural
  have high : (decimal.digits : ℚ) < 10 ^ ((Nat.toDigits 10 decimal.digits).length : ℤ) := by
    rw [zpow_natCast]
    exact_mod_cast lt_pow_of_toDigits decimal.digits
  have place : ((Nat.toDigits 10 decimal.digits).length : ℤ) + decimal.scale - 1 =
      ((Nat.toDigits 10 decimal.digits).length : ℤ) - 1 + decimal.scale := by omega
  rw [sub_add_cancel, place, value, zpow_add₀ (by norm_num), zpow_add₀ (by norm_num)]
  exact ⟨mul_le_mul_of_nonneg_right low unit.le, mul_lt_mul_of_pos_right high unit⟩

private theorem value_eq_zero_iff {decimal : Decimal} : decimal.value = 0 ↔ decimal.digits = 0 := by
  have unit : (10 : ℚ) ^ decimal.scale ≠ 0 := zpow_ne_zero _ (by norm_num)
  simp [value, unit]

/-- What a decimal is rounded to depends on its value only. -/
theorem ofDecimal?_congr (negative : Bool) {first second : Decimal} (same : first.value = second.value) :
    Double.ofDecimal? negative first.digits first.scale =
      Double.ofDecimal? negative second.digits second.scale := by
  have zeros : first.digits = 0 ↔ second.digits = 0 := by
    rw [← value_eq_zero_iff, same, value_eq_zero_iff]
  by_cases zero : first.digits = 0
  · rw [Double.ofDecimal?, Double.ofDecimal?, if_pos (.inl zero), if_pos (.inl (zeros.mp zero))]
  · obtain ⟨low, high⟩ := value_bounds zero
    obtain ⟨otherLow, otherHigh⟩ := value_bounds (mt zeros.mpr zero)
    rw [same] at low high
    have magnitudes := Double.eq_of_zpow_bounds (by norm_num) low high otherLow otherHigh
    rw [value_eq_div, value_eq_div] at same
    have nearest : Double.nearest? negative (first.digits * Nat.pow 10 first.scale.toNat)
          (Nat.pow 10 (-first.scale).toNat) =
        Double.nearest? negative (second.digits * Nat.pow 10 second.scale.toNat)
          (Nat.pow 10 (-second.scale).toNat) :=
      Double.nearest?_congr negative (Nat.pow_pos (by decide)) (Nat.pow_pos (by decide)) same
    have isMagnitude : ((Nat.toDigits 10 first.digits).length : ℤ) + first.scale =
        (Nat.toDigits 10 second.digits).length + second.scale := by omega
    simp only [Double.ofDecimal?, isMagnitude, zeros, nearest]

end Decimal

namespace Double

variable {double : Double}

/-! ## The decimal of a double -/

private theorem magnitude_lt_limit (double : Double) : double.magnitude < limit := by
  obtain ⟨short, _, most, _⟩ := double.canonical
  have cast : (double.significand : ℚ) ≤ 9007199254740991 := by exact_mod_cast Nat.le_of_lt_succ short
  have steps : (2 : ℚ) ^ double.exponent ≤ 2 ^ (971 : ℤ) := zpow_le_zpow_right₀ (by norm_num) most
  have greatest := two_zpow_pos 971
  calc double.magnitude ≤ 9007199254740991 * 2 ^ (971 : ℤ) :=
        mul_le_mul cast steps (two_zpow_pos _).le (by norm_num)
    _ < limit := by
        rw [limit]
        exact mul_lt_mul_of_pos_right (by norm_num) greatest

private theorem least_le_magnitude (positive : double.significand ≠ 0) :
    (2 : ℚ) ^ (-1074 : ℤ) ≤ double.magnitude := by
  have one : (1 : ℚ) ≤ double.significand := by exact_mod_cast Nat.pos_of_ne_zero positive
  calc (2 : ℚ) ^ (-1074 : ℤ) ≤ 2 ^ double.exponent :=
        zpow_le_zpow_right₀ (by norm_num) double.canonical.2.1
    _ = 1 * 2 ^ double.exponent := (one_mul _).symm
    _ ≤ double.magnitude := mul_le_mul_of_nonneg_right one (two_zpow_pos _).le

/-- The magnitude of a double is rounded in its own steps. -/
theorem Rounded.exponent_eq {significand : Nat} {exponent : ℤ}
    (rounded : Rounded double.magnitude significand exponent) : exponent = double.exponent := by
  obtain ⟨short, least, _, full⟩ := double.canonical
  have below : (double.significand : ℚ) < 9007199254740992 := by exact_mod_cast short
  have unit := two_zpow_pos double.exponent
  have isBelow : double.magnitude < 9007199254740992 * 2 ^ double.exponent :=
    mul_lt_mul_of_pos_right below unit
  have leastExponent := rounded.least
  rcases lt_trichotomy exponent double.exponent with smaller | same | larger
  · have fills : (4503599627370496 : ℚ) ≤ double.significand := by
      exact_mod_cast full.resolve_right (by omega)
    have reaches : 4503599627370496 * (2 : ℚ) ^ double.exponent ≤ double.magnitude :=
      mul_le_mul_of_nonneg_right fills unit.le
    have step : (2 : ℚ) ^ (exponent + 1) ≤ 2 ^ double.exponent := zpow_le_zpow_right₀ (by norm_num) (by omega)
    rw [zpow_add_one₀ two_ne_zero] at step
    have bounded := rounded.bounded
    linarith
  · exact same
  · have normal := rounded.step.resolve_left (by omega)
    have step : (2 : ℚ) ^ (double.exponent + 1) ≤ 2 ^ exponent := zpow_le_zpow_right₀ (by norm_num) (by omega)
    rw [zpow_add_one₀ two_ne_zero] at step
    linarith

/-- A double is the one that its magnitude is rounded to. -/
theorem nearest?_of_magnitude {num den : Nat} (positive : double.significand ≠ 0) (denPositive : 0 < den)
    (exact : (num / den : ℚ) = double.magnitude) : nearest? double.negative num den = some double := by
  have numPositive : 0 < num := by
    have nonzero : (0 : ℚ) < num / den := by
      rw [exact]
      exact (two_zpow_pos _).trans_le (least_le_magnitude positive)
    rw [Nat.pos_iff_ne_zero]
    rintro rfl
    simp at nonzero
  obtain ⟨significand, exponent, rounded, isNearest⟩ := nearest?_eq double.negative numPositive denPositive
  rw [exact] at rounded
  have sameExponent := rounded.exponent_eq
  subst sameExponent
  have sameSignificand : significand = double.significand := rounded.eq_of_steps rfl
  rw [isNearest, sameSignificand, if_neg (Nat.ne_of_lt double.canonical.1), ofParts?, dif_pos double.canonical]

private theorem readsBack_exactDecimal (positive : double.significand ≠ 0) :
    double.readsBack double.exactDecimal = true := by
  have isExact := value_exactDecimal double
  have nonzero : double.exactDecimal.digits ≠ 0 := by
    rw [ne_eq, ← Decimal.value_eq_zero_iff, isExact]
    exact ((two_zpow_pos _).trans_le (least_le_magnitude positive)).ne'
  obtain ⟨low, high⟩ := Decimal.value_bounds nonzero
  rw [isExact] at low high
  have notTiny : ¬ ((Nat.toDigits 10 double.exactDecimal.digits).length : ℤ) + double.exactDecimal.scale < -330 := by
    intro tiny
    have natural : 2 ^ 1074 ≤ (10 : Nat) ^ 330 := by decide +kernel
    have least : (10 : ℚ) ^ (-330 : ℤ) ≤ 2 ^ (-1074 : ℤ) := by
      rw [zpow_neg, zpow_neg, zpow_ofNat, zpow_ofNat]
      exact inv_anti₀ (by positivity) (by exact_mod_cast natural)
    have most : (10 : ℚ) ^ (((Nat.toDigits 10 double.exactDecimal.digits).length : ℤ) +
        double.exactDecimal.scale - 1 + 1) ≤ 10 ^ (-330 : ℤ) := zpow_le_zpow_right₀ (by norm_num) (by omega)
    have reaches := least_le_magnitude positive
    exact absurd (least.trans reaches) (not_le_of_gt (high.trans_le most))
  have notHuge : ¬ 310 < ((Nat.toDigits 10 double.exactDecimal.digits).length : ℤ) + double.exactDecimal.scale := by
    intro huge
    have least : (10 : ℚ) ^ (309 : ℤ) ≤ 10 ^ (((Nat.toDigits 10 double.exactDecimal.digits).length : ℤ) +
        double.exactDecimal.scale - 1) := zpow_le_zpow_right₀ (by norm_num) (by omega)
    have bounded := double.magnitude_lt_limit.trans limit_lt
    rw [zpow_ofNat] at least
    exact absurd (least.trans low) (not_le_of_gt bounded)
  rw [readsBack, beq_iff_eq, ofDecimal?, if_neg (not_or.mpr ⟨nonzero, notTiny⟩), if_neg notHuge]
  refine nearest?_of_magnitude positive (Nat.pow_pos (by decide)) ?_
  rw [← isExact, Decimal.value_eq_div]

/-- The decimal that is written for a double is rounded to that double. -/
theorem readsBack_shortest (positive : double.significand ≠ 0) : double.readsBack double.shortest = true := by
  have from_reads : ∀ dropped, double.readsBack (double.shortestFrom double.exactDecimal dropped) = true := by
    intro dropped
    induction dropped with
    | zero => exact readsBack_exactDecimal positive
    | succ dropped ih =>
        rw [shortestFrom]
        split
        · rename_i decimal found
          exact List.find?_some found
        · exact ih
  exact from_reads _

private theorem eq_of_shortest {first second : Double} (positive : first.significand ≠ 0)
    (otherPositive : second.significand ≠ 0) (sameSign : first.negative = second.negative)
    (sameValue : first.shortest.value = second.shortest.value) : first = second := by
  have read := readsBack_shortest positive
  have otherRead := readsBack_shortest otherPositive
  rw [readsBack, beq_iff_eq] at read otherRead
  rw [Decimal.ofDecimal?_congr first.negative sameValue, sameSign, otherRead] at read
  exact (Option.some.inj read).symm

end Double

/-! ## Texts -/

namespace Json

variable {whole : List Char} {fraction : Option (List Char)} {exponent : Option Int}

/-- The number that a numeral stands for, without its sign. -/
def numeralValue (whole : List Char) (fraction : Option (List Char)) (exponent : Option Int) : ℚ :=
  Nat.ofDigitChars 10 (whole ++ fraction.getD []) 0 * 10 ^ (exponent.getD 0 - (fraction.getD []).length)

private theorem StandsFor.value {digits : List Char} {scale : Int}
    (standsFor : StandsFor whole fraction exponent digits scale) :
    numeralValue whole fraction exponent = Nat.ofDigitChars 10 digits 0 * 10 ^ scale := by
  obtain ⟨zeros, sameDigits, place⟩ := standsFor
  have isPlace : exponent.getD 0 - (fraction.getD []).length = scale - zeros := by omega
  rw [numeralValue, sameDigits, isPlace, zpow_sub₀ (by norm_num), zpow_natCast]
  push_cast
  field_simp

/-- A numeral and its sign can be told apart. -/
theorem IsNumeral.signed_inj {text otherText otherWhole : List Char} {otherFraction : Option (List Char)}
    {otherExponent : Option Int} {negative otherNegative : Bool}
    (numeral : IsNumeral text whole fraction exponent)
    (other : IsNumeral otherText otherWhole otherFraction otherExponent)
    (same : (if negative then '-' :: text else text) = if otherNegative then '-' :: otherText else otherText) :
    negative = otherNegative ∧ text = otherText := by
  have noSign : ∀ {text whole : List Char} {fraction : Option (List Char)} {exponent : Option Int} {rest : List Char},
      IsNumeral text whole fraction exponent → text ≠ '-' :: rest := by
    rintro text whole fraction exponent rest numeral rfl
    cases numeral.head? '-' rfl
  cases negative <;> cases otherNegative
  · exact ⟨rfl, same⟩
  · exact absurd same (noSign numeral)
  · exact absurd same.symm (noSign other)
  · exact ⟨rfl, List.tail_eq_of_cons_eq same⟩

end Json

private theorem Double.Spells.value {double : Double} {whole : List Char} {fraction : Option (List Char)}
    {exponent : Option Int} (spells : double.Spells whole fraction exponent) :
    Json.numeralValue whole fraction exponent =
      if double.significand = 0 then 0 else double.shortest.value := by
  unfold Spells at spells
  split at spells
  · rename_i zero
    rw [if_pos zero, spells.value]
    simp [Nat.ofDigitChars_cons]
  · rename_i positive
    rw [if_neg positive, spells.value, Decimal.value_significant]

private theorem Double.eq_of_spells {first second : Double} {whole : List Char}
    {fraction : Option (List Char)} {exponent : Option Int} (spells : first.Spells whole fraction exponent)
    (otherSpells : second.Spells whole fraction exponent) (sameSign : first.negative = second.negative) :
    first = second := by
  have values := spells.value.symm.trans otherSpells.value
  have nonzero : ∀ {double : Double}, double.significand ≠ 0 → double.shortest.value ≠ 0 :=
    fun positive => mt Decimal.value_eq_zero_iff.mp (digits_shortest_ne_zero positive)
  by_cases zero : first.significand = 0 <;> by_cases otherZero : second.significand = 0
  · have exponents : ∀ double : Double, double.significand = 0 → double.exponent = -1074 := by
      intro double isZero
      have canonical := double.canonical
      omega
    have firstExponent := exponents first zero
    have secondExponent := exponents second otherZero
    cases first
    cases second
    simp_all
  · rw [if_pos zero, if_neg otherZero] at values
    exact absurd values.symm (nonzero otherZero)
  · rw [if_neg zero, if_pos otherZero] at values
    exact absurd values (nonzero zero)
  · rw [if_neg zero, if_neg otherZero] at values
    exact eq_of_shortest zero otherZero sameSign values

namespace Number

/-- What the text of a number says. -/
inductive IsWritten : Number → Bool → List Char → Option (List Char) → Option Int → Prop where
  | integer (value : Int) : IsWritten (.integer value) (value < 0) (Nat.toDigits 10 value.natAbs) none none
  | double {double : Double} {whole : List Char} {fraction : Option (List Char)} {exponent : Option Int}
      (parts : double.Parts whole fraction exponent) (spells : double.Spells whole fraction exponent) :
      IsWritten (.double double) double.negative whole fraction exponent

private theorem text_eq (number : Number) : ∃ negative body whole fraction exponent,
    Json.IsNumeral body whole fraction exponent ∧ number.IsWritten negative whole fraction exponent ∧
      number.text.toList = if negative then '-' :: body else body := by
  cases number with
  | integer value =>
      refine ⟨_, _, _, _, _, Json.isNumeral_toDigits value.natAbs, .integer value, ?_⟩
      by_cases negative : value < 0
      · simp [text, negative]
      · simp [text, negative]
  | double double =>
      obtain ⟨body, whole, fraction, exponent, numeral, parts, spells, isText⟩ := double.text_eq
      exact ⟨_, _, _, _, _, numeral, .double parts spells, isText⟩

private theorem eq_of_isWritten {first second : Number} {negative otherNegative : Bool}
    {whole otherWhole : List Char}
    {fraction otherFraction : Option (List Char)} {exponent otherExponent : Option Int}
    (isWritten : first.IsWritten negative whole fraction exponent)
    (isOther : second.IsWritten otherNegative otherWhole otherFraction otherExponent)
    (sameSign : negative = otherNegative) (sameWhole : whole = otherWhole)
    (sameFraction : fraction = otherFraction) (sameExponent : exponent = otherExponent) : first = second := by
  cases isWritten with
  | integer value =>
      cases isOther with
      | integer other =>
          have magnitudes := congrArg (Nat.ofDigitChars 10 · 0) sameWhole
          simp only [Nat.ofDigitChars_ten_toDigits] at magnitudes
          rw [decide_eq_decide] at sameSign
          have same : value = other := by omega
          rw [same]
      | double parts spells =>
          cases parts with
          | positional digits short fraction => cases sameFraction
          | scientific positive decimals => cases sameExponent
  | double parts spells =>
      cases isOther with
      | integer other =>
          cases parts with
          | positional digits short fraction => cases sameFraction
          | scientific positive decimals => cases sameExponent
      | double otherParts otherSpells =>
          subst sameWhole sameFraction sameExponent
          rw [Double.eq_of_spells spells otherSpells sameSign]

/-- No two numbers have the same text. -/
theorem text_inj {first second : Number} (same : first.text = second.text) : first = second := by
  obtain ⟨negative, body, whole, fraction, exponent, numeral, isWritten, isText⟩ := first.text_eq
  obtain ⟨_, _, _, _, _, other, isOther, isOtherText⟩ := second.text_eq
  have texts := congrArg String.toList same
  rw [isText, isOtherText] at texts
  obtain ⟨sameSign, rfl⟩ := numeral.signed_inj other texts
  obtain ⟨sameWhole, sameFraction, sameExponent⟩ := numeral.unique other
  exact eq_of_isWritten isWritten isOther sameSign sameWhole sameFraction sameExponent

end Number

end DesiredState
