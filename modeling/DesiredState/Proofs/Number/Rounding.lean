import DesiredState.Number.Double
import Mathlib.Algebra.Order.Field.Power
import Mathlib.Data.Rat.Cast.Order
import Mathlib.Tactic.FieldSimp
import Mathlib.Tactic.Linarith
import Mathlib.Tactic.NormNum
import Mathlib.Tactic.Positivity
import Mathlib.Tactic.Ring

/-!
# Rounding

The nearest double differs from a quotient by at most half a step, and there is one for every quotient
below a limit half a step beyond the greatest double.
-/

set_option autoImplicit false

namespace DesiredState

namespace Double

/-- The absolute value of a double. -/
def magnitude (double : Double) : ℚ := double.significand * 2 ^ double.exponent

/-- Half a step beyond the greatest double. -/
def limit : ℚ := (9007199254740992 - 1 / 2) * 2 ^ (971 : ℤ)

theorem two_zpow_pos (exponent : ℤ) : (0 : ℚ) < 2 ^ exponent := zpow_pos (by norm_num) exponent

theorem magnitude_nonneg (double : Double) : 0 ≤ double.magnitude :=
  mul_nonneg (Nat.cast_nonneg _) (two_zpow_pos _).le

/-! ## Quotients -/

theorem scaleUp_pos {n : Nat} (positive : 0 < n) (exponent : ℤ) : 0 < scaleUp n exponent :=
  Nat.mul_pos positive (Nat.pow_pos (by decide))

theorem scaleUp_div_scaleUp (num : Nat) {den : Nat} (positive : 0 < den) (exponent : ℤ) :
    (scaleUp num (-exponent) : ℚ) / scaleUp den exponent = num / den / 2 ^ exponent := by
  have nonzero : (den : ℚ) ≠ 0 := Nat.cast_ne_zero.mpr (Nat.pos_iff_ne_zero.mp positive)
  rcases Int.le_total 0 exponent with up | down
  · obtain ⟨steps, rfl⟩ := Int.eq_ofNat_of_zero_le up
    have none : (-(steps : ℤ)).toNat = 0 := by omega
    simp only [scaleUp, none, Int.toNat_natCast, Nat.pow_eq, Nat.cast_mul, Nat.cast_pow, zpow_natCast]
    field_simp
    simp
  · obtain ⟨steps, isSteps⟩ := Int.eq_ofNat_of_zero_le (Int.neg_nonneg_of_nonpos down)
    have isExponent : exponent = -(steps : ℤ) := by omega
    have none : (-(steps : ℤ)).toNat = 0 := by omega
    subst isExponent
    simp only [scaleUp, none, neg_neg, Int.toNat_natCast, Nat.pow_eq, Nat.cast_mul, Nat.cast_pow,
      zpow_neg, zpow_natCast]
    field_simp
    simp

private theorem scaleUp_le_iff {num den : Nat} (positive : 0 < den) (exponent : ℤ) :
    scaleUp den exponent ≤ scaleUp num (-exponent) ↔ (2 : ℚ) ^ exponent ≤ num / den := by
  have scaled : (0 : ℚ) < scaleUp den exponent := Nat.cast_pos.mpr (scaleUp_pos positive exponent)
  rw [← one_le_div (two_zpow_pos exponent), ← scaleUp_div_scaleUp num positive, one_le_div scaled, Nat.cast_le]

private theorem log2_bounds {n : Nat} (positive : 0 < n) :
    (2 : ℚ) ^ (n.log2 : ℤ) ≤ n ∧ (n : ℚ) < 2 ^ ((n.log2 : ℤ) + 1) := by
  have low : 2 ^ n.log2 ≤ n := Nat.log2_self_le (Nat.pos_iff_ne_zero.mp positive)
  have high : n < 2 ^ (n.log2 + 1) := Nat.lt_log2_self
  constructor
  · rw [zpow_natCast]
    exact_mod_cast low
  · rw [← Nat.cast_add_one, zpow_natCast]
    exact_mod_cast high

theorem floorLog2_bounds {num den : Nat} (numPositive : 0 < num) (denPositive : 0 < den) :
    (2 : ℚ) ^ floorLog2 num den ≤ num / den ∧ (num / den : ℚ) < 2 ^ (floorLog2 num den + 1) := by
  obtain ⟨numLow, numHigh⟩ := log2_bounds numPositive
  obtain ⟨denLow, denHigh⟩ := log2_bounds denPositive
  have isPositive : (0 : ℚ) < den := Nat.cast_pos.mpr denPositive
  have low : (2 : ℚ) ^ ((num.log2 : ℤ) - den.log2 - 1) ≤ num / den := by
    rw [le_div_iff₀ isPositive]
    calc (2 : ℚ) ^ ((num.log2 : ℤ) - den.log2 - 1) * den
        ≤ 2 ^ ((num.log2 : ℤ) - den.log2 - 1) * 2 ^ ((den.log2 : ℤ) + 1) :=
          mul_le_mul_of_nonneg_left denHigh.le (two_zpow_pos _).le
      _ = 2 ^ (num.log2 : ℤ) := by
          rw [← zpow_add₀ two_ne_zero]
          congr 1
          omega
      _ ≤ num := numLow
  have high : (num / den : ℚ) < 2 ^ ((num.log2 : ℤ) - den.log2 + 1) := by
    rw [div_lt_iff₀ isPositive]
    calc (num : ℚ) < 2 ^ ((num.log2 : ℤ) + 1) := numHigh
      _ = 2 ^ ((num.log2 : ℤ) - den.log2 + 1) * 2 ^ (den.log2 : ℤ) := by
          rw [← zpow_add₀ two_ne_zero]
          congr 1
          omega
      _ ≤ 2 ^ ((num.log2 : ℤ) - den.log2 + 1) * den := mul_le_mul_of_nonneg_left denLow (two_zpow_pos _).le
  rw [floorLog2]
  split
  · rename_i reached
    exact ⟨(scaleUp_le_iff denPositive _).mp reached, high⟩
  · rename_i missed
    rw [scaleUp_le_iff denPositive, not_le] at missed
    rw [sub_add_cancel]
    exact ⟨low, missed⟩

private theorem roundDiv_bounds (num : Nat) {den : Nat} (positive : 0 < den) :
    (roundDiv num den : ℚ) ≤ num / den + 1 / 2 ∧ (num / den : ℚ) ≤ roundDiv num den + 1 / 2 := by
  have isPositive : (0 : ℚ) < den := Nat.cast_pos.mpr positive
  have split := Nat.div_add_mod num den
  have remainder := Nat.mod_lt num positive
  have near : 2 * (den * roundDiv num den) ≤ 2 * num + den ∧ 2 * num ≤ 2 * (den * roundDiv num den) + den := by
    have next : den * (num / den + 1) = den * (num / den) + den := Nat.mul_succ _ _
    rw [roundDiv]
    split
    · omega
    · split
      · omega
      · split <;> omega
  obtain ⟨low, high⟩ := near
  have low' : (2 : ℚ) * (den * roundDiv num den) ≤ 2 * num + den := by exact_mod_cast low
  have high' : (2 : ℚ) * num ≤ 2 * (den * roundDiv num den) + den := by exact_mod_cast high
  constructor
  · rw [← sub_le_iff_le_add, le_div_iff₀ isPositive]
    linarith
  · rw [div_le_iff₀ isPositive]
    linarith

/-! ## Rounding -/

/-- How a quotient is rounded: the significand is off by at most a half, and it fills its bits unless
the exponent is the least. -/
structure Rounded (quotient : ℚ) (significand : Nat) (exponent : ℤ) : Prop where
  least : -1074 ≤ exponent
  full : 4503599627370496 ≤ significand ∨ exponent = -1074
  short : significand ≤ 9007199254740992
  below : (significand : ℚ) * 2 ^ exponent ≤ quotient + 2 ^ exponent / 2
  above : quotient ≤ (significand : ℚ) * 2 ^ exponent + 2 ^ exponent / 2
  step : exponent = -1074 ∨ 4503599627370496 * (2 : ℚ) ^ exponent ≤ quotient
  bounded : quotient < 9007199254740992 * 2 ^ exponent

theorem nearest?_eq (negative : Bool) {num den : Nat} (numPositive : 0 < num) (denPositive : 0 < den) :
    ∃ significand exponent, Rounded (num / den) significand exponent ∧
      nearest? negative num den =
        if significand = 9007199254740992 then ofParts? negative 4503599627370496 (exponent + 1)
        else ofParts? negative significand exponent := by
  obtain ⟨low, high⟩ := floorLog2_bounds numPositive denPositive
  refine ⟨_, max (-1074) (floorLog2 num den - 52), ?_, by rw [nearest?, if_neg (Nat.pos_iff_ne_zero.mp numPositive)]⟩
  generalize isExponent : max (-1074) (floorLog2 num den - 52) = exponent
  have unit := two_zpow_pos exponent
  obtain ⟨below, above⟩ := roundDiv_bounds (scaleUp num (-exponent)) (scaleUp_pos denPositive exponent)
  rw [scaleUp_div_scaleUp num denPositive] at below above
  generalize roundDiv (scaleUp num (-exponent)) (scaleUp den exponent) = significand at below above
  have bounded : (num / den : ℚ) < 9007199254740992 * 2 ^ exponent := by
    have widest : (9007199254740992 : ℚ) = 2 ^ (53 : ℤ) := by norm_num
    refine high.trans_le ?_
    rw [widest, ← zpow_add₀ two_ne_zero]
    exact zpow_le_zpow_right₀ (by norm_num) (by omega)
  have step : exponent = -1074 ∨ 4503599627370496 * (2 : ℚ) ^ exponent ≤ num / den := by
    rcases Int.le_total (floorLog2 num den - 52) (-1074) with tiny | normal
    · exact .inl (by omega)
    · right
      have narrowest : (4503599627370496 : ℚ) = 2 ^ (52 : ℤ) := by norm_num
      have sum : 52 + exponent = floorLog2 num den := by omega
      rw [narrowest, ← zpow_add₀ two_ne_zero, sum]
      exact low
  have scaled : (num / den : ℚ) / 2 ^ exponent * 2 ^ exponent = num / den := div_mul_cancel₀ _ unit.ne'
  constructor
  · omega
  · refine step.symm.imp_left fun normal => ?_
    by_contra small
    have cast : (significand : ℚ) ≤ 4503599627370495 := by exact_mod_cast Nat.le_of_lt_succ (Nat.lt_of_not_le small)
    have wide : (4503599627370496 : ℚ) ≤ num / den / 2 ^ exponent := (le_div_iff₀ unit).mpr normal
    linarith
  · by_contra large
    have cast : (9007199254740993 : ℚ) ≤ significand := by exact_mod_cast Nat.lt_of_not_le large
    have narrow : (num / den : ℚ) / 2 ^ exponent < 9007199254740992 := (div_lt_iff₀ unit).mpr bounded
    linarith
  · have scaledBelow := mul_le_mul_of_nonneg_right below unit.le
    rw [add_mul, scaled] at scaledBelow
    linarith
  · have scaledAbove := mul_le_mul_of_nonneg_right above unit.le
    rw [add_mul, scaled] at scaledAbove
    linarith
  · exact step
  · exact bounded

private theorem isSome_ofParts? {negative : Bool} {significand : Nat} {exponent : ℤ} :
    (ofParts? negative significand exponent).isSome = true ↔
      significand < 9007199254740992 ∧ -1074 ≤ exponent ∧ exponent ≤ 971 ∧
        (4503599627370496 ≤ significand ∨ exponent = -1074) := by
  unfold ofParts?
  split
  · rename_i canonical
    exact ⟨fun _ => canonical, fun _ => rfl⟩
  · rename_i canonical
    exact ⟨fun absent => absurd absent Bool.false_ne_true, fun held => absurd held canonical⟩

private theorem magnitude_of_ofParts? {negative : Bool} {significand : Nat} {exponent : ℤ} {double : Double}
    (isDouble : ofParts? negative significand exponent = some double) :
    double.significand = significand ∧ double.exponent = exponent := by
  unfold ofParts? at isDouble
  split at isDouble
  · cases isDouble
    exact ⟨rfl, rfl⟩
  · cases isDouble

variable {negative : Bool} {num den : Nat} {double : Double}

/-- There is a nearest double below the limit. -/
theorem isSome_nearest? (negative : Bool) (num : Nat) {den : Nat} (denPositive : 0 < den)
    (small : (num / den : ℚ) < limit) : (nearest? negative num den).isSome = true := by
  rcases Nat.eq_zero_or_pos num with rfl | numPositive
  · rfl
  · obtain ⟨significand, exponent, rounded, isNearest⟩ := nearest?_eq negative numPositive denPositive
    obtain ⟨least, full, short, below, above, step, bounded⟩ := rounded
    have most : exponent ≤ 971 := by
      by_contra large
      have normal := step.resolve_left (by omega)
      have widest : (2 : ℚ) ^ ((971 : ℤ) + 1) ≤ 2 ^ exponent := zpow_le_zpow_right₀ (by norm_num) (by omega)
      rw [zpow_add_one₀ two_ne_zero] at widest
      rw [limit] at small
      have unit := two_zpow_pos 971
      generalize (2 : ℚ) ^ (971 : ℤ) = step at small widest unit
      linarith
    rw [isNearest]
    split
    · rename_i carried
      refine isSome_ofParts?.mpr ⟨by decide, by omega, ?_, .inl (by decide)⟩
      by_contra large
      have isMost : exponent = 971 := by omega
      subst isMost
      subst carried
      rw [limit] at small
      rw [Nat.cast_ofNat] at below
      generalize (2 : ℚ) ^ (971 : ℤ) = step at small below
      linarith
    · rename_i noCarry
      exact isSome_ofParts?.mpr ⟨Nat.lt_of_le_of_ne short noCarry, least, most, full⟩

/-- The nearest double is off by at most half a step, of the quotient's binade and of its own. -/
theorem nearest?_near (numPositive : 0 < num) (denPositive : 0 < den)
    (isNearest : nearest? negative num den = some double) :
    ∃ significand exponent, Rounded (num / den) significand exponent ∧
      double.magnitude = significand * 2 ^ exponent ∧ exponent ≤ double.exponent := by
  obtain ⟨significand, exponent, rounded, isRounded⟩ := nearest?_eq negative numPositive denPositive
  rw [isNearest] at isRounded
  refine ⟨significand, exponent, rounded, ?_⟩
  split at isRounded
  · rename_i carried
    obtain ⟨isSignificand, isExponent⟩ := magnitude_of_ofParts? isRounded.symm
    rw [magnitude, isSignificand, isExponent, zpow_add_one₀ two_ne_zero, carried]
    constructor
    · push_cast
      ring
    · omega
  · obtain ⟨isSignificand, isExponent⟩ := magnitude_of_ofParts? isRounded.symm
    rw [magnitude, isSignificand, isExponent]
    exact ⟨rfl, le_refl _⟩

/-- The relative error of rounding a quotient that is at least one. -/
def unit : ℚ := 1 / 9007199254740992

private theorem magnitude_nearest?_le (numPositive : 0 < num) (denPositive : 0 < den)
    (large : (1 : ℚ) ≤ num / den)
    (isNearest : nearest? negative num den = some double) : double.magnitude ≤ num / den * (1 + unit) := by
  obtain ⟨significand, exponent, rounded, isMagnitude, _⟩ := nearest?_near numPositive denPositive isNearest
  have step : 4503599627370496 * (2 : ℚ) ^ exponent ≤ num / den := by
    rcases rounded.step with isLeast | normal
    · have tiny : (2 : ℚ) ^ (-1074 : ℤ) ≤ 2 ^ (-52 : ℤ) := zpow_le_zpow_right₀ (by norm_num) (by norm_num)
      have whole : 4503599627370496 * (2 : ℚ) ^ (-52 : ℤ) = 1 := by norm_num
      rw [isLeast]
      linarith
    · exact normal
  have below := rounded.below
  rw [isMagnitude, unit]
  linarith

theorem one_le_magnitude_nearest? (numPositive : 0 < num) (denPositive : 0 < den) (large : (1 : ℚ) ≤ num / den)
    (isNearest : nearest? negative num den = some double) : 1 ≤ double.magnitude := by
  obtain ⟨significand, exponent, rounded, isMagnitude, _⟩ := nearest?_near numPositive denPositive isNearest
  have wide : -53 < exponent := by
    by_contra narrow
    have steps : (2 : ℚ) ^ exponent ≤ 2 ^ (-53 : ℤ) := zpow_le_zpow_right₀ (by norm_num) (by omega)
    have whole : 9007199254740992 * (2 : ℚ) ^ (-53 : ℤ) = 1 := by norm_num
    have bounded := rounded.bounded
    linarith
  have full : (4503599627370496 : ℚ) ≤ significand := by
    exact_mod_cast rounded.full.resolve_right (by omega)
  have steps : (2 : ℚ) ^ (-52 : ℤ) ≤ 2 ^ exponent := zpow_le_zpow_right₀ (by norm_num) (by omega)
  rw [isMagnitude]
  calc (1 : ℚ) = 4503599627370496 * 2 ^ (-52 : ℤ) := by norm_num
    _ ≤ significand * 2 ^ exponent := mul_le_mul full steps (two_zpow_pos _).le (Nat.cast_nonneg _)

/-- A quotient that is rounded to a double exceeds it by at most half a step. -/
theorem le_magnitude_nearest? (numPositive : 0 < num) (denPositive : 0 < den)
    (isNearest : nearest? negative num den = some double) :
    (num / den : ℚ) ≤ double.magnitude + 2 ^ double.exponent / 2 := by
  obtain ⟨significand, exponent, rounded, isMagnitude, lower⟩ := nearest?_near numPositive denPositive isNearest
  have steps : (2 : ℚ) ^ exponent ≤ 2 ^ double.exponent := zpow_le_zpow_right₀ (by norm_num) lower
  have above := rounded.above
  rw [isMagnitude]
  linarith

private theorem magnitude_nearest?_le_double (denPositive : 0 < den)
    (isNearest : nearest? negative num den = some double) :
    double.magnitude ≤ 2 * (num / den) + 1 := by
  rcases Nat.eq_zero_or_pos num with rfl | numPositive
  · cases isNearest
    simp [magnitude, zero]
  · obtain ⟨significand, exponent, rounded, isMagnitude, _⟩ := nearest?_near numPositive denPositive isNearest
    have below := rounded.below
    have quotient : (0 : ℚ) ≤ num / den := by positivity
    have steps := two_zpow_pos exponent
    rw [isMagnitude]
    rcases rounded.step with isLeast | normal
    · have tiny : (2 : ℚ) ^ exponent ≤ 2 ^ (0 : ℤ) := zpow_le_zpow_right₀ (by norm_num) (by omega)
      rw [zpow_zero] at tiny
      linarith
    · linarith

/-! ## Products and quotients -/

private theorem scaleUp_div_scaleUp_neg (num : Nat) {den : Nat} (positive : 0 < den) (exponent : ℤ) :
    (scaleUp num exponent : ℚ) / scaleUp den (-exponent) = num / den * 2 ^ exponent := by
  have flipped := scaleUp_div_scaleUp num positive (-exponent)
  rwa [neg_neg, zpow_neg, div_inv_eq_mul] at flipped

private theorem isSome_times? {a b : Double} (small : a.magnitude * b.magnitude < limit) :
    (a.times? b).isSome = true := by
  unfold times?
  refine isSome_nearest? _ _ (scaleUp_pos Nat.one_pos _) ?_
  rw [scaleUp_div_scaleUp_neg _ Nat.one_pos, zpow_add₀ two_ne_zero]
  refine lt_of_eq_of_lt ?_ small
  rw [magnitude, magnitude]
  push_cast
  ring

private theorem quotient_over? (a : Double) {b : Double} (positive : 0 < b.significand) :
    (scaleUp a.significand (a.exponent - b.exponent) : ℚ) / scaleUp b.significand (-(a.exponent - b.exponent)) =
      a.magnitude / b.magnitude := by
  rw [scaleUp_div_scaleUp_neg _ positive, zpow_sub₀ two_ne_zero, magnitude, magnitude]
  have steps := (two_zpow_pos b.exponent).ne'
  have nonzero : (b.significand : ℚ) ≠ 0 := Nat.cast_ne_zero.mpr (Nat.pos_iff_ne_zero.mp positive)
  field_simp

private theorem significand_pos {b : Double} (large : 1 ≤ b.magnitude) : 0 < b.significand := by
  rcases Nat.eq_zero_or_pos b.significand with zero | positive
  · rw [magnitude, zero, Nat.cast_zero, zero_mul] at large
    norm_num at large
  · exact positive

/-- Division by a double that is not below one. -/
theorem over?_bounds {a b : Double} (large : 1 ≤ b.magnitude) (small : a.magnitude < limit) :
    ∃ quotient, a.over? b = some quotient ∧ quotient.magnitude ≤ 2 * a.magnitude + 1 := by
  have positive := significand_pos large
  have less : a.magnitude / b.magnitude ≤ a.magnitude := div_le_self a.magnitude_nonneg large
  have isQuotient := quotient_over? a positive
  have denPositive := scaleUp_pos positive (-(a.exponent - b.exponent))
  obtain ⟨quotient, isNearest⟩ := Option.isSome_iff_exists.mp
    (isSome_nearest? (a.negative != b.negative) (scaleUp a.significand (a.exponent - b.exponent)) denPositive
      (isQuotient.trans_le less |>.trans_lt small))
  refine ⟨quotient, isNearest, ?_⟩
  have bounded := magnitude_nearest?_le_double denPositive isNearest
  rw [isQuotient] at bounded
  linarith

/-- The powers of ten that a double is shifted by. -/
theorem powerOfTen?_bounds {count : Nat} (small : count ≤ 308) :
    ∃ power, powerOfTen? count = some power ∧ 1 ≤ power.magnitude ∧
      power.magnitude ≤ 10 ^ count * (1 + unit) := by
  have positive : 0 < Nat.pow 10 count := Nat.pow_pos (by decide)
  have isPower : ((Nat.pow 10 count : Nat) : ℚ) / ((1 : Nat) : ℚ) = 10 ^ count := by
    rw [Nat.pow_eq]
    push_cast
    exact div_one _
  have large : (1 : ℚ) ≤ 10 ^ count := one_le_pow₀ (by norm_num)
  have fits : (10 : ℚ) ^ count < limit := by
    have natural : (10 : Nat) ^ 308 * 2 < 18014398509481983 * 2 ^ 971 := by decide +kernel
    have cast : (10 : ℚ) ^ 308 * 2 < 18014398509481983 * 2 ^ 971 := by exact_mod_cast natural
    have most : (10 : ℚ) ^ count ≤ 10 ^ 308 := pow_le_pow_right₀ (by norm_num) small
    have isLimit : limit * 2 = 18014398509481983 * 2 ^ 971 := by
      rw [limit, zpow_ofNat]
      generalize (2 : ℚ) ^ 971 = step
      ring
    generalize (10 : ℚ) ^ 308 = greatest at cast most
    generalize (2 : ℚ) ^ 971 = step at cast isLimit
    linarith
  obtain ⟨power, isNearest⟩ := Option.isSome_iff_exists.mp
    (isSome_nearest? false (Nat.pow 10 count) Nat.one_pos (isPower.trans_lt fits))
  refine ⟨power, isNearest, ?_, ?_⟩
  · exact one_le_magnitude_nearest? positive Nat.one_pos (large.trans_eq isPower.symm) isNearest
  · have bounded := magnitude_nearest?_le positive Nat.one_pos (large.trans_eq isPower.symm) isNearest
    rwa [isPower] at bounded

/-! ## Shifts -/

theorem lt_limit {size : ℚ} (small : size ≤ 2 ^ 67) : size < limit := by
  have wide : (2 : ℚ) ^ 67 ≤ 2 ^ (971 : ℤ) := by
    rw [← zpow_natCast]
    exact zpow_le_zpow_right₀ (by norm_num) (by norm_num)
  have steps := two_zpow_pos 971
  rw [limit]
  generalize (2 : ℚ) ^ (971 : ℤ) = step at wide steps
  linarith

/-- A double that is not too large can be shifted down. -/
theorem isSome_shifted?_down {double : Double} (small : double.magnitude ≤ 2 ^ 65) {scale : ℤ} (down : scale ≤ 0) :
    (double.shifted? scale).isSome = true := by
  have fits : double.magnitude < limit := lt_limit (by linarith)
  unfold shifted?
  split
  · rfl
  · rw [if_neg (by omega)]
    split
    · obtain ⟨power, isPower, _, near⟩ := powerOfTen?_bounds (show scale.toNat ≤ 308 by omega)
      have none : scale.toNat = 0 := by omega
      rw [none, pow_zero, one_mul, unit] at near
      have nonneg := double.magnitude_nonneg
      rw [isPower, Option.bind_some]
      refine isSome_times? (lt_limit ?_)
      calc double.magnitude * power.magnitude ≤ double.magnitude * 2 := by gcongr; linarith
        _ ≤ 2 ^ 67 := by linarith
    · split
      · obtain ⟨power, isPower, large, _⟩ := powerOfTen?_bounds (show (-scale).toNat ≤ 308 by omega)
        obtain ⟨quotient, isQuotient, _⟩ := over?_bounds large fits
        rw [isPower, Option.bind_some, isQuotient]
        rfl
      · split
        · obtain ⟨first, isFirst, large, _⟩ := powerOfTen?_bounds (Nat.le_refl 308)
          obtain ⟨second, isSecond, larger, _⟩ := powerOfTen?_bounds (show (-308 - scale).toNat ≤ 308 by omega)
          obtain ⟨part, isPart, bounded⟩ := over?_bounds large fits
          obtain ⟨quotient, isQuotient, _⟩ := over?_bounds larger (lt_limit (by linarith) : part.magnitude < limit)
          rw [isFirst, Option.bind_some, isPart, isSecond]
          dsimp only
          rw [isQuotient]
          rfl
        · rfl

/-- A double can be shifted up as long as the product stays below the limit, however the power of ten
is rounded. -/
theorem isSome_shifted?_up {double : Double} {count : Nat} (positive : 0 < count) (short : count ≤ 308)
    (small : double.magnitude * (10 ^ count * (1 + unit)) < limit) : (double.shifted? count).isSome = true := by
  obtain ⟨power, isPower, _, near⟩ := powerOfTen?_bounds short
  unfold shifted?
  split
  · rfl
  · rw [if_neg (by omega), if_pos (by omega), Int.toNat_natCast, isPower, Option.bind_some]
    exact isSome_times? ((mul_le_mul_of_nonneg_left near double.magnitude_nonneg).trans_lt small)

theorem limit_lt : limit < 10 ^ 309 := by
  have natural : 9007199254740992 * 2 ^ 971 < (10 : Nat) ^ 309 := by decide +kernel
  have cast : (9007199254740992 : ℚ) * 2 ^ 971 < 10 ^ 309 := by exact_mod_cast natural
  have step := two_zpow_pos 971
  rw [limit]
  rw [zpow_ofNat] at step ⊢
  generalize (10 : ℚ) ^ 309 = bound at cast ⊢
  generalize (2 : ℚ) ^ 971 = step at cast step ⊢
  linarith

/-- A number of 64 bits can be rounded and shifted to its place, if what comes out is below the limit by
more than two roundings. -/
theorem isSome_shifted? {significand : Nat} (small : significand < 18446744073709551616) {place : ℤ}
    (bounded : 0 < place → (significand : ℚ) * 10 ^ place * (1 + unit) ^ 2 < limit)
    (isNearest : nearest? negative significand 1 = some double) : (double.shifted? place).isSome = true := by
  rcases Int.lt_or_le 0 place with up | down
  · obtain ⟨count, rfl⟩ := Int.eq_ofNat_of_zero_le (Int.le_of_lt up)
    have below := bounded up
    rw [zpow_natCast] at below
    rcases Nat.eq_zero_or_pos significand with rfl | positive
    · cases isNearest
      rfl
    · have least : (1 : ℚ) ≤ significand := by exact_mod_cast positive
      have near := magnitude_nearest?_le positive Nat.one_pos (by rwa [Nat.cast_one, div_one]) isNearest
      rw [Nat.cast_one, div_one] at near
      have unitPositive : (0 : ℚ) < unit := by norm_num [unit]
      have power : (0 : ℚ) < 10 ^ count := by positivity
      have short : count ≤ 308 := by
        by_contra long
        have most : (10 : ℚ) ^ 309 ≤ 10 ^ count := pow_le_pow_right₀ (by norm_num) (by omega)
        have grown : (10 : ℚ) ^ count ≤ significand * 10 ^ count * (1 + unit) ^ 2 := by
          have first : (10 : ℚ) ^ count ≤ significand * 10 ^ count := le_mul_of_one_le_left power.le least
          have second : (1 : ℚ) ≤ (1 + unit) ^ 2 := one_le_pow₀ (by linarith)
          exact first.trans (le_mul_of_one_le_right (by positivity) second)
        exact absurd (most.trans grown) (not_le.mpr (below.trans limit_lt))
      refine isSome_shifted?_up (by omega) short ?_
      calc double.magnitude * (10 ^ count * (1 + unit))
          ≤ significand * (1 + unit) * (10 ^ count * (1 + unit)) := by gcongr
        _ = significand * 10 ^ count * (1 + unit) ^ 2 := by ring
        _ < limit := below
  · have cast : (significand : ℚ) ≤ 18446744073709551615 := by exact_mod_cast Nat.le_of_lt_succ small
    have near := magnitude_nearest?_le_double Nat.one_pos isNearest
    rw [Nat.cast_one, div_one] at near
    exact isSome_shifted?_down (by linarith) down

end Double

end DesiredState
