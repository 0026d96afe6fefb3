import DesiredState.Number
import DesiredState.Proofs.Number.Reread

/-!
# The value of a number

Doubles agree exactly if they have the same value. An integer of up to 53 bits is rounded to itself, so
that numbers of that size compare by value whatever their forms. Of the larger integers several are
rounded to one double, which agrees with each of them. Integers are never rounded to compare them with
each other, also if one is a signed word and the other an unsigned one.
-/

set_option autoImplicit false

namespace DesiredState

/-! ## Doubles -/

namespace Double

/-- The exact value of a double. -/
def value (double : Double) : ℚ := if double.negative then -double.magnitude else double.magnitude

variable {a b : Double}

private theorem exponent_le_of_magnitude_eq (same : a.magnitude = b.magnitude) : b.exponent ≤ a.exponent := by
  by_contra above
  obtain ⟨short, _, _, _⟩ := a.canonical
  obtain ⟨_, _, _, full⟩ := b.canonical
  have least := a.canonical.2.1
  -- The larger exponent is not the least one, so its significand fills all bits.
  have fills : (4503599627370496 : ℚ) ≤ b.significand := by
    exact_mod_cast full.resolve_right (by omega)
  have below : (a.significand : ℚ) < 9007199254740992 := by exact_mod_cast short
  have step : (2 : ℚ) ^ (a.exponent + 1) ≤ 2 ^ b.exponent := zpow_le_zpow_right₀ (by norm_num) (by omega)
  rw [zpow_add_one₀ two_ne_zero] at step
  have unit := two_zpow_pos a.exponent
  have less : a.magnitude < b.magnitude :=
    calc a.magnitude < 9007199254740992 * 2 ^ a.exponent := mul_lt_mul_of_pos_right below unit
      _ = 4503599627370496 * (2 ^ a.exponent * 2) := by ring
      _ ≤ b.significand * 2 ^ b.exponent := mul_le_mul fills step (by positivity) (Nat.cast_nonneg _)
  exact absurd same less.ne

/-- A double is determined by its magnitude and its sign. -/
theorem parts_eq_of_magnitude_eq (same : a.magnitude = b.magnitude) :
    a.significand = b.significand ∧ a.exponent = b.exponent := by
  have exponents : a.exponent = b.exponent :=
    le_antisymm (exponent_le_of_magnitude_eq same.symm) (exponent_le_of_magnitude_eq same)
  refine ⟨?_, exponents⟩
  rw [magnitude, magnitude, exponents] at same
  exact_mod_cast mul_right_cancel₀ (two_zpow_pos b.exponent).ne' same

private theorem magnitude_eq_abs_value (double : Double) : double.magnitude = |double.value| := by
  rw [value]
  split
  · rw [abs_neg, abs_of_nonneg double.magnitude_nonneg]
  · rw [abs_of_nonneg double.magnitude_nonneg]

private theorem value_eq_zero_iff {double : Double} : double.value = 0 ↔ double.significand = 0 := by
  rw [← abs_eq_zero, ← magnitude_eq_abs_value, magnitude, mul_eq_zero]
  have unit := (two_zpow_pos double.exponent).ne'
  simp [unit]

/-- Doubles agree exactly if they have the same value. -/
theorem agrees_iff : a.agrees b = true ↔ a.value = b.value := by
  rw [agrees, Bool.or_eq_true, Bool.and_eq_true, beq_iff_eq, beq_iff_eq, beq_iff_eq]
  constructor
  · rintro (⟨first, second⟩ | rfl)
    · rw [value_eq_zero_iff.mpr first, value_eq_zero_iff.mpr second]
    · rfl
  · intro same
    have magnitudes : a.magnitude = b.magnitude := by
      rw [magnitude_eq_abs_value, magnitude_eq_abs_value, same]
    obtain ⟨significands, exponents⟩ := parts_eq_of_magnitude_eq magnitudes
    by_cases zero : a.significand = 0
    · exact .inl ⟨zero, significands ▸ zero⟩
    · right
      have positive : a.magnitude ≠ 0 := mul_ne_zero (Nat.cast_ne_zero.mpr zero) (two_zpow_pos _).ne'
      have signs : a.negative = b.negative := by
        unfold value at same
        rw [← magnitudes] at same
        cases first : a.negative <;> cases second : b.negative <;> simp only [first, second] at same ⊢
        · exact absurd (self_eq_neg.mp same) positive
        · exact absurd (neg_eq_self.mp same) positive
      cases a
      cases b
      simp_all

private theorem agrees_comm (a b : Double) : a.agrees b = b.agrees a := by
  rw [Bool.eq_iff_iff, agrees_iff, agrees_iff, eq_comm]

private theorem eq_of_agrees (nonzero : a.significand ≠ 0) (agree : a.agrees b = true) : a = b := by
  simpa [agrees, nonzero] using agree

/-! ## Integers as doubles -/

private theorem negative_of_nearest? {negative : Bool} {num den : Nat} {double : Double}
    (isNearest : nearest? negative num den = some double) : double.negative = negative := by
  have ofParts : ∀ significand exponent, ofParts? negative significand exponent = some double →
      double.negative = negative := by
    intro significand exponent isDouble
    unfold ofParts? at isDouble
    split at isDouble
    · cases isDouble
      rfl
    · cases isDouble
  unfold nearest? at isNearest
  split at isNearest
  · cases isNearest
    rfl
  · dsimp only at isNearest
    split at isNearest
    · exact ofParts _ _ isNearest
    · exact ofParts _ _ isNearest

/-- Nothing is rounded of a whole number of steps. -/
theorem Rounded.eq_of_steps {quotient : ℚ} {significand steps : Nat} {exponent : ℤ}
    (rounded : Rounded quotient significand exponent) (whole : quotient = steps * 2 ^ exponent) :
    significand = steps := by
  have unit := two_zpow_pos exponent
  have below := rounded.below
  have above := rounded.above
  rw [whole] at below above
  have near : (significand : ℚ) < steps + 1 := lt_of_mul_lt_mul_right (by linarith) unit.le
  have far : (steps : ℚ) < significand + 1 := lt_of_mul_lt_mul_right (by linarith) unit.le
  have natural : significand < steps + 1 := by exact_mod_cast near
  have other : steps < significand + 1 := by exact_mod_cast far
  omega

/-- An integer of up to 53 bits is a whole number of steps. -/
theorem Rounded.exact {n significand : Nat} {exponent : ℤ} (small : n ≤ 2 ^ 53)
    (rounded : Rounded n significand exponent) : (significand * 2 ^ exponent : ℚ) = n := by
  have isSmall : (n : ℚ) ≤ 9007199254740992 := by exact_mod_cast small
  have short : exponent ≤ 1 := by
    rcases rounded.step with isLeast | normal
    · omega
    · by_contra large
      have wide : (2 : ℚ) ^ (2 : ℤ) ≤ 2 ^ exponent := zpow_le_zpow_right₀ (by norm_num) (by omega)
      norm_num at wide
      linarith
  rcases Int.lt_or_le 0 exponent with up | down
  · obtain rfl : exponent = 1 := by omega
    have normal := rounded.step.resolve_left (by omega)
    rw [zpow_one] at normal
    have greatest : (n : ℚ) = 9007199254740992 := by linarith
    have steps : significand = 4503599627370496 := rounded.eq_of_steps (by rw [greatest]; norm_num)
    rw [steps, greatest]
    norm_num
  · obtain ⟨places, isPlaces⟩ := Int.eq_ofNat_of_zero_le (Int.neg_nonneg_of_nonpos down)
    obtain rfl : exponent = -(places : ℤ) := by omega
    have whole : (n : ℚ) = (n * 2 ^ places : Nat) * 2 ^ (-(places : ℤ)) := by
      rw [zpow_neg, zpow_natCast]
      push_cast
      field_simp
    rw [rounded.eq_of_steps whole, ← whole]

private theorem ofInt?_of_small {n : ℤ} (small : n.natAbs ≤ 2 ^ 53) :
    ∃ double, ofInt? n = some double ∧ double.value = n := by
  rcases Nat.eq_zero_or_pos n.natAbs with none | positive
  · obtain rfl := Int.natAbs_eq_zero.mp none
    exact ⟨zero false, rfl, by simp [value_eq_zero_iff, zero]⟩
  · have fits : ((n.natAbs : ℚ) / (1 : Nat)) < limit := by
      rw [Nat.cast_one, div_one]
      refine lt_limit ?_
      have isSmall : (n.natAbs : ℚ) ≤ 2 ^ 53 := by exact_mod_cast small
      linarith
    obtain ⟨double, isNearest⟩ :=
      Option.isSome_iff_exists.mp (isSome_nearest? (decide (n < 0)) n.natAbs Nat.one_pos fits)
    obtain ⟨significand, exponent, rounded, isMagnitude, _⟩ := nearest?_near positive Nat.one_pos isNearest
    rw [Nat.cast_one, div_one] at rounded
    have magnitude : double.magnitude = n.natAbs := isMagnitude.trans (rounded.exact small)
    refine ⟨double, isNearest, ?_⟩
    rw [value, negative_of_nearest? isNearest, magnitude]
    by_cases negative : n < 0
    · simp only [negative, decide_true, if_true]
      rw [Nat.cast_natAbs, abs_of_neg negative]
      push_cast
      ring
    · simp only [negative, decide_false, Bool.false_eq_true, if_false]
      rw [Nat.cast_natAbs, abs_of_nonneg (not_lt.mp negative)]

/-- Only zero is rounded to zero, and every other integer keeps its sign. -/
theorem sign_of_ofInt? {n : ℤ} {double : Double} (rounded : ofInt? n = some double) :
    (n < 0 → double.value < 0) ∧ (0 < n → 0 < double.value) := by
  have large : n ≠ 0 → 1 ≤ double.magnitude := by
    intro nonzero
    have positive : 0 < n.natAbs := Int.natAbs_pos.mpr nonzero
    have one : (1 : ℚ) ≤ n.natAbs / (1 : Nat) := by
      rw [Nat.cast_one, div_one]
      exact_mod_cast positive
    exact one_le_magnitude_nearest? positive Nat.one_pos one rounded
  rw [value, negative_of_nearest? rounded]
  constructor
  · intro negative
    have magnitude := large negative.ne
    simp only [negative, decide_true, if_true]
    linarith
  · intro positive
    have magnitude := large positive.ne'
    simp only [not_lt.mpr positive.le, decide_false, Bool.false_eq_true, if_false]
    linarith

private theorem significand_ne_zero_of_ofInt? {n : ℤ} {double : Double} (rounded : ofInt? n = some double)
    (nonzero : n ≠ 0) : double.significand ≠ 0 := by
  rw [ne_eq, ← value_eq_zero_iff]
  obtain ⟨negative, positive⟩ := sign_of_ofInt? rounded
  rcases Int.lt_or_gt_of_ne nonzero with below | above
  · exact (negative below).ne
  · exact (positive above).ne'

end Double

/-! ## Numbers -/

namespace Number

/-- The exact value of a number. -/
def value : Number → ℚ
  | .integer n => n
  | .double a => a.value

theorem agrees_integer {m n : ℤ} : (integer m).agrees (integer n) = true ↔ m = n := by
  rw [agrees, beq_iff_eq]

/-- With a double on one side the other is compared as a double. -/
theorem agrees_double {x : Number} {b : Double} :
    x.agrees (double b) = true ↔ ∃ a, x.toDouble? = some a ∧ a.value = b.value := by
  cases x with
  | integer n =>
      simp only [agrees, toDouble?]
      cases Double.ofInt? n <;> simp [Double.agrees_iff]
  | double a => simp [agrees, toDouble?, Double.agrees_iff]

theorem agrees_comm (x y : Number) : x.agrees y = y.agrees x := by
  cases x with
  | integer m =>
      cases y with
      | integer n => exact Bool.beq_comm
      | double b =>
          simp only [agrees, toDouble?]
          cases Double.ofInt? m with
          | none => rfl
          | some a => exact a.agrees_comm b
  | double a =>
      cases y with
      | integer n =>
          simp only [agrees, toDouble?]
          cases Double.ofInt? n with
          | none => rfl
          | some b => exact a.agrees_comm b
      | double b => exact a.agrees_comm b

/-- A number that is a double, or rounded to itself. -/
def Exact : Number → Prop
  | .integer n => n.natAbs ≤ 2 ^ 53
  | .double _ => True

private theorem Exact.toDouble? {x : Number} (exact : x.Exact) :
    ∃ a, x.toDouble? = some a ∧ a.value = x.value := by
  cases x with
  | integer n => exact Double.ofInt?_of_small exact
  | double a => exact ⟨a, rfl, rfl⟩

theorem agrees_integer_iff_value {m n : ℤ} :
    (integer m).agrees (integer n) = true ↔ (integer m).value = (integer n).value := by
  rw [agrees_integer, value, value, Int.cast_inj]

/-- Numbers that are rounded to themselves compare by value. -/
theorem Exact.agrees_iff {x y : Number} (first : x.Exact) (second : y.Exact) :
    x.agrees y = true ↔ x.value = y.value := by
  have withDouble : ∀ {x : Number} {b : Double}, x.Exact →
      (x.agrees (double b) = true ↔ x.value = (double b).value) := by
    intro x b exact
    obtain ⟨a, isA, same⟩ := exact.toDouble?
    rw [agrees_double, isA, ← same]
    simp [value]
  cases y with
  | integer n =>
      cases x with
      | integer m => exact agrees_integer_iff_value
      | double a => rw [agrees_comm, withDouble second, eq_comm]
  | double b => exact withDouble first

/-! ## Comparison of words -/

def signed? : Number → Option ℤ
  | .integer n => if -9223372036854775808 ≤ n ∧ n < 9223372036854775808 then some n else none
  | .double _ => none

def unsigned? : Number → Option ℤ
  | .integer n => if 0 ≤ n ∧ n < wordLimit then some n else none
  | .double _ => none

/-- Comparison as signed words, if both numbers are, else as unsigned ones, else as doubles. -/
def agreesAsWord (x y : Number) : Bool :=
  match x.signed?, y.signed? with
  | some m, some n => m == n
  | _, _ =>
      match x.unsigned?, y.unsigned? with
      | some m, some n => m == n
      | _, _ =>
          match x.toDouble?, y.toDouble? with
          | some a, some b => a.agrees b
          | _, _ => false

/-- An integer below zero and one above it stay apart as doubles. -/
theorem not_agrees_of_signs {m n : ℤ} {a b : Double} (negative : m < 0) (positive : 0 < n)
    (isA : Double.ofInt? m = some a) (isB : Double.ofInt? n = some b) : a.agrees b = false := by
  have below := (Double.sign_of_ofInt? isA).1 negative
  have above := (Double.sign_of_ofInt? isB).2 positive
  rw [Bool.eq_false_iff, ne_eq, Double.agrees_iff]
  exact (below.trans above).ne

/-- Integers of one word are compared exactly, also where one of them is no signed word and the other no
unsigned one. -/
theorem agreesAsWord_integer {m n : ℤ} (first : fitsWord m) (second : fitsWord n) :
    (integer m).agreesAsWord (integer n) = (m == n) := by
  simp only [fitsWord, Bool.and_eq_true, decide_eq_true_iff] at first second
  by_cases signed : (-9223372036854775808 ≤ m ∧ m < 9223372036854775808) ∧
      -9223372036854775808 ≤ n ∧ n < 9223372036854775808
  · simp only [agreesAsWord, signed?, if_pos signed.1, if_pos signed.2]
  by_cases unsigned : (0 ≤ m ∧ m < wordLimit) ∧ 0 ≤ n ∧ n < wordLimit
  · simp only [agreesAsWord, unsigned?, if_pos unsigned.1, if_pos unsigned.2]
    rcases not_and_or.mp signed with large | large <;> simp [signed?, large]
  -- One integer is negative and the other has 64 bits.
  have signs : (m < 0 ∧ 0 < n) ∨ (n < 0 ∧ 0 < m) := by omega
  have different : (m == n) = false := by
    rw [beq_eq_false_iff_ne]
    omega
  have notSigned : ∀ a b, (integer m).signed? = some a → (integer n).signed? = some b → False := by
    intro a b isA isB
    simp only [signed?, Option.ite_none_right_eq_some] at isA isB
    exact signed ⟨isA.1, isB.1⟩
  have notUnsigned : ∀ a b, (integer m).unsigned? = some a → (integer n).unsigned? = some b → False := by
    intro a b isA isB
    simp only [unsigned?, Option.ite_none_right_eq_some] at isA isB
    exact unsigned ⟨isA.1, isB.1⟩
  rw [different, agreesAsWord]
  split
  · exact (notSigned _ _ ‹_› ‹_›).elim
  split
  · exact (notUnsigned _ _ ‹_› ‹_›).elim
  split
  · rename_i a b isA isB
    rcases signs with ⟨negative, positive⟩ | ⟨negative, positive⟩
    · exact not_agrees_of_signs negative positive isA isB
    · rw [Double.agrees_comm]
      exact not_agrees_of_signs negative positive isB isA
  · rfl

/-- Numbers of one word are compared as words. -/
theorem agreesAsWord_eq {x y : Number} (first : ∀ n, x = integer n → fitsWord n)
    (second : ∀ n, y = integer n → fitsWord n) : x.agreesAsWord y = x.agrees y := by
  cases x with
  | integer m =>
      cases y with
      | integer n => exact agreesAsWord_integer (first m rfl) (second n rfl)
      | double b =>
          unfold agreesAsWord
          cases (integer m).signed? <;> cases (integer m).unsigned? <;> rfl
  | double a => cases y <;> rfl

/-! ## Integers that are rounded alike -/

/-- Two different integers that are rounded to one double. -/
def Merges (between : Double) (m n : ℤ) : Prop :=
  m ≠ n ∧ Double.ofInt? m = some between ∧ Double.ofInt? n = some between

variable {between : Double} {m n : ℤ}

/-- One of two integers that are rounded to one double has more than 53 bits. -/
theorem Merges.large (merges : Merges between m n) : 2 ^ 53 < m.natAbs ∨ 2 ^ 53 < n.natAbs := by
  obtain ⟨different, first, second⟩ := merges
  by_contra small
  rw [not_or, not_lt, not_lt] at small
  obtain ⟨a, isA, valueA⟩ := Double.ofInt?_of_small small.1
  obtain ⟨b, isB, valueB⟩ := Double.ofInt?_of_small small.2
  obtain rfl : a = between := Option.some.inj (isA.symm.trans first)
  obtain rfl : b = a := Option.some.inj (isB.symm.trans second)
  exact different (Int.cast_inj.mp (valueA.symm.trans valueB))

/-- A double that an integer other than zero agrees with is the one to which it is rounded. -/
theorem ofInt?_of_agrees (nonzero : between.significand ≠ 0)
    (agree : (integer n).agrees (double between) = true) : Double.ofInt? n = some between := by
  obtain ⟨a, isA, same⟩ := agrees_double.mp agree
  rw [Double.eq_of_agrees nonzero (Double.agrees_iff.mpr same.symm)]
  exact isA

private theorem significand_ne_zero_of_agrees (nonzero : n ≠ 0)
    (agree : (integer n).agrees (double between) = true) : between.significand ≠ 0 := by
  obtain ⟨a, isA, same⟩ := agrees_double.mp agree
  rw [ne_eq, ← Double.value_eq_zero_iff, ← same, Double.value_eq_zero_iff]
  exact Double.significand_ne_zero_of_ofInt? isA nonzero

private theorem merges_of_agrees (different : m ≠ n) (first : (integer m).agrees (double between) = true)
    (second : (integer n).agrees (double between) = true) : Merges between m n := by
  have nonzero : between.significand ≠ 0 := by
    by_cases zero : m = 0
    · exact significand_ne_zero_of_agrees (zero ▸ different.symm) second
    · exact significand_ne_zero_of_agrees zero first
  exact ⟨different, ofInt?_of_agrees nonzero first, ofInt?_of_agrees nonzero second⟩

/-- Numbers that agree with one double agree with each other, unless they are different integers that are
rounded to it. -/
theorem agrees_of_agrees_double {x z : Number} (first : x.agrees (double between) = true)
    (second : z.agrees (double between) = true) :
    x.agrees z = true ∨ ∃ m n, x = integer m ∧ z = integer n ∧ Merges between m n := by
  obtain ⟨a, isA, sameA⟩ := agrees_double.mp first
  obtain ⟨c, isC, sameC⟩ := agrees_double.mp second
  cases z with
  | double c =>
      cases isC
      exact .inl (agrees_double.mpr ⟨a, isA, sameA.trans sameC.symm⟩)
  | integer n =>
      cases x with
      | double a =>
          cases isA
          rw [agrees_comm]
          exact .inl (agrees_double.mpr ⟨c, isC, sameC.trans sameA.symm⟩)
      | integer m =>
          by_cases same : m = n
          · exact .inl (agrees_integer.mpr same)
          · exact .inr ⟨m, n, rfl, rfl, merges_of_agrees same first second⟩

/-- If a number agrees with a second and that with a third, the first agrees with the third, unless they
are different integers that are rounded to the double between them. -/
theorem agrees_trans_iff {x y z : Number} (first : x.agrees y = true) (second : y.agrees z = true) :
    x.agrees z = true ↔
      ¬∃ m between n, x = integer m ∧ y = double between ∧ z = integer n ∧ Merges between m n := by
  constructor
  · rintro agree ⟨m, _, n, rfl, _, rfl, different, _⟩
    exact different (agrees_integer.mp agree)
  · intro unmerged
    cases y with
    | double between =>
        rw [agrees_comm] at second
        refine (agrees_of_agrees_double first second).resolve_right ?_
        rintro ⟨m, n, isM, isN, merges⟩
        exact unmerged ⟨m, between, n, isM, rfl, isN, merges⟩
    | integer k =>
        cases x with
        | integer m =>
            obtain rfl := agrees_integer.mp first
            exact second
        | double a =>
            cases z with
            | integer n =>
                obtain rfl := agrees_integer.mp second
                exact first
            | double c =>
                -- The integer between two doubles is rounded once.
                rw [agrees_comm] at first
                obtain ⟨_, isK, sameA⟩ := agrees_double.mp first
                obtain ⟨_, isK', sameC⟩ := agrees_double.mp second
                obtain rfl := Option.some.inj (isK.symm.trans isK')
                exact Double.agrees_iff.mpr (sameA.symm.trans sameC)

end Number

end DesiredState
