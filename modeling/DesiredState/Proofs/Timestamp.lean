import DesiredState.Proofs.Json.Numeral
import DesiredState.Timestamp
import Mathlib.Algebra.Group.Nat.Defs

/-!
# Timestamps written and read

Every timestamp is read back from its text.
-/

set_option autoImplicit false

namespace DesiredState

namespace Timestamp

/-! ## Padded numbers -/

private theorem isBlank_of_isDigit {c : Char} (digit : c.isDigit = true) : isBlank c = false := by
  rw [Char.isDigit, Bool.and_eq_true, decide_eq_true_iff, decide_eq_true_iff] at digit
  have low : 48 ≤ c.toNat := digit.1
  have high : c.toNat ≤ 57 := digit.2
  simp only [isBlank, Bool.or_eq_false_iff, Bool.and_eq_false_iff, decide_eq_false_iff_not, beq_eq_false_iff_ne]
  omega

private theorem skipBlanks_of_not_blank {c : Char} (notBlank : isBlank c = false) (rest : List Char) :
    skipBlanks (c :: rest) = c :: rest :=
  List.dropWhile_cons_of_neg (by simp [notBlank])

private theorem toList_padded (width value : Nat) : (padded width value).toList =
    List.replicate (width - (Nat.toDigits 10 value).length) '0' ++ Nat.toDigits 10 value :=
  String.toList_ofList

private theorem digits_padded (width value : Nat) : Digits (padded width value).toList := by
  rw [toList_padded]
  constructor
  · simp [Nat.toDigits_ne_nil]
  · intro c member
    rcases List.mem_append.mp member with zero | digit
    · rw [List.eq_of_mem_replicate zero]
      rfl
    · exact (Digits.toDigits value).all c digit

private theorem ofDigitChars_padded (width value : Nat) :
    Nat.ofDigitChars 10 (padded width value).toList 0 = value := by
  rw [toList_padded, Nat.ofDigitChars_append, Nat.ofDigitChars_replicate_zero, Nat.mul_zero,
    Nat.ofDigitChars_ten_toDigits]

private theorem length_padded {width value : Nat} (positive : 0 < width) (fits : value < 10 ^ width) :
    (padded width value).toList.length = width := by
  have short := (Nat.length_toDigits_le_iff (b := 10) (by decide) positive).mpr fits
  rw [toList_padded, List.length_append, List.length_replicate]
  omega

private theorem readNumber?_digits {digits : List Char} (rest : List Char) {width : Nat}
    (valid : Digits digits) (short : digits.length ≤ width)
    (ends : digits.length = width ∨ ∀ c ∈ rest.head?, c.isDigit = false) :
    readNumber? width (digits ++ rest) = some (Nat.ofDigitChars 10 digits 0, rest) := by
  have taken : ((digits ++ rest).take width).takeWhile Char.isDigit = digits := by
    rw [List.take_append, List.take_of_length_le short, List.takeWhile_append_of_pos valid.all]
    have behind : (rest.take (width - digits.length)).takeWhile Char.isDigit = [] := by
      rcases ends with full | ends
      · rw [full, Nat.sub_self, List.take_zero, List.takeWhile_nil]
      · cases rest with
        | nil => rw [List.take_nil, List.takeWhile_nil]
        | cons c more =>
            cases width - digits.length with
            | zero => rfl
            | succ count => rw [List.take_succ_cons, List.takeWhile_cons_of_neg (by simp [ends c rfl])]
    rw [behind, List.append_nil]
  rw [readNumber?, taken, List.isEmpty_eq_false_iff.mpr valid.nonempty, if_neg Bool.false_ne_true,
    List.drop_left]

private theorem readPart?_padded {width value : Nat} (positive : 0 < width) (fits : value < 10 ^ width)
    (rest : List Char) : readPart? width ((padded width value).toList ++ rest) = some (value, rest) := by
  have valid := digits_padded width value
  have full := length_padded positive fits
  have read := readNumber?_digits rest valid (Nat.le_of_eq full) (.inl full)
  rw [ofDigitChars_padded] at read
  obtain ⟨digit, more, split⟩ := List.exists_cons_of_ne_nil valid.nonempty
  have notBlank := isBlank_of_isDigit (valid.all digit (split ▸ List.mem_cons_self))
  rw [split] at read ⊢
  rw [readPart?, List.cons_append, skipBlanks_of_not_blank notBlank]
  exact read

private theorem readMark?_cons (mark : Char) (notBlank : isBlank mark = false) (rest : List Char) :
    readMark? mark (mark :: rest) = some rest := by
  rw [readMark?, skipBlanks_of_not_blank notBlank]
  simp

/-! ## Parts -/

private theorem readNumber?_year (value : Nat) (rest : List Char) :
    readNumber? ((padded 4 value).toList ++ '-' :: rest).length ((padded 4 value).toList ++ '-' :: rest) =
      some (value, '-' :: rest) := by
  have ends : ∀ c ∈ ('-' :: rest).head?, c.isDigit = false := by
    intro c first
    cases first
    rfl
  have short : (padded 4 value).toList.length ≤ ((padded 4 value).toList ++ '-' :: rest).length := by simp
  rw [readNumber?_digits _ (digits_padded 4 value) short (.inr ends), ofDigitChars_padded]

private theorem readYear?_minus (rest : List Char) : readYear? ('-' :: rest) =
    (readNumber? rest.length rest).map fun read => (-(read.1 : Int), read.2) := rfl

private theorem readYear?_plus (rest : List Char) : readYear? ('+' :: rest) =
    (readNumber? rest.length rest).map fun read => ((read.1 : Int), read.2) := rfl

private theorem readYear?_yearText (year : Int) (rest : List Char) :
    readYear? ((yearText year).toList ++ '-' :: rest) = some (year, '-' :: rest) := by
  unfold yearText
  split
  · rename_i fourDigits
    have fits : year.toNat < 10 ^ 4 := by omega
    have read := readPart?_padded (by decide) fits ('-' :: rest)
    have valid := digits_padded 4 year.toNat
    obtain ⟨digit, more, split⟩ := List.exists_cons_of_ne_nil valid.nonempty
    have isDigit := valid.all digit (split ▸ List.mem_cons_self)
    unfold readPart? at read
    rw [split, List.cons_append, skipBlanks_of_not_blank (isBlank_of_isDigit isDigit)] at read
    rw [readYear?, split, List.cons_append, skipBlanks_of_not_blank (isBlank_of_isDigit isDigit)]
    split
    · rename_i minus
      cases minus
      cases isDigit
    · rename_i plus
      cases plus
      cases isDigit
    · rw [read, Option.map_some]
      dsimp only
      rw [Int.toNat_of_nonneg fourDigits.1]
  · split
    · rename_i negative
      have signed : ("-" ++ padded 4 year.natAbs).toList = '-' :: (padded 4 year.natAbs).toList := by
        rw [String.toList_append]
        rfl
      have same : -(year.natAbs : Int) = year := by omega
      rw [signed, List.cons_append, readYear?_minus, readNumber?_year, Option.map_some, same]
    · have signed : ("+" ++ padded 4 year.natAbs).toList = '+' :: (padded 4 year.natAbs).toList := by
        rw [String.toList_append]
        rfl
      have same : (year.natAbs : Int) = year := by omega
      rw [signed, List.cons_append, readYear?_plus, readNumber?_year, Option.map_some, same]

private theorem readDecimals?_padded {width value : Nat} (positive : 0 < width) (short : width ≤ 9)
    (fits : value < 10 ^ width) :
    readDecimals? (("." ++ padded width value).toList ++ ['Z']) = some (value * 10 ^ (9 - width), ['Z']) := by
  have full := length_padded positive fits
  have ends : ∀ c ∈ (['Z'] : List Char).head?, c.isDigit = false := by
    rintro c isHead
    cases isHead
    decide
  have read := readNumber?_digits _ (digits_padded width value) (Nat.le_trans (Nat.le_of_eq full) short) (.inr ends)
  have point : ("." ++ padded width value).toList = '.' :: (padded width value).toList := by
    rw [String.toList_append]
    rfl
  rw [ofDigitChars_padded] at read
  rw [point, List.cons_append, readDecimals?, read, Option.bind_eq_bind, Option.bind_some]
  dsimp only
  rw [List.length_append, Nat.add_sub_cancel, full]
  rfl

private theorem readDecimals?_fractionText {nanosecond : Nat} (bounded : nanosecond < 1000000000) :
    readDecimals? ((fractionText nanosecond).toList ++ ['Z']) = some (nanosecond, ['Z']) := by
  unfold fractionText
  split
  · rename_i zero
    subst zero
    rfl
  · split
    · rename_i milliseconds
      have fits : nanosecond / 1000000 < 10 ^ 3 := by omega
      have same : nanosecond / 1000000 * 10 ^ (9 - 3) = nanosecond := by omega
      rw [readDecimals?_padded (by decide) (by decide) fits, same]
    · split
      · rename_i microseconds
        have fits : nanosecond / 1000 < 10 ^ 6 := by omega
        have same : nanosecond / 1000 * 10 ^ (9 - 6) = nanosecond := by omega
        rw [readDecimals?_padded (by decide) (by decide) fits, same]
      · have fits : nanosecond < 10 ^ 9 := bounded
        have same : nanosecond * 10 ^ (9 - 9) = nanosecond := by omega
        rw [readDecimals?_padded (by decide) (by decide) fits, same]

/-! ## Whole timestamps -/

private theorem ofParts?_self (time : Timestamp) :
    ofParts? time.year time.month time.day time.hour time.minute time.second time.nanosecond = some time :=
  dif_pos time.valid

private theorem ofLocal?_utc (time : Timestamp) :
    ofLocal? time.year time.month time.day time.hour time.minute time.second time.nanosecond 0 = some time := by
  obtain ⟨_, _, _, _, hours, minutes, _, _⟩ := time.valid
  have inDay : (0 : Int) ≤ (time.hour : Int) * 60 + time.minute - 0 ∧
      (time.hour : Int) * 60 + time.minute - 0 < 1440 := by omega
  have isHour : ((time.hour : Int) * 60 + time.minute - 0).toNat / 60 = time.hour := by omega
  have isMinute : ((time.hour : Int) * 60 + time.minute - 0).toNat % 60 = time.minute := by omega
  rw [ofLocal?, ofParts?_self, Option.bind_eq_bind, Option.bind_some]
  dsimp only
  rw [if_neg (Int.not_lt.mpr inDay.1), if_neg (Int.not_le.mpr inDay.2)]
  dsimp only
  rw [isHour, isMinute, ofParts?_self]

private theorem month_le (time : Timestamp) : time.month ≤ 12 := by
  obtain ⟨_, _, one, days, _⟩ := time.valid
  by_contra later
  have noDays : Calendar.daysInMonth time.year time.month = 0 := by
    unfold Calendar.daysInMonth
    split <;> omega
  omega

private theorem day_le (time : Timestamp) : time.day ≤ 31 := by
  obtain ⟨_, _, _, days, _⟩ := time.valid
  have most : Calendar.daysInMonth time.year time.month ≤ 31 := by
    unfold Calendar.daysInMonth
    split
    case h_12 => split <;> decide
    all_goals decide
  omega

private theorem toList_text (time : Timestamp) : time.text.toList =
    (yearText time.year).toList ++ '-' :: ((padded 2 time.month).toList ++ '-' ::
      ((padded 2 time.day).toList ++ 'T' :: ((padded 2 time.hour).toList ++ ':' ::
        ((padded 2 time.minute).toList ++ ':' :: ((padded 2 time.second).toList ++
          ((fractionText time.nanosecond).toList ++ ['Z'])))))) := by
  have dash : "-".toList = ['-'] := rfl
  have colon : ":".toList = [':'] := rfl
  have divider : "T".toList = ['T'] := rfl
  have zone : "Z".toList = ['Z'] := rfl
  simp only [text, dateText, clockText, String.toList_append, List.append_assoc, dash, colon, divider, zone,
    List.cons_append, List.nil_append]

/-- Every timestamp is read back from its text. -/
theorem ofText?_text (time : Timestamp) : ofText? time.text = some time := by
  obtain ⟨_, _, _, _, hours, minutes, seconds, nanoseconds⟩ := time.valid
  have months := time.month_le
  have days := time.day_le
  have readMonth := fun rest => readPart?_padded (show 0 < 2 by decide) (show time.month < 10 ^ 2 by omega) rest
  have readDay := fun rest => readPart?_padded (show 0 < 2 by decide) (show time.day < 10 ^ 2 by omega) rest
  have readHour := fun rest => readPart?_padded (show 0 < 2 by decide) (show time.hour < 10 ^ 2 by omega) rest
  have readMinute := fun rest => readPart?_padded (show 0 < 2 by decide) (show time.minute < 10 ^ 2 by omega) rest
  have readSecond := fun rest => readPart?_padded (show 0 < 2 by decide) (show time.second < 10 ^ 2 by omega) rest
  have readDash := fun rest => readMark?_cons '-' rfl rest
  have readColon := fun rest => readMark?_cons ':' rfl rest
  rw [ofText?, toList_text, readYear?_yearText]
  simp only [Option.bind_eq_bind, Option.bind_some, readDash, readMonth, readDay, readHour, readColon,
    readMinute, readSecond, readDecimals?_fractionText nanoseconds]
  exact ofLocal?_utc time

end Timestamp

end DesiredState
