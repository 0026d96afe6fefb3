import DesiredState.Json.Reader
import DesiredState.Json.Writer
import Mathlib.Data.List.TakeDrop

/-!
# Strings and numbers written and read

A string is read from its written form as it was. A number at the end of a text is read the same if
more follows that cannot belong to it.
-/

set_option autoImplicit false

namespace DesiredState

namespace Json

/-! ## Strings -/

private theorem hexUnit?_control : ∀ code < 32,
    hexUnit? '0' '0' (Nat.digitChar (code / 16)) (Nat.digitChar (code % 16)) = some code := by
  decide

private theorem readUnits?_escape (c : Char) (rest : List Char) :
    readUnits? (escape c ++ rest) = consUnit c.toNat (readUnits? rest) := by
  unfold escape
  split
  · simp [readUnits?, unescape?]
  · simp [readUnits?, unescape?]
  · simp [readUnits?, unescape?]
  · simp [readUnits?, unescape?]
  · simp [readUnits?, unescape?]
  · simp [readUnits?, unescape?]
  · simp [readUnits?, unescape?]
  · rename_i notQuote notBackslash _ _ _ _ _
    split
    · rename_i control
      simp only [List.cons_append, List.nil_append, readUnits?, hexUnit?_control c.toNat control]
    · rename_i printable
      rw [List.singleton_append, readUnits?, if_neg printable]
      · exact notQuote
      · intro a b c d rest same
        exact absurd same notBackslash
      · intro c rest same
        exact absurd same notBackslash

private theorem readUnits?_escapes (text rest : List Char) :
    readUnits? (text.flatMap escape ++ '"' :: rest) = some (text.map Char.toNat, rest) := by
  induction text with
  | nil => simp [readUnits?]
  | cons c more ih =>
      rw [List.flatMap_cons, List.append_assoc, readUnits?_escape, ih]
      rfl

/-- No character is a surrogate. -/
theorem not_surrogate (c : Char) : isHighSurrogate c.toNat = false ∧ isLowSurrogate c.toNat = false := by
  have valid : c.toNat < 0xD800 ∨ 0xDFFF < c.toNat ∧ c.toNat < 0x110000 := c.valid
  simp only [isHighSurrogate, isLowSurrogate, Bool.and_eq_false_iff, decide_eq_false_iff_not]
  omega

private theorem ofUnits?_toNat (text : List Char) : ofUnits? (text.map Char.toNat) = some text := by
  induction text with
  | nil => rfl
  | cons c more ih =>
      obtain ⟨notHigh, notLow⟩ := not_surrogate c
      rw [List.map_cons]
      unfold ofUnits?
      simp only [notHigh, notLow, Bool.false_eq_true, if_false, ih, Option.map_some, Char.ofNat_toNat]

/-- A quoted string is read back, up to its closing quote. -/
theorem readString?_quote (text : String) (rest : List Char) :
    ∃ body, (quote text).toList = '"' :: body ∧ readString? (body ++ rest) = some (some text, rest) := by
  refine ⟨text.toList.flatMap escape ++ ['"'], by rw [quote, String.toList_ofList], ?_⟩
  rw [List.append_assoc, List.singleton_append, readString?, readUnits?_escapes]
  simp only [ofUnits?_toNat, Option.map_some, String.ofList_toList]

/-! ## Numbers -/

/-- What stands behind a value cannot belong to a number. -/
def EndsNumber (rest : List Char) : Prop :=
  ∀ c ∈ rest.head?, c.isDigit = false ∧ c ≠ '.' ∧ c ≠ 'e' ∧ c ≠ 'E'

variable {rest : List Char}

theorem span_append {keep : Char → Bool} (ends : ∀ c ∈ rest.head?, keep c = false) (text : List Char) :
    (text ++ rest).span keep = ((text.span keep).1, (text.span keep).2 ++ rest) := by
  simp only [List.span_eq_takeWhile_dropWhile]
  induction text with
  | nil =>
      cases rest with
      | nil => rfl
      | cons c more =>
          have stops := ends c rfl
          simp [stops]
  | cons c more ih =>
      rw [Prod.mk.injEq] at ih
      cases kept : keep c with
      | false => simp [kept]
      | true => simp [kept, ih.1, ih.2]

theorem readFraction?_of_no_point {text : List Char} (noPoint : ∀ c ∈ text.head?, c ≠ '.') :
    readFraction? text = some (none, text) := by
  unfold readFraction?
  split
  · exact absurd rfl (noPoint '.' rfl)
  · rfl

private theorem readFraction?_append (ends : EndsNumber rest) {text more : List Char}
    {fraction : Option (List Char)} (read : readFraction? text = some (fraction, more)) :
    readFraction? (text ++ rest) = some (fraction, more ++ rest) := by
  cases text with
  | nil =>
      cases read
      exact readFraction?_of_no_point fun c first => (ends c first).2.1
  | cons c tail =>
      by_cases point : c = '.'
      · subst point
        rw [readFraction?] at read
        rw [List.cons_append, readFraction?, span_append fun c first => (ends c first).1]
        cases spanned : tail.span Char.isDigit with
        | mk digits after =>
            rw [spanned] at read
            cases digits with
            | nil => cases read
            | cons digit digits =>
                cases read
                rfl
      · have noPoint : ∀ other ∈ (c :: tail).head?, other ≠ '.' := by
          intro other first
          cases first
          exact point
        rw [readFraction?_of_no_point noPoint] at read
        cases read
        exact readFraction?_of_no_point noPoint

private theorem readSign_append {text : List Char} (someText : text ≠ []) (rest : List Char) :
    readSign (text ++ rest) = ((readSign text).1, (readSign text).2 ++ rest) := by
  cases text with
  | nil => exact absurd rfl someText
  | cons c tail =>
      rw [List.cons_append]
      unfold readSign
      split
      · rename_i same
        cases same
        rfl
      · rename_i same
        cases same
        rfl
      · rename_i notMinus notPlus
        split
        · rename_i same
          cases same
          exact absurd rfl (notMinus _)
        · rename_i same
          cases same
          exact absurd rfl (notPlus _)
        · rfl

private theorem readExponent?_of_no_mark {text : List Char} (noMark : ∀ c ∈ text.head?, c ≠ 'e' ∧ c ≠ 'E') :
    readExponent? text = some (none, text) := by
  cases text with
  | nil => rfl
  | cons c tail =>
      obtain ⟨notSmall, notLarge⟩ := noMark c rfl
      rw [readExponent?, if_neg (by simp [notSmall, notLarge])]

private theorem readExponent?_append (ends : EndsNumber rest) {text more : List Char} {exponent : Option Int}
    (read : readExponent? text = some (exponent, more)) :
    readExponent? (text ++ rest) = some (exponent, more ++ rest) := by
  cases text with
  | nil =>
      cases read
      exact readExponent?_of_no_mark fun c first => (ends c first).2.2
  | cons c tail =>
      rw [List.cons_append]
      rw [readExponent?] at read ⊢
      split at read
      · rename_i mark
        rw [if_pos mark]
        cases tail with
        | nil => cases read
        | cons sign digits =>
            rw [readSign_append (List.cons_ne_nil sign digits)]
            dsimp only at read ⊢
            rw [span_append fun c first => (ends c first).1]
            cases spanned : (readSign (sign :: digits)).2.span Char.isDigit with
            | mk digits after =>
                rw [spanned] at read
                cases digits with
                | nil => cases read
                | cons digit digits =>
                    cases read
                    rfl
      · rename_i noMark
        rw [if_neg noMark]
        cases read
        rfl

/-- A number behind its sign. -/
def readUnsigned? (negative : Bool) (text : List Char) : Option (Option Number × List Char) := do
  let (whole, text) := text.span Char.isDigit
  if whole.isEmpty || (whole.length > 1 && whole.head? == some '0') then none
  else
    let (fraction, text) ← readFraction? text
    let (exponent, text) ← readExponent? text
    return (Number.ofNumeral? negative whole fraction exponent, text)

theorem readNumber?_minus (text : List Char) : readNumber? ('-' :: text) = readUnsigned? true text := rfl

theorem readNumber?_of_no_minus {text : List Char} (noMinus : ∀ c ∈ text.head?, c ≠ '-') :
    readNumber? text = readUnsigned? false text := by
  rw [readNumber?]
  · rfl
  · rintro tail rfl
    exact noMinus '-' rfl rfl

private theorem readUnsigned?_append (ends : EndsNumber rest) {negative : Bool} {text more : List Char}
    {number : Option Number} (read : readUnsigned? negative text = some (number, more)) :
    readUnsigned? negative (text ++ rest) = some (number, more ++ rest) := by
  unfold readUnsigned? at read ⊢
  rw [span_append fun c first => (ends c first).1]
  dsimp only at read ⊢
  split at read
  · cases read
  · rename_i whole
    rw [if_neg whole]
    obtain ⟨⟨fraction, behindFraction⟩, readFraction, read⟩ := Option.bind_eq_some_iff.mp read
    obtain ⟨⟨exponent, behindExponent⟩, readExponent, read⟩ := Option.bind_eq_some_iff.mp read
    cases read
    rw [readFraction?_append ends readFraction, Option.bind_eq_bind, Option.bind_some,
      readExponent?_append ends readExponent]
    rfl

theorem head?_of_readUnsigned? {negative : Bool} {text more : List Char} {number : Option Number}
    (read : readUnsigned? negative text = some (number, more)) :
    ∃ c tail, text = c :: tail ∧ c.isDigit = true := by
  cases text with
  | nil => cases read
  | cons c tail =>
      refine ⟨c, tail, rfl, ?_⟩
      cases digit : c.isDigit with
      | true => rfl
      | false =>
          rw [readUnsigned?, List.span_eq_takeWhile_dropWhile, List.takeWhile_cons_of_neg (by simp [digit])]
            at read
          cases read

/-- A number starts with a sign or a digit. -/
theorem head?_of_readNumber? {text more : List Char} {number : Option Number}
    (read : readNumber? text = some (number, more)) :
    ∃ c tail, text = c :: tail ∧ (c = '-' ∨ c.isDigit = true) := by
  cases text with
  | nil => cases read
  | cons c tail =>
      refine ⟨c, tail, rfl, ?_⟩
      by_cases minus : c = '-'
      · exact .inl minus
      · have noMinus : ∀ other ∈ (c :: tail).head?, other ≠ '-' := by
          intro other first
          cases first
          exact minus
        rw [readNumber?_of_no_minus noMinus] at read
        obtain ⟨_, _, split, digit⟩ := head?_of_readUnsigned? read
        cases split
        exact .inr digit

theorem readNumber?_append (ends : EndsNumber rest) {text more : List Char} {number : Option Number}
    (read : readNumber? text = some (number, more)) :
    readNumber? (text ++ rest) = some (number, more ++ rest) := by
  obtain ⟨c, tail, rfl, _⟩ := head?_of_readNumber? read
  by_cases minus : c = '-'
  · subst minus
    rw [readNumber?_minus] at read
    rw [List.cons_append, readNumber?_minus]
    exact readUnsigned?_append ends read
  · have noMinus : ∀ tail, ∀ other ∈ (c :: tail).head?, other ≠ '-' := by
      intro tail other first
      cases first
      exact minus
    rw [readNumber?_of_no_minus (noMinus tail)] at read
    rw [List.cons_append, readNumber?_of_no_minus (noMinus (tail ++ rest))]
    exact readUnsigned?_append ends read

end Json

end DesiredState
