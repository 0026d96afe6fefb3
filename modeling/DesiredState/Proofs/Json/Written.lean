import DesiredState.Proofs.Json.Double
import DesiredState.Proofs.Value

/-!
# Reading what was written

The pretty form of a value is read as the draft that has every part of the value, with each number as
it comes out of its text.
-/

set_option autoImplicit false

namespace DesiredState

open Json

namespace Value

mutual

/-- The draft that is read from the written form of a value. -/
def draft : Value → Draft
  | .null => .null
  | .bool value => .bool value
  | .number value => .number value.reread?
  | .string text => .string (some text)
  | .list items => .list (draftItems items)
  | .object fields => .object (draftFields fields)

def draftItems : List Value → List Draft
  | [] => []
  | item :: rest => draft item :: draftItems rest

def draftFields : List (String × Value) → List (Option String × Draft)
  | [] => []
  | (key, value) :: rest => (some key, draft value) :: draftFields rest

end

theorem draftItems_eq (items : List Value) : draftItems items = items.map draft := by
  induction items with
  | nil => rfl
  | cons item rest ih => rw [draftItems, ih, List.map_cons]

theorem draftFields_eq (fields : List (String × Value)) :
    draftFields fields = fields.map fun field => (some field.1, draft field.2) := by
  induction fields with
  | nil => rfl
  | cons field rest ih => rw [draftFields, ih, List.map_cons]

mutual

/-- A bound for the depth of the recursion that reads a value. -/
def reading : Value → Nat
  | .null | .bool _ | .number _ | .string _ => 1
  | .list items => 1 + readingItems items
  | .object fields => 1 + readingFields fields

def readingItems : List Value → Nat
  | [] => 0
  | item :: rest => 1 + reading item + readingItems rest

def readingFields : List (String × Value) → Nat
  | [] => 0
  | (_, value) :: rest => 1 + reading value + readingFields rest

end

end Value

namespace Json

/-! ## Blanks -/

/-- A text that begins with a token. -/
def Begins (text : List Char) : Prop := ∃ c tail, text = c :: tail ∧ isBlank c = false ∧ c ≠ ']' ∧ c ≠ '}'

private theorem skipBlanks_of_token {c : Char} (notBlank : isBlank c = false) (rest : List Char) :
    skipBlanks (c :: rest) = c :: rest := by
  rw [skipBlanks, List.dropWhile_cons_of_neg (by simp [notBlank])]

private theorem skipBlanks_of_begins {text : List Char} (begins : Begins text) : skipBlanks text = text := by
  obtain ⟨c, tail, rfl, notBlank, _⟩ := begins
  exact skipBlanks_of_token notBlank tail

private theorem skipBlanks_space (text : List Char) : skipBlanks (' ' :: text) = skipBlanks text := by
  rw [skipBlanks, List.dropWhile_cons_of_pos rfl]
  rfl

private theorem skipBlanks_line (depth : Nat) (text : List Char) :
    skipBlanks ('\n' :: ((indentation depth).toList ++ text)) = skipBlanks text := by
  have blanks : ∀ count, skipBlanks (List.replicate count ' ' ++ text) = skipBlanks text := by
    intro count
    induction count with
    | zero => rfl
    | succ count ih =>
        rw [List.replicate_succ, List.cons_append, skipBlanks, List.dropWhile_cons_of_pos rfl]
        exact ih
  rw [skipBlanks, List.dropWhile_cons_of_pos rfl, indentation, String.toList_ofList]
  exact blanks (2 * depth)

theorem Begins.append {text : List Char} (begins : Begins text) (rest : List Char) : Begins (text ++ rest) := by
  obtain ⟨c, tail, rfl, first⟩ := begins
  exact ⟨c, tail ++ rest, rfl, first⟩

end Json

namespace Value

/-! ## The characters of the written form -/

variable (depth : Nat)

theorem toList_prettyAt_list (item : Value) (rest : List Value) :
    (prettyAt depth (.list (item :: rest))).toList =
      '[' :: '\n' :: ((indentation (depth + 1)).toList ++
        ((prettyAt (depth + 1) item).toList ++ (prettyItems depth rest).toList)) := by
  simp only [prettyAt, String.toList_append, List.append_assoc]
  rfl

theorem toList_prettyAt_object (key : String) (value : Value) (rest : List (String × Value)) :
    (prettyAt depth (.object ((key, value) :: rest))).toList =
      '{' :: '\n' :: ((indentation (depth + 1)).toList ++ ((quote key).toList ++ ':' :: ' ' ::
        ((prettyAt (depth + 1) value).toList ++ (prettyFields depth rest).toList))) := by
  simp only [prettyAt, String.toList_append, List.append_assoc]
  rfl

theorem toList_prettyItems_cons (item : Value) (rest : List Value) :
    (prettyItems depth (item :: rest)).toList =
      ',' :: '\n' :: ((indentation (depth + 1)).toList ++
        ((prettyAt (depth + 1) item).toList ++ (prettyItems depth rest).toList)) := by
  simp only [prettyItems, String.toList_append, List.append_assoc]
  rfl

theorem toList_prettyItems_nil :
    (prettyItems depth []).toList = '\n' :: ((indentation depth).toList ++ [']']) := by
  simp only [prettyItems, String.toList_append, List.append_assoc]
  rfl

theorem toList_prettyFields_cons (key : String) (value : Value) (rest : List (String × Value)) :
    (prettyFields depth ((key, value) :: rest)).toList =
      ',' :: '\n' :: ((indentation (depth + 1)).toList ++ ((quote key).toList ++ ':' :: ' ' ::
        ((prettyAt (depth + 1) value).toList ++ (prettyFields depth rest).toList))) := by
  simp only [prettyFields, String.toList_append, List.append_assoc]
  rfl

theorem toList_prettyFields_nil :
    (prettyFields depth []).toList = '\n' :: ((indentation depth).toList ++ ['}']) := by
  simp only [prettyFields, String.toList_append, List.append_assoc]
  rfl

private theorem begins_number (number : Number) : Begins number.text.toList := by
  obtain ⟨c, tail, split, first⟩ := head?_of_readNumber? number.readNumber?_text
  refine ⟨c, tail, split, ?_⟩
  rcases first with rfl | digit
  · decide
  · have notBlank : Json.isBlank c = false := by
      rw [Json.isBlank]
      simp only [Bool.or_eq_false_iff, beq_eq_false_iff_ne]
      refine ⟨⟨⟨?_, ?_⟩, ?_⟩, ?_⟩ <;> rintro rfl <;> cases digit
    refine ⟨notBlank, ?_, ?_⟩ <;> rintro rfl <;> cases digit

private theorem begins_quote (text : String) : Begins (quote text).toList := by
  rw [quote, String.toList_ofList]
  exact ⟨'"', _, rfl, by decide⟩

private theorem begins_prettyAt (value : Value) : Begins (value.prettyAt depth).toList := by
  cases value with
  | null => exact ⟨'n', "ull".toList, by rw [prettyAt]; rfl, by decide⟩
  | bool value =>
      cases value with
      | false => exact ⟨'f', "alse".toList, by rw [prettyAt]; rfl, by decide⟩
      | true => exact ⟨'t', "rue".toList, by rw [prettyAt]; rfl, by decide⟩
  | number value =>
      rw [prettyAt]
      exact begins_number value
  | string text =>
      rw [prettyAt]
      exact begins_quote text
  | list items =>
      cases items with
      | nil => exact ⟨'[', [']'], by rw [prettyAt]; rfl, by decide⟩
      | cons item rest =>
          rw [toList_prettyAt_list]
          exact ⟨'[', _, rfl, by decide⟩
  | object fields =>
      cases fields with
      | nil => exact ⟨'{', ['}'], by rw [prettyAt]; rfl, by decide⟩
      | cons field rest =>
          rw [toList_prettyAt_object]
          exact ⟨'{', _, rfl, by decide⟩

/-! ## Reading -/

/-- What stands behind a value in its written form cannot belong to a number. -/
theorem endsNumber_items (items : List Value) (rest : List Char) :
    EndsNumber ((prettyItems depth items).toList ++ rest) := by
  cases items with
  | nil =>
      rw [toList_prettyItems_nil]
      intro c first
      cases first
      decide
  | cons item more =>
      rw [toList_prettyItems_cons]
      intro c first
      cases first
      decide

theorem endsNumber_fields (fields : List (String × Value)) (rest : List Char) :
    EndsNumber ((prettyFields depth fields).toList ++ rest) := by
  cases fields with
  | nil =>
      rw [toList_prettyFields_nil]
      intro c first
      cases first
      decide
  | cons field more =>
      rw [toList_prettyFields_cons]
      intro c first
      cases first
      decide

private theorem readDraft?_number {text rest : List Char} {number : Option Number} (fuel : Nat)
    (read : readNumber? text = some (number, rest)) :
    readDraft? (fuel + 1) text = some (.number number, rest) := by
  obtain ⟨c, tail, rfl, first⟩ := head?_of_readNumber? read
  have notOther : ∀ other ∈ ['n', 't', 'f', '"', '[', '{'], c ≠ other := by
    rintro other member rfl
    rcases first with rfl | digit
    · simp at member
    · simp only [List.mem_cons, List.not_mem_nil, or_false] at member
      rcases member with rfl | rfl | rfl | rfl | rfl | rfl <;> cases digit
  rw [readDraft?]
  · rw [read]
  all_goals
    intro rest same
    cases same
    exact notOther _ (by simp) rfl

/-- A value is read from its written form. -/
def IsRead (value : Value) : Prop :=
  ∀ (depth fuel : Nat) (rest : List Char), value.reading ≤ fuel → EndsNumber rest →
    readDraft? fuel ((value.prettyAt depth).toList ++ rest) = some (value.draft, rest)

private theorem readItems?_pretty {item : Value} {items : List Value} (first : IsRead item)
    (each : ∀ other ∈ items, IsRead other) {fuel : Nat} (enough : 1 + item.reading + readingItems items ≤ fuel)
    (rest : List Char) :
    readItems? fuel ((item.prettyAt (depth + 1)).toList ++ ((prettyItems depth items).toList ++ rest)) =
      some (item.draft :: draftItems items, rest) := by
  induction items generalizing item fuel with
  | nil =>
      cases fuel with
      | zero => omega
      | succ fuel =>
          rw [readItems?, first (depth + 1) fuel _ (by omega) (endsNumber_items depth [] rest),
            toList_prettyItems_nil]
          dsimp only
          rw [List.cons_append, List.append_assoc, skipBlanks_line]
          rfl
  | cons next more ih =>
      cases fuel with
      | zero => omega
      | succ fuel =>
          rw [readingItems] at enough
          rw [readItems?, first (depth + 1) fuel _ (by omega) (endsNumber_items depth (next :: more) rest),
            toList_prettyItems_cons]
          dsimp only
          have begins := (begins_prettyAt (depth + 1) next).append ((prettyItems depth more).toList ++ rest)
          have room : 1 + next.reading + readingItems more ≤ fuel := by omega
          have later := ih (each next List.mem_cons_self)
            (fun other member => each other (List.mem_cons_of_mem next member)) room
          rw [List.cons_append, skipBlanks_of_token (by decide)]
          simp only [List.cons_append, List.append_assoc]
          rw [skipBlanks_line, skipBlanks_of_begins begins, later]
          rfl

/-- What is read of an object from behind one of its fields. -/
def fieldsBehind? (fuel : Nat) (field : Option String × Draft) (behind : List Char) :
    Option (List (Option String × Draft) × List Char) :=
  match skipBlanks behind with
  | '}' :: rest => some ([field], rest)
  | ',' :: rest =>
      match readFields? fuel (skipBlanks rest) with
      | some (fields, rest) => some (field :: fields, rest)
      | none => none
  | _ => none

private theorem readFields?_field {key : String} {value : Value} (first : IsRead value) {fuel : Nat}
    (enough : value.reading ≤ fuel) {behind : List Char} (ends : EndsNumber behind) :
    readFields? (fuel + 1) ((quote key).toList ++ ':' :: ' ' :: ((value.prettyAt depth).toList ++ behind)) =
      fieldsBehind? fuel (some key, value.draft) behind := by
  obtain ⟨body, isKey, keyRead⟩ :=
    readString?_quote key (':' :: ' ' :: ((value.prettyAt depth).toList ++ behind))
  have begins := (begins_prettyAt depth value).append behind
  rw [isKey, List.cons_append, readFields?, keyRead]
  dsimp only
  rw [skipBlanks_of_token (by decide)]
  simp only [skipBlanks_space, skipBlanks_of_begins begins, first depth fuel behind enough ends]
  rfl

private theorem readFields?_pretty (key : String) {value : Value} {fields : List (String × Value)}
    (first : IsRead value) (each : ∀ field ∈ fields, IsRead field.2) {fuel : Nat}
    (enough : 1 + value.reading + readingFields fields ≤ fuel) (rest : List Char) :
    readFields? fuel ((quote key).toList ++ ':' :: ' ' :: ((value.prettyAt (depth + 1)).toList ++
        ((prettyFields depth fields).toList ++ rest))) =
      some ((some key, value.draft) :: draftFields fields, rest) := by
  induction fields generalizing key value fuel with
  | nil =>
      obtain ⟨fuel, rfl⟩ : ∃ less, fuel = less + 1 := ⟨fuel - 1, by omega⟩
      rw [readFields?_field (depth + 1) first (by omega) (endsNumber_fields depth [] rest), fieldsBehind?,
        toList_prettyFields_nil, List.cons_append, List.append_assoc, skipBlanks_line]
      rfl
  | cons next more ih =>
      obtain ⟨nextKey, nextValue⟩ := next
      obtain ⟨fuel, rfl⟩ : ∃ less, fuel = less + 1 := ⟨fuel - 1, by omega⟩
      rw [readingFields] at enough
      have room : 1 + nextValue.reading + readingFields more ≤ fuel := by omega
      have later := ih nextKey (each (nextKey, nextValue) List.mem_cons_self)
        (fun other member => each other (List.mem_cons_of_mem _ member)) room
      rw [readFields?_field (depth + 1) first (by omega)
        (endsNumber_fields depth ((nextKey, nextValue) :: more) rest), fieldsBehind?, toList_prettyFields_cons,
        List.cons_append, skipBlanks_of_token (by decide)]
      simp only [List.cons_append, List.append_assoc, skipBlanks_line,
        skipBlanks_of_begins ((begins_quote nextKey).append _), later]
      rfl

theorem isRead (value : Value) : IsRead value := by
  induction value using Value.induction with
  | null =>
      intro depth fuel rest enough ends
      obtain ⟨fuel, rfl⟩ : ∃ less, fuel = less + 1 := Nat.exists_eq_add_one.mpr enough
      rw [prettyAt]
      rfl
  | bool value =>
      intro depth fuel rest enough ends
      obtain ⟨fuel, rfl⟩ : ∃ less, fuel = less + 1 := Nat.exists_eq_add_one.mpr enough
      cases value with
      | false =>
          rw [prettyAt]
          rfl
      | true =>
          rw [prettyAt]
          rfl
  | number number =>
      intro depth fuel rest enough ends
      obtain ⟨fuel, rfl⟩ : ∃ less, fuel = less + 1 := Nat.exists_eq_add_one.mpr enough
      rw [prettyAt]
      exact readDraft?_number fuel (readNumber?_append ends number.readNumber?_text)
  | string text =>
      intro depth fuel rest enough ends
      obtain ⟨fuel, rfl⟩ : ∃ less, fuel = less + 1 := Nat.exists_eq_add_one.mpr enough
      obtain ⟨body, isText, textRead⟩ := readString?_quote text rest
      rw [prettyAt, isText, List.cons_append, readDraft?, textRead]
      rfl
  | list items each =>
      intro depth fuel rest enough ends
      cases items with
      | nil =>
          obtain ⟨fuel, rfl⟩ : ∃ less, fuel = less + 1 := Nat.exists_eq_add_one.mpr enough
          rw [prettyAt]
          rfl
      | cons item more =>
          rw [reading, readingItems] at enough
          obtain ⟨fuel, rfl⟩ : ∃ less, fuel = less + 1 := ⟨fuel - 1, by omega⟩
          have begins := (begins_prettyAt (depth + 1) item).append ((prettyItems depth more).toList ++ rest)
          have room : 1 + item.reading + readingItems more ≤ fuel := by omega
          have read := readItems?_pretty depth (each item List.mem_cons_self)
            (fun other member => each other (List.mem_cons_of_mem item member)) room rest
          rw [toList_prettyAt_list]
          simp only [List.cons_append, List.append_assoc, readDraft?, skipBlanks_line,
            skipBlanks_of_begins begins]
          split
          · rename_i closed
            obtain ⟨c, tail, split, _, notClose, _⟩ := begins
            rw [split] at closed
            cases closed
            exact absurd rfl notClose
          · rw [read]
            rfl
  | object fields each =>
      intro depth fuel rest enough ends
      cases fields with
      | nil =>
          obtain ⟨fuel, rfl⟩ : ∃ less, fuel = less + 1 := Nat.exists_eq_add_one.mpr enough
          rw [prettyAt]
          rfl
      | cons field more =>
          obtain ⟨key, value⟩ := field
          rw [reading, readingFields] at enough
          obtain ⟨fuel, rfl⟩ : ∃ less, fuel = less + 1 := ⟨fuel - 1, by omega⟩
          have begins := (begins_quote key).append
            (':' :: ' ' :: ((value.prettyAt (depth + 1)).toList ++ ((prettyFields depth more).toList ++ rest)))
          have room : 1 + value.reading + readingFields more ≤ fuel := by omega
          have read := readFields?_pretty depth key (each (key, value) List.mem_cons_self)
            (fun other member => each other (List.mem_cons_of_mem _ member)) room rest
          rw [toList_prettyAt_object]
          simp only [List.cons_append, List.append_assoc, readDraft?, skipBlanks_line,
            skipBlanks_of_begins begins]
          split
          · rename_i closed
            obtain ⟨c, tail, split, _, _, notClose⟩ := begins
            rw [split] at closed
            cases closed
            exact absurd rfl notClose
          · rw [read]
            rfl

/-! ## Whole texts -/

private theorem readingItems_le {items : List Value}
    (each : ∀ item ∈ items, ∀ depth, item.reading ≤ (item.prettyAt depth).toList.length) :
    readingItems items ≤ (prettyItems depth items).toList.length := by
  induction items with
  | nil => exact Nat.zero_le _
  | cons item rest ih =>
      have first := each item List.mem_cons_self (depth + 1)
      have later := ih fun other member => each other (List.mem_cons_of_mem item member)
      rw [readingItems, toList_prettyItems_cons]
      simp only [List.length_cons, List.length_append]
      omega

private theorem readingFields_le {fields : List (String × Value)}
    (each : ∀ field ∈ fields, ∀ depth, field.2.reading ≤ (field.2.prettyAt depth).toList.length) :
    readingFields fields ≤ (prettyFields depth fields).toList.length := by
  induction fields with
  | nil => exact Nat.zero_le _
  | cons field rest ih =>
      have first := each field List.mem_cons_self (depth + 1)
      have later := ih fun other member => each other (List.mem_cons_of_mem field member)
      rw [readingFields, toList_prettyFields_cons]
      simp only [List.length_cons, List.length_append]
      omega

private theorem one_le_length (value : Value) : 1 ≤ (value.prettyAt depth).toList.length := by
  obtain ⟨c, tail, split, _⟩ := begins_prettyAt depth value
  rw [split, List.length_cons]
  omega

/-- A text is long enough to bound the recursion that reads it. -/
theorem reading_le (value : Value) : ∀ depth, value.reading ≤ (value.prettyAt depth).toList.length := by
  induction value using Value.induction with
  | null => exact fun depth => one_le_length depth _
  | bool value => exact fun depth => one_le_length depth _
  | number number => exact fun depth => one_le_length depth _
  | string text => exact fun depth => one_le_length depth _
  | list items each =>
      intro depth
      cases items with
      | nil => exact one_le_length depth _
      | cons item rest =>
          have first := each item List.mem_cons_self (depth + 1)
          have later := readingItems_le depth fun other member => each other (List.mem_cons_of_mem item member)
          rw [reading, readingItems, toList_prettyAt_list]
          simp only [List.length_cons, List.length_append]
          omega
  | object fields each =>
      intro depth
      cases fields with
      | nil => exact one_le_length depth _
      | cons field rest =>
          have first := each field List.mem_cons_self (depth + 1)
          have later := readingFields_le depth fun other member => each other (List.mem_cons_of_mem field member)
          rw [reading, readingFields, toList_prettyAt_object]
          simp only [List.length_cons, List.length_append]
          omega

/-- The written form of a value is read as its draft. -/
theorem ofText?_pretty (value : Value) : Draft.ofText? value.pretty = some value.draft := by
  have enough : value.reading ≤ value.pretty.toList.length + 1 := Nat.le_succ_of_le (value.reading_le 0)
  have begins : Begins value.pretty.toList := begins_prettyAt 0 value
  have read : readDraft? (value.pretty.toList.length + 1) (value.pretty.toList ++ []) = some (value.draft, []) :=
    value.isRead 0 _ [] enough fun _ first => nomatch first
  rw [List.append_nil] at read
  rw [Draft.ofText?, skipBlanks_of_begins begins, read]
  rfl

end Value

end DesiredState
