import DesiredState.Proofs.Value.Tree

/-!
# Places in a value

A place in a value is reached by steps into its lists and objects. Agreeing values agree at every place.
Agreement passes from a second value on to a third, unless somewhere a double stands between two different
integers that are rounded to it.
-/

set_option autoImplicit false

namespace DesiredState

namespace Value

/-- A step into a value: to an item of a list, or to a field of an object. -/
inductive Step where
  | item (index : Nat)
  | field (key : String)

/-- What stands in a value at the end of a path. -/
def at? : List Step → Value → Option Value
  | [], value => some value
  | .item index :: rest, .list items => items[index]?.bind (at? rest)
  | .field key :: rest, .object fields => (Entries.find? key fields).bind (at? rest)
  | _ :: _, _ => none

variable {a b c : Value} {path rest : List Step}

private theorem at?_item {index : Nat} {items : List Value} {item : Value}
    (isItem : items[index]? = some item) :
    (Value.list items).at? (.item index :: rest) = item.at? rest := by
  rw [at?, isItem, Option.bind_some]

private theorem at?_field {key : String} {fields : List (String × Value)} {value : Value}
    (found : Entries.find? key fields = some value) :
    (Value.object fields).at? (.field key :: rest) = value.at? rest := by
  rw [at?, found, Option.bind_some]

/-- Only in a list is there something behind a step to an item. -/
theorem exists_item_of_at? {index : Nat} {x : Value} (reached : a.at? (.item index :: rest) = some x) :
    ∃ items item, a = .list items ∧ items[index]? = some item ∧ item.at? rest = some x := by
  cases a with
  | list items =>
      obtain ⟨item, isItem, below⟩ := Option.bind_eq_some_iff.mp reached
      exact ⟨items, item, rfl, isItem, below⟩
  | null | bool | number | string | object => cases reached

/-- Only in an object is there something behind a step to a field. -/
theorem exists_field_of_at? {key : String} {x : Value} (reached : a.at? (.field key :: rest) = some x) :
    ∃ fields value, a = .object fields ∧ Entries.find? key fields = some value ∧
      value.at? rest = some x := by
  cases a with
  | object fields =>
      obtain ⟨value, found, below⟩ := Option.bind_eq_some_iff.mp reached
      exact ⟨fields, value, rfl, found, below⟩
  | null | bool | number | string | list => cases reached

/-- A number at a place is one of the numbers in the value. -/
theorem mem_numbers_of_at? {number : Number} (reached : a.at? path = some (.number number)) :
    number ∈ a.numbers := by
  induction path generalizing a with
  | nil =>
      cases reached
      rw [numbers]
      exact List.mem_singleton_self number
  | cons step rest ih =>
      cases step with
      | item index =>
          obtain ⟨items, item, rfl, isItem, below⟩ := exists_item_of_at? reached
          rw [numbers, mem_numbersOfItems]
          exact ⟨item, List.mem_of_getElem? isItem, ih below⟩
      | field key =>
          obtain ⟨fields, value, rfl, found, below⟩ := exists_field_of_at? reached
          rw [numbers, mem_numbersOfFields]
          exact ⟨(key, value), Entries.mem_of_find? found, ih below⟩

/-! ## Agreement at a place -/

private theorem find?_of_fieldsAgree {key : String} {left right : List (String × Value)} {x z : Value}
    (agree : List.Forall₂ (fun a b => a.1 = b.1 ∧ a.2.agrees b.2 = true) left right)
    (inLeft : Entries.find? key left = some x) (inRight : Entries.find? key right = some z) :
    x.agrees z = true := by
  induction agree with
  | nil => cases inLeft
  | @cons first second _ _ meets _ ih =>
      rw [Entries.find?_cons] at inLeft inRight
      rw [← meets.1] at inRight
      by_cases here : first.1 = key
      · rw [if_pos here] at inLeft inRight
        cases inLeft
        cases inRight
        exact meets.2
      · rw [if_neg here] at inLeft inRight
        exact ih inLeft inRight

/-- Agreeing values agree at every place. -/
theorem agrees_at {x z : Value} (agree : a.agrees c = true) (inFirst : a.at? path = some x)
    (inSecond : c.at? path = some z) : x.agrees z = true := by
  induction path generalizing a c with
  | nil =>
      cases inFirst
      cases inSecond
      exact agree
  | cons step rest ih =>
      cases step with
      | item index =>
          obtain ⟨left, first, rfl, isFirst, belowFirst⟩ := exists_item_of_at? inFirst
          obtain ⟨right, second, rfl, isSecond, belowSecond⟩ := exists_item_of_at? inSecond
          exact ih ((agrees_list_iff.mp agree).2 index first second isFirst isSecond) belowFirst belowSecond
      | field key =>
          obtain ⟨left, first, rfl, isFirst, belowFirst⟩ := exists_field_of_at? inFirst
          obtain ⟨right, second, rfl, isSecond, belowSecond⟩ := exists_field_of_at? inSecond
          rw [agrees, agreesBy, fieldsAgreeBy_iff] at agree
          exact ih (find?_of_fieldsAgree agree isFirst isSecond) belowFirst belowSecond

private theorem exists_list_of_agrees {items : List Value} (agree : (Value.list items).agrees b = true) :
    ∃ others, b = .list others := by
  cases b with
  | list others => exact ⟨others, rfl⟩
  | null | bool | number | string | object => simp [agrees, agreesBy] at agree

private theorem exists_object_of_agrees {fields : List (String × Value)}
    (agree : (Value.object fields).agrees b = true) : ∃ others, b = .object others := by
  cases b with
  | object others => exact ⟨others, rfl⟩
  | null | bool | number | string | list => simp [agrees, agreesBy] at agree

private theorem exists_number_of_agrees {number : Number} (agree : (Value.number number).agrees b = true) :
    ∃ other, b = .number other := by
  cases b with
  | number other => exact ⟨other, rfl⟩
  | null | bool | string | list | object => simp [agrees, agreesBy] at agree

/-- The first of three values, each of which agrees with the next, agrees with the last if all numbers do
that stand at one place in the three. -/
theorem agrees_of_agrees_at (ordered : a.Ordered) (middleOrdered : b.Ordered) (lastOrdered : c.Ordered)
    (first : a.agrees b = true) (second : b.agrees c = true)
    (atPlaces : ∀ path x y z, a.at? path = some (.number x) → b.at? path = some (.number y) →
      c.at? path = some (.number z) → x.agrees z = true) :
    a.agrees c = true := by
  induction ordered generalizing b c with
  | null =>
      cases b with
      | null => exact second
      | bool | number | string | list | object => simp [agrees, agreesBy] at first
  | @bool truth =>
      cases b with
      | bool other =>
          obtain rfl : truth = other := by simpa [agrees, agreesBy] using first
          exact second
      | null | number | string | list | object => simp [agrees, agreesBy] at first
  | @string text =>
      cases b with
      | string other =>
          obtain rfl : text = other := by simpa [agrees, agreesBy] using first
          exact second
      | null | bool | number | list | object => simp [agrees, agreesBy] at first
  | @number x =>
      obtain ⟨y, rfl⟩ := exists_number_of_agrees first
      obtain ⟨z, rfl⟩ := exists_number_of_agrees second
      exact atPlaces [] x y z rfl rfl rfl
  | @list left _ ih =>
      obtain ⟨middle, rfl⟩ := exists_list_of_agrees first
      obtain ⟨right, rfl⟩ := exists_list_of_agrees second
      cases middleOrdered with
      | list middleEach =>
          cases lastOrdered with
          | list rightEach =>
              rw [agrees_list_iff] at first second ⊢
              refine ⟨first.1.trans second.1, fun place value last inLeft inRight => ?_⟩
              have short : place < middle.length := second.1 ▸ (List.getElem?_eq_some_iff.mp inRight).1
              have inMiddle := List.getElem?_eq_getElem short
              refine ih _ (List.mem_of_getElem? inLeft) (middleEach _ (List.mem_of_getElem? inMiddle))
                (rightEach _ (List.mem_of_getElem? inRight)) (first.2 place _ _ inLeft inMiddle)
                (second.2 place _ _ inMiddle inRight) fun path x y z isX isY isZ => ?_
              exact atPlaces (.item place :: path) x y z ((at?_item inLeft).trans isX)
                ((at?_item inMiddle).trans isY) ((at?_item inRight).trans isZ)
  | @object left leftAscending _ ih =>
      obtain ⟨middle, rfl⟩ := exists_object_of_agrees first
      obtain ⟨right, rfl⟩ := exists_object_of_agrees second
      cases middleOrdered with
      | object middleAscending middleEach =>
          cases lastOrdered with
          | object rightAscending rightEach =>
              rw [agrees_object_iff leftAscending middleAscending] at first
              rw [agrees_object_iff middleAscending rightAscending] at second
              rw [agrees_object_iff leftAscending rightAscending]
              refine ⟨first.1.trans second.1, fun key value inLeft => ?_⟩
              obtain ⟨between, inMiddle, agreesFirst⟩ := first.2 key value inLeft
              have isMiddle := Entries.mem_of_find? inMiddle
              obtain ⟨last, inRight, agreesSecond⟩ := second.2 key between isMiddle
              refine ⟨last, inRight, ?_⟩
              refine ih (key, value) inLeft (middleEach _ isMiddle)
                (rightEach _ (Entries.mem_of_find? inRight)) agreesFirst agreesSecond
                fun path x y z isX isY isZ => ?_
              have inFirst := leftAscending.find?_of_mem inLeft
              exact atPlaces (.field key :: path) x y z ((at?_field inFirst).trans isX)
                ((at?_field inMiddle).trans isY) ((at?_field inRight).trans isZ)

/-- At a place a double stands between two different integers that are rounded to it. -/
def MergedAt (path : List Step) (a b c : Value) : Prop :=
  ∃ m between n, a.at? path = some (.number (.integer m)) ∧
    b.at? path = some (.number (.double between)) ∧
    c.at? path = some (.number (.integer n)) ∧ Number.Merges between m n

/-- Of three values, each of which agrees with the next, the first agrees with the last unless a double
stands between two integers that are rounded to it. -/
theorem agrees_iff_not_mergedAt (ordered : a.Ordered) (middleOrdered : b.Ordered) (lastOrdered : c.Ordered)
    (first : a.agrees b = true) (second : b.agrees c = true) :
    a.agrees c = true ↔ ∀ path, ¬MergedAt path a b c := by
  constructor
  · rintro agree path ⟨m, _, n, isM, _, isN, different, _⟩
    have same : (Value.number (.integer m)).agrees (.number (.integer n)) = true := agrees_at agree isM isN
    exact different (Number.agrees_integer.mp same)
  · intro unmerged
    refine agrees_of_agrees_at ordered middleOrdered lastOrdered first second fun path x y z isX isY isZ => ?_
    have passed : x.agrees z = true ↔ _ :=
      Number.agrees_trans_iff (agrees_at first isX isY) (agrees_at second isY isZ)
    refine passed.mpr ?_
    rintro ⟨m, between, n, rfl, rfl, rfl, merges⟩
    exact unmerged path ⟨m, between, n, isX, isY, isZ, merges⟩

private theorem not_mergedAt_of_small
    (small : ∀ n : Int, .integer n ∈ a.numbers ++ c.numbers → n.natAbs ≤ 2 ^ 53) : ¬MergedAt path a b c := by
  rintro ⟨m, _, n, isM, _, isN, merges⟩
  have inFirst := small m (List.mem_append_left _ (mem_numbers_of_at? isM))
  have inLast := small n (List.mem_append_right _ (mem_numbers_of_at? isN))
  rcases merges.large with large | large
  · exact absurd inFirst (not_le.mpr large)
  · exact absurd inLast (not_le.mpr large)

private theorem not_mergedAt_of_noDouble (noDouble : ∀ x : Double, .double x ∉ b.numbers) :
    ¬MergedAt path a b c := by
  rintro ⟨_, between, _, _, isBetween, _⟩
  exact noDouble between (mem_numbers_of_at? isBetween)

/-- How far agreement is transitive: it passes on from a value in the middle exactly if there is no double
in it that stands between two different integers rounded to it, and so whenever the outer values hold no
integer of more than 53 bits or the middle one no double. -/
theorem agrees_transitively (a b c : Value) (ordered : a.Ordered) (middleOrdered : b.Ordered)
    (lastOrdered : c.Ordered) (first : a.agrees b = true) (second : b.agrees c = true) :
    (a.agrees c = true ↔ ∀ path, ¬MergedAt path a b c) ∧
      ((∀ n : Int, .integer n ∈ a.numbers ++ c.numbers → n.natAbs ≤ 2 ^ 53) ∨
        (∀ x : Double, .double x ∉ b.numbers) → a.agrees c = true) := by
  have exactly := agrees_iff_not_mergedAt ordered middleOrdered lastOrdered first second
  refine ⟨exactly, fun unrounded => exactly.mpr fun path => ?_⟩
  rcases unrounded with small | noDouble
  · exact not_mergedAt_of_small small
  · exact not_mergedAt_of_noDouble noDouble

/-- A double stands between the integer it is equal to and the next, and the integer zero between the two
zeros that are doubles. -/
theorem agrees_transitively_counts :
    (∃ path, MergedAt path (.number (.integer 9007199254740992))
      (.number (.double ⟨false, 4503599627370496, 1, by decide⟩)) (.number (.integer 9007199254740993))) ∧
      (Value.number (.double (.zero true))).agrees (.number (.double (.zero false))) = true := by
  constructor
  · have exactly := (agrees_transitively (.number (.integer 9007199254740992))
      (.number (.double ⟨false, 4503599627370496, 1, by decide⟩)) (.number (.integer 9007199254740993))
      .number .number .number (by decide +kernel) (by decide +kernel)).1
    by_contra unmerged
    exact absurd (exactly.mpr (not_exists.mp unmerged)) (by decide +kernel)
  · exact (agrees_transitively _ (.number (.integer 0)) _ .number .number .number
      (by decide +kernel) (by decide +kernel)).2 (.inr (by simp [numbers]))

/-- Agreement does not always pass on. -/
theorem agrees_not_transitive :
    ¬∀ a b c : Value, a.Ordered → b.Ordered → c.Ordered →
      a.agrees b = true → b.agrees c = true → a.agrees c = true := by
  intro transitive
  have agree := transitive (.number (.integer 9007199254740992))
    (.number (.double ⟨false, 4503599627370496, 1, by decide⟩)) (.number (.integer 9007199254740993))
    .number .number .number (by decide +kernel) (by decide +kernel)
  exact absurd agree (by decide +kernel)

end Value

end DesiredState
