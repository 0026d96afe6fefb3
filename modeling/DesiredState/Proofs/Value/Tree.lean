import Mathlib.Data.List.Forall2
import Mathlib.Data.List.Perm.Subperm
import DesiredState.Proofs.Json.Reading
import DesiredState.Proofs.Number.Exact
import DesiredState.Proofs.Value

/-!
# Values as trees

Values agree if they are the same tree, where the numbers at the leaves count by their value. This is
exact as long as no number is rounded: if the integers are small enough to be doubles, or if there are no
doubles to compare them with.
-/

set_option autoImplicit false

namespace DesiredState

/-! ## Entries in ascending order -/

namespace Entries

variable {α β : Type} {left : List (String × α)} {right : List (String × β)} {related : α → β → Prop}

/-- An ascending list of entries has room for no key that an equally long one does not have. -/
theorem Ascending.keys_eq (leftAscending : Ascending left) (rightAscending : Ascending right)
    (length : left.length = right.length) (known : ∀ key ∈ left.map (·.1), key ∈ right.map (·.1)) :
    left.map (·.1) = right.map (·.1) := by
  have permuted : (left.map (·.1)).Perm (right.map (·.1)) := by
    refine (leftAscending.nodup_keys.subperm known).perm_of_length_le ?_
    rw [List.length_map, List.length_map, length]
  exact keys_eq_of_perm permuted leftAscending.keys_pairwise rightAscending.keys_pairwise

/-- In ascending lists entry meets entry exactly if they are equally long and every entry of one finds its
counterpart in the other. -/
theorem Ascending.forall₂_iff (leftAscending : Ascending left) (rightAscending : Ascending right) :
    List.Forall₂ (fun a b => a.1 = b.1 ∧ related a.2 b.2) left right ↔
      left.length = right.length ∧
        ∀ key a, (key, a) ∈ left → ∃ b, find? key right = some b ∧ related a b := by
  constructor
  · intro aligned
    refine ⟨aligned.length_eq, fun key a member => ?_⟩
    clear leftAscending
    induction aligned with
    | nil => cases member
    | @cons first second left right meets rest ih =>
        rw [find?_cons]
        rcases List.mem_cons.mp member with rfl | inRest
        · exact ⟨second.2, if_pos meets.1.symm, meets.2⟩
        · obtain ⟨b, found, fits⟩ := ih rightAscending.of_cons inRest
          have later : second.1 < key :=
            (List.pairwise_cons.mp rightAscending).1 (key, b) (mem_of_find? found)
          have different : second.1 ≠ key := fun same => String.lt_irrefl key (same ▸ later)
          exact ⟨b, (if_neg different).trans found, fits⟩
  · rintro ⟨length, included⟩
    have keys := leftAscending.keys_eq rightAscending length (by
      intro key member
      obtain ⟨⟨_, a⟩, inside, rfl⟩ := List.mem_map.mp member
      obtain ⟨b, found, _⟩ := included _ a inside
      exact List.mem_map_of_mem (mem_of_find? found))
    rw [List.forall₂_iff_get]
    refine ⟨length, fun place inLeft inRight => ?_⟩
    have key : (left.get ⟨place, inLeft⟩).1 = (right.get ⟨place, inRight⟩).1 := by
      have same := congrArg (·[place]?) keys
      simpa [inLeft, inRight] using same
    obtain ⟨b, found, fits⟩ := included _ _ (left.get_mem ⟨place, inLeft⟩)
    rw [key, rightAscending.find?_of_mem (right.get_mem ⟨place, inRight⟩)] at found
    cases found
    exact ⟨key, fits⟩

/-- Finding every counterpart among as many entries is to have the same keys and related values. -/
theorem Ascending.included_iff (leftAscending : Ascending left) (rightAscending : Ascending right) :
    (left.length = right.length ∧
        ∀ key a, (key, a) ∈ left → ∃ b, find? key right = some b ∧ related a b) ↔
      (∀ key, key ∈ left.map (·.1) ↔ key ∈ right.map (·.1)) ∧
        ∀ key a b, (key, a) ∈ left → (key, b) ∈ right → related a b := by
  constructor
  · rintro ⟨length, included⟩
    have known : ∀ key ∈ left.map (·.1), key ∈ right.map (·.1) := by
      intro key member
      obtain ⟨⟨_, a⟩, inside, rfl⟩ := List.mem_map.mp member
      obtain ⟨b, found, _⟩ := included _ a inside
      exact List.mem_map_of_mem (mem_of_find? found)
    refine ⟨fun key => by rw [leftAscending.keys_eq rightAscending length known], ?_⟩
    intro key a b inLeft inRight
    obtain ⟨_, found, fits⟩ := included key a inLeft
    rw [rightAscending.find?_of_mem inRight] at found
    cases found
    exact fits
  · rintro ⟨keys, fits⟩
    have permuted : (left.map (·.1)).Perm (right.map (·.1)) :=
      (List.perm_ext_iff_of_nodup leftAscending.nodup_keys rightAscending.nodup_keys).mpr keys
    refine ⟨by simpa using permuted.length_eq, fun key a inside => ?_⟩
    obtain ⟨⟨_, b⟩, inRight, rfl⟩ := List.mem_map.mp ((keys key).mp (List.mem_map_of_mem inside))
    exact ⟨b, rightAscending.find?_of_mem inRight, fits _ a b inside inRight⟩

end Entries

namespace Value

/-! ## Comparison item by item -/

section Comparison

variable {same : Number → Number → Bool}

private theorem itemsAgreeBy_iff {left right : List Value} :
    itemsAgreeBy same left right = true ↔
      List.Forall₂ (fun a b => agreesBy same a b = true) left right := by
  induction left generalizing right with
  | nil => cases right <;> simp [itemsAgreeBy]
  | cons a left ih => cases right <;> simp [itemsAgreeBy, ih]

theorem fieldsAgreeBy_iff {left right : List (String × Value)} :
    fieldsAgreeBy same left right = true ↔
      List.Forall₂ (fun a b => a.1 = b.1 ∧ agreesBy same a.2 b.2 = true) left right := by
  induction left generalizing right with
  | nil => cases right <;> simp [fieldsAgreeBy]
  | cons a left ih => cases right <;> simp [fieldsAgreeBy, ih]

mutual

private theorem agreesBy_comm (symmetric : ∀ x y, same x y = same y x) :
    (a b : Value) → agreesBy same a b = agreesBy same b a
  | .null, b => by cases b <;> rfl
  | .bool _, b => by
      cases b with
      | bool _ => exact Bool.beq_comm
      | null | number | string | list | object => rfl
  | .number x, b => by
      cases b with
      | number y => exact symmetric x y
      | null | bool | string | list | object => rfl
  | .string _, b => by
      cases b with
      | string _ => exact Bool.beq_comm
      | null | bool | number | list | object => rfl
  | .list items, b => by
      cases b with
      | list others => exact itemsAgreeBy_comm symmetric items others
      | null | bool | number | string | object => rfl
  | .object fields, b => by
      cases b with
      | object others => exact fieldsAgreeBy_comm symmetric fields others
      | null | bool | number | string | list => rfl

theorem itemsAgreeBy_comm (symmetric : ∀ x y, same x y = same y x) :
    (left right : List Value) → itemsAgreeBy same left right = itemsAgreeBy same right left
  | [], [] => rfl
  | [], _ :: _ => rfl
  | _ :: _, [] => rfl
  | a :: left, b :: right => by
      rw [itemsAgreeBy, itemsAgreeBy, agreesBy_comm symmetric a b, itemsAgreeBy_comm symmetric left right]

theorem fieldsAgreeBy_comm (symmetric : ∀ x y, same x y = same y x) :
    (left right : List (String × Value)) → fieldsAgreeBy same left right = fieldsAgreeBy same right left
  | [], [] => rfl
  | [], _ :: _ => rfl
  | _ :: _, [] => rfl
  | (key, a) :: left, (other, b) :: right => by
      have keys : (key == other) = (other == key) := BEq.comm
      rw [fieldsAgreeBy, fieldsAgreeBy, agreesBy_comm symmetric a b, fieldsAgreeBy_comm symmetric left right, keys]

end

end Comparison

/-- Agreement is symmetric. -/
theorem agrees_comm (a b : Value) : a.agrees b = b.agrees a := agreesBy_comm Number.agrees_comm a b

/-- Lists agree if they are equally long and agree item by item. -/
theorem agrees_list_iff {left right : List Value} :
    (Value.list left).agrees (.list right) = true ↔
      left.length = right.length ∧
        ∀ (place : Nat) (a b : Value), left[place]? = some a → right[place]? = some b → a.agrees b = true := by
  rw [agrees, agreesBy, itemsAgreeBy_iff, List.forall₂_iff_get]
  refine and_congr_right fun _ => ?_
  constructor
  · intro aligned place a b isA isB
    obtain ⟨inLeft, rfl⟩ := List.getElem?_eq_some_iff.mp isA
    obtain ⟨inRight, rfl⟩ := List.getElem?_eq_some_iff.mp isB
    exact aligned place inLeft inRight
  · intro agree place inLeft inRight
    exact agree place _ _ (List.getElem?_eq_getElem inLeft) (List.getElem?_eq_getElem inRight)

/-! ## Values with ascending keys -/

/-- The fields of every object in a value are in ascending order of their keys, so that no key occurs
twice. -/
inductive Ordered : Value → Prop where
  | null : Ordered .null
  | bool {truth : Bool} : Ordered (.bool truth)
  | number {number : Number} : Ordered (.number number)
  | string {text : String} : Ordered (.string text)
  | list {items : List Value} (each : ∀ item ∈ items, Ordered item) : Ordered (.list items)
  | object {fields : List (String × Value)} (ascending : Entries.Ascending fields)
      (each : ∀ field ∈ fields, Ordered field.2) : Ordered (.object fields)

/-- Objects agree if they have as many fields and each field of the one agrees with that of its key in the
other. -/
theorem agrees_object_iff {left right : List (String × Value)} (leftAscending : Entries.Ascending left)
    (rightAscending : Entries.Ascending right) :
    (Value.object left).agrees (.object right) = true ↔
      left.length = right.length ∧
        ∀ key a, (key, a) ∈ left → ∃ b, Entries.find? key right = some b ∧ a.agrees b = true := by
  rw [agrees, agreesBy, fieldsAgreeBy_iff]
  exact @Entries.Ascending.forall₂_iff _ _ left right (fun a b => a.agrees b = true) leftAscending rightAscending

/-- Whatever is read of a text is ordered. -/
theorem ordered_of_valueTo? {depth : Nat} {draft : Json.Draft} {value : Value}
    (read : draft.valueTo? depth = some value) : value.Ordered := by
  cases draft with
  | null =>
      obtain rfl : value = .null := by cases depth <;> cases read <;> rfl
      exact .null
  | bool truth =>
      obtain rfl : value = .bool truth := by cases depth <;> cases read <;> rfl
      exact .bool
  | number number =>
      have isNumber : number.map Value.number = some value := by cases depth <;> exact read
      obtain ⟨_, _, rfl⟩ := Option.map_eq_some_iff.mp isNumber
      exact .number
  | string text =>
      have isText : text.map Value.string = some value := by cases depth <;> exact read
      obtain ⟨_, _, rfl⟩ := Option.map_eq_some_iff.mp isText
      exact .string
  | list drafts =>
      cases depth with
      | zero => cases read
      | succ depth =>
          rw [Json.Draft.valueTo?] at read
          obtain ⟨items, areRead, rfl⟩ := Option.map_eq_some_iff.mp read
          refine .list fun item member => ?_
          obtain ⟨_, _, isRead⟩ := mem_of_mapM areRead member
          exact ordered_of_valueTo? isRead
  | object drafts =>
      cases depth with
      | zero => cases read
      | succ depth =>
          rw [Json.Draft.valueTo?] at read
          obtain ⟨entries, areRead, isObject⟩ := Option.bind_eq_some_iff.mp read
          cases isObject
          refine .object (Entries.ascending_sorted entries) fun field member => ?_
          obtain ⟨_, _, isRead⟩ := mem_of_mapM areRead (Entries.mem_of_mem_sorted member)
          obtain ⟨_, _, isRead⟩ := Option.bind_eq_some_iff.mp isRead
          obtain ⟨_, isValue, isField⟩ := Option.bind_eq_some_iff.mp isRead
          cases isField
          exact ordered_of_valueTo? isValue
termination_by depth

/-! ## The same tree -/

/-- Two values are the same tree: equal texts, truths and nulls, lists of equal length with the same items
in order, objects with the same keys and the same under each, and numbers of one value. -/
inductive SameTree : Value → Value → Prop where
  | null : SameTree .null .null
  | bool (truth : Bool) : SameTree (.bool truth) (.bool truth)
  | number {x y : Number} (value : x.value = y.value) : SameTree (.number x) (.number y)
  | string (text : String) : SameTree (.string text) (.string text)
  | list {left right : List Value} (length : left.length = right.length)
      (items : ∀ (place : Nat) (a b : Value), left[place]? = some a → right[place]? = some b → SameTree a b) :
      SameTree (.list left) (.list right)
  | object {left right : List (String × Value)}
      (keys : ∀ key, key ∈ left.map (·.1) ↔ key ∈ right.map (·.1))
      (fields : ∀ (key : String) (a b : Value), (key, a) ∈ left → (key, b) ∈ right → SameTree a b) :
      SameTree (.object left) (.object right)

private theorem sameTree_list_iff {left right : List Value} :
    SameTree (.list left) (.list right) ↔
      left.length = right.length ∧
        ∀ (place : Nat) (a b : Value), left[place]? = some a → right[place]? = some b → SameTree a b := by
  constructor
  · rintro (_ | _ | _ | _ | ⟨length, items⟩ | _)
    exact ⟨length, items⟩
  · rintro ⟨length, items⟩
    exact .list length items

private theorem sameTree_object_iff {left right : List (String × Value)} :
    SameTree (.object left) (.object right) ↔
      (∀ key, key ∈ left.map (·.1) ↔ key ∈ right.map (·.1)) ∧
        ∀ key a b, (key, a) ∈ left → (key, b) ∈ right → SameTree a b := by
  constructor
  · rintro (_ | _ | _ | _ | _ | ⟨keys, fields⟩)
    exact ⟨keys, fields⟩
  · rintro ⟨keys, fields⟩
    exact .object keys fields

/-- Where numbers compare by value, values agree exactly if they are the same tree. -/
theorem agrees_iff_sameTree {a b : Value} (first : a.Ordered) (second : b.Ordered)
    (byValue : ∀ x ∈ a.numbers, ∀ y ∈ b.numbers, (x.agrees y = true ↔ x.value = y.value)) :
    a.agrees b = true ↔ SameTree a b := by
  induction first generalizing b with
  | null =>
      cases b with
      | null => exact iff_of_true rfl .null
      | bool | number | string | list | object => exact iff_of_false (by simp [agrees, agreesBy]) (by rintro ⟨⟩)
  | @bool truth =>
      cases b with
      | bool other =>
          constructor
          · intro agree
            obtain rfl : truth = other := by simpa [agrees, agreesBy] using agree
            exact .bool truth
          · rintro ⟨⟩
            exact agrees_self _
      | null | number | string | list | object => exact iff_of_false (by simp [agrees, agreesBy]) (by rintro ⟨⟩)
  | @number x =>
      cases b with
      | number y =>
          have compared := byValue x (by simp [numbers]) y (by simp [numbers])
          constructor
          · exact fun agree => .number (compared.mp agree)
          · rintro ⟨⟩
            rename_i same
            exact compared.mpr same
      | null | bool | string | list | object => exact iff_of_false (by simp [agrees, agreesBy]) (by rintro ⟨⟩)
  | @string text =>
      cases b with
      | string other =>
          constructor
          · intro agree
            obtain rfl : text = other := by simpa [agrees, agreesBy] using agree
            exact .string text
          · rintro ⟨⟩
            exact agrees_self _
      | null | bool | number | list | object => exact iff_of_false (by simp [agrees, agreesBy]) (by rintro ⟨⟩)
  | @list left _ ih =>
      cases b with
      | list right =>
          cases second with
          | list each =>
              rw [agrees_list_iff, sameTree_list_iff]
              refine and_congr_right fun _ => forall₃_congr fun place a b => ?_
              refine forall₂_congr fun isA isB => ?_
              have inLeft := List.mem_of_getElem? isA
              have inRight := List.mem_of_getElem? isB
              refine ih a inLeft (each b inRight) fun x inA y inB => byValue x ?_ y ?_
              · rw [numbers]
                exact mem_numbersOfItems.mpr ⟨a, inLeft, inA⟩
              · rw [numbers]
                exact mem_numbersOfItems.mpr ⟨b, inRight, inB⟩
      | null | bool | number | string | object => exact iff_of_false (by simp [agrees, agreesBy]) (by rintro ⟨⟩)
  | @object left leftAscending _ ih =>
      cases b with
      | object right =>
          cases second with
          | object rightAscending each =>
              rw [agrees_object_iff leftAscending rightAscending, leftAscending.included_iff rightAscending,
                sameTree_object_iff]
              refine and_congr_right fun _ => forall₃_congr fun key a b => ?_
              refine forall₂_congr fun inLeft inRight => ?_
              refine ih (key, a) inLeft (each (key, b) inRight) fun x inA y inB => byValue x ?_ y ?_
              · rw [numbers]
                exact mem_numbersOfFields.mpr ⟨(key, a), inLeft, inA⟩
              · rw [numbers]
                exact mem_numbersOfFields.mpr ⟨(key, b), inRight, inB⟩
      | null | bool | number | string | list => exact iff_of_false (by simp [agrees, agreesBy]) (by rintro ⟨⟩)

/-- Agreement is symmetric and reflexive, and exact where doubles are: if the integers in two values have
at most 53 bits, or if there are no doubles in them, the values agree exactly if they are the same tree.
The comparison of numbers is that of words, signed ones first, then unsigned ones, and doubles at last. -/
theorem agrees_exactly :
    (∀ a b : Value, a.agrees b = b.agrees a) ∧ (∀ a : Value, a.agrees a = true) ∧
      (∀ a b : Value, a.Ordered → b.Ordered →
        ((∀ n : Int, .integer n ∈ a.numbers ++ b.numbers → n.natAbs ≤ 2 ^ 53) ∨
          ∀ x : Double, .double x ∉ a.numbers ++ b.numbers) →
        (a.agrees b = true ↔ SameTree a b)) ∧
      ∀ x y : Number, (∀ n, x = .integer n → Number.fitsWord n) →
        (∀ n, y = .integer n → Number.fitsWord n) → (number x).agrees (number y) = x.agreesAsWord y := by
  refine ⟨agrees_comm, agrees_self, fun a b first second unrounded => ?_, fun x y first second => ?_⟩
  · refine agrees_iff_sameTree first second fun x inA y inB => ?_
    rcases unrounded with small | noDouble
    · have exact : ∀ z ∈ a.numbers ++ b.numbers, z.Exact := by
        intro z member
        cases z with
        | integer n => exact small n member
        | double _ => trivial
      exact (exact x (List.mem_append_left _ inA)).agrees_iff (exact y (List.mem_append_right _ inB))
    · cases x with
      | double x => exact absurd (List.mem_append_left _ inA) (noDouble x)
      | integer m =>
          cases y with
          | double y => exact absurd (List.mem_append_right _ inB) (noDouble y)
          | integer n => exact Number.agrees_integer_iff_value
  · rw [Number.agreesAsWord_eq first second, agrees, agreesBy]

/-- The count of a node pool, written as an integer and reported as a double. -/
theorem agrees_exactly_nodePools :
    SameTree (.list [.object [("count", .number (.integer 3)), ("type", .string "g6-standard-2")]])
      (.list [.object [("count", .number (.double ⟨false, 6755399441055744, -51, by decide⟩)),
        ("type", .string "g6-standard-2")]]) := by
  have ordered : ∀ count : Number,
      Ordered (.list [.object [("count", .number count), ("type", .string "g6-standard-2")]]) := by
    intro count
    refine .list fun pool member => ?_
    obtain rfl := List.mem_singleton.mp member
    have apart : "count" < "type" := by decide
    refine .object (List.pairwise_pair.mpr apart) fun field inside => ?_
    rcases List.mem_pair.mp inside with rfl | rfl
    · exact .number
    · exact .string
  refine (agrees_exactly.2.2.1 _ _ (ordered _) (ordered _) (.inl fun n member => ?_)).mp (by decide +kernel)
  have three : n = 3 := by simpa [numbers, numbersOfItems, numbersOfFields] using member
  rw [three]
  decide

end Value

end DesiredState
