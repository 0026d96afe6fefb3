import Mathlib.Data.List.Infix
import DesiredState.Pass.Preview
import DesiredState.Pass.Report
import DesiredState.Proofs.Resource
import DesiredState.Store.Memory

/-!
# Addresses as texts

The text of an address is the way to an object: the kinds and numbers from the outermost parent on, with
slashes between them. Where no kind has a slash in it, the slashes cut the text into these parts again. So
two addresses never have one text, an address is below another one exactly if its text leads on from that of
the other one, and whatever names an object by the text of its address names no other object.
-/

set_option autoImplicit false

namespace DesiredState

namespace ResourceRef

/-- No kind on the way to the object has a slash in it. -/
def Slashless : ResourceRef → Prop
  | .top kind _ => '/' ∉ kind.toList
  | .child parent kind _ => parent.Slashless ∧ '/' ∉ kind.toList

instance decidableSlashless : (reference : ResourceRef) → Decidable reference.Slashless
  | .top kind _ => inferInstanceAs (Decidable ('/' ∉ kind.toList))
  | .child parent kind _ =>
      have := decidableSlashless parent
      inferInstanceAs (Decidable (parent.Slashless ∧ '/' ∉ kind.toList))

/-! ## The steps of a way -/

/-- The kinds and numbers on the way to the object. -/
def steps : ResourceRef → List (String × Nat)
  | .top kind id => [(kind, id)]
  | .child parent kind id => parent.steps ++ [(kind, id)]

private theorem steps_ne_nil (reference : ResourceRef) : reference.steps ≠ [] := by
  cases reference with
  | top kind id => exact List.cons_ne_nil _ _
  | child parent kind id => exact List.append_ne_nil_of_right_ne_nil _ (List.cons_ne_nil _ _)

private theorem steps_child_ne (parent : ResourceRef) (kind : String) (id : Nat) (step : String × Nat) :
    (child parent kind id).steps ≠ [step] := by
  intro same
  have split : parent.steps ++ [(kind, id)] = [] ++ [step] := same
  obtain ⟨none, _⟩ := List.append_inj' split rfl
  exact parent.steps_ne_nil none

private theorem steps_inj {left right : ResourceRef} : left.steps = right.steps ↔ left = right := by
  constructor
  · intro same
    induction left generalizing right with
    | top kind id =>
        cases right with
        | top other number =>
            cases same
            rfl
        | child above other number => exact absurd same.symm (steps_child_ne above other number _)
    | child parent kind id ih =>
        cases right with
        | top other number => exact absurd same (steps_child_ne parent kind id _)
        | child above other number =>
            obtain ⟨upper, last⟩ := List.append_inj' same rfl
            cases ih upper
            cases last
            rfl
  · exact congrArg steps

/-- A way begins with another one if it is the same or leads below it. -/
theorem steps_isPrefix_iff {reference ancestor : ResourceRef} :
    ancestor.steps <+: reference.steps ↔
      ancestor = reference ∨ reference.isDescendantOf ancestor = true := by
  induction reference with
  | top kind id =>
      have alone : ancestor.steps <+: [] ++ [(kind, id)] ↔ ancestor.steps = [(kind, id)] := by
        rw [List.prefix_concat_iff, List.prefix_nil, or_iff_left ancestor.steps_ne_nil, List.nil_append]
      rw [← steps_inj, isDescendantOf, or_iff_left Bool.false_ne_true]
      exact alone
  | child parent kind id ih =>
      rw [← @steps_inj ancestor, steps, List.prefix_concat_iff, ih, isDescendantOf, Bool.or_eq_true,
        beq_iff_eq, eq_comm (a := parent)]

/-! ## The parts of a text -/

/-- The parts of the text of a way, between its slashes. -/
def parts (steps : List (String × Nat)) : List (List Char) :=
  steps.flatMap fun step => [step.1.toList, Nat.toDigits 10 step.2]

private theorem slash_notMem_toDigits (number : Nat) : '/' ∉ Nat.toDigits 10 number := by
  intro member
  have digit := Nat.isDigit_of_mem_toDigits (by decide) (by decide) member
  revert digit
  decide

private theorem splitOn_text {reference : ResourceRef} (slashless : reference.Slashless) :
    reference.text.toList.splitOn '/' = parts reference.steps := by
  induction reference with
  | top kind id =>
      have letters : (text (.top kind id)).toList = kind.toList ++ '/' :: Nat.toDigits 10 id := by
        simp [text]
      rw [letters, List.splitOn_append_cons_self, List.splitOn_eq_singleton slashless,
        List.splitOn_eq_singleton (slash_notMem_toDigits id)]
      rfl
  | child parent kind id ih =>
      obtain ⟨above, here⟩ := slashless
      have letters : (text (.child parent kind id)).toList =
          parent.text.toList ++ '/' :: (kind.toList ++ '/' :: Nat.toDigits 10 id) := by
        simp [text]
      rw [letters, List.splitOn_append_cons_self, List.splitOn_append_cons_self, ih above,
        List.splitOn_eq_singleton here, List.splitOn_eq_singleton (slash_notMem_toDigits id), steps,
        parts, parts, List.flatMap_append]
      rfl

/-- A way can be told from the parts of its text, even if more parts follow. -/
theorem isPrefix_of_parts {first second : List (String × Nat)} {rest : List (List Char)}
    (leadsOn : parts first ++ rest = parts second) : first <+: second := by
  induction first generalizing second with
  | nil => exact List.nil_prefix
  | cons step others ih =>
      cases second with
      | nil => cases leadsOn
      | cons head tail =>
          simp only [parts, List.flatMap_cons, List.cons_append, List.nil_append, List.cons.injEq] at leadsOn
          obtain ⟨kinds, numbers, further⟩ := leadsOn
          have digits := congrArg (Nat.ofDigitChars 10 · 0) numbers
          simp only [Nat.ofDigitChars_ten_toDigits] at digits
          have same : step = head := Prod.ext (String.toList_injective kinds) digits
          rw [same, List.cons_prefix_cons]
          exact ⟨rfl, ih further⟩

/-! ## Texts -/

variable {reference other : ResourceRef}

private theorem text_inj (slashless : reference.Slashless) (otherSlashless : other.Slashless) :
    reference.text = other.text ↔ reference = other := by
  constructor
  · intro same
    have split := congrArg (fun text : String => text.toList.splitOn '/') same
    simp only [splitOn_text slashless, splitOn_text otherSlashless] at split
    have forth := isPrefix_of_parts ((List.append_nil _).trans split)
    have back := isPrefix_of_parts ((List.append_nil _).trans split.symm)
    exact steps_inj.mp (forth.eq_of_length_le back.length_le)
  · exact congrArg text

/-- A slash in a kind can make one text of two ways. -/
example : (top "firewall/1/firewall_rule" 2).text = (child (top "firewall" 1) "firewall_rule" 2).text := by
  decide

/-- The text of what is below an address leads on from the text of that address. -/
theorem exists_rest_of_isDescendantOf (below : reference.isDescendantOf other = true) :
    ∃ rest, reference.text = other.text ++ "/" ++ rest := by
  induction reference with
  | top kind id => cases below
  | child parent kind id ih =>
      rcases Bool.or_eq_true_iff.mp below with isParent | further
      · rw [← eq_of_beq isParent]
        exact ⟨kind ++ "/" ++ Nat.repr id, by simp only [text, String.append_assoc]⟩
      · obtain ⟨rest, leadsOn⟩ := ih further
        exact ⟨rest ++ "/" ++ kind ++ "/" ++ Nat.repr id, by
          simp only [text, leadsOn, String.append_assoc]⟩

private theorem isDescendantOf_iff_text (slashless : reference.Slashless) (otherSlashless : other.Slashless) :
    reference.isDescendantOf other = true ↔ (other.text ++ "/").toList <+: reference.text.toList := by
  constructor
  · intro below
    obtain ⟨rest, leadsOn⟩ := exists_rest_of_isDescendantOf below
    simp only [leadsOn, String.toList_append]
    exact List.prefix_append _ _
  · intro leadsOn
    obtain ⟨rest, isText⟩ := leadsOn
    rw [String.toList_append, List.append_assoc] at isText
    have split := congrArg (List.splitOn '/') isText
    rw [splitOn_text slashless] at split
    change List.splitOn '/' (other.text.toList ++ '/' :: rest) = _ at split
    rw [List.splitOn_append_cons_self, splitOn_text otherSlashless] at split
    rcases steps_isPrefix_iff.mp (isPrefix_of_parts split) with same | below
    · -- An address does not lead on to itself, since at least the slash would follow.
      have length := congrArg List.length isText
      rw [same, List.length_append, List.length_append] at length
      change _ + (1 + _) = _ at length
      omega
    · exact below

end ResourceRef

/-! ## Where texts are shown -/

/-- The places where an object is named by the text of its address: failures, reports, labels and the names
of plans. -/
inductive Mention where
  | missing
  | vanished
  | fixedField (field : String)
  | unsuitedField (field reason : String)
  | created (identity : String)
  | deleted (identity : String)
  | label (schema : Schema) (attributes : Attributes) (unidentified : schema.identityFields = [])
  | members (kind : String)
  | planned (schema : Schema) (attributes : Attributes) (changes : List FieldChange)
      (collections : List CollectionPlan)
  | before (schema : Schema) (attributes : Attributes) (changes : List FieldChange)
      (collections : List CollectionPlan)
  | after (schema : Schema) (attributes : Attributes) (changes : List FieldChange)
      (collections : List CollectionPlan)
  | summary (report : PassReport)

namespace Mention

/-- What is shown there of the object at an address. -/
def shown (reference : ResourceRef) : Mention → String
  | .missing => (MemoryStore.notFound reference).message
  | .vanished => (PassError.vanished reference.text).message
  | .fixedField field => (PassError.nonMutableField reference.text field).message
  | .unsuitedField field reason => (PassError.invalidValue reference.text field reason).message
  | .created identity => (AppliedChange.created identity reference).text
  | .deleted identity => (AppliedChange.deleted identity reference).text
  | .label schema attributes _ => schema.identityOf ⟨reference, attributes⟩
  | .members kind => (Collection.under reference kind).text
  | .planned schema attributes changes collections =>
      (Plan.mk schema (.update ⟨reference, attributes⟩ changes) collections).label
  | .before schema attributes changes collections =>
      (Plan.mk schema (.update ⟨reference, attributes⟩ changes) collections).oldName
  | .after schema attributes changes collections =>
      (Plan.mk schema (.update ⟨reference, attributes⟩ changes) collections).newName
  | .summary report => { report with resource := reference.text }.summary

/-- What follows the address in the summary of a pass. -/
def outcomeText (report : PassReport) : String :=
  { report with resource := "" }.summary

private theorem summary_eq (report : PassReport) (resource : String) :
    { report with resource }.summary = resource ++ outcomeText report := by
  simp only [outcomeText, PassReport.summary, String.empty_append]
  split
  · split <;> simp only [String.append_assoc]
  · simp only [String.append_assoc]

/-- The text of the address stands between two texts that do not depend on it. -/
theorem exists_frame (mention : Mention) :
    ∃ front back : String, ∀ reference, mention.shown reference = front ++ reference.text ++ back := by
  cases mention with
  | missing =>
      exact ⟨"", " not found", fun reference => by
        rw [String.empty_append]
        rfl⟩
  | vanished =>
      exact ⟨"", " disappeared after it was written", fun reference => by
        rw [String.empty_append]
        rfl⟩
  | fixedField field =>
      exact ⟨"", ": field '" ++ field ++ "' cannot be changed after creation", fun reference => by
        rw [String.empty_append, ← String.append_assoc, ← String.append_assoc]
        rfl⟩
  | unsuitedField field reason =>
      exact ⟨"", ": invalid value for '" ++ field ++ "': " ++ reason, fun reference => by
        rw [String.empty_append, ← String.append_assoc, ← String.append_assoc, ← String.append_assoc]
        rfl⟩
  | created identity =>
      exact ⟨"created " ++ identity ++ " (", ")", fun reference => by
        simp [shown, AppliedChange.text]⟩
  | deleted identity =>
      exact ⟨"deleted " ++ identity ++ " (", ")", fun reference => by
        simp [shown, AppliedChange.text]⟩
  | label schema attributes unidentified =>
      exact ⟨"", "", fun reference => by simp [shown, Schema.identityOf, unidentified]⟩
  | members kind =>
      exact ⟨"", "/" ++ kind, fun reference => by
        simp [shown, Collection.under, Collection.text, String.append_assoc]⟩
  | planned schema attributes changes collections =>
      exact ⟨"", "", fun reference => by simp [shown, Plan.label]⟩
  | before schema attributes changes collections =>
      exact ⟨"a/", "", fun reference => by simp [shown, Plan.oldName]⟩
  | after schema attributes changes collections =>
      exact ⟨"b/", "", fun reference => by simp [shown, Plan.newName, Plan.label]⟩
  | summary report =>
      exact ⟨"", outcomeText report, fun reference => by simp [shown, summary_eq]⟩

private theorem shown_inj (mention : Mention) {left right : ResourceRef} :
    mention.shown left = mention.shown right ↔ left.text = right.text := by
  obtain ⟨front, back, framed⟩ := mention.exists_frame
  rw [framed, framed, String.append_assoc, String.append_assoc]
  constructor
  · intro same
    have letters := congrArg String.toList same
    simp only [String.toList_append, List.append_cancel_left_eq, List.append_cancel_right_eq] at letters
    exact String.toList_injective letters
  · intro same
    rw [same]

end Mention

/-! ## Addresses and their texts -/

/-- Texts are faithful: they are the same for the same address only, one leads on from another one exactly
below the address of that other one, and no place that shows the one address would show the same of the
other. -/
theorem ResourceRef.text_faithful (left right : ResourceRef) (leftSlashless : left.Slashless)
    (rightSlashless : right.Slashless) :
    (left.text = right.text ↔ left = right) ∧
    (left.isDescendantOf right = true ↔ (right.text ++ "/").toList <+: left.text.toList) ∧
    left.isDescendantOf left = false ∧
    (left.isDescendantOf right = true → right.isDescendantOf left = false) ∧
    (∀ lowest : ResourceRef, lowest.isDescendantOf left = true → left.isDescendantOf right = true →
      lowest.isDescendantOf right = true) ∧
    ∀ mention : Mention, mention.shown left = mention.shown right ↔ left = right := by
  have distinct := text_inj leftSlashless rightSlashless
  refine ⟨distinct, isDescendantOf_iff_text leftSlashless rightSlashless, not_isDescendantOf_self left,
    fun below => ?_, fun lowest lower below => isDescendantOf_trans lower below,
    fun mention => mention.shown_inj.trans distinct⟩
  apply Bool.eq_false_iff.mpr
  intro above
  exact Bool.eq_false_iff.mp (not_isDescendantOf_self left) (isDescendantOf_trans below above)

namespace ResourceRef

/-- An address below an object whose kind is the empty text. -/
def belowNameless : ResourceRef := .child (.child (.top "lke_cluster" 1) "" 2) "3" 4

theorem text_faithful_belowNameless :
    belowNameless.Slashless ∧ (top "lke_cluster" 1).Slashless ∧
      belowNameless.text ≠ (top "lke_cluster" 1).text ∧
      ((top "lke_cluster" 1).text ++ "/").toList <+: belowNameless.text.toList ∧
      (top "lke_cluster" 1).isDescendantOf belowNameless = false ∧
      ∀ mention : Mention, mention.shown belowNameless ≠ mention.shown (top "lke_cluster" 1) := by
  have slashless : belowNameless.Slashless := by decide
  have clusterSlashless : (top "lke_cluster" 1).Slashless := by decide
  obtain ⟨distinct, leadsOn, _, asymmetric, _, shownApart⟩ :=
    text_faithful belowNameless (top "lke_cluster" 1) slashless clusterSlashless
  have apart : belowNameless ≠ top "lke_cluster" 1 := by decide
  have below : belowNameless.isDescendantOf (top "lke_cluster" 1) = true := by decide
  refine ⟨slashless, clusterSlashless, mt distinct.mp apart, leadsOn.mp below, asymmetric below, ?_⟩
  intro mention
  exact mt (shownApart mention).mp apart

end ResourceRef

end DesiredState
