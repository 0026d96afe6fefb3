import DesiredState.LineDiff.Unified
import DesiredState.Proofs.LineDiff.Script

/-!
# Unified differences

The difference of two texts is empty exactly if they have the same lines. It is cut into hunks that
lose none of the changed stretches, and a script without changed stretches has the same text on both sides.
A text that ends with a line break is known by its lines.
-/

set_option autoImplicit false

namespace DesiredState

namespace LineDiff

/-! ## Stretches -/

namespace Stretch

def old : Stretch → List String
  | .equal lines | .changed lines _ => lines

def new : Stretch → List String
  | .equal lines | .changed _ lines => lines

def isChange : Stretch → Bool
  | .changed _ _ => true
  | .equal _ => false

end Stretch

/-- The stretches of a script have the texts of the script. -/
theorem texts_stretches (script : Script) :
    ((stretches script).flatMap Stretch.old, (stretches script).flatMap Stretch.new) = texts script := by
  fun_induction stretches script with
  | case1 => rfl
  | case2 lines rest more others isRest ih | case4 lines rest removed added others isRest ih
  | case6 lines rest removed added others isRest ih =>
      rw [texts_cons, ← ih, isRest]
      simp [Stretch.old, Stretch.new, Run.old, Run.new]
  | case3 lines rest _ ih | case5 lines rest _ ih | case7 lines rest _ ih =>
      rw [texts_cons, ← ih]
      simp [Stretch.old, Stretch.new, Run.old, Run.new]

private theorem texts_agree_of_unchanged {all : List Stretch}
    (unchanged : ∀ stretch ∈ all, stretch.isChange = false) :
    all.flatMap Stretch.old = all.flatMap Stretch.new := by
  induction all with
  | nil => rfl
  | cons stretch rest ih =>
      rw [List.flatMap_cons, List.flatMap_cons,
        ih fun other member => unchanged other (List.mem_cons_of_mem stretch member)]
      cases stretch with
      | equal lines => rfl
      | changed removed added => cases unchanged _ (List.mem_cons_self ..)

/-! ## Hunks -/

theorem Hunk.hasChange_eq (hunk : Hunk) : hunk.hasChange = hunk.stretches.any Stretch.isChange := rfl

private theorem Hunk.hasChange_push (hunk : Hunk) (stretch : Stretch) :
    (hunk.push stretch).hasChange = (hunk.hasChange || stretch.isChange) := by
  simp [hasChange_eq, push]

/-- Cutting a difference into hunks loses no change. -/
theorem any_hasChange_cutHunks (atStart : Bool) (hunk : Hunk) (all : List Stretch)
    (fresh : atStart = true → hunk.hasChange = false) :
    (cutHunks atStart hunk all).any Hunk.hasChange = (hunk.hasChange || all.any Stretch.isChange) := by
  fun_induction cutHunks atStart hunk all with
  | case1 atStart hunk => simp
  | case2 atStart hunk removed added rest ih =>
      rw [ih (by simp), Hunk.hasChange_push, List.any_cons, Bool.or_assoc]
  | case3 hunk lines rest skipped ih =>
      rw [ih (by simp), fresh rfl]
      rfl
  | case4 atStart hunk lines rest _ isLast =>
      rw [List.isEmpty_iff.mp isLast]
      simp [Hunk.hasChange_push, Stretch.isChange]
  | case5 atStart hunk lines rest _ _ _ ih =>
      rw [ih (by simp), Hunk.hasChange_push, List.any_cons, Bool.or_assoc]
  | case6 atStart hunk lines rest skipped _ _ _ ih =>
      rw [List.any_cons, ih (by simp), Hunk.hasChange_push, List.any_cons, Bool.or_assoc]
      rfl

private theorem hunks_eq_nil_iff {all : List Stretch} :
    hunks all = [] ↔ ∀ stretch ∈ all, stretch.isChange = false := by
  have changes := any_hasChange_cutHunks true ⟨0, 0, []⟩ all fun _ => rfl
  rw [hunks, List.filter_eq_nil_iff, ← List.any_eq_false, changes]
  simp [Hunk.hasChange_eq]

/-! ## Differences -/

private theorem difference_self (lines : List String) :
    ∀ stretch ∈ difference lines lines, stretch.isChange = false := by
  have commonStart_self : ∀ lines : List String, commonStart lines lines = lines.length := by
    intro lines
    induction lines with
    | nil => rfl
    | cons line rest ih => simp [commonStart, ih]
  have script : (scriptBetween lines lines (.start (lines.length + lines.length))).1 = keeping lines := by
    rw [scriptBetween]
    simp [commonStart_self, keeping]
  have kept : ∀ run ∈ keeping lines, run = .keep lines := by
    unfold keeping
    split <;> simp
  have compacted : compact (keeping lines) = keeping lines := by
    have dropped := slideAll_of_forall Run.isDrop [] (keeping lines) (2 * weight (keeping lines) + 1)
      fun run member => by rw [kept run member]; rfl
    have added := slideAll_of_forall Run.isAdd [] (keeping lines) (2 * weight (keeping lines) + 1)
      fun run member => by rw [kept run member]; rfl
    rw [compact, dropped]
    exact added
  rw [difference, script, compacted]
  unfold keeping
  split <;> simp [stretches, Stretch.isChange]

/-- The difference of two texts is empty exactly if they have the same lines. -/
theorem unified_eq_empty_iff {oldName newName : String} {old new : List String} :
    unified oldName newName old new = "" ↔ old = new := by
  have noText : unified oldName newName old new = "" ↔ hunks (difference old new) = [] := by
    unfold unified
    split
    case h_1 none => simp [none]
    case h_2 some =>
      constructor
      · intro empty
        have characters := congrArg String.toList empty
        simp at characters
      · intro none
        exact absurd none some
  rw [noText, hunks_eq_nil_iff]
  constructor
  · intro unchanged
    have agree := texts_agree_of_unchanged unchanged
    have both := texts_stretches (compact (scriptBetween old new (.start (old.length + new.length))).1)
    rw [texts_compact, texts_scriptBetween] at both
    obtain ⟨isOld, isNew⟩ := Prod.ext_iff.mp both
    exact isOld.symm.trans (agree.trans isNew)
  · rintro rfl
    exact difference_self old

/-! ## Lines -/

private theorem flatMap_splitLines (characters : List Char) :
    (splitLines (characters ++ ['\n'])).flatMap (· ++ ['\n']) = characters ++ ['\n'] := by
  induction characters with
  | nil => rfl
  | cons character rest ih =>
      rw [List.cons_append, splitLines]
      split
      case isTrue isBreak => simp [ih, isBreak]
      case isFalse =>
        split
        case h_1 none => simp [none] at ih
        case h_2 line lines some =>
          rw [some] at ih
          simpa using ih

/-- Texts that end with a line break are told apart by their lines. -/
theorem eq_of_linesOf {left right : String} (same : linesOf (left ++ "\n") = linesOf (right ++ "\n")) :
    left = right := by
  have characters : ∀ text : String, (text ++ "\n").toList = text.toList ++ ['\n'] := by
    intro text
    rw [String.toList_append]
    rfl
  have sameLines := List.map_inj_right (fun _ _ => String.ofList_inj.mp) |>.mp same
  rw [characters, characters] at sameLines
  have joined := flatMap_splitLines left.toList
  rw [sameLines, flatMap_splitLines] at joined
  exact String.toList_inj.mp (List.append_cancel_right joined).symm

end LineDiff

end DesiredState
