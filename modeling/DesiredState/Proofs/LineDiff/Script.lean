import DesiredState.LineDiff.Compaction
import DesiredState.LineDiff.MiddleSnake

/-!
# The texts of edit scripts

An edit script between two texts has these two texts, whatever the search for a middle point finds, and
sliding its runs about changes neither.
-/

set_option autoImplicit false

namespace DesiredState

namespace LineDiff

/-- Both texts of a script, the old one first. -/
def texts (script : Script) : List String × List String := (oldText script, newText script)

private theorem texts_append (first second : Script) :
    texts (first ++ second) =
      ((texts first).1 ++ (texts second).1, (texts first).2 ++ (texts second).2) := by
  simp [texts, oldText, newText]

theorem texts_cons (run : Run) (rest : Script) :
    texts (run :: rest) = (run.old ++ (texts rest).1, run.new ++ (texts rest).2) := by
  simp [texts, oldText, newText]

@[simp] theorem texts_nil : texts [] = ([], []) := rfl

@[simp] theorem texts_keeping (lines : List String) : texts (keeping lines) = (lines, lines) := by
  cases lines with
  | nil => rfl
  | cons line rest => simp [keeping, texts_cons, Run.old, Run.new]

/-! ## Common ends -/

private theorem take_commonStart : ∀ a b : List String, a.take (commonStart a b) = b.take (commonStart a b)
  | [], _ => by simp [commonStart]
  | _ :: _, [] => by simp [commonStart]
  | a :: as, b :: bs => by
      simp only [commonStart]
      split
      case isTrue same => rw [same, List.take_succ_cons, List.take_succ_cons, take_commonStart as bs]
      case isFalse => rfl

private theorem drop_commonEnd (a b : List String) :
    a.drop (a.length - commonEnd a b) = b.drop (b.length - commonEnd a b) := by
  have shared := take_commonStart a.reverse b.reverse
  rw [List.take_reverse, List.take_reverse] at shared
  exact List.reverse_inj.mp shared

/-- A script between what two texts have between their common ends makes one between the texts, put between
these ends. -/
theorem texts_enclosed {old new : List String} {script : Script}
    (middle : texts script =
      ((old.drop (commonStart old new)).take ((old.drop (commonStart old new)).length -
          commonEnd (old.drop (commonStart old new)) (new.drop (commonStart old new))),
        (new.drop (commonStart old new)).take ((new.drop (commonStart old new)).length -
          commonEnd (old.drop (commonStart old new)) (new.drop (commonStart old new))))) :
    texts (keeping (old.take (commonStart old new)) ++ script ++
      keeping ((old.drop (commonStart old new)).drop ((old.drop (commonStart old new)).length -
        commonEnd (old.drop (commonStart old new)) (new.drop (commonStart old new))))) = (old, new) := by
  simp only [texts_append, texts_keeping, middle, List.append_assoc, List.take_append_drop]
  rw [drop_commonEnd, List.take_append_drop, take_commonStart, List.take_append_drop]

theorem texts_scriptBetween (old new : List String) (walks : Walks) :
    texts (scriptBetween old new walks).1 = (old, new) := by
  fun_induction scriptBetween old new walks with
  | case1 old new walks start oldRest newRest final oldMiddle newMiddle enclose nothing =>
      obtain ⟨noneDropped, noneAdded⟩ := Bool.and_eq_true_iff.mp nothing
      apply texts_enclosed
      exact Prod.ext (List.isEmpty_iff.mp noneDropped).symm (List.isEmpty_iff.mp noneAdded).symm
  | case2 old new walks start oldRest newRest final oldMiddle newMiddle enclose _ noneAdded =>
      apply texts_enclosed
      exact Prod.ext (List.append_nil oldMiddle) (List.isEmpty_iff.mp noneAdded).symm
  | case3 old new walks start oldRest newRest final oldMiddle newMiddle enclose _ _ noneDropped =>
      apply texts_enclosed
      exact Prod.ext (List.isEmpty_iff.mp noneDropped).symm (List.append_nil newMiddle)
  | case4 old new walks start oldRest newRest final oldMiddle newMiddle enclose =>
      apply texts_enclosed
      exact Prod.ext (List.append_nil oldMiddle) (List.append_nil newMiddle)
  | case5 old new walks start oldRest newRest final oldMiddle newMiddle enclose _ _ _ x y _ _ _ first _
      isFirst second _ isSecond ihFirst ihSecond =>
      rw [isFirst] at ihFirst
      rw [isSecond] at ihSecond
      apply texts_enclosed
      rw [texts_append, ihFirst, ihSecond, List.take_append_drop, List.take_append_drop]
  | case6 old new walks start oldRest newRest final oldMiddle newMiddle enclose =>
      apply texts_enclosed
      exact Prod.ext (List.append_nil oldMiddle) (List.append_nil newMiddle)

/-! ## Sliding -/

/-- The script of which a place is in focus. -/
def Focus.script (focus : Focus) : Script := focus.before.reverse ++ focus.run :: focus.after

private theorem texts_keepBefore (lines : List String) (script : Script) :
    texts (keepBefore lines script) = (lines ++ (texts script).1, lines ++ (texts script).2) := by
  unfold keepBefore
  split <;> simp [texts_cons, Run.old, Run.new]

private theorem texts_reverse_keepAfter (lines : List String) (before : Script) :
    texts (keepAfter lines before).reverse =
      ((texts before.reverse).1 ++ lines, (texts before.reverse).2 ++ lines) := by
  unfold keepAfter
  split <;> simp [texts_append, texts_cons, Run.old, Run.new]

/-- Added lines whose end is that of the kept lines in front of them may as well be added before that end. -/
theorem texts_slid_up (kept lines : List String) (rest after : Script) :
    texts (rest.reverse ++ .keep (kept.take (kept.length - commonEnd kept lines)) ::
        .add (kept.drop (kept.length - commonEnd kept lines) ++
          lines.take (lines.length - commonEnd kept lines)) ::
        keepBefore (kept.drop (kept.length - commonEnd kept lines)) after) =
      texts ((Run.keep kept :: rest).reverse ++ .add lines :: after) := by
  have shared := drop_commonEnd kept lines
  have keptSplit := List.take_append_drop (kept.length - commonEnd kept lines) kept
  have linesSplit := List.take_append_drop (lines.length - commonEnd kept lines) lines
  rw [← shared] at linesSplit
  generalize kept.drop (kept.length - commonEnd kept lines) = equal at *
  generalize kept.take (kept.length - commonEnd kept lines) = stay at *
  generalize lines.take (lines.length - commonEnd kept lines) = front at *
  rw [← keptSplit, ← linesSplit]
  simp [texts_append, texts_cons, texts_keepBefore, Run.old, Run.new]

/-- Added lines whose start is that of the kept lines behind them may as well be added after that start. -/
theorem texts_slid_down (kept lines : List String) (before rest : Script) :
    texts ((keepAfter (kept.take (commonStart kept lines)) before).reverse ++
        .add (lines.drop (commonStart kept lines) ++ kept.take (commonStart kept lines)) ::
        .keep (kept.drop (commonStart kept lines)) :: rest) =
      texts (before.reverse ++ .add lines :: .keep kept :: rest) := by
  have shared := take_commonStart kept lines
  have keptSplit := List.take_append_drop (commonStart kept lines) kept
  have linesSplit := List.take_append_drop (commonStart kept lines) lines
  rw [← shared] at linesSplit
  generalize kept.take (commonStart kept lines) = equal at *
  generalize kept.drop (commonStart kept lines) = stay at *
  generalize lines.drop (commonStart kept lines) = back at *
  rw [← keptSplit, ← linesSplit]
  simp [texts_append, texts_cons, texts_reverse_keepAfter, Run.old, Run.new]

private theorem texts_slideUp (before : Script) (run : Run) (after : Script) :
    texts (slideUp before run after).script = texts (before.reverse ++ run :: after) := by
  fun_induction slideUp before run after with
  | case1 after kept rest lines _ nothing ih | case5 after kept rest lines nothing ih =>
      rw [ih, List.isEmpty_iff.mp nothing]
      simp [texts_append, texts_cons, Run.old, Run.new]
  | case2 | case6 | case11 => rfl
  | case3 after kept rest lines _ stay shared slid nothingStays ih =>
      have slidUp := texts_slid_up kept lines rest after
      rw [show kept.length - commonEnd kept lines = stay from rfl, nothingStays] at slidUp
      rw [ih, ← slidUp]
      simp [texts_append, texts_cons, Run.old, Run.new, slid, shared, nothingStays]
  | case4 after kept rest lines _ stay shared slid _ ih =>
      rw [ih, ← texts_slid_up kept lines rest after]
      simp [slid, shared, stay]
  | case7 after dropped rest lines ih | case8 after added rest lines ih | case9 after more rest lines ih
  | case10 after more rest lines ih =>
      rw [ih]
      simp [texts_append, texts_cons, Run.old, Run.new]

private theorem texts_slideDown (before : Script) (run : Run) (after : Script) :
    texts (slideDown before run after).script = texts (before.reverse ++ run :: after) := by
  fun_induction slideDown before run after with
  | case1 before kept rest lines _ nothing ih | case5 before kept rest lines nothing ih =>
      rw [ih, List.isEmpty_iff.mp nothing]
      simp [texts_append, texts_cons, Run.old, Run.new]
  | case2 | case6 | case11 => rfl
  | case3 before kept rest lines equal _ shared slid allSlides ih =>
      have slidDown := texts_slid_down kept lines before rest
      rw [ih, ← slidDown]
      have nothingStays : kept.drop (commonStart kept lines) = [] :=
        List.drop_eq_nil_of_le (Nat.le_of_eq allSlides)
      simp [texts_append, texts_cons, Run.old, Run.new, slid, shared, equal, nothingStays]
  | case4 before kept rest lines equal _ shared slid _ ih =>
      rw [ih, ← texts_slid_down kept lines before rest]
  | case7 before dropped rest lines ih | case8 before added rest lines ih
  | case9 before more rest lines ih | case10 before more rest lines ih =>
      rw [ih]
      simp [texts_append, texts_cons, Run.old, Run.new]

private theorem texts_slideAll (moves : Run → Bool) (before after : Script) (fuel : Nat) :
    texts (slideAll moves before after fuel) = texts (before.reverse ++ after) := by
  fun_induction slideAll moves before after fuel with
  | case1 => rfl
  | case2 => rw [List.append_nil]
  | case3 before fuel run rest _ up down ih =>
      calc texts (slideAll moves (down.run :: down.before) down.after fuel)
          = texts down.script := by simp [ih, Focus.script]
        _ = texts up.script := texts_slideDown up.before up.run up.after
        _ = texts (before.reverse ++ run :: rest) := texts_slideUp before run rest
  | case4 before fuel run rest _ ih => simp [ih]

theorem texts_compact (script : Script) : texts (compact script) = texts script := by
  rw [compact, texts_slideAll, List.reverse_nil, List.nil_append, texts_slideAll, List.reverse_nil,
    List.nil_append]

/-- Where no run is of the sort, nothing slides. -/
theorem slideAll_of_forall (moves : Run → Bool) (before after : Script) (fuel : Nat)
    (stays : ∀ run ∈ after, moves run = false) :
    slideAll moves before after fuel = before.reverse ++ after := by
  fun_induction slideAll moves before after fuel with
  | case1 => rfl
  | case2 => rw [List.append_nil]
  | case3 before fuel run rest moved => simp [stays run (List.mem_cons_self ..)] at moved
  | case4 before fuel run rest _ ih =>
      rw [ih fun other member => stays other (List.mem_cons_of_mem run member)]
      simp

end LineDiff

end DesiredState
