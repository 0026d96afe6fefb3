import DesiredState.LineDiff.Script

/-!
# Compaction of edit scripts

The same change can often be written at several places: lines that are added beside equal lines
can be slid over them. Every run is slid up as far as it goes and then down as far as it goes,
joining runs of its sort on the way; first all runs that drop lines, then all that add some.
-/

set_option autoImplicit false

namespace DesiredState

namespace LineDiff

def weight (script : Script) : Nat :=
  script.foldr (fun run total => run.lines.length + 1 + total) 0

/-- A script with a place in it: the runs before the place, nearest first, the run there, and
the runs after it. -/
structure Focus where
  before : Script
  run : Run
  after : Script

def keepBefore (lines : List String) : Script → Script
  | .keep more :: rest => .keep (lines ++ more) :: rest
  | script => .keep lines :: script

def keepAfter (lines : List String) : Script → Script
  | .keep more :: rest => .keep (more ++ lines) :: rest
  | script => .keep lines :: script

/-- Slide a run up. Added lines slide over the equal end of kept lines in front of them; runs
that drop and runs that add change places; runs of one sort join. -/
def slideUp (before : Script) (run : Run) (after : Script) : Focus :=
  match before, run with
  | .keep kept :: rest, .add lines =>
      if commonEnd kept lines = 0 then
        if kept.isEmpty then slideUp rest run after else ⟨before, run, after⟩
      else
        let stay := kept.length - commonEnd kept lines
        let shared := kept.drop stay
        let slid : Run := .add (shared ++ lines.take (lines.length - commonEnd kept lines))
        if stay = 0 then slideUp rest slid (keepBefore shared after)
        else slideUp (.keep (kept.take stay) :: rest) slid (keepBefore shared after)
  | .keep kept :: rest, .drop _ =>
      if kept.isEmpty then slideUp rest run after else ⟨before, run, after⟩
  | .drop lines :: rest, .add _ => slideUp rest run (.drop lines :: after)
  | .add lines :: rest, .drop _ => slideUp rest run (.add lines :: after)
  | .add more :: rest, .add lines => slideUp rest (.add (more ++ lines)) after
  | .drop more :: rest, .drop lines => slideUp rest (.drop (more ++ lines)) after
  | _, _ => ⟨before, run, after⟩
termination_by weight before
decreasing_by
  all_goals simp only [weight, List.foldr_cons, Run.lines, List.length_take]
  all_goals omega

def slideDown (before : Script) (run : Run) (after : Script) : Focus :=
  match after, run with
  | .keep kept :: rest, .add lines =>
      let equal := commonStart kept lines
      if commonStart kept lines = 0 then
        if kept.isEmpty then slideDown before run rest else ⟨before, run, after⟩
      else
        let shared := kept.take equal
        let slid : Run := .add (lines.drop equal ++ shared)
        if kept.length = equal then slideDown (keepAfter shared before) slid rest
        else slideDown (keepAfter shared before) slid (.keep (kept.drop equal) :: rest)
  | .keep kept :: rest, .drop _ =>
      if kept.isEmpty then slideDown before run rest else ⟨before, run, after⟩
  | .drop lines :: rest, .add _ => slideDown (.drop lines :: before) run rest
  | .add lines :: rest, .drop _ => slideDown (.add lines :: before) run rest
  | .add more :: rest, .add lines => slideDown before (.add (lines ++ more)) rest
  | .drop more :: rest, .drop lines => slideDown before (.drop (lines ++ more)) rest
  | _, _ => ⟨before, run, after⟩
termination_by weight after
decreasing_by
  all_goals simp only [weight, List.foldr_cons, Run.lines, List.length_drop]
  all_goals try omega
  rename_i found _
  have := commonStart_le_left kept lines
  omega

/-- Slide every run of a sort, from the first to the last. The last argument bounds the number
of runs; with none left the rest of the script stays as it is. -/
def slideAll (moves : Run → Bool) (before : Script) (after : Script) : Nat → Script
  | 0 => before.reverse ++ after
  | fuel + 1 =>
      match after with
      | [] => before.reverse
      | run :: rest =>
          if moves run then
            let up := slideUp before run rest
            let down := slideDown up.before up.run up.after
            slideAll moves (down.run :: down.before) down.after fuel
          else slideAll moves (run :: before) rest fuel

def compact (script : Script) : Script :=
  let dropped := slideAll Run.isDrop [] script (2 * weight script + 1)
  slideAll Run.isAdd [] dropped (2 * weight dropped + 1)

end LineDiff

end DesiredState
