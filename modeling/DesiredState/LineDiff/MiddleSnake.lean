import DesiredState.LineDiff.Script

/-!
# Middle snakes

A shortest edit script between two texts passes through a point that lies halfway along it. It
is found by walking from both ends at once: with every further edit each diagonal is followed as
far as it goes, until a walk from one end meets one from the other. The walks of one search are
the starting values of the next.
-/

set_option autoImplicit false

namespace DesiredState

namespace LineDiff

/-- How far the walks from one end have come, by diagonal. -/
structure Frontier where
  offset : Nat
  reach : Array Nat

namespace Frontier

def start (lines : Nat) : Frontier :=
  let width := (lines + 1) / 2 + 1
  ⟨width, Array.replicate (2 * width) 0⟩

def get (frontier : Frontier) (diagonal : Int) : Nat :=
  frontier.reach.getD (diagonal + frontier.offset).toNat 0

def set (frontier : Frontier) (diagonal : Int) (x : Nat) : Frontier :=
  { frontier with
    reach := frontier.reach.setIfInBounds (diagonal + frontier.offset).toNat x }

/-- Where the walk on a diagonal goes on after one more edit: one step from the neighbour that
has come further. -/
def advance (frontier : Frontier) (edits diagonal : Int) : Nat :=
  if diagonal = -edits ∨
      (diagonal ≠ edits ∧ frontier.get (diagonal - 1) < frontier.get (diagonal + 1)) then
    frontier.get (diagonal + 1)
  else frontier.get (diagonal - 1) + 1

end Frontier

/-- The walks from both ends. -/
structure Walks where
  forward : Frontier
  backward : Frontier

namespace Walks

def start (lines : Nat) : Walks := ⟨.start lines, .start lines⟩

end Walks

/-- Two texts, also as seen from their ends. -/
structure Sides where
  old : List String
  new : List String
  oldBack : List String
  newBack : List String
  oldSize : Nat
  newSize : Nat

namespace Sides

def of (old new : List String) : Sides :=
  ⟨old, new, old.reverse, new.reverse, old.length, new.length⟩

def delta (sides : Sides) : Int := (sides.oldSize : Int) - sides.newSize

def slide (sides : Sides) (a b : List String) (x : Nat) (y : Int) : Nat :=
  if x < sides.oldSize ∧ 0 ≤ y ∧ y < sides.newSize then
    commonStart (a.drop x) (b.drop y.toNat)
  else 0

/-- One walk from the start. It meets a walk from the end if the numbers of edits differ in
parity; the point found is the one before the equal lines. -/
def stepForward (sides : Sides) (edits diagonal : Int) (walks : Walks) :
    Option (Nat × Nat) × Walks :=
  let x := walks.forward.advance edits diagonal
  let y := (x : Int) - diagonal
  let reached := x + sides.slide sides.old sides.new x y
  let walks := { walks with forward := walks.forward.set diagonal reached }
  let opposite := diagonal - sides.delta
  if sides.delta % 2 ≠ 0 ∧ opposite.natAbs ≤ edits - 1 ∧
      sides.oldSize ≤ reached + walks.backward.get (-opposite) then
    (some (x, y.toNat), walks)
  else (none, walks)

/-- One walk from the end. It meets a walk from the start if the numbers of edits agree in
parity; the point found is the one before the equal lines. -/
def stepBackward (sides : Sides) (edits diagonal : Int) (walks : Walks) :
    Option (Nat × Nat) × Walks :=
  let x := walks.backward.advance edits diagonal
  let y := (x : Int) - diagonal
  let equal := sides.slide sides.oldBack sides.newBack x y
  let reached := x + equal
  let walks := { walks with backward := walks.backward.set diagonal reached }
  let opposite := diagonal - sides.delta
  if sides.delta % 2 = 0 ∧ opposite.natAbs ≤ edits ∧
      sides.oldSize ≤ reached + walks.forward.get (-opposite) then
    (some (sides.oldSize - reached, (sides.newSize - (y + equal)).toNat), walks)
  else (none, walks)

def sweep (step : Int → Walks → Option (Nat × Nat) × Walks) :
    List Int → Walks → Option (Nat × Nat) × Walks
  | [], walks => (none, walks)
  | diagonal :: rest, walks =>
      match step diagonal walks with
      | (some point, walks) => (some point, walks)
      | (none, walks) => sweep step rest walks

/-- The diagonals that a number of edits leads to, from the outermost on one side to that on
the other. -/
def diagonals (edits : Nat) : List Int :=
  (List.range (edits + 1)).map fun (step : Nat) => (edits : Int) - 2 * (step : Int)

def search (sides : Sides) (edits : Nat) : Nat → Walks → Option (Nat × Nat) × Walks
  | 0, walks => (none, walks)
  | rounds + 1, walks =>
      match sweep (sides.stepForward edits) (diagonals edits) walks with
      | (some point, walks) => (some point, walks)
      | (none, walks) =>
          match sweep (sides.stepBackward edits) (diagonals edits) walks with
          | (some point, walks) => (some point, walks)
          | (none, walks) => sides.search (edits + 1) rounds walks

/-- A point in the middle of a shortest edit script, as numbers of lines of both texts. -/
def middle? (sides : Sides) (walks : Walks) : Option (Nat × Nat) × Walks :=
  let walks : Walks := ⟨walks.forward.set 1 0, walks.backward.set 1 0⟩
  sides.search 0 ((sides.oldSize + sides.newSize + 1) / 2 + 1) walks

end Sides

/-! ## Scripts -/

/-- An edit script between two texts. What they have in common at both ends is kept; between,
the script is put together from those on either side of a middle point. If one side is empty, or
no point divides the texts, all lines are exchanged. -/
def scriptBetween (old new : List String) (walks : Walks) : Script × Walks :=
  let start := commonStart old new
  let oldRest := old.drop start
  let newRest := new.drop start
  let final := commonEnd oldRest newRest
  let oldMiddle := oldRest.take (oldRest.length - final)
  let newMiddle := newRest.take (newRest.length - final)
  let enclose (script : Script) : Script :=
    keeping (old.take start) ++ script ++ keeping (oldRest.drop (oldRest.length - final))
  if oldMiddle.isEmpty && newMiddle.isEmpty then (enclose [], walks)
  else if newMiddle.isEmpty then (enclose [.drop oldMiddle], walks)
  else if oldMiddle.isEmpty then (enclose [.add newMiddle], walks)
  else
    match (Sides.of oldMiddle newMiddle).middle? walks with
    | (none, walks) => (enclose [.drop oldMiddle, .add newMiddle], walks)
    | (some (x, y), walks) =>
        if _divides : (oldMiddle.take x).length + (newMiddle.take y).length <
              old.length + new.length ∧
            (oldMiddle.drop x).length + (newMiddle.drop y).length <
              old.length + new.length then
          match scriptBetween (oldMiddle.take x) (newMiddle.take y) walks with
          | (first, walks) =>
              match scriptBetween (oldMiddle.drop x) (newMiddle.drop y) walks with
              | (second, walks) => (enclose (first ++ second), walks)
        else (enclose [.drop oldMiddle, .add newMiddle], walks)
termination_by old.length + new.length
decreasing_by
  · exact _divides.1
  · exact _divides.2

end LineDiff

end DesiredState
