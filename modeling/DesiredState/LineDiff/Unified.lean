import DesiredState.LineDiff.Compaction
import DesiredState.LineDiff.MiddleSnake

/-!
# Unified differences

The difference of two texts as hunks: changed lines with a few unchanged lines around them.
Texts with the same lines have the empty difference.
-/

set_option autoImplicit false

namespace DesiredState

namespace LineDiff

/-! ## Lines -/

def splitLines : List Char → List (List Char)
  | [] => []
  | c :: rest =>
      if c = '\n' then [] :: splitLines rest
      else
        match splitLines rest with
        | [] => [[c]]
        | line :: lines => (c :: line) :: lines

def linesOf (text : String) : List String := (splitLines text.toList).map String.ofList

/-! ## Changes -/

/-- A stretch of two texts: equal lines, or lines that replace others. -/
inductive Stretch where
  | equal (lines : List String)
  | changed (removed added : List String)
  deriving DecidableEq

namespace Stretch

def oldSize : Stretch → Nat
  | .equal lines => lines.length
  | .changed removed _ => removed.length

def newSize : Stretch → Nat
  | .equal lines => lines.length
  | .changed _ added => added.length

end Stretch

/-- The stretches of a script: runs that follow each other without kept lines between them form
one change, and neighbouring kept lines one stretch. -/
def stretches : Script → List Stretch
  | [] => []
  | run :: rest =>
      match run, stretches rest with
      | .keep lines, .equal more :: others => .equal (lines ++ more) :: others
      | .keep lines, others => .equal lines :: others
      | .drop lines, .changed removed added :: others =>
          .changed (lines ++ removed) added :: others
      | .drop lines, others => .changed lines [] :: others
      | .add lines, .changed removed added :: others =>
          .changed removed (lines ++ added) :: others
      | .add lines, others => .changed [] lines :: others

/-! ## Hunks -/

def contextSize : Nat := 3

/-- A hunk: stretches, and the numbers of lines of both texts in front of them. -/
structure Hunk where
  oldStart : Nat
  newStart : Nat
  stretches : List Stretch
  deriving DecidableEq

namespace Hunk

def push (hunk : Hunk) (stretch : Stretch) : Hunk :=
  { hunk with stretches := hunk.stretches ++ [stretch] }

def oldSize (hunk : Hunk) : Nat :=
  hunk.stretches.foldl (fun total stretch => total + stretch.oldSize) 0

def newSize (hunk : Hunk) : Nat :=
  hunk.stretches.foldl (fun total stretch => total + stretch.newSize) 0

def hasChange (hunk : Hunk) : Bool :=
  hunk.stretches.any fun
    | .changed _ _ => true
    | .equal _ => false

end Hunk

/-- Cut a difference into hunks. `hunk` is the one being built; `atStart` and the end of the
list mark the equal lines that have a change on one side only. Equal lines that are more than
the context of both sides divide two hunks. -/
def cutHunks (atStart : Bool) (hunk : Hunk) : List Stretch → List Hunk
  | [] => [hunk]
  | .changed removed added :: rest =>
      cutHunks false (hunk.push (.changed removed added)) rest
  | .equal lines :: rest =>
      let skipped := lines.length - contextSize
      if atStart then
        cutHunks false
          ⟨hunk.oldStart + skipped, hunk.newStart + skipped, [.equal (lines.drop skipped)]⟩ rest
      else if rest.isEmpty then [hunk.push (.equal (lines.take contextSize))]
      else if lines.length ≤ 2 * contextSize then cutHunks false (hunk.push (.equal lines)) rest
      else
        hunk.push (.equal (lines.take contextSize)) ::
          cutHunks false
            ⟨hunk.oldStart + hunk.oldSize + skipped, hunk.newStart + hunk.newSize + skipped,
              [.equal (lines.drop skipped)]⟩ rest

def hunks (all : List Stretch) : List Hunk :=
  (cutHunks true ⟨0, 0, []⟩ all).filter Hunk.hasChange

/-! ## Text -/

/-- A range of lines: its first line, counted from one, and its size unless that is one. An
empty range is named by the line before it. -/
def rangeText (start size : Nat) : String :=
  if size = 1 then Nat.repr (start + 1)
  else if size = 0 then Nat.repr start ++ ",0"
  else Nat.repr (start + 1) ++ "," ++ Nat.repr size

def markedLines (mark : String) (lines : List String) : String :=
  String.join (lines.map fun line => mark ++ line ++ "\n")

def stretchText : Stretch → String
  | .equal lines => markedLines " " lines
  | .changed removed added => markedLines "-" removed ++ markedLines "+" added

def hunkText (hunk : Hunk) : String :=
  "@@ -" ++ rangeText hunk.oldStart hunk.oldSize ++ " +" ++
    rangeText hunk.newStart hunk.newSize ++ " @@\n" ++
    String.join (hunk.stretches.map stretchText)

def difference (old new : List String) : List Stretch :=
  stretches (compact (scriptBetween old new (.start (old.length + new.length))).1)

def unified (oldName newName : String) (old new : List String) : String :=
  match hunks (difference old new) with
  | [] => ""
  | found =>
      "--- " ++ oldName ++ "\n+++ " ++ newName ++ "\n" ++ String.join (found.map hunkText)

end LineDiff

end DesiredState
