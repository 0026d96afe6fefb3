/-!
# Edit scripts

An edit script leads from one list of lines to another by keeping, dropping and adding runs of
lines. It holds the lines themselves, so both lists can be read off it.
-/

set_option autoImplicit false

namespace DesiredState

namespace LineDiff

/-- A run of lines that is kept, dropped or added. -/
inductive Run where
  | keep (lines : List String)
  | drop (lines : List String)
  | add (lines : List String)
  deriving DecidableEq

namespace Run

def old : Run → List String
  | .keep lines | .drop lines => lines
  | .add _ => []

def new : Run → List String
  | .keep lines | .add lines => lines
  | .drop _ => []

def lines : Run → List String
  | .keep lines | .drop lines | .add lines => lines

def isDrop : Run → Bool
  | .drop _ => true
  | .keep _ | .add _ => false

def isAdd : Run → Bool
  | .add _ => true
  | .keep _ | .drop _ => false

end Run

abbrev Script := List Run

def oldText (script : Script) : List String := script.flatMap Run.old

def newText (script : Script) : List String := script.flatMap Run.new

def commonStart : List String → List String → Nat
  | a :: as, b :: bs => if a = b then commonStart as bs + 1 else 0
  | _, _ => 0

def commonEnd (a b : List String) : Nat := commonStart a.reverse b.reverse

def keeping (lines : List String) : Script :=
  if lines.isEmpty then [] else [.keep lines]

theorem commonStart_le_left : ∀ a b : List String, commonStart a b ≤ a.length
  | [], _ => by simp [commonStart]
  | _ :: _, [] => by simp [commonStart]
  | a :: as, b :: bs => by
      simp only [commonStart]
      split
      · exact Nat.succ_le_succ (commonStart_le_left as bs)
      · exact Nat.zero_le _

end LineDiff

end DesiredState
