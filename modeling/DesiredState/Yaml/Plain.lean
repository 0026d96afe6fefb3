import DesiredState.Yaml.Cursor

/-!
# Plain scalars

Text without quotes. It ends before a colon or a comment that is set off by blanks, before a
line that is not indented far enough, and inside brackets also before a bracket or a comma.
-/

set_option autoImplicit false

namespace DesiredState

namespace Yaml

def isFlowIndicator (c : Char) : Bool := [',', '[', ']', '{', '}'].contains c

/-- The characters up to the next separator or the end of the scalar, and what follows. Inside
brackets a colon right before one of them, or before a question mark, is an error. -/
def plainWord? (inFlow : Bool) : List Char → Option (List Char × List Char)
  | [] => some ([], [])
  | c :: rest =>
      if isGap c then some ([], c :: rest)
      else if inFlow && c == ':' && rest.head?.any fun d => isFlowIndicator d || d == '?' then
        none
      else if (c == ':' && atGap rest) || (inFlow && isFlowIndicator c) then some ([], c :: rest)
      else
        match plainWord? inFlow rest with
        | some (word, rest) => some (c :: word, rest)
        | none => none

/-- Whether the blanks that begin at this column use a tab, at the beginning of a line, where
less than the indentation has been reached. -/
def abusesTab (indentation column : Nat) (newLine : Bool) : List Char → Bool
  | [] => false
  | c :: rest =>
      if isBreak c then abusesTab indentation 0 true rest
      else
        (newLine && c == '\t' && column < indentation) ||
          abusesTab indentation (column + 1) newLine rest

/-- A plain scalar, and the cursor behind it and the blanks that follow it. -/
structure PlainScalar where
  text : List Char
  endsLine : Bool
  cursor : Cursor

def plainWords? (inFlow : Bool) (indentation : Nat) :
    Nat → (text gap : List Char) → Cursor → Option PlainScalar
  | 0, _, _, _ => none
  | fuel + 1, text, gap, cursor =>
      let endsLine := gap.any isBreak
      if cursor.atDocumentMarker || cursor.at? '#' then some ⟨text, endsLine, cursor⟩
      else
        match plainWord? inFlow cursor.rest with
        | none => none
        | some ([], _) => some ⟨text, endsLine, cursor⟩
        | some (word, rest) =>
            let text := text ++ foldGap gap ++ word
            let column := (cursor.upTo rest).column
            let (gap, cursor) := (cursor.upTo rest).span isGap
            let endsLine := gap.any isBreak
            if gap.isEmpty then some ⟨text, false, cursor⟩
            else if abusesTab indentation column false gap then none
            else if !inFlow && cursor.column < indentation then some ⟨text, endsLine, cursor⟩
            else plainWords? inFlow indentation fuel text gap cursor

def plain? (inFlow : Bool) (indentation : Nat) (cursor : Cursor) : Option PlainScalar :=
  plainWords? inFlow indentation (cursor.rest.length + 1) [] [] cursor

end Yaml

end DesiredState
