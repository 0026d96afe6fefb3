import DesiredState.Yaml.Cursor

/-!
# Block scalars

Indented lines that are taken as they are, or with their ends folded. How far they are indented
is given behind the indicator, or is the indentation of the first line that is not blank. Also
behind the indicator stands what becomes of the line breaks at the end: one is kept, or none, or
all.
-/

set_option autoImplicit false

namespace DesiredState

namespace Yaml

/-- What becomes of the line breaks at the end of a block scalar. -/
inductive Chomping where
  | clip
  | strip
  | keep
  deriving DecidableEq

/-- What stands behind the indicator of a block scalar. -/
structure BlockHeader where
  chomping : Chomping
  /-- The given indentation, counted from that of the enclosing collection. -/
  indentation : Option Nat

def chomping? : Char → Option Chomping
  | '+' => some .keep
  | '-' => some .strip
  | _ => none

def blockDigit? (c : Char) : Option Nat := if '1' ≤ c ∧ c ≤ '9' then some (c.toNat - 48) else none

/-- The header in the signs behind the indicator: a sign and a digit in either order, either
alone, or nothing. -/
def blockHeader? : List Char → Option BlockHeader
  | [] => some ⟨.clip, none⟩
  | [c] =>
      match chomping? c, blockDigit? c with
      | some chomping, _ => some ⟨chomping, none⟩
      | none, some digit => some ⟨.clip, some digit⟩
      | none, none => none
  | [c, d] =>
      match chomping? c, blockDigit? d, blockDigit? c, chomping? d with
      | some chomping, some digit, _, _ => some ⟨chomping, some digit⟩
      | _, _, some digit, some chomping => some ⟨chomping, some digit⟩
      | _, _, _, _ => none
  | _ => none

def isHeaderChar (c : Char) : Bool := (chomping? c).isSome || c.isDigit

/-- Blank lines, and the cursor at the line behind them. -/
structure BlankLines where
  breaks : List Char
  widest : Nat
  cursor : Cursor

/-- Pass the blank lines at a cursor and the indentation of the next line. Without a known
indentation all spaces are passed. -/
def blankLines? (indentation : Option Nat) :
    Nat → (breaks : List Char) → (widest : Nat) → Cursor → Option BlankLines
  | 0, _, _, _ => none
  | fuel + 1, breaks, widest, cursor =>
      let spaces := (cursor.rest.takeWhile (· == ' ')).length
      let count := match indentation with
        | none => spaces
        | some indentation => min spaces (indentation - cursor.column)
      let cursor := cursor.advance count
      let widest := max widest cursor.column
      match cursor.rest with
      | [] => some ⟨breaks, widest, cursor⟩
      | c :: _ =>
          if c == '\t' && indentation.all (cursor.column < ·) then none
          else if isBreak c then
            blankLines? indentation fuel (breaks ++ [c]) widest (cursor.advance 1)
          else some ⟨breaks, widest, cursor⟩

/-- The content of a block scalar so far, and the line breaks behind it. -/
structure BlockText where
  text : List Char
  lineEnd : List Char
  blank : List Char
  indented : Bool
  cursor : Cursor

/-- Put a line behind the content. Unless the text is literal, the end of a line is folded where
neither it nor the next line begins with a blank. -/
def BlockText.withLine (block : BlockText) (literal : Bool) (line lineEnd : List Char) :
    BlockText :=
  let indented := line.head?.any isSpace
  let folds := !literal && block.lineEnd == ['\n'] && !block.indented && !indented
  let between :=
    if folds then if block.blank.isEmpty then [' '] else block.blank
    else block.lineEnd ++ block.blank
  { block with text := block.text ++ between ++ line, lineEnd, blank := [], indented }

def blockLines? (literal : Bool) (indentation : Nat) : Nat → BlockText → Option BlockText
  | 0, _ => none
  | fuel + 1, block =>
      if block.cursor.column == indentation && !block.cursor.atEnd then
        let (line, cursor) := block.cursor.span fun c => !isBreak c
        let lineEnd := cursor.rest.take 1
        let cursor := cursor.advance 1
        match blankLines? (some indentation) (cursor.rest.length + 1) [] 0 cursor with
        | none => none
        | some blank =>
            blockLines? literal indentation fuel
              { block.withLine literal line lineEnd with
                blank := blank.breaks
                cursor := blank.cursor }
      else some block

def BlockText.chomped (block : BlockText) : Chomping → List Char
  | .strip => block.text
  | .clip => block.text ++ block.lineEnd
  | .keep => block.text ++ block.lineEnd ++ block.blank

/-- The block scalar whose indicator is at the cursor, inside a collection of this
indentation. -/
def block? (literal : Bool) (outer : Option Nat) (cursor : Cursor) :
    Option (List Char × Cursor) := do
  let (signs, cursor) := (cursor.advance 1).span isHeaderChar
  let header ← blockHeader? signs
  let cursor ← cursor.nextLine?
  let given := header.indentation.map (outer.getD 0 + ·)
  let blank ← blankLines? given (cursor.rest.length + 1) [] 0 cursor
  let least := match outer with
    | some outer => outer + 1
    | none => 1
  let indentation := given.getD (max blank.widest least)
  let block ← blockLines? literal indentation (cursor.rest.length + 1)
    ⟨[], [], blank.breaks, false, blank.cursor⟩
  return (block.chomped header.chomping, block.cursor)

end Yaml

end DesiredState
