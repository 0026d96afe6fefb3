/-!
# Places in a text

A cursor is what is left of a text, together with the line and column at which it begins. The
lines of a YAML text end in a line feed or in one of the two separators of Unicode;
`Yaml.normalize?` brings every other way to end a line into this form.
-/

set_option autoImplicit false

namespace DesiredState

namespace Yaml

/-! ## Characters -/

def isBreak (c : Char) : Bool := c == '\n' || c == '\u2028' || c == '\u2029'

def isSpace (c : Char) : Bool := c == ' ' || c == '\t'

def isGap (c : Char) : Bool := isSpace c || isBreak c

def atGap (text : List Char) : Bool := text.head?.all isGap

def isAllowed (c : Char) : Bool :=
  let code := c.toNat
  code == 0x09 || code == 0x0A || code == 0x0D || (0x20 ≤ code && code ≤ 0x7E) ||
    code == 0x85 || (0xA0 ≤ code && code ≤ 0xFFFD) || 0x10000 ≤ code

/-- The same lines, each ended by a single character: a carriage return, alone or before a line
feed, and the next-line character become line feeds. -/
def normalizeBreaks : List Char → List Char
  | [] => []
  | '\r' :: '\n' :: rest => '\n' :: normalizeBreaks rest
  | c :: rest => (if c == '\r' || c == '\u0085' then '\n' else c) :: normalizeBreaks rest

def normalize? (text : String) : Option (List Char) :=
  let chars := text.toList
  if chars.all isAllowed then some (normalizeBreaks chars) else none

/-! ## Cursors -/

/-- The rest of a text, and where it begins. -/
structure Cursor where
  rest : List Char
  line : Nat
  column : Nat
  offset : Nat

namespace Cursor

def start (text : List Char) : Cursor := ⟨text, 0, 0, 0⟩

def stepped (cursor : Cursor) (c : Char) : Cursor :=
  if isBreak c then ⟨cursor.rest, cursor.line + 1, 0, cursor.offset + 1⟩
  else ⟨cursor.rest, cursor.line, cursor.column + 1, cursor.offset + 1⟩

def advance (cursor : Cursor) (count : Nat) : Cursor :=
  { (cursor.rest.take count).foldl stepped cursor with rest := cursor.rest.drop count }

def upTo (cursor : Cursor) (rest : List Char) : Cursor :=
  cursor.advance (cursor.rest.length - rest.length)

def span (cursor : Cursor) (accepts : Char → Bool) : List Char × Cursor :=
  let taken := cursor.rest.takeWhile accepts
  (taken, cursor.advance taken.length)

def skip (cursor : Cursor) (accepts : Char → Bool) : Cursor := (cursor.span accepts).2

def at? (cursor : Cursor) (c : Char) : Bool := cursor.rest.head? == some c

def atEnd (cursor : Cursor) : Bool := cursor.rest.isEmpty

def atIndicator (cursor : Cursor) (c : Char) : Bool := cursor.at? c && atGap (cursor.rest.drop 1)

/-- Whether a line begins here with three of these characters and a separator or nothing. -/
def atMarker (cursor : Cursor) (c : Char) : Bool :=
  cursor.column == 0 && cursor.rest.take 3 == [c, c, c] && atGap (cursor.rest.drop 3)

def atDocumentMarker (cursor : Cursor) : Bool := cursor.atMarker '-' || cursor.atMarker '.'

/-- The cursor behind a byte order mark, which may stand at the beginning of any line. -/
def skipMark (cursor : Cursor) : Cursor :=
  if cursor.column == 0 && cursor.at? '\uFEFF' then cursor.advance 1 else cursor

/-- The beginning of the next line, if nothing but blanks and a comment is in front of it. -/
def nextLine? (cursor : Cursor) : Option Cursor :=
  let cursor := cursor.skip isSpace
  let cursor := if cursor.at? '#' then cursor.skip fun c => !isBreak c else cursor
  if cursor.rest.head?.all isBreak then some (cursor.advance 1) else none

end Cursor

/-! ## Folding -/

/-- What separators between two words of a scalar stand for. Blanks on one line stand for
themselves. A single line feed becomes a space; of several the first is left out. Blanks around
line breaks are left out. -/
def foldGap (gap : List Char) : List Char :=
  match gap.filter isBreak with
  | [] => gap
  | ['\n'] => [' ']
  | '\n' :: more => more
  | breaks => breaks

end Yaml

end DesiredState
