import DesiredState.Json.Reader
import DesiredState.Yaml.Cursor

/-!
# Properties and directives

A node can be given a name behind `&`, by which `*` means it again, and a tag behind `!`, which
says what kind of thing it is. A tag is an abbreviation with a handle in front, unless it stands
in angle brackets. Which text a handle stands for can be declared in front of a document, as can
the version of the language.
-/

set_option autoImplicit false

namespace DesiredState

namespace Yaml

def isWordChar (c : Char) : Bool := c.isAlphanum || c == '_' || c == '-'

/-! ## Names -/

def endsName : List Char → Bool
  | [] => true
  | c :: _ => isGap c || ['?', ':', ',', ']', '}', '%', '@', '\x60'].contains c

def name? (cursor : Cursor) : Option (String × Cursor) :=
  let (name, cursor) := (cursor.advance 1).span isWordChar
  if name.isEmpty || !endsName cursor.rest then none else some (String.ofList name, cursor)

/-! ## Tags -/

/-- A tag as it is written. -/
structure TagName where
  /-- What stands for the beginning of the tag; empty if nothing does. -/
  handle : String
  suffix : String
  deriving DecidableEq

/-- The characters of a tag apart from its handle; `bracketed` allows those that are brackets and
commas elsewhere. -/
def isTagChar (bracketed : Bool) (c : Char) : Bool :=
  isWordChar c ||
    [';', '/', '?', ':', '@', '&', '=', '+', '$', '.', '%', '!', '~', '*', '\'', '(', ')'].contains
      c ||
    (bracketed && [',', '[', ']'].contains c)

/-- The bytes of a text in which a percent sign and two hexadecimal digits stand for a byte. -/
def tagBytes? : List Char → Option (List UInt8)
  | [] => some []
  | '%' :: a :: b :: rest =>
      match Json.hexDigit? a, Json.hexDigit? b, tagBytes? rest with
      | some a, some b, some bytes => some (UInt8.ofNat (a * 16 + b) :: bytes)
      | _, _, _ => none
  | c :: rest => if c == '%' then none else (tagBytes? rest).map (c.toUInt8 :: ·)

def tagText? (text : List Char) : Option String :=
  (tagBytes? text).bind fun bytes => String.fromUTF8? ⟨bytes.toArray⟩

def tagPart? (bracketed : Bool) (cursor : Cursor) : Option (String × Cursor) :=
  let (text, cursor) := cursor.span (isTagChar bracketed)
  if text.isEmpty then none else (tagText? text).map fun text => (text, cursor)

/-- The exclamation mark at the cursor, the word behind it, and an exclamation mark behind that
if there is one. -/
def tagHandle (cursor : Cursor) : List Char × Cursor :=
  let (word, cursor) := (cursor.advance 1).span isWordChar
  if cursor.at? '!' then ('!' :: word ++ ['!'], cursor.advance 1) else ('!' :: word, cursor)

/-- Whether what was read as a handle is one, and not the beginning of a tag without one. -/
def isHandle (handle : List Char) : Bool := 1 < handle.length && handle.getLast? == some '!'

def bracketedTag? (cursor : Cursor) : Option (TagName × Cursor) := do
  let (suffix, cursor) ← tagPart? true (cursor.advance 2)
  if cursor.at? '>' then some (⟨"", suffix⟩, cursor.advance 1) else none

def shortTag? (cursor : Cursor) : Option (TagName × Cursor) :=
  let (handle, cursor) := tagHandle cursor
  if isHandle handle then
    (tagPart? false cursor).map fun (suffix, cursor) => (⟨String.ofList handle, suffix⟩, cursor)
  else
    let (text, cursor) := cursor.span (isTagChar false)
    (tagText? (handle.tail ++ text)).map fun suffix =>
      (if suffix == "" then ⟨"", "!"⟩ else ⟨"!", suffix⟩, cursor)

def tag? (inFlow : Bool) (cursor : Cursor) : Option (TagName × Cursor) := do
  let (tag, cursor) ←
    if cursor.rest.take 2 == ['!', '<'] then bracketedTag? cursor else shortTag? cursor
  if atGap cursor.rest || (inFlow && cursor.at? ',') then some (tag, cursor) else none

/-! ## Directives -/

/-- What is declared in front of a document. -/
inductive Directive where
  | version (major minor : Nat)
  | tag (handle start : String)
  deriving DecidableEq

def versionNumber? (cursor : Cursor) : Option (Nat × Cursor) :=
  let (digits, cursor) := cursor.span Char.isDigit
  if digits.isEmpty || 9 < digits.length then none
  else some (Nat.ofDigitChars 10 digits 0, cursor)

def version? (cursor : Cursor) : Option (Directive × Cursor) := do
  let (major, cursor) ← versionNumber? cursor
  if !cursor.at? '.' then none
  let (minor, cursor) ← versionNumber? (cursor.advance 1)
  return (.version major minor, cursor)

def handle? (cursor : Cursor) : Option (Directive × Cursor) := do
  if !cursor.at? '!' then none
  let (handle, cursor) := tagHandle cursor
  if !(handle == ['!'] || isHandle handle) || !cursor.rest.head?.any isSpace then none
  let (start, cursor) ← tagPart? true (cursor.skip isSpace)
  if atGap cursor.rest then some (.tag (String.ofList handle) start, cursor) else none

def directive? (cursor : Cursor) : Option (Directive × Cursor) := do
  let (name, cursor) := (cursor.advance 1).span isWordChar
  if !atGap cursor.rest then none
  let cursor := cursor.skip isSpace
  let (directive, cursor) ← match String.ofList name with
    | "YAML" => version? cursor
    | "TAG" => handle? cursor
    | _ => none
  return (directive, ← cursor.nextLine?)

end Yaml

end DesiredState
