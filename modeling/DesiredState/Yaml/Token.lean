import DesiredState.Yaml.Block
import DesiredState.Yaml.Plain
import DesiredState.Yaml.Property
import DesiredState.Yaml.Quoted

/-!
# Tokens

A YAML text as a list of tokens, in which the structure that indentation gives is made explicit:
collections in block style begin and end with tokens of their own, and every key is announced by
a token in front of it.

Whether a scalar or a bracketed collection is a key shows only at the colon behind it. Until
then it is remembered as a possible key, and the token that announces it is put in front of it
when the colon is met. A key stands on one line and is at most 1024 characters long.
-/

set_option autoImplicit false

namespace DesiredState

namespace Yaml

/-- How a scalar is written. -/
inductive Style where
  | plain
  | quoted
  | literal
  | folded
  deriving DecidableEq

/-- The pieces of a YAML text. A name that is given to a node is counted, and stands for the
node by its number. -/
inductive Token where
  | directive (directive : Directive)
  | documentStart
  | documentEnd
  | blockSequenceStart
  | blockMappingStart
  | blockEnd
  | flowSequenceStart
  | flowSequenceEnd
  | flowMappingStart
  | flowMappingEnd
  | flowEntry
  | blockEntry
  | key
  | value
  | alias (anchor : Nat)
  | anchor (anchor : Nat)
  | tag (tag : TagName)
  | scalar (text : String) (style : Style)
  deriving DecidableEq

/-- Something that is a key if a colon follows. -/
structure PossibleKey where
  /-- Whether it cannot be anything else, because it stands where a key of a block mapping has
  to stand. -/
  required : Bool
  place : Nat
  line : Nat
  column : Nat
  offset : Nat

/-- Where the reading of tokens stands. -/
structure Scan where
  cursor : Cursor
  /-- The columns of the open block collections, innermost first. -/
  indents : List Nat
  /-- The possible key outside of all brackets and that of every open bracket, innermost
  first. -/
  keys : List (Option PossibleKey)
  keyAllowed : Bool
  anchors : List (String × Nat)
  tokens : Array Token

namespace Scan

def start (text : List Char) : Scan := ⟨.start text, [], [none], true, [], #[]⟩

def inFlow (scan : Scan) : Bool := 1 < scan.keys.length

def contentColumn (scan : Scan) : Nat :=
  match scan.indents with
  | [] => 0
  | column :: _ => column + 1

def emit (scan : Scan) (token : Token) : Scan := { scan with tokens := scan.tokens.push token }

def take (scan : Scan) (count : Nat) (token : Token) : Scan :=
  { scan.emit token with cursor := scan.cursor.advance count }

def allowKey (scan : Scan) (keyAllowed : Bool) : Scan := { scan with keyAllowed }

/-! ## Possible keys -/

def isStale (scan : Scan) (key : PossibleKey) : Bool :=
  key.line < scan.cursor.line || key.offset + 1024 < scan.cursor.offset

def dropStale? (scan : Scan) : Option Scan :=
  let stale (key : Option PossibleKey) : Bool := key.any scan.isStale
  if scan.keys.any fun key => stale key && key.any (·.required) then none
  else some { scan with keys := scan.keys.map fun key => if stale key then none else key }

def dropKey? (scan : Scan) : Option Scan :=
  match scan.keys with
  | some key :: keys => if key.required then none else some { scan with keys := none :: keys }
  | _ => some scan

def saveKey? (scan : Scan) : Option Scan :=
  if scan.keyAllowed then
    match scan.dropKey? with
    | none => none
    | some scan =>
        let cursor := scan.cursor
        let required := !scan.inFlow && scan.indents.head? == some cursor.column
        let key : PossibleKey :=
          ⟨required, scan.tokens.size, cursor.line, cursor.column, cursor.offset⟩
        some { scan with keys := some key :: scan.keys.drop 1 }
  else some scan

/-! ## Indentation -/

def closeDeeper (scan : Scan) (column : Nat) : Scan :=
  if scan.inFlow then scan
  else
    let deeper := scan.indents.takeWhile (column < ·)
    { deeper.foldl (fun scan _ => scan.emit .blockEnd) scan with
      indents := scan.indents.drop deeper.length }

def closeAll (scan : Scan) : Scan :=
  if scan.inFlow then scan
  else { scan.indents.foldl (fun scan _ => scan.emit .blockEnd) scan with indents := [] }

/-- Open a block collection at a column, unless it is open; its token goes to the given place. -/
def openBlock (scan : Scan) (column place : Nat) (token : Token) : Scan :=
  if !scan.inFlow && scan.indents.head?.all (· < column) then
    { scan with
      indents := column :: scan.indents
      tokens := scan.tokens.insertIdxIfInBounds place token }
  else scan

/-! ## Between tokens -/

/-- Pass blanks, comments and line breaks. A tab may not stand where a key may begin. -/
def skipGap : Nat → Scan → Scan
  | 0, scan => scan
  | fuel + 1, scan =>
      let tabs := scan.inFlow || !scan.keyAllowed
      let cursor := scan.cursor.skipMark.skip fun c => c == ' ' || (tabs && c == '\t')
      let cursor := if cursor.at? '#' then cursor.skip fun c => !isBreak c else cursor
      if cursor.rest.head?.any isBreak then
        skipGap fuel
          { scan with cursor := cursor.advance 1, keyAllowed := scan.keyAllowed || !scan.inFlow }
      else { scan with cursor }

/-! ## Tokens -/

def marker? (scan : Scan) (token : Token) : Option Scan :=
  scan.closeAll.dropKey?.map fun scan => (scan.allowKey false).take 3 token

def openFlow? (scan : Scan) (token : Token) : Option Scan :=
  scan.saveKey?.map fun scan =>
    (({ scan with keys := none :: scan.keys }).allowKey true).take 1 token

def closeFlow? (scan : Scan) (token : Token) : Option Scan :=
  scan.dropKey?.map fun scan =>
    let keys := if scan.inFlow then scan.keys.drop 1 else scan.keys
    (({ scan with keys }).allowKey false).take 1 token

def flowEntry? (scan : Scan) : Option Scan :=
  scan.dropKey?.map fun scan => (scan.allowKey true).take 1 .flowEntry

def blockEntry? (scan : Scan) : Option Scan :=
  if !scan.inFlow && !scan.keyAllowed then none
  else
    let scan := scan.openBlock scan.cursor.column scan.tokens.size .blockSequenceStart
    scan.dropKey?.map fun scan => (scan.allowKey true).take 1 .blockEntry

def key? (scan : Scan) : Option Scan :=
  if !scan.inFlow && !scan.keyAllowed then none
  else
    let scan := scan.openBlock scan.cursor.column scan.tokens.size .blockMappingStart
    scan.dropKey?.map fun scan => (scan.allowKey !scan.inFlow).take 1 .key

def value? (scan : Scan) : Option Scan :=
  match scan.keys with
  | some key :: keys =>
      let scan :=
        { scan with
          keys := none :: keys
          tokens := scan.tokens.insertIdxIfInBounds key.place .key }
      let scan := scan.openBlock key.column key.place .blockMappingStart
      some ((scan.allowKey false).take 1 .value)
  | _ =>
      if !scan.inFlow && !scan.keyAllowed then none
      else
        let scan := scan.openBlock scan.cursor.column scan.tokens.size .blockMappingStart
        some ((scan.allowKey !scan.inFlow).take 1 .value)

def directive? (scan : Scan) : Option Scan := do
  let scan ← scan.closeAll.dropKey?
  let (directive, cursor) ← Yaml.directive? scan.cursor
  return { (scan.allowKey false).emit (.directive directive) with cursor }

/-- The name of a node. Its number is that of the different names before it; if the name was
given before, it now means this node. -/
def anchor? (scan : Scan) : Option Scan := do
  let scan ← scan.saveKey?
  let (name, cursor) ← name? scan.cursor
  let number := scan.anchors.length
  let anchors := (name, number) :: scan.anchors.filter (·.1 != name)
  return { (scan.allowKey false).emit (.anchor number) with cursor, anchors }

def alias? (scan : Scan) : Option Scan := do
  let scan ← scan.saveKey?
  let (name, cursor) ← name? scan.cursor
  let number ← scan.anchors.lookup name
  return { (scan.allowKey false).emit (.alias number) with cursor }

def tag? (scan : Scan) : Option Scan := do
  let scan ← scan.saveKey?
  let (tag, cursor) ← Yaml.tag? scan.inFlow scan.cursor
  return { (scan.allowKey false).emit (.tag tag) with cursor }

def withScalar (scan : Scan) (text : List Char) (style : Style) (cursor : Cursor) : Scan :=
  { scan.emit (.scalar (String.ofList text) style) with cursor }

def blockScalar? (scan : Scan) (literal : Bool) : Option Scan := do
  let scan ← scan.dropKey?
  let (text, cursor) ← block? literal scan.indents.head? scan.cursor
  return (scan.allowKey true).withScalar text (if literal then .literal else .folded) cursor

def quotedScalar? (scan : Scan) (quote : Char) : Option Scan := do
  let scan ← scan.saveKey?
  let (text, cursor) ← quoted? quote scan.cursor
  return (scan.allowKey false).withScalar text .quoted cursor

def plainScalar? (scan : Scan) : Option Scan := do
  let scan ← scan.saveKey?
  let scalar ← plain? scan.inFlow scan.contentColumn scan.cursor
  return (scan.allowKey scalar.endsLine).withScalar scalar.text .plain scalar.cursor

/-- The characters that a plain scalar cannot begin with in any place, brackets and commas
apart. -/
def isIndicator (c : Char) : Bool :=
  ['#', '&', '*', '!', '|', '>', '\'', '"', '%', '@', '\x60'].contains c

def startsPlain (scan : Scan) : Bool :=
  match scan.cursor.rest with
  | [] => false
  | c :: rest =>
      if isGap c then false
      else if c == '-' then !rest.head?.any isSpace
      else if c == '?' || c == ':' then !scan.inFlow && !atGap rest
      else !isFlowIndicator c && !isIndicator c

def tokenAt? (scan : Scan) (c : Char) : Option Scan :=
  let cursor := scan.cursor
  if cursor.column == 0 && c == '%' then scan.directive?
  else if cursor.atMarker '-' then scan.marker? .documentStart
  else if cursor.atMarker '.' then scan.marker? .documentEnd
  else if c == '[' then scan.openFlow? .flowSequenceStart
  else if c == '{' then scan.openFlow? .flowMappingStart
  else if c == ']' then scan.closeFlow? .flowSequenceEnd
  else if c == '}' then scan.closeFlow? .flowMappingEnd
  else if c == ',' then scan.flowEntry?
  else if cursor.atIndicator '-' then scan.blockEntry?
  else if cursor.atIndicator '?' || (c == '?' && scan.inFlow) then scan.key?
  else if cursor.atIndicator ':' || (c == ':' && scan.inFlow) then scan.value?
  else if c == '*' then scan.alias?
  else if c == '&' then scan.anchor?
  else if c == '!' then scan.tag?
  else if c == '|' && !scan.inFlow then scan.blockScalar? true
  else if c == '>' && !scan.inFlow then scan.blockScalar? false
  else if c == '\'' || c == '"' then scan.quotedScalar? c
  else if scan.startsPlain then scan.plainScalar?
  else none

def run? : Nat → Scan → Option (List Token)
  | 0, _ => none
  | fuel + 1, scan =>
      match (scan.skipGap (scan.cursor.rest.length + 1)).dropStale? with
      | none => none
      | some scan =>
          match scan.cursor.rest with
          | [] => scan.closeAll.dropKey?.map (·.tokens.toList)
          | c :: _ =>
              match (scan.closeDeeper scan.cursor.column).tokenAt? c with
              | none => none
              | some scan => run? fuel scan

end Scan

def tokens? (text : List Char) : Option (List Token) :=
  Scan.run? (text.length + 1) (.start text)

end Yaml

end DesiredState
