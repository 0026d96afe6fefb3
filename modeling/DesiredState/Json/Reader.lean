import DesiredState.Value

/-!
# Reading JSON

A text is first read as a draft, which holds every field of every object in the order of the
text. A string with a lone surrogate among its escapes and a number beyond the doubles keep
their place in a draft without content, so that they do no harm where nobody looks. Blanks may
stand between tokens. No draft is read from a text with anything behind the value, with an
unknown escape, or with a bare control character in a string.

`Value.ofJson?` takes all of a draft as a value. Of several fields with one key the last counts,
the fields of every object come out in ascending order of keys, and everything has to have
content. Lists and objects are nested at most `Json.maxDepth` deep.
-/

set_option autoImplicit false

namespace DesiredState

namespace Json

def isBlank (c : Char) : Bool := c == ' ' || c == '\n' || c == '\t' || c == '\r'

def skipBlanks (text : List Char) : List Char := text.dropWhile isBlank

/-! ## Drafts -/

/-- A value as it stands in a text. -/
inductive Draft where
  | null
  | bool (value : Bool)
  /-- A number, nothing if it is beyond the doubles. -/
  | number (value : Option Number)
  /-- A string, nothing if there is a lone surrogate in it. -/
  | string (text : Option String)
  | list (items : List Draft)
  | object (fields : List (Option String × Draft))

/-! ## Strings -/

def hexDigit? (c : Char) : Option Nat :=
  if '0' ≤ c ∧ c ≤ '9' then some (c.toNat - '0'.toNat)
  else if 'a' ≤ c ∧ c ≤ 'f' then some (c.toNat - 'a'.toNat + 10)
  else if 'A' ≤ c ∧ c ≤ 'F' then some (c.toNat - 'A'.toNat + 10)
  else none

def hexUnit? (a b c d : Char) : Option Nat := do
  let a ← hexDigit? a
  let b ← hexDigit? b
  let c ← hexDigit? c
  let d ← hexDigit? d
  return ((a * 16 + b) * 16 + c) * 16 + d

def unescape? : Char → Option Char
  | '"' => some '"'
  | '\\' => some '\\'
  | '/' => some '/'
  | 'b' => some '\x08'
  | 'f' => some '\x0c'
  | 'n' => some '\n'
  | 'r' => some '\r'
  | 't' => some '\t'
  | _ => none

def isHighSurrogate (unit : Nat) : Bool := 0xD800 ≤ unit && unit < 0xDC00

def isLowSurrogate (unit : Nat) : Bool := 0xDC00 ≤ unit && unit < 0xE000

/-- The characters that units stand for. Two surrogates that form a pair are one character;
one of them alone is none. -/
def ofUnits? : List Nat → Option (List Char)
  | [] => some []
  | unit :: rest =>
      if isHighSurrogate unit then
        match rest with
        | [] => none
        | low :: rest =>
            if isLowSurrogate low then
              let code := 0x10000 + (unit - 0xD800) * 0x400 + (low - 0xDC00)
              (ofUnits? rest).map (Char.ofNat code :: ·)
            else none
      else if isLowSurrogate unit then none
      else (ofUnits? rest).map (Char.ofNat unit :: ·)

def consUnit (unit : Nat) : Option (List Nat × List Char) → Option (List Nat × List Char)
  | some (read, rest) => some (unit :: read, rest)
  | none => none

/-- The units up to the closing quote, and what follows it: the codes of characters, and the
numbers in escapes. -/
def readUnits? : List Char → Option (List Nat × List Char)
  | [] => none
  | '"' :: rest => some ([], rest)
  | '\\' :: 'u' :: a :: b :: c :: d :: rest =>
      match hexUnit? a b c d with
      | some unit => consUnit unit (readUnits? rest)
      | none => none
  | '\\' :: c :: rest =>
      match unescape? c with
      | some plain => consUnit plain.toNat (readUnits? rest)
      | none => none
  | c :: rest => if c.toNat < 0x20 then none else consUnit c.toNat (readUnits? rest)

/-- The text up to the closing quote, nothing in its place if there is a lone surrogate in it,
and what follows the quote. -/
def readString? (text : List Char) : Option (Option String × List Char) :=
  match readUnits? text with
  | some (units, rest) => some ((ofUnits? units).map String.ofList, rest)
  | none => none

/-! ## Numbers -/

def readFraction? : List Char → Option (Option (List Char) × List Char)
  | '.' :: rest =>
      match rest.span Char.isDigit with
      | ([], _) => none
      | (digits, rest) => some (some digits, rest)
  | rest => some (none, rest)

def readSign : List Char → Bool × List Char
  | '-' :: rest => (true, rest)
  | '+' :: rest => (false, rest)
  | rest => (false, rest)

def readExponent? : List Char → Option (Option Int × List Char)
  | c :: rest =>
      if c == 'e' || c == 'E' then
        let (negative, rest) := readSign rest
        match rest.span Char.isDigit with
        | ([], _) => none
        | (digits, rest) =>
            let magnitude : Int := Nat.ofDigitChars 10 digits 0
            some (some (if negative then -magnitude else magnitude), rest)
      else some (none, c :: rest)
  | [] => some (none, [])

/-- A number at the start of a text, nothing in its place if it is beyond the doubles. The whole
part has no superfluous leading zero. -/
def readNumber? (text : List Char) : Option (Option Number × List Char) := do
  let (negative, text) := match text with
    | '-' :: rest => (true, rest)
    | rest => (false, rest)
  let (whole, text) := text.span Char.isDigit
  if whole.isEmpty || (whole.length > 1 && whole.head? == some '0') then none
  else
    let (fraction, text) ← readFraction? text
    let (exponent, text) ← readExponent? text
    return (Number.ofNumeral? negative whole fraction exponent, text)

/-! ## Values -/

mutual

/-- The draft of a value at the start of a text without leading blanks. The first argument
bounds the depth of the recursion; the length of the text always suffices. -/
def readDraft? : Nat → List Char → Option (Draft × List Char)
  | 0, _ => none
  | fuel + 1, text =>
      match text with
      | 'n' :: 'u' :: 'l' :: 'l' :: rest => some (.null, rest)
      | 't' :: 'r' :: 'u' :: 'e' :: rest => some (.bool true, rest)
      | 'f' :: 'a' :: 'l' :: 's' :: 'e' :: rest => some (.bool false, rest)
      | '"' :: rest =>
          match readString? rest with
          | some (read, rest) => some (.string read, rest)
          | none => none
      | '[' :: rest =>
          match skipBlanks rest with
          | ']' :: rest => some (.list [], rest)
          | rest =>
              match readItems? fuel rest with
              | some (items, rest) => some (.list items, rest)
              | none => none
      | '{' :: rest =>
          match skipBlanks rest with
          | '}' :: rest => some (.object [], rest)
          | rest =>
              match readFields? fuel rest with
              | some (fields, rest) => some (.object fields, rest)
              | none => none
      | text =>
          match readNumber? text with
          | some (number, rest) => some (.number number, rest)
          | none => none

def readItems? : Nat → List Char → Option (List Draft × List Char)
  | 0, _ => none
  | fuel + 1, text =>
      match readDraft? fuel text with
      | none => none
      | some (item, rest) =>
          match skipBlanks rest with
          | ']' :: rest => some ([item], rest)
          | ',' :: rest =>
              match readItems? fuel (skipBlanks rest) with
              | some (items, rest) => some (item :: items, rest)
              | none => none
          | _ => none

def readFields? : Nat → List Char → Option (List (Option String × Draft) × List Char)
  | 0, _ => none
  | fuel + 1, text =>
      match text with
      | '"' :: rest =>
          match readString? rest with
          | none => none
          | some (key, rest) =>
              match skipBlanks rest with
              | ':' :: rest =>
                  match readDraft? fuel (skipBlanks rest) with
                  | none => none
                  | some (item, rest) =>
                      match skipBlanks rest with
                      | '}' :: rest => some ([(key, item)], rest)
                      | ',' :: rest =>
                          match readFields? fuel (skipBlanks rest) with
                          | some (fields, rest) => some ((key, item) :: fields, rest)
                          | none => none
                      | _ => none
              | _ => none
      | _ => none

end

namespace Draft

def ofText? (text : String) : Option Draft :=
  let chars := text.toList
  match readDraft? (chars.length + 1) (skipBlanks chars) with
  | some (draft, rest) => if (skipBlanks rest).isEmpty then some draft else none
  | none => none

/-- The value of a draft in which lists and objects are nested at most to the given depth. -/
def valueTo? : Nat → Draft → Option Value
  | _, .null => some .null
  | _, .bool value => some (.bool value)
  | _, .number value => value.map .number
  | _, .string text => text.map .string
  | 0, .list _ | 0, .object _ => none
  | depth + 1, .list items => (items.mapM (valueTo? depth)).map .list
  | depth + 1, .object fields => do
      let read ← fields.mapM fun (key, item) => do
        let key ← key
        let value ← valueTo? depth item
        return (key, value)
      return .object (Entries.sorted read)

end Draft

def maxDepth : Nat := 127

end Json

def Value.ofJson? (text : String) : Option Value :=
  (Json.Draft.ofText? text).bind (Json.Draft.valueTo? Json.maxDepth)

end DesiredState
