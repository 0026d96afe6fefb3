import DesiredState.Value

/-!
# Writing JSON

The two written forms of a value. `Value.compact` has no blanks; `Value.pretty` puts every
element on a line of its own, two columns deeper than what encloses it. Objects are written in
the order in which their fields stand.
-/

set_option autoImplicit false

namespace DesiredState

namespace Json

/-- How one character of a string is written: quote, backslash and the control characters are
escaped, everything else stands for itself. -/
def escape (c : Char) : List Char :=
  match c with
  | '"' => ['\\', '"']
  | '\\' => ['\\', '\\']
  | '\x08' => ['\\', 'b']
  | '\x0c' => ['\\', 'f']
  | '\n' => ['\\', 'n']
  | '\r' => ['\\', 'r']
  | '\t' => ['\\', 't']
  | c =>
      if c.toNat < 0x20 then
        ['\\', 'u', '0', '0', Nat.digitChar (c.toNat / 16), Nat.digitChar (c.toNat % 16)]
      else [c]

def quote (text : String) : String :=
  String.ofList ('"' :: (text.toList.flatMap escape ++ ['"']))

def indentation (depth : Nat) : String := String.ofList (List.replicate (2 * depth) ' ')

end Json

namespace Value

mutual

def compact : Value → String
  | .null => "null"
  | .bool true => "true"
  | .bool false => "false"
  | .number n => n.text
  | .string text => Json.quote text
  | .list [] => "[]"
  | .list (item :: rest) => "[" ++ compact item ++ compactItems rest
  | .object [] => "\x7b\x7d"
  | .object ((key, value) :: rest) =>
      "\x7b" ++ Json.quote key ++ ":" ++ compact value ++ compactFields rest

def compactItems : List Value → String
  | [] => "]"
  | item :: rest => "," ++ compact item ++ compactItems rest

def compactFields : List (String × Value) → String
  | [] => "\x7d"
  | (key, value) :: rest =>
      "," ++ Json.quote key ++ ":" ++ compact value ++ compactFields rest

end

mutual

def prettyAt (depth : Nat) : Value → String
  | .null => "null"
  | .bool true => "true"
  | .bool false => "false"
  | .number n => n.text
  | .string text => Json.quote text
  | .list [] => "[]"
  | .list (item :: rest) =>
      "[\n" ++ Json.indentation (depth + 1) ++ prettyAt (depth + 1) item ++ prettyItems depth rest
  | .object [] => "\x7b\x7d"
  | .object ((key, value) :: rest) =>
      "\x7b\n" ++ Json.indentation (depth + 1) ++ Json.quote key ++ ": " ++
        prettyAt (depth + 1) value ++ prettyFields depth rest

def prettyItems (depth : Nat) : List Value → String
  | [] => "\n" ++ Json.indentation depth ++ "]"
  | item :: rest =>
      ",\n" ++ Json.indentation (depth + 1) ++ prettyAt (depth + 1) item ++
        prettyItems depth rest

def prettyFields (depth : Nat) : List (String × Value) → String
  | [] => "\n" ++ Json.indentation depth ++ "\x7d"
  | (key, value) :: rest =>
      ",\n" ++ Json.indentation (depth + 1) ++ Json.quote key ++ ": " ++
        prettyAt (depth + 1) value ++ prettyFields depth rest

end

def pretty (value : Value) : String := prettyAt 0 value

/-- The value as it stands in messages and labels: text without its quotes, anything else in
compact form. -/
def plain : Value → String
  | .string text => text
  | value => value.compact

end Value

end DesiredState
