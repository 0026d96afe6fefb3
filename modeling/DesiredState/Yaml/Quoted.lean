import DesiredState.Json.Reader
import DesiredState.Yaml.Cursor

/-!
# Quoted scalars

Text in single quotes, where two of them stand for one, or in double quotes, where a backslash
begins an escape. Both may run over several lines.
-/

set_option autoImplicit false

namespace DesiredState

namespace Yaml

/-- The characters up to a separator, the closing quote or an escaped end of line, and what
follows. -/
structure QuotedWord where
  text : List Char
  rest : List Char
  /-- Whether the word ended with an escaped end of line. -/
  joined : Bool

def QuotedWord.cons? (c : Char) : Option QuotedWord → Option QuotedWord
  | some word => some { word with text := c :: word.text }
  | none => none

def singleWord : List Char → QuotedWord
  | [] => ⟨[], [], false⟩
  | '\'' :: '\'' :: rest =>
      let word := singleWord rest
      { word with text := '\'' :: word.text }
  | c :: rest =>
      if c == '\'' || isGap c then ⟨[], c :: rest, false⟩
      else
        let word := singleWord rest
        { word with text := c :: word.text }

def unescape? : Char → Option Char
  | '0' => some '\x00'
  | 'a' => some '\x07'
  | 'b' => some '\x08'
  | 't' | '\t' => some '\t'
  | 'n' => some '\n'
  | 'v' => some '\x0b'
  | 'f' => some '\x0c'
  | 'r' => some '\r'
  | 'e' => some '\x1b'
  | ' ' => some ' '
  | '"' => some '"'
  | '/' => some '/'
  | '\\' => some '\\'
  | 'N' => some '\u0085'
  | '_' => some '\u00a0'
  | 'L' => some '\u2028'
  | 'P' => some '\u2029'
  | _ => none

def hexChar? (digits : List Char) : Option Char :=
  match digits.mapM Json.hexDigit? with
  | none => none
  | some values =>
      let code := values.foldl (fun code digit => code * 16 + digit) 0
      if code.isValidChar then some (Char.ofNat code) else none

def doubleWord? : List Char → Option QuotedWord
  | [] => some ⟨[], [], false⟩
  | '\\' :: 'x' :: a :: b :: rest =>
      match hexChar? [a, b] with
      | some c => QuotedWord.cons? c (doubleWord? rest)
      | none => none
  | '\\' :: 'u' :: a :: b :: c :: d :: rest =>
      match hexChar? [a, b, c, d] with
      | some c => QuotedWord.cons? c (doubleWord? rest)
      | none => none
  | '\\' :: 'U' :: a :: b :: c :: d :: e :: f :: g :: h :: rest =>
      match hexChar? [a, b, c, d, e, f, g, h] with
      | some c => QuotedWord.cons? c (doubleWord? rest)
      | none => none
  | '\\' :: c :: rest =>
      if isBreak c then some ⟨[], rest, true⟩
      else
        match unescape? c with
        | some c => QuotedWord.cons? c (doubleWord? rest)
        | none => none
  | c :: rest =>
      if c == '"' || c == '\\' || isGap c then some ⟨[], c :: rest, false⟩
      else QuotedWord.cons? c (doubleWord? rest)

def quotedWords? (quote : Char) : Nat → List Char → Cursor → Option (List Char × Cursor)
  | 0, _, _ => none
  | fuel + 1, text, cursor =>
      if cursor.atDocumentMarker || cursor.atEnd then none
      else
        let word := if quote == '"' then doubleWord? cursor.rest else some (singleWord cursor.rest)
        match word with
        | none => none
        | some word =>
            let text := text ++ word.text
            let cursor := cursor.upTo word.rest
            if cursor.at? quote then some (text, cursor.advance 1)
            else
              let (gap, cursor) := cursor.span isGap
              let between := if word.joined then gap.filter isBreak else foldGap gap
              quotedWords? quote fuel (text ++ between) cursor

def quoted? (quote : Char) (cursor : Cursor) : Option (List Char × Cursor) :=
  quotedWords? quote (cursor.rest.length + 1) [] (cursor.advance 1)

end Yaml

end DesiredState
