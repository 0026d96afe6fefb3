import DesiredState.Yaml.Token

/-!
# Nodes

The content of a YAML document: scalars, sequences and mappings. A mapping keeps its pairs in
their order, whatever the keys are. A node may have a number by which others stand for it, and a
tag. `Yaml.document?` reads a text that holds at most one document.
-/

set_option autoImplicit false

namespace DesiredState

namespace Yaml

/-- What is said about a node in front of it. -/
structure Properties where
  anchor : Option Nat
  tag : Option String
  deriving DecidableEq

namespace Properties

def none : Properties := ⟨.none, .none⟩

def isGiven (properties : Properties) : Bool :=
  properties.anchor.isSome || properties.tag.isSome

def ofScalar (properties : Properties) : Properties :=
  if properties.tag == some "!" then { properties with tag := .none } else properties

end Properties

/-- The content of a document. -/
inductive Node where
  | scalar (text : String) (style : Style) (properties : Properties)
  | sequence (items : List Node) (properties : Properties)
  | mapping (pairs : List (Node × Node)) (properties : Properties)
  | alias (anchor : Nat)

namespace Node

def empty (properties : Properties) : Node := .scalar "" .plain properties

abbrev Reading (α : Type) := Option (α × List Token)

def consRead {α : Type} (head : α) : Reading (List α) → Reading (List α)
  | some (read, rest) => some (head :: read, rest)
  | none => none

/-! ## Properties -/

def tagText? (handles : List (String × String)) (tag : TagName) : Option String :=
  if tag.handle == "" then some tag.suffix
  else (handles.lookup tag.handle).map (· ++ tag.suffix)

/-- The properties in front of a node: a number and a tag in either order, either alone, or
nothing. -/
def properties? (handles : List (String × String)) : List Token → Reading Properties
  | .anchor anchor :: .tag tag :: rest | .tag tag :: .anchor anchor :: rest =>
      (tagText? handles tag).map fun tag => (⟨some anchor, some tag⟩, rest)
  | .anchor anchor :: rest => some (⟨some anchor, none⟩, rest)
  | .tag tag :: rest => (tagText? handles tag).map fun tag => (⟨none, some tag⟩, rest)
  | rest => some (.none, rest)

/-! ## Content -/

def hasContent (tokens : List Token) (ends : List Token) : Bool :=
  tokens.head?.any fun token => !ends.contains token

/-- Pass the comma in front of an entry that is not the first; the closing bracket needs
none. -/
def flowRest? (first : Bool) (close : Token) (tokens : List Token) : Option (List Token) :=
  if first || tokens.head? == some close then some tokens
  else
    match tokens with
    | .flowEntry :: rest => some rest
    | _ => none

mutual

/-- Read a node. `block` allows collections in block style; `loose` allows a sequence whose
dashes stand at the column of the keys around it. -/
def read? (handles : List (String × String)) (block loose : Bool) :
    Nat → List Token → Reading Node
  | 0, _ => none
  | fuel + 1, tokens =>
      match tokens with
      | .alias anchor :: rest => some (.alias anchor, rest)
      | tokens =>
          match properties? handles tokens with
          | none => none
          | some (properties, tokens) =>
              content? handles block loose properties fuel tokens

def content? (handles : List (String × String)) (block loose : Bool) (properties : Properties) :
    Nat → List Token → Reading Node
  | 0, _ => none
  | fuel + 1, tokens =>
      let sequence := Option.map fun (items, rest) => (sequence items properties, rest)
      let mapping := Option.map fun (pairs, rest) => (mapping pairs properties, rest)
      let other := if properties.isGiven then some (empty properties, tokens) else none
      match tokens with
      | .scalar text style :: rest => some (.scalar text style properties.ofScalar, rest)
      | .flowSequenceStart :: rest => sequence (flowItems? handles true fuel rest)
      | .flowMappingStart :: rest => mapping (flowPairs? handles true fuel rest)
      | .blockSequenceStart :: rest =>
          if block then sequence (blockItems? handles fuel rest) else other
      | .blockMappingStart :: rest =>
          if block then mapping (blockPairs? handles fuel rest) else other
      | .blockEntry :: _ => if loose then sequence (looseItems? handles fuel tokens) else other
      | _ => other

/-- Read a node of a block collection, or nothing if one of the given tokens comes next. -/
def readUnless? (handles : List (String × String)) (ends : List Token) (loose : Bool) :
    Nat → List Token → Reading Node
  | 0, _ => none
  | fuel + 1, tokens =>
      if hasContent tokens ends then read? handles true loose fuel tokens
      else some (empty .none, tokens)

def readFlowUnless? (handles : List (String × String)) (ends : List Token) :
    Nat → List Token → Reading Node
  | 0, _ => none
  | fuel + 1, tokens =>
      if hasContent tokens ends then read? handles false false fuel tokens
      else some (empty .none, tokens)

def blockItems? (handles : List (String × String)) : Nat → List Token → Reading (List Node)
  | 0, _ => none
  | fuel + 1, tokens =>
      match tokens with
      | .blockEnd :: rest => some ([], rest)
      | .blockEntry :: rest =>
          match readUnless? handles [.blockEntry, .blockEnd] false fuel rest with
          | none => none
          | some (item, rest) => consRead item (blockItems? handles fuel rest)
      | _ => none

def looseItems? (handles : List (String × String)) : Nat → List Token → Reading (List Node)
  | 0, _ => none
  | fuel + 1, tokens =>
      match tokens with
      | .blockEntry :: rest =>
          match readUnless? handles [.blockEntry, .key, .value, .blockEnd] false fuel rest with
          | none => none
          | some (item, rest) => consRead item (looseItems? handles fuel rest)
      | _ => some ([], tokens)

def blockPairs? (handles : List (String × String)) :
    Nat → List Token → Reading (List (Node × Node))
  | 0, _ => none
  | fuel + 1, tokens =>
      match tokens with
      | .blockEnd :: rest => some ([], rest)
      | .key :: rest =>
          match readUnless? handles [.key, .value, .blockEnd] true fuel rest with
          | none => none
          | some (key, rest) =>
              match blockValue? handles fuel rest with
              | none => none
              | some (value, rest) => consRead (key, value) (blockPairs? handles fuel rest)
      | _ => none

def blockValue? (handles : List (String × String)) : Nat → List Token → Reading Node
  | 0, _ => none
  | fuel + 1, tokens =>
      match tokens with
      | .value :: rest => readUnless? handles [.key, .value, .blockEnd] true fuel rest
      | _ => some (empty .none, tokens)

/-- The entries of a bracketed sequence. An entry with a colon is a mapping of one pair. -/
def flowItems? (handles : List (String × String)) (first : Bool) :
    Nat → List Token → Reading (List Node)
  | 0, _ => none
  | fuel + 1, tokens =>
      match flowRest? first .flowSequenceEnd tokens with
      | none => none
      | some (.flowSequenceEnd :: rest) => some ([], rest)
      | some (.key :: rest) =>
          match flowKey? handles fuel rest with
          | none => none
          | some (key, rest) =>
              match flowValue? handles .flowSequenceEnd fuel rest with
              | none => none
              | some (value, rest) =>
                  consRead (.mapping [(key, value)] .none) (flowItems? handles false fuel rest)
      | some rest =>
          match read? handles false false fuel rest with
          | none => none
          | some (item, rest) => consRead item (flowItems? handles false fuel rest)

/-- The key of a pair that is an entry of a bracketed sequence. The token in the place of a key
that is left out is lost. -/
def flowKey? (handles : List (String × String)) : Nat → List Token → Reading Node
  | 0, _ => none
  | fuel + 1, tokens =>
      if hasContent tokens [.value, .flowEntry, .flowSequenceEnd] then
        read? handles false false fuel tokens
      else some (empty .none, tokens.tail)

def flowPairs? (handles : List (String × String)) (first : Bool) :
    Nat → List Token → Reading (List (Node × Node))
  | 0, _ => none
  | fuel + 1, tokens =>
      match flowRest? first .flowMappingEnd tokens with
      | none => none
      | some (.flowMappingEnd :: rest) => some ([], rest)
      | some (.key :: rest) =>
          match readFlowUnless? handles [.value, .flowEntry, .flowMappingEnd] fuel rest with
          | none => none
          | some (key, rest) =>
              match flowValue? handles .flowMappingEnd fuel rest with
              | none => none
              | some (value, rest) => consRead (key, value) (flowPairs? handles false fuel rest)
      | some rest =>
          match read? handles false false fuel rest with
          | none => none
          | some (key, rest) =>
              consRead (key, empty .none) (flowPairs? handles false fuel rest)

def flowValue? (handles : List (String × String)) (close : Token) :
    Nat → List Token → Reading Node
  | 0, _ => none
  | fuel + 1, tokens =>
      match tokens with
      | .value :: rest => readFlowUnless? handles [.flowEntry, close] fuel rest
      | _ => some (empty .none, tokens)

end

end Node

/-! ## Documents -/

def directives : List Token → List Directive × List Token
  | .directive directive :: rest =>
      let (more, rest) := directives rest
      (directive :: more, rest)
  | rest => ([], rest)

def Directive.isVersion : Directive → Bool
  | .version _ _ => true
  | .tag _ _ => false

def Directive.handle? : Directive → Option (String × String)
  | .version _ _ => none
  | .tag handle start => some (handle, start)

def Directive.isKnown : Directive → Bool
  | .version major minor => major == 1 && (minor == 1 || minor == 2)
  | .tag _ _ => true

def commonHandles : List (String × String) := [("!", "!"), ("!!", "tag:yaml.org,2002:")]

/-- What handles stand for under some directives. The version is declared at most once, and so is
every handle. -/
def handlesOf? (directives : List Directive) : Option (List (String × String)) :=
  let declared := directives.filterMap Directive.handle?
  if directives.all Directive.isKnown && (directives.filter Directive.isVersion).length ≤ 1 &&
      (declared.map (·.1)).Nodup then
    some (declared ++ commonHandles)
  else none

def Token.endsDocument : Token → Bool
  | .directive _ | .documentStart | .documentEnd => true
  | _ => false

def marked? (handles : List (String × String)) (fuel : Nat) : List Token → Node.Reading Node
  | .documentStart :: rest =>
      if rest.head?.all Token.endsDocument then some (.empty .none, rest)
      else Node.read? handles true false fuel rest
  | _ => none

def isFinished (tokens : List Token) : Bool := tokens.all (· == .documentEnd)

/-- The content of the only document of a text. There is none in a text without tokens. -/
def document? (text : String) : Option (Option Node) := do
  let chars ← normalize? text
  let tokens ← tokens? chars
  if tokens.isEmpty then return none
  let fuel := 4 * tokens.length + 4
  let (declared, content) := directives tokens
  let (node, rest) ←
    if declared.isEmpty && content.head? != some .documentStart then
      Node.read? commonHandles true false fuel content
    else do
      let handles ← handlesOf? declared
      marked? handles fuel content
  if isFinished rest then return some node else none

end Yaml

end DesiredState
