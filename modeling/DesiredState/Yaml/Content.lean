import DesiredState.Yaml.Document
import DesiredState.Yaml.Scalar

/-!
# Reading nodes

What a node stands for where a certain type is wanted. A name or a text may be any scalar; a
number or a truth value has to be written without quotes, or as a literal block that is tagged as
one; content that is left out is empty where a collection is wanted, and absent where something
optional is.

Where any value is wanted a tag of the language says what a scalar is. There is no value with a
tag that somebody made up.
-/

set_option autoImplicit false

namespace DesiredState

namespace Yaml

/-! ## Tags -/

/-- What a tag of the language says about a scalar. -/
inductive ScalarKind where
  | null
  | bool
  | int
  | float
  | other
  deriving DecidableEq

def scalarKind (tag : String) : ScalarKind :=
  match tag with
  | "tag:yaml.org,2002:null" => .null
  | "tag:yaml.org,2002:bool" => .bool
  | "tag:yaml.org,2002:int" => .int
  | "tag:yaml.org,2002:float" => .float
  | _ => .other

def taggedValue? (text : String) : ScalarKind → Option Value
  | .null => if text != "" && isNull text then some .null else none
  | .bool => (bool? text).map .bool
  | .int => (integer? text.toList).bind integerValue?
  | .float => floatValue? text
  | .other => some (.string text)

def untaggedValue? (text : String) (style : Style) : Option Value :=
  if style = .plain then value? text else some (.string text)

namespace Properties

def isPrivate (properties : Properties) : Bool := properties.tag.any (·.startsWith "!")

def announces (properties : Properties) (kind : ScalarKind) : Bool :=
  properties.tag.any fun tag => scalarKind tag = kind

end Properties

namespace Node

/-! ## Scalars -/

/-- Whether a scalar can be something else than text: without quotes it can, and in a literal
block if that is tagged. -/
def isBare (style : Style) (properties : Properties) (kind : ScalarKind) : Bool :=
  match style with
  | .plain => true
  | .literal => properties.announces kind
  | .quoted | .folded => false

def unsigned? : Node → Option Nat
  | .scalar text style properties =>
      if isBare style properties .int then Yaml.unsigned? text else none
  | _ => none

def bool? : Node → Option Bool
  | .scalar text style properties =>
      if isBare style properties .bool then Yaml.bool? text else none
  | _ => none

def optional? {α : Type} (read : Node → Option α) (node : Node) : Option (Option α) :=
  match node with
  | .scalar text .plain properties =>
      match properties.tag with
      | none => if isNull text then some none else (read node).map some
      | some tag =>
          if scalarKind tag = .null then (taggedValue? text .null).map fun _ => none
          else (read node).map some
  | node => (read node).map some

/-! ## Collections -/

def items? : Node → Option (List Node)
  | .sequence items _ => some items
  | .scalar "" .plain _ => some []
  | _ => none

def fields? : Node → Option (List (String × Node))
  | .mapping pairs _ => pairs.mapM fun (key, value) => key.text?.map fun key => (key, value)
  | .scalar "" .plain _ => some []
  | _ => none

mutual

def value? : Node → Option Value
  | .scalar text style ⟨_, none⟩ => untaggedValue? text style
  | .scalar text _ ⟨_, some tag⟩ =>
      if tag.startsWith "!" then none else taggedValue? text (scalarKind tag)
  | .sequence items properties =>
      if properties.isPrivate then none else (itemValues? items).map .list
  | .mapping pairs properties =>
      if properties.isPrivate then none
      else (pairValues? pairs).map fun fields => .object (Entries.sorted fields)
  | .alias _ => none

def itemValues? : List Node → Option (List Value)
  | [] => some []
  | item :: rest =>
      match value? item, itemValues? rest with
      | some value, some values => some (value :: values)
      | _, _ => none

def pairValues? : List (Node × Node) → Option (List (String × Value))
  | [] => some []
  | (key, item) :: rest =>
      match key.text?, value? item, pairValues? rest with
      | some key, some value, some fields => some ((key, value) :: fields)
      | _, _, _ => none

end

/-- The attributes that a mapping stands for; of several with one key the last counts. -/
def attributes? (node : Node) : Option Attributes := do
  let pairs ← node.fields?
  let fields ← pairs.mapM fun (key, value) => value.value?.map fun value => (key, value)
  return .ofList fields

/-! ## Records -/

def areDistinct (fields : List (String × Node)) : Bool := (fields.map (·.1)).Nodup

def component? {α : Type} (fields : List (String × Node)) (name : String) (default : α)
    (read : Node → Option α) : Option α :=
  match fields.lookup name with
  | none => some default
  | some node => read node

end Node

end Yaml

end DesiredState
