import DesiredState.Yaml.Node

/-!
# Documents

A node that stands for another one is replaced by it, wherever a document is looked at. What is
not looked at is left alone: there a node may even contain itself. So that the rest stays within
bounds, collections are nested at most `Document.maxDepth` deep, and the number of replacements is
at most a hundred times the size of the document.
-/

set_option autoImplicit false

namespace DesiredState

namespace Yaml

namespace Node

/-! ## Measures -/

mutual

def size : Node → Nat
  | .scalar _ _ _ | .alias _ => 1
  | .sequence items _ => itemsSize items + 2
  | .mapping pairs _ => pairsSize pairs + 2

def itemsSize : List Node → Nat
  | [] => 0
  | item :: rest => size item + itemsSize rest

def pairsSize : List (Node × Node) → Nat
  | [] => 0
  | (key, value) :: rest => size key + size value + pairsSize rest

end

def numbered (node : Node) (properties : Properties) : List (Nat × Node) :=
  (properties.anchor.map fun anchor => (anchor, node)).toList

mutual

def anchored : Node → List (Nat × Node)
  | .scalar text style properties => numbered (.scalar text style properties) properties
  | .sequence items properties =>
      numbered (.sequence items properties) properties ++ itemsAnchored items
  | .mapping pairs properties =>
      numbered (.mapping pairs properties) properties ++ pairsAnchored pairs
  | .alias _ => []

def itemsAnchored : List Node → List (Nat × Node)
  | [] => []
  | item :: rest => anchored item ++ itemsAnchored rest

def pairsAnchored : List (Node × Node) → List (Nat × Node)
  | [] => []
  | (key, value) :: rest => anchored key ++ anchored value ++ pairsAnchored rest

end

/-! ## Replacement -/

def text? : Node → Option String
  | .scalar text _ _ => some text
  | _ => none

abbrev Replacing := StateT Nat Option

def followed (anchors : List (Nat × Node)) : Node → Replacing Node
  | .alias anchor => do
      let left ← get
      if left = 0 then failure
      set (left - 1)
      match anchors.lookup anchor with
      | some node => return node
      | none => failure
  | node => return node

/-- A node without nodes that stand for others, and with collections nested at most to the given
depth. -/
def replaced (anchors : List (Nat × Node)) : Nat → Node → Replacing Node
  | 0, node => do
      match ← followed anchors node with
      | .scalar text style properties => return .scalar text style properties
      | _ => failure
  | depth + 1, node => do
      match ← followed anchors node with
      | .scalar text style properties => return .scalar text style properties
      | .sequence items properties =>
          return .sequence (← items.mapM (replaced anchors depth)) properties
      | .mapping pairs properties =>
          let pairs ← pairs.mapM fun (key, value) => do
            let key ← replaced anchors depth key
            return (key, ← replaced anchors depth value)
          return .mapping pairs properties
      | .alias _ => failure

end Node

/-- A document: its content, and the nodes that others stand for. -/
structure Document where
  root : Node
  /-- The nodes that have a number. Of several with one number the first counts. -/
  anchors : List (Nat × Node)

namespace Document

def maxDepth : Nat := 128

/-- The document with this content. Of several nodes with one number the last in the text
counts. -/
def of (root : Node) : Document := ⟨root, root.anchored.reverse⟩

def replaced? (document : Document) (node : Node) : Option Node :=
  (node.replaced document.anchors maxDepth).run' (100 * document.root.size)

def keyText? (document : Document) : Node → Option String
  | .alias anchor => (document.anchors.lookup anchor).bind Node.text?
  | key => key.text?

def content? (document : Document) : Option Node := document.replaced? document.root

def contentFor? (document : Document) (wanted : String → Bool) : Option Node :=
  match document.root with
  | .mapping pairs properties =>
      let pairs := pairs.map fun (key, value) =>
        if (document.keyText? key).all wanted then (key, value) else (key, .empty .none)
      document.replaced? (.mapping pairs properties)
  | root => document.replaced? root

end Document

end Yaml

end DesiredState
