import DesiredState.Disk
import DesiredState.Pass.Request
import DesiredState.Schema.Catalog
import DesiredState.Schema.Descriptor
import DesiredState.Yaml.Content

/-!
# Manifests

A manifest describes one resource and the entries of its collections in YAML. What it sets
itself takes precedence over the settings of the user.
-/

set_option autoImplicit false

namespace DesiredState

/-- A description of what is desired. -/
structure Manifest where
  kind : String
  /-- The number of the object; a manifest without one asks for a new object. -/
  id : Option Nat
  attributes : Attributes
  collections : SortedMap (List Attributes)
  wait : Option Bool
  timeoutSecs : Option Nat
  strictIdentity : Option Bool
  awaitAction : Option String

/-- Why a manifest is no request. -/
inductive ManifestError where
  | unreadable (path : String)
  | malformed (path : String)
  | unknownKind (kind : String)
  | unknownCollection (kind parent : String)
  deriving DecidableEq

namespace ManifestError

def message : ManifestError → String
  | .unreadable path => "failed to read manifest " ++ path
  | .malformed path => "failed to parse manifest " ++ path
  | .unknownKind kind => "unknown resource kind '" ++ kind ++ "'"
  | .unknownCollection kind parent =>
      "unknown sub-resource kind '" ++ kind ++ "' under " ++ parent

end ManifestError

namespace Manifest

/-! ## Reading -/

def names : List String :=
  ["kind", "id", "attributes", "collections", "wait", "timeout_secs", "strict_identity",
    "await_action"]

def entries? (node : Yaml.Node) : Option (List Attributes) := do
  let items ← node.items?
  items.mapM Yaml.Node.attributes?

def collections? (node : Yaml.Node) : Option (SortedMap (List Attributes)) := do
  let fields ← node.fields?
  let collections ← fields.mapM fun (kind, node) => (entries? node).map fun list => (kind, list)
  return .ofList collections

def ofNode? (node : Yaml.Node) : Option Manifest := do
  let fields ← node.fields?
  if !fields.all (fun field => names.contains field.1) then none
  if !Yaml.Node.areDistinct fields then none
  let kind ← (fields.lookup "kind").bind Yaml.Node.text?
  let optional {α : Type} (name : String) (read : Yaml.Node → Option α) :=
    Yaml.Node.component? fields name none (Yaml.Node.optional? read)
  let id ← optional "id" Yaml.Node.unsigned?
  let attributes ← Yaml.Node.component? fields "attributes" ∅ Yaml.Node.attributes?
  let collections ← Yaml.Node.component? fields "collections" ∅ collections?
  let wait ← optional "wait" Yaml.Node.bool?
  let timeoutSecs ← optional "timeout_secs" Yaml.Node.unsigned?
  let strictIdentity ← optional "strict_identity" Yaml.Node.bool?
  let awaitAction ← optional "await_action" Yaml.Node.text?
  return ⟨kind, id, attributes, collections, wait, timeoutSecs, strictIdentity, awaitAction⟩

def ofYaml? (text : String) : Option Manifest := do
  let root ← Yaml.document? text
  let content ← (Yaml.Document.of (← root)).content?
  ofNode? content

def load (disk : Disk) (directory : Path) (path : String) : Except ManifestError Manifest :=
  match disk.read? (Path.locate directory path) with
  | none => .error (.unreadable path)
  | some text =>
      match ofYaml? text with
      | some manifest => .ok manifest
      | none => .error (.malformed path)

/-! ## Requests -/

def target (manifest : Manifest) (schema : Schema) : Target :=
  match manifest.id with
  | some id => .existing (.top schema.kind id)
  | none => .new none

def withCollections (request : PassRequest) :
    List (String × List Attributes) → Except ManifestError PassRequest
  | [] => .ok request
  | (kind, entries) :: rest =>
      match Catalog.schema? kind with
      | none => .error (.unknownCollection kind request.schema.kind)
      | some schema => withCollections (request.withCollection schema entries) rest

def override (manifest : Manifest) (request : PassRequest) : PassRequest :=
  { request with
    wait := (manifest.wait.map PassRequest.waitMode).getD request.wait
    timeout := (manifest.timeoutSecs.map (· * 1000)).getD request.timeout
    strict := manifest.strictIdentity.getD request.strict
    awaitAction := manifest.awaitAction }

def toRequest (manifest : Manifest) (settings : Settings) : Except ManifestError PassRequest :=
  match Catalog.schema? manifest.kind with
  | none => .error (.unknownKind manifest.kind)
  | some schema =>
      let request := (PassRequest.of schema (manifest.target schema) manifest.attributes)
        |>.withSettings settings
      match withCollections request manifest.collections.entries with
      | .error error => .error error
      | .ok request => .ok (manifest.override request)

end Manifest

end DesiredState
