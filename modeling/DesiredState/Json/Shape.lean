import DesiredState.Json.Reader

/-!
# Reading JSON for a purpose

Who knows what to look for does not look at everything. A shape says which parts of a draft are
looked at. In a record these are its components, none of which may be there twice; any other
field is passed over, whatever stands in it.
-/

set_option autoImplicit false

namespace DesiredState

namespace Json

/-- What is looked at in a draft. -/
inductive Shape where
  | whole
  /-- A name, by itself or as the only key of an object. -/
  | name
  | items (each : Shape)
  /-- The components of a record, by their names or in their order. -/
  | record (components : List (String × Shape))

namespace Draft

/-- The fields of a draft that belong to some components. All keys have to be sound, and no
component may occur twice. -/
def componentFields? (components : List (String × Shape))
    (fields : List (Option String × Draft)) : Option (List (String × Shape × Draft)) := do
  let keyed ← fields.mapM fun (key, item) => key.map fun key => (key, item)
  let known := keyed.filterMap fun (key, item) =>
    (components.lookup key).map fun shape => (key, shape, item)
  if (known.map (·.1)).Nodup then some known else none

/-- The value of a draft as far as it is looked at. Lists and objects that are looked at are
nested at most to the given depth. -/
def valueAs? : Nat → Shape → Draft → Option Value
  | depth + 1, .name, .object fields =>
      if fields.length = 1 then valueTo? (depth + 1) (.object fields) else none
  | depth + 1, .items each, .list items => (items.mapM (valueAs? depth each)).map .list
  | depth + 1, .record components, .list items =>
      if items.length ≤ components.length then do
        let read ← (components.zip items).mapM fun (component, item) =>
          valueAs? depth component.2 item
        return .list read
      else none
  | depth + 1, .record components, .object fields => do
      let known ← componentFields? components fields
      let read ← known.mapM fun (key, shape, item) => do
        let value ← valueAs? depth shape item
        return (key, value)
      return .object (Entries.sorted read)
  | depth, _, draft => valueTo? depth draft

end Draft

end Json

def Value.ofJsonAs? (shape : Json.Shape) (text : String) : Option Value :=
  (Json.Draft.ofText? text).bind (Json.Draft.valueAs? Json.maxDepth shape)

end DesiredState
