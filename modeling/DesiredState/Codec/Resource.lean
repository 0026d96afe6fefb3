import DesiredState.Codec.Record
import DesiredState.Schema.Descriptor

/-!
# Encoding of resources

The persisted forms of references, collections, objects, changes and descriptors. A component
that is absent is left out of the encoding, except for the old value of a change, which is
written as null.
-/

set_option autoImplicit false

namespace DesiredState

namespace ResourceRef

def toValue : ResourceRef → Value
  | .top kind id => .object [("kind", .string kind), ("id", .ofNat id)]
  | .child parent kind id =>
      .object [("kind", .string kind), ("id", .ofNat id), ("parent", parent.toValue)]

mutual

def ofValue? : Value → Option ResourceRef
  | .object fields =>
      match Value.required? fields "kind" Value.string?, Value.required? fields "id" Value.nat?,
          parentOfFields? fields with
      | some kind, some id, some parent => some (under parent kind id)
      | _, _, _ => none
  | .list [.string kind, id] => id.nat?.map (.top kind)
  | .list [.string kind, id, parent] =>
      match id.nat?, parent, ofValue? parent with
      | some id, .null, _ => some (.top kind id)
      | some id, _, some parent => some (.child parent kind id)
      | _, _, _ => none
  | _ => none

def parentOfFields? : List (String × Value) → Option (Option ResourceRef)
  | [] => some none
  | (key, value) :: rest =>
      if key = "parent" then
        match value, ofValue? value with
        | .null, _ => some none
        | _, some parent => some (some parent)
        | _, none => none
      else parentOfFields? rest

end

def shapeTo : Nat → Json.Shape
  | 0 => .whole
  | levels + 1 => .record [("kind", .whole), ("id", .whole), ("parent", shapeTo levels)]

def shape : Json.Shape := shapeTo Json.maxDepth

end ResourceRef

namespace Collection

def toValue (collection : Collection) : Value :=
  match collection.parent with
  | none => .object [("kind", .string collection.kind)]
  | some parent => .object [("kind", .string collection.kind), ("parent", parent.toValue)]

def ofValue? (value : Value) : Option Collection := do
  let fields ← value.components? ["kind", "parent"]
  let kind ← Value.required? fields "kind" Value.string?
  let parent ← Value.defaulted? fields "parent" none (Value.nullable? ResourceRef.ofValue?)
  return ⟨kind, parent⟩

end Collection

namespace RemoteObject

def toValue (object : RemoteObject) : Value :=
  .object [("reference", object.reference.toValue), ("attributes", .ofAttributes object.attributes)]

def ofValue? (value : Value) : Option RemoteObject := do
  let fields ← value.components? ["reference", "attributes"]
  let reference ← Value.required? fields "reference" ResourceRef.ofValue?
  let attributes ← Value.defaulted? fields "attributes" ∅ Value.attributes?
  return ⟨reference, attributes⟩

def shape : Json.Shape := .record [("reference", ResourceRef.shape), ("attributes", .whole)]

end RemoteObject

namespace FieldChange

def toValue (change : FieldChange) : Value :=
  .object [("field", .string change.field), ("old", change.old.getD .null), ("new", change.new)]

def ofValue? (value : Value) : Option FieldChange := do
  let fields ← value.components? ["field", "old", "new"]
  let field ← Value.required? fields "field" Value.string?
  let old ← Value.defaulted? fields "old" none (Value.nullable? some)
  let new ← Value.required? fields "new" some
  return ⟨field, old, new⟩

end FieldChange

namespace Descriptor

def toValue (descriptor : Descriptor) : Value :=
  .object [("identity", .ofAttributes descriptor.identity),
    ("payload", .ofAttributes descriptor.payload)]

def ofValue? (value : Value) : Option Descriptor := do
  let fields ← value.components? ["identity", "payload"]
  let identity ← Value.required? fields "identity" Value.attributes?
  let payload ← Value.required? fields "payload" Value.attributes?
  return ⟨identity, payload⟩

end Descriptor

namespace OperationKind

def ofText? : String → Option OperationKind
  | "create" => some .create
  | "update" => some .update
  | "delete" => some .delete
  | _ => none

end OperationKind

end DesiredState
