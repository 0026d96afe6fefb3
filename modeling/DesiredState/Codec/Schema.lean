import DesiredState.Codec.Record
import DesiredState.Schema

/-!
# Encoding of schemas

A field is encoded with all its properties. The slot policy is a word, or the names of the
shared fields under the word `shared`.
-/

set_option autoImplicit false

namespace DesiredState

namespace FieldKind

def ofName? : String → Option FieldKind
  | "string" => some .string
  | "integer" => some .integer
  | "boolean" => some .boolean
  | "object" => some .object
  | "list" => some .list
  | _ => none

end FieldKind

namespace FieldSpec

def toValue (spec : FieldSpec) : Value :=
  .object [("name", .string spec.name), ("kind", .string spec.kind.name),
    ("mutable", .bool spec.mutable), ("nullable", .bool spec.nullable),
    ("identity", .bool spec.identity)]

def ofValue? (value : Value) : Option FieldSpec := do
  let fields ← value.components? ["name", "kind", "mutable", "nullable", "identity"]
  let name ← Value.required? fields "name" Value.string?
  let kindName ← Value.required? fields "kind" Value.string?
  let kind ← FieldKind.ofName? kindName
  let mutable ← Value.required? fields "mutable" Value.bool?
  let nullable ← Value.required? fields "nullable" Value.bool?
  let identity ← Value.required? fields "identity" Value.bool?
  return ⟨name, kind, mutable, nullable, identity⟩

end FieldSpec

namespace SlotPolicy

def toValue : SlotPolicy → Value
  | .independent => .string "independent"
  | .exclusive => .string "exclusive"
  | .sharedSlot fields => .object [("shared", .list (fields.map .string))]

def ofValue? : Value → Option SlotPolicy
  | .string "independent" => some .independent
  | .string "exclusive" => some .exclusive
  | .object [("shared", fields)] => (fields.items? Value.string?).map .sharedSlot
  | _ => none

end SlotPolicy

namespace Schema

def ofValue? (value : Value) : Option Schema := do
  let parts ← value.components? ["kind", "fields", "slots", "children"]
  let kind ← Value.required? parts "kind" Value.string?
  let fields ← Value.required? parts "fields" (Value.items? FieldSpec.ofValue?)
  let slots ← Value.required? parts "slots" SlotPolicy.ofValue?
  let children ← Value.required? parts "children" (Value.items? Value.string?)
  return ⟨kind, fields, slots, children⟩

end Schema

end DesiredState
