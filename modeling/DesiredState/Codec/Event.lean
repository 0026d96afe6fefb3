import DesiredState.Codec.Record
import DesiredState.Event

/-!
# Encoding of events

The persisted forms of event records and filters. Names of statuses also stand as the only key
of an object that holds null.
-/

set_option autoImplicit false

namespace DesiredState

def Value.name? : Value → Option String
  | .string name => some name
  | .object [(name, .null)] => some name
  | _ => none

namespace EventStatus

def toValue (status : EventStatus) : Value := .string status.text

def ofValue? (value : Value) : Option EventStatus := do
  let name ← value.name?
  ofText? name

end EventStatus

namespace Timestamp

def toValue (time : Timestamp) : Value := .string time.text

def ofValue? (value : Value) : Option Timestamp := do
  let text ← value.string?
  ofText? text

end Timestamp

namespace EventRecord

def toValue (record : EventRecord) : Value :=
  .object [("id", .ofNat record.id), ("entity_type", .string record.entityType),
    ("entity_id", .ofNat record.entityId), ("action", .string record.action),
    ("status", record.status.toValue), ("created_at", record.createdAt.toValue)]

def ofValue? (value : Value) : Option EventRecord := do
  let fields ←
    value.components? ["id", "entity_type", "entity_id", "action", "status", "created_at"]
  let id ← Value.required? fields "id" Value.nat?
  let entityType ← Value.required? fields "entity_type" Value.string?
  let entityId ← Value.required? fields "entity_id" Value.nat?
  let action ← Value.required? fields "action" Value.string?
  let status ← Value.required? fields "status" EventStatus.ofValue?
  let createdAt ← Value.required? fields "created_at" Timestamp.ofValue?
  return ⟨id, entityType, entityId, action, status, createdAt⟩

def shape : Json.Shape :=
  .record [("id", .whole), ("entity_type", .whole), ("entity_id", .whole), ("action", .whole),
    ("status", .name), ("created_at", .whole)]

end EventRecord

namespace EventFilter

def toValue (filter : EventFilter) : Value :=
  match filter.entityId with
  | none =>
      .object [("entity_type", .string filter.entityType), ("action", .string filter.action)]
  | some id =>
      .object [("entity_type", .string filter.entityType), ("entity_id", .ofNat id),
        ("action", .string filter.action)]

def ofValue? (value : Value) : Option EventFilter := do
  let fields ← value.components? ["entity_type", "entity_id", "action"]
  let entityType ← Value.required? fields "entity_type" Value.string?
  let entityId ← Value.defaulted? fields "entity_id" none (Value.nullable? Value.nat?)
  let action ← Value.required? fields "action" Value.string?
  return ⟨entityType, entityId, action⟩

end EventFilter

end DesiredState
