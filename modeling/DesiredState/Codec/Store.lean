import DesiredState.Codec.Error
import DesiredState.Codec.Event
import DesiredState.Store.Faulty

/-!
# Encoding of calls and faults

The journal of a store as a list of calls, and faults as they are laid down in advance. What a
fault does is read by the call it waits for: an error, a word, or a status.
-/

set_option autoImplicit false

namespace DesiredState

namespace StoreCall

def parts : StoreCall → List Value
  | .get reference => [.string "get", .string reference.text]
  | .list collection => [.string "list", .string collection.text]
  | .create collection payload =>
      [.string "create", .string collection.text, .ofAttributes payload]
  | .update reference fields =>
      [.string "update", .string reference.text, .list (fields.map .string)]
  | .delete reference => [.string "delete", .string reference.text]
  | .listEvents filter => [.string "list_events", filter.toValue]
  | .getEvent id => [.string "get_event", .ofNat id]

def toValue (call : StoreCall) : Value :=
  .object [("call", .list call.parts), ("mutation", .bool call.isMutation)]

end StoreCall

namespace FaultPoint

def ofName? : String → Option FaultPoint
  | "get" => some .get
  | "list" => some .list
  | "create" => some .create
  | "update" => some .update
  | "delete" => some .delete
  | "list_events" => some .listEvents
  | "get_event" => some .getEvent
  | "get_none" => some .hiddenObject
  | "list_events_page" => some .eventPage
  | "event_status" => some .eventStatus
  | _ => none

end FaultPoint

namespace FaultEffect

def ofResult? (point : FaultPoint) (result : Value) : Option FaultEffect :=
  match point with
  | .hiddenObject => some .hide
  | .eventPage =>
      match result with
      | .string "empty" => some .hide
      | .string "all" => some .everything
      | _ => none
  | .eventStatus =>
      if result.isNull then some .hide else (EventStatus.ofValue? result).map .status
  | .get | .list | .create | .update | .delete | .listEvents | .getEvent =>
      let afterCall := match result with
        | .object fields => ((Entries.find? "after" fields).bind Value.bool?).getD false
        | _ => false
      (StoreError.ofValue result).toOption.map (.fail · afterCall)

end FaultEffect

namespace Fault

/-- The fault a value encodes: it lets no call pass and strikes once, unless told otherwise. -/
def ofValue? (value : Value) : Option Fault := do
  let fields ← value.components? ["call", "skip", "times", "result"]
  let call ← Value.required? fields "call" Value.string?
  let point ← FaultPoint.ofName? call
  let skip ← Value.optional? fields "skip" Value.nat?
  let times ← Value.optional? fields "times" Value.nat?
  let result ← Value.defaulted? fields "result" .null some
  let effect ← FaultEffect.ofResult? point result
  return ⟨point, skip.getD 0, times.getD 1, effect⟩

end Fault

end DesiredState
