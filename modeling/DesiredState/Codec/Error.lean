import DesiredState.Codec.Event
import DesiredState.Codec.Resource
import DesiredState.Error

/-!
# Encoding of failures

A failure is encoded by its name and its message. If it comes from a store, the name of the
store's error stands beside it. The message of an error that a document caused is left out,
because part of it belongs to the disk; so is that of a timeout, because it tells how long the
wait really took.

A failure is read from its name under `kind` and its parts. A text or a count that is left out is
empty or zero; everything else has to be there. If something is wrong, the answer is the name of
the part.
-/

set_option autoImplicit false

namespace DesiredState

namespace DocumentError

def name : DocumentError → String
  | .io _ => "Io"
  | .malformed _ => "Json"

def toValue (error : DocumentError) : Value := .object [("error", .string error.name)]

end DocumentError

namespace StoreError

def name : StoreError → String
  | .notFound _ => "NotFound"
  | .status _ _ => "Status"
  | .transport _ => "Transport"
  | .backend _ => "Backend"

def isFromDocument : StoreError → Bool
  | .backend (.document _) => true
  | _ => false

def toValue (error : StoreError) : Value :=
  if error.isFromDocument then .object [("error", .string error.name)]
  else .object [("error", .string error.name), ("message", .string error.message)]

def part (fields : List (String × Value)) (name : String) : String :=
  ((Entries.find? name fields).bind Value.string?).getD ""

def count (fields : List (String × Value)) (name : String) : Nat :=
  ((Entries.find? name fields).bind Value.nat?).getD 0

def needed {α : Type} (fields : List (String × Value)) (name : String)
    (read : Value → Option α) : Except String α :=
  match (Entries.find? name fields).bind read with
  | some part => .ok part
  | none => .error name

def ofValue : Value → Except String StoreError
  | .object fields =>
      let message := part fields "message"
      match part fields "kind" with
      | "not_found" => .ok (.notFound message)
      | "status" => .ok (.status (count fields "status") message)
      | "transport" => .ok (.transport message)
      | "backend" => .ok (.backend (.other message))
      | _ => .error "kind"
  | _ => .error "kind"

end StoreError

namespace PassError

def name : PassError → String
  | .nonMutableField _ _ => "NonMutableField"
  | .invalidValue _ _ _ => "InvalidValue"
  | .timeoutExceeded _ _ => "TimeoutExceeded"
  | .ambiguousMatch _ _ _ => "AmbiguousMatch"
  | .operationFailed _ _ _ _ => "OperationFailed"
  | .dependentSkipped _ _ _ => "DependentSkipped"
  | .eventFailed _ _ => "EventFailed"
  | .vanished _ => "Vanished"
  | .store _ => "Store"

def source? : PassError → Option StoreError
  | .operationFailed _ _ _ source => some source
  | .store source => some source
  | _ => none

def toValue (error : PassError) : Value :=
  let name := ("error", Value.string error.name)
  let message := ("message", Value.string error.message)
  match error, error.source? with
  | .timeoutExceeded what _, _ =>
      .object [name, ("what", .string what), ("is_timeout", .bool true)]
  | _, none => .object [name, message]
  | _, some source =>
      let origin := ("source", Value.string source.name)
      .object (if source.isFromDocument then [name, origin] else [name, message, origin])

open StoreError in
def ofParts (fields : List (String × Value)) : Except String PassError := do
  let resource := part fields "resource"
  let identity := part fields "identity"
  let source := StoreError.ofValue ((Entries.find? "source" fields).getD .null)
  match part fields "kind" with
  | "NonMutableField" => return .nonMutableField resource (part fields "field")
  | "InvalidValue" => return .invalidValue resource (part fields "field") (part fields "reason")
  | "TimeoutExceeded" =>
      let elapsed : Duration := ⟨count fields "secs" * Duration.second + count fields "nanos"⟩
      return .timeoutExceeded (part fields "what") elapsed
  | "AmbiguousMatch" => return .ambiguousMatch resource identity (count fields "candidates")
  | "OperationFailed" =>
      let operation ← needed fields "operation" fun kind => kind.name? >>= OperationKind.ofText?
      return .operationFailed operation resource identity (← source)
  | "DependentSkipped" => return .dependentSkipped resource identity (part fields "blocked_by")
  | "EventFailed" =>
      let event ← needed fields "event" Value.nat?
      return .eventFailed event (← needed fields "action" Value.string?)
  | "Vanished" => return .vanished (part fields "reference")
  | "Store" => return .store (← source)
  | _ => throw "kind"

def ofValue : Value → Except String PassError
  | .object fields => ofParts fields
  | _ => .error "kind"

end PassError

def Value.ofResult {ε α : Type} (failure : ε → Value) (encode : α → Value) :
    Except ε α → Value
  | .ok value => encode value
  | .error error => failure error

def Value.ofOption {α : Type} (encode : α → Value) : Option α → Value
  | some value => encode value
  | none => .null

end DesiredState
