import DesiredState.Codec.Event
import DesiredState.Codec.Plan
import DesiredState.Pass.Apply
import DesiredState.Wait.Waiter

/-!
# Descriptions of outcomes

What was done and how it ended, as values for other programs.
-/

set_option autoImplicit false

namespace DesiredState

namespace AppliedChange

def name : AppliedChange → String
  | .created _ _ => "created"
  | .updated _ _ _ => "updated"
  | .deleted _ _ => "deleted"

def identity : AppliedChange → String
  | .created identity _ | .updated identity _ _ | .deleted identity _ => identity

def reference : AppliedChange → ResourceRef
  | .created _ reference | .updated _ reference _ | .deleted _ reference => reference

def describe (change : AppliedChange) : Value :=
  let changes := match change with
    | .updated _ _ changes => [("changes", FieldChange.describeAll changes)]
    | .created _ _ | .deleted _ _ => []
  .object ([("type", .string change.name), ("identity", .string change.identity),
    ("ref", .string change.reference.text), ("display", .string change.text),
    ("is_create", .bool change.isCreate), ("is_delete", .bool change.isDelete)] ++ changes)

def ofName? (identity : String) (reference : ResourceRef) (changes : List FieldChange) :
    String → Option AppliedChange
  | "created" => some (.created identity reference)
  | "updated" => some (.updated identity reference changes)
  | "deleted" => some (.deleted identity reference)
  | _ => none

end AppliedChange

namespace ApplyOutcome

def describe (outcome : ApplyOutcome) : Value :=
  .object [("applied", .list (outcome.applied.map AppliedChange.describe)),
    ("errors", .list (outcome.errors.map PassError.toValue)), ("clean", .bool outcome.isClean)]

end ApplyOutcome

namespace Completion

def name : Completion → String
  | .notRequired => "NotRequired"
  | .completed _ => "Completed"
  | .failed _ => "Failed"
  | .timedOut => "TimedOut"
  | .observed _ => "Observed"
  | .pending => "Pending"

def record? : Completion → Option EventRecord
  | .completed record | .failed record | .observed record => some record
  | .notRequired | .timedOut | .pending => none

def describe (completion : Completion) : Value :=
  .object [("kind", .string completion.name),
    ("event", .ofOption EventRecord.toValue completion.record?),
    ("display", .string completion.text)]

def ofName? (record : Option EventRecord) : String → Option Completion
  | "NotRequired" => some .notRequired
  | "TimedOut" => some .timedOut
  | "Pending" => some .pending
  | "Completed" => record.map .completed
  | "Failed" => record.map .failed
  | "Observed" => record.map .observed
  | _ => none

end Completion

namespace PassReport

def describe (report : PassReport) : Value :=
  .object [("resource", .string report.resource), ("created", .bool report.created),
    ("applied", .list (report.applied.map AppliedChange.describe)),
    ("errors", .list (report.errors.map PassError.toValue)),
    ("completion", report.completion.describe),
    ("object", .ofOption RemoteObject.toValue report.object),
    ("success", .bool report.isSuccess), ("summary", .string report.summary)]

end PassReport

namespace AttributeOutcome

def describe (outcome : AttributeOutcome) : Value :=
  .object [("changes", FieldChange.describeAll outcome.changes),
    ("has_object", .bool outcome.refetch.toOption.isSome),
    ("refetch", .ofResult PassError.toValue RemoteObject.toValue outcome.refetch)]

end AttributeOutcome

namespace TerminalOutcome

def describe (outcome : TerminalOutcome) : Value :=
  .object [("success", .bool outcome.isSuccess), ("event", outcome.record.toValue),
    ("into_result", .ofResult PassError.toValue (fun event => .ofNat event.id)
      outcome.toExcept)]

end TerminalOutcome

namespace EventWaiter

def describe (waiter : EventWaiter) : Value :=
  .object [("filter", waiter.filter.toValue), ("ledger", .ofNat waiter.ledger.size)]

end EventWaiter

end DesiredState
