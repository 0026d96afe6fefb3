import DesiredState.Timestamp

/-!
# Events

The remote side keeps a log of what happens to its objects. A record names the object by kind
and number, says what was done to it, and carries a status that later reads may find advanced.
-/

set_option autoImplicit false

namespace DesiredState

/-- How far a remote operation has got. -/
inductive EventStatus where
  | scheduled
  | started
  | finished
  | failed
  | notification
  deriving DecidableEq

namespace EventStatus

def isTerminal : EventStatus → Bool
  | .finished | .notification | .failed => true
  | .scheduled | .started => false

def isFailure (status : EventStatus) : Bool := status == .failed

def text : EventStatus → String
  | .scheduled => "scheduled"
  | .started => "started"
  | .finished => "finished"
  | .failed => "failed"
  | .notification => "notification"

def ofText? : String → Option EventStatus
  | "scheduled" => some .scheduled
  | "started" => some .started
  | "finished" => some .finished
  | "failed" => some .failed
  | "notification" => some .notification
  | _ => none

end EventStatus

/-- One record of the event log. -/
structure EventRecord where
  id : Nat
  entityType : String
  entityId : Nat
  action : String
  status : EventStatus
  createdAt : Timestamp
  deriving DecidableEq

/-- Which records of the log to look at: those of a kind and an action, of one object or of
any. -/
structure EventFilter where
  entityType : String
  entityId : Option Nat
  action : String
  deriving DecidableEq

namespace EventFilter

def accepts (filter : EventFilter) (record : EventRecord) : Bool :=
  record.entityType == filter.entityType && record.action == filter.action &&
    filter.entityId.all (record.entityId == ·)

end EventFilter

namespace EventRecord

def notAfter (a b : EventRecord) : Bool :=
  a.createdAt.rank < b.createdAt.rank || (a.createdAt.rank == b.createdAt.rank && a.id ≤ b.id)

end EventRecord

end DesiredState
