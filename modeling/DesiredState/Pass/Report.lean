import DesiredState.Event
import DesiredState.Error

/-!
# Reports

What a pass has done: the writes that were accepted, everything that went wrong, and how the
awaited remote operation ended.
-/

set_option autoImplicit false

namespace DesiredState

/-- A write that the store accepted. -/
inductive AppliedChange where
  | created (identity : String) (reference : ResourceRef)
  | updated (identity : String) (reference : ResourceRef) (changes : List FieldChange)
  | deleted (identity : String) (reference : ResourceRef)
  deriving DecidableEq

namespace AppliedChange

def isCreate : AppliedChange → Bool
  | .created _ _ => true
  | .updated _ _ _ | .deleted _ _ => false

def isDelete : AppliedChange → Bool
  | .deleted _ _ => true
  | .created _ _ | .updated _ _ _ => false

def text : AppliedChange → String
  | .created identity reference => "created " ++ identity ++ " (" ++ reference.text ++ ")"
  | .updated identity _ changes =>
      "updated " ++ identity ++ " [" ++ ", ".intercalate (changes.map (·.field)) ++ "]"
  | .deleted identity reference => "deleted " ++ identity ++ " (" ++ reference.text ++ ")"

end AppliedChange

/-- The accepted writes and the failures of one step. -/
structure ApplyOutcome where
  applied : List AppliedChange
  errors : List PassError
  deriving DecidableEq

namespace ApplyOutcome

def empty : ApplyOutcome := ⟨[], []⟩

def isClean (outcome : ApplyOutcome) : Bool := outcome.errors.isEmpty

def merge (outcome other : ApplyOutcome) : ApplyOutcome :=
  ⟨outcome.applied ++ other.applied, outcome.errors ++ other.errors⟩

def withApplied (outcome : ApplyOutcome) (change : AppliedChange) : ApplyOutcome :=
  { outcome with applied := outcome.applied ++ [change] }

def withError (outcome : ApplyOutcome) (error : PassError) : ApplyOutcome :=
  { outcome with errors := outcome.errors ++ [error] }

end ApplyOutcome

/-- What a pass learned about the remote operation it set off. -/
inductive Completion where
  | notRequired
  | completed (record : EventRecord)
  | failed (record : EventRecord)
  | timedOut
  | observed (record : EventRecord)
  /-- It was looked at once, and was not to be seen. -/
  | pending
  deriving DecidableEq

namespace Completion

def text : Completion → String
  | .notRequired => "no remote operation to await"
  | .completed record =>
      record.action ++ " " ++ record.status.text ++ " (event " ++ Nat.repr record.id ++ ")"
  | .failed record => record.action ++ " failed (event " ++ Nat.repr record.id ++ ")"
  | .timedOut => "timed out waiting for completion"
  | .observed record =>
      record.action ++ " " ++ record.status.text ++ " (event " ++ Nat.repr record.id ++
        ", not awaited)"
  | .pending => "pending (not awaited)"

end Completion

/-- The result of a pass. -/
structure PassReport where
  /-- The address of the top-level object, or its kind if it was never created. -/
  resource : String
  created : Bool
  applied : List AppliedChange
  errors : List PassError
  completion : Completion
  /-- The top-level object as read at the end of the pass. -/
  object : Option RemoteObject
  deriving DecidableEq

namespace PassReport

def start (resource : String) : PassReport := ⟨resource, false, [], [], .notRequired, none⟩

def absorb (report : PassReport) (outcome : ApplyOutcome) : PassReport :=
  { report with
    applied := report.applied ++ outcome.applied
    errors := report.errors ++ outcome.errors }

def withApplied (report : PassReport) (change : AppliedChange) : PassReport :=
  { report with applied := report.applied ++ [change] }

def withError (report : PassReport) (error : PassError) : PassReport :=
  { report with errors := report.errors ++ [error] }

def isSuccess (report : PassReport) : Bool := report.errors.isEmpty

def summary (report : PassReport) : String :=
  let applied := report.applied.length
  let errors := report.errors.length
  if errors = 0 then
    if applied = 0 then report.resource ++ ": no changes"
    else report.resource ++ ": " ++ Nat.repr applied ++ " change(s) applied"
  else
    report.resource ++ ": " ++ Nat.repr applied ++ " change(s) applied, " ++ Nat.repr errors ++
      " error(s)"

end PassReport

end DesiredState
