import DesiredState.Duration
import DesiredState.Resource

/-!
# Failures

`StoreError` is what a store answers instead of a result; `PassError` is what can go wrong in a
convergence pass. Each has one message.
-/

set_option autoImplicit false

namespace DesiredState

/-- Why a document could not be read from disk or written to it. -/
inductive DocumentError where
  | io (path : String)
  | malformed (path : String)
  deriving DecidableEq

namespace DocumentError

def message : DocumentError → String
  | .io path => "I/O error at " ++ path
  | .malformed path => "state JSON error at " ++ path

end DocumentError

/-- What went wrong behind a store. -/
inductive BackendFailure where
  | other (message : String)
  | document (error : DocumentError)
  deriving DecidableEq

namespace BackendFailure

def message : BackendFailure → String
  | .other message => message
  | .document error => error.message

end BackendFailure

/-- A failed call to a store. -/
inductive StoreError where
  | notFound (reference : String)
  | status (code : Nat) (message : String)
  | transport (message : String)
  | backend (failure : BackendFailure)
  deriving DecidableEq

namespace StoreError

def message : StoreError → String
  | .notFound reference => reference ++ " not found"
  | .status code message =>
      "remote rejected request (" ++ Nat.repr code ++ "): " ++ message
  | .transport message => "transport error: " ++ message
  | .backend failure => "store backend error: " ++ failure.message

end StoreError

/-- A failure of a convergence pass. -/
inductive PassError where
  /-- A desired value differs on a field that is fixed at creation. -/
  | nonMutableField (resource field : String)
  | invalidValue (resource field reason : String)
  | timeoutExceeded (what : String) (elapsed : Duration)
  /-- Strict matching met several objects with one identity. -/
  | ambiguousMatch (resource identity : String) (candidates : Nat)
  | operationFailed (kind : OperationKind) (resource identity : String) (source : StoreError)
  /-- A create was left out because the object in its place could not be deleted. -/
  | dependentSkipped (resource identity blockedBy : String)
  | eventFailed (event : Nat) (action : String)
  /-- An object was gone when it was read again after a write. -/
  | vanished (reference : String)
  | store (source : StoreError)
  deriving DecidableEq

namespace PassError

def isTimeout : PassError → Bool
  | .timeoutExceeded _ _ => true
  | _ => false

def message : PassError → String
  | .nonMutableField resource field =>
      resource ++ ": field '" ++ field ++ "' cannot be changed after creation"
  | .invalidValue resource field reason =>
      resource ++ ": invalid value for '" ++ field ++ "': " ++ reason
  | .timeoutExceeded what elapsed => "timed out after " ++ elapsed.text ++ " waiting for " ++ what
  | .ambiguousMatch resource identity candidates =>
      resource ++ ": identity " ++ identity ++ " matches " ++ Nat.repr candidates ++
        " remote objects"
  | .operationFailed kind resource identity source =>
      kind.text ++ " " ++ resource ++ " " ++ identity ++ " failed: " ++ source.message
  | .dependentSkipped resource identity blockedBy =>
      "create " ++ resource ++ " " ++ identity ++ " skipped: freeing delete of " ++ blockedBy ++
        " failed"
  | .eventFailed event action =>
      "remote operation " ++ action ++ " (event " ++ Nat.repr event ++ ") failed"
  | .vanished reference => reference ++ " disappeared after it was written"
  | .store source => "store error: " ++ source.message

end PassError

end DesiredState
