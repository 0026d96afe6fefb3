import DesiredState.Schema
import DesiredState.Settings

/-!
# Requests

What a convergence pass is asked to bring about: the attributes of one top-level object and the
entries of some of its collections.
-/

set_option autoImplicit false

namespace DesiredState

/-- The top-level object of a pass. -/
inductive Target where
  /-- The object at this address. If it is gone, it is created under the same parent. -/
  | existing (reference : ResourceRef)
  /-- A new object under this parent, if there is one. -/
  | new (parent : Option ResourceRef)
  deriving DecidableEq

namespace Target

def parent? : Target → Option ResourceRef
  | .existing reference => reference.parent?
  | .new parent => parent

end Target

/-- The desired entries of one collection. -/
structure DesiredCollection where
  schema : Schema
  entries : List Attributes
  deriving DecidableEq

/-- What to do about the remote operation that a pass sets off. -/
inductive WaitMode where
  | block
  | noWait
  deriving DecidableEq

/-- What a pass is asked for. -/
structure PassRequest where
  schema : Schema
  target : Target
  desired : Attributes
  collections : List DesiredCollection
  wait : WaitMode
  timeout : Nat
  strict : Bool
  /-- The event to wait for in place of that of the top-level write. -/
  awaitAction : Option String
  deriving DecidableEq

namespace PassRequest

def of (schema : Schema) (target : Target) (desired : Attributes) : PassRequest where
  schema := schema
  target := target
  desired := desired
  collections := []
  wait := .block
  timeout := Settings.standard.timeoutMillis
  strict := Settings.standard.strictIdentity
  awaitAction := none

def withCollection (request : PassRequest) (schema : Schema) (entries : List Attributes) :
    PassRequest :=
  { request with collections := request.collections ++ [⟨schema, entries⟩] }

def waitMode (wait : Bool) : WaitMode := if wait then .block else .noWait

def withSettings (request : PassRequest) (settings : Settings) : PassRequest :=
  { request with
    timeout := settings.timeoutMillis
    strict := settings.strictIdentity
    wait := waitMode settings.wait }

end PassRequest

end DesiredState
