import DesiredState.Matching
import DesiredState.Pass.Request
import DesiredState.Store

/-!
# Plans

A plan is what a pass would do, found by reading alone: `PassRequest.plan` asks the store for
the top-level object and for the members of the collections, and writes nothing.
-/

set_option autoImplicit false

namespace DesiredState

/-- What the top-level object needs. -/
inductive ResourceAction where
  /-- It is not there, and is created from this body. -/
  | create (payload : Attributes)
  /-- It is there, and these changes are made, perhaps none. -/
  | update (remote : RemoteObject) (changes : List FieldChange)
  deriving DecidableEq

/-- What one collection needs. -/
structure CollectionPlan where
  schema : Schema
  operations : OperationSet
  deriving DecidableEq

/-- What a pass would do. -/
structure Plan where
  schema : Schema
  action : ResourceAction
  collections : List CollectionPlan
  deriving DecidableEq

namespace Plan

/-- The address of the top-level object if it is there, and its kind otherwise. -/
def label (plan : Plan) : String :=
  match plan.action with
  | .create _ => plan.schema.kind
  | .update remote _ => remote.reference.text

def fieldChanges (plan : Plan) : List FieldChange :=
  match plan.action with
  | .create _ => []
  | .update _ changes => changes

def isConverged (plan : Plan) : Bool :=
  let top := match plan.action with
    | .create _ => false
    | .update _ changes => changes.isEmpty
  top && plan.collections.all (·.operations.isConverged)

def defaultAction? (plan : Plan) : Option String :=
  match plan.action with
  | .create _ => some (plan.schema.eventAction .create)
  | .update _ [] => none
  | .update _ (_ :: _) => some (plan.schema.eventAction .update)

end Plan

namespace PassRequest

variable {σ : Type}

def foreignCollection? (request : PassRequest) : Option DesiredCollection :=
  request.collections.find? fun desired => !request.schema.hasChild desired.schema.kind

/-- The failure of a request for a collection that is not one of the resource. -/
def foreignError (schema : Schema) (kind : String) : PassError :=
  .invalidValue schema.kind kind ("not a sub-resource of " ++ schema.kind)

def fetch (store : RemoteStore σ) (request : PassRequest) (state : σ) :
    Except PassError (Option RemoteObject) × σ :=
  match request.target with
  | .new _ => (.ok none, state)
  | .existing reference =>
      match store.get reference state with
      | (.ok found, state) => (.ok found, state)
      | (.error error, state) => (.error (.store error), state)

def action (request : PassRequest) (remote : Option RemoteObject) :
    Except PassError ResourceAction :=
  match remote with
  | some remote =>
      match request.schema.diff remote request.desired request.schema.mutabilityPolicy with
      | .ok changes => .ok (.update remote changes)
      | .error error => .error error
  | none =>
      match request.schema.validate request.desired with
      | .ok () => .ok (.create (request.schema.createBody request.desired))
      | .error error => .error error

/-- The members of a collection: those that the store lists if the top-level object is there,
and none otherwise. -/
def observed (store : RemoteStore σ) (action : ResourceAction) (kind : String) (state : σ) :
    Except PassError (List RemoteObject) × σ :=
  match action with
  | .create _ => (.ok [], state)
  | .update remote _ =>
      match store.list (.under remote.reference kind) state with
      | (.ok objects, state) => (.ok objects, state)
      | (.error error, state) => (.error (.store error), state)

def planCollection (store : RemoteStore σ) (action : ResourceAction) (strict : Bool)
    (desired : DesiredCollection) (state : σ) : Except PassError CollectionPlan × σ :=
  match desired.schema.descriptors desired.entries with
  | .error error => (.error error, state)
  | .ok entries =>
      match observed store action desired.schema.kind state with
      | (.error error, state) => (.error error, state)
      | (.ok objects, state) =>
          match desired.schema.reconcile objects entries strict with
          | .error error => (.error error, state)
          | .ok operations => (.ok ⟨desired.schema, operations⟩, state)

def planCollections (store : RemoteStore σ) (action : ResourceAction) (strict : Bool) :
    List DesiredCollection → σ → Except PassError (List CollectionPlan) × σ
  | [], state => (.ok [], state)
  | desired :: rest, state =>
      match planCollection store action strict desired state with
      | (.error error, state) => (.error error, state)
      | (.ok head, state) =>
          match planCollections store action strict rest state with
          | (.error error, state) => (.error error, state)
          | (.ok tail, state) => (.ok (head :: tail), state)

def plan (store : RemoteStore σ) (request : PassRequest) (state : σ) :
    Except PassError Plan × σ :=
  match request.foreignCollection? with
  | some desired => (.error (foreignError request.schema desired.schema.kind), state)
  | none =>
      match fetch store request state with
      | (.error error, state) => (.error error, state)
      | (.ok remote, state) =>
          match request.action remote with
          | .error error => (.error error, state)
          | .ok action =>
              match planCollections store action request.strict request.collections state with
              | (.error error, state) => (.error error, state)
              | (.ok collections, state) => (.ok ⟨request.schema, action, collections⟩, state)

end PassRequest

end DesiredState
