import DesiredState.Matching
import DesiredState.Pass.Report
import DesiredState.Store

/-!
# Applying changes

The writing steps of a pass. `Schema.applyChanges` sends the changes of one object as a single
update and reads the object again; `Schema.applyOperations` runs the operations of a collection
in their order. A failure stops none of the later operations, except that a create is skipped
while an object that could not be deleted still holds its place.
-/

set_option autoImplicit false

namespace DesiredState

/-- Where a pass stands: the state of the store, the action log, and the clock. -/
structure PassState (σ : Type) where
  store : σ
  log : List String
  clock : Nat

namespace PassState

variable {σ : Type}

def call {α : Type} (request : σ → Except StoreError α × σ) (state : PassState σ) :
    Except StoreError α × PassState σ :=
  match request state.store with
  | (answer, store) => (answer, { state with store })

def noted (state : PassState σ) (entries : List String) : PassState σ :=
  { state with log := state.log ++ entries }

end PassState

/-- The changes of an object that the store accepted, and the object as read afterwards. -/
structure AttributeOutcome where
  changes : List FieldChange
  refetch : Except PassError RemoteObject

namespace Schema

variable {σ : Type}

/-! ## One object -/

/-- The body of the update that makes some changes. The value of a known field is checked. -/
def updateBody (schema : Schema) : List FieldChange → Attributes → Except PassError Attributes
  | [], request => .ok request
  | change :: rest, request =>
      match schema.field? change.field with
      | none => schema.updateBody rest (request.insert change.field change.new)
      | some spec =>
          match spec.write schema.kind request change.new with
          | .ok request => schema.updateBody rest request
          | .error error => .error error

def refetch (store : RemoteStore σ) (reference : ResourceRef) (state : PassState σ) :
    Except PassError RemoteObject × PassState σ :=
  match state.call (store.get reference) with
  | (.ok (some object), state) => (.ok object, state)
  | (.ok none, state) => (.error (.vanished reference.text), state)
  | (.error error, state) => (.error (.store error), state)

/-- Send the changes of an object as one update, and read it again. Without changes there is
no call. An error means that nothing was written. -/
def applyChanges (schema : Schema) (store : RemoteStore σ) (remote : RemoteObject)
    (changes : List FieldChange) (state : PassState σ) :
    Except PassError AttributeOutcome × PassState σ :=
  if changes.isEmpty then (.ok ⟨[], .ok remote⟩, state)
  else
    match schema.updateBody changes ∅ with
    | .error error => (.error error, state)
    | .ok request =>
        let identity := schema.identityOf remote
        match state.call (store.update remote.reference request) with
        | (.error source, state) =>
            (.error (.operationFailed .update schema.kind identity source), state)
        | (.ok _, state) =>
            let entry (change : FieldChange) : String :=
              "update " ++ identity ++ ": " ++ change.text
            match refetch store remote.reference (state.noted (changes.map entry)) with
            | (object, state) => (.ok ⟨changes, object⟩, state)

/-- Find the changes of an object under the schema's own policy, and send them. -/
def reconcileObject (schema : Schema) (store : RemoteStore σ) (remote : RemoteObject)
    (desired : Attributes) (state : PassState σ) :
    Except PassError AttributeOutcome × PassState σ :=
  match schema.diff remote desired schema.mutabilityPolicy with
  | .error error => (.error error, state)
  | .ok changes => schema.applyChanges store remote changes state

end Schema

/-! ## A collection -/

/-- An object that could not be deleted, and the place it still holds. -/
structure HeldSlot where
  identity : String
  slot : Option (List Value)
  deriving DecidableEq

/-- Where the work on a collection stands. -/
structure Progress (σ : Type) where
  state : PassState σ
  held : List HeldSlot
  outcome : ApplyOutcome

namespace Schema

variable {σ : Type}

def sameSlot (a b : List Value) : Bool :=
  Value.itemsAgreeBy Number.agrees a b

/-- The first object that could not be deleted and keeps a create from being made. -/
def blocker? (schema : Schema) (held : List HeldSlot) (desired : Descriptor) :
    Option HeldSlot :=
  match schema.slots with
  | .independent => none
  | .exclusive => held.head?
  | .sharedSlot fields =>
      held.find? fun object => object.slot.any (sameSlot · (fields.map desired.getD))

def refused (schema : Schema) (kind : OperationKind) (identity : String) (source : StoreError) :
    PassError :=
  .operationFailed kind schema.kind identity source

def applyDelete (schema : Schema) (store : RemoteStore σ) (remote : RemoteObject)
    (progress : Progress σ) : Progress σ :=
  let identity := schema.identityOf remote
  match progress.state.call (store.delete remote.reference) with
  | (.ok (), state) =>
      { progress with
        state := state.noted ["delete " ++ identity]
        outcome := progress.outcome.withApplied (.deleted identity remote.reference) }
  | (.error source, state) =>
      { state := state
        held := progress.held ++ [⟨identity, schema.slotOfObject? remote⟩]
        outcome := progress.outcome.withError (schema.refused .delete identity source) }

def applyCreate (schema : Schema) (store : RemoteStore σ) (collection : Collection)
    (desired : Descriptor) (progress : Progress σ) : Progress σ :=
  let identity := schema.identityLabel desired
  match schema.blocker? progress.held desired with
  | some blocker =>
      { progress with
        outcome :=
          progress.outcome.withError (.dependentSkipped schema.kind identity blocker.identity) }
  | none =>
      match progress.state.call (store.create collection desired.createPayload) with
      | (.ok created, state) =>
          { progress with
            state := state.noted ["create " ++ identity]
            outcome := progress.outcome.withApplied (.created identity created.reference) }
      | (.error source, state) =>
          { progress with
            state := state
            outcome := progress.outcome.withError (schema.refused .create identity source) }

/-- Send the changes of a pair. An accepted update counts even if the object cannot be read
again. -/
def applyUpdate (schema : Schema) (store : RemoteStore σ) (pair : MatchedPair)
    (progress : Progress σ) : Progress σ :=
  let identity := schema.identityOf pair.remote
  match schema.applyChanges store pair.remote pair.changes progress.state with
  | (.error error, state) =>
      { progress with state := state, outcome := progress.outcome.withError error }
  | (.ok ⟨changes, .ok object⟩, state) =>
      { progress with
        state := state
        outcome := progress.outcome.withApplied (.updated identity object.reference changes) }
  | (.ok ⟨changes, .error error⟩, state) =>
      { progress with
        state := state
        outcome := (progress.outcome.withError error).withApplied
          (.updated identity pair.remote.reference changes) }

def applyOperation (schema : Schema) (store : RemoteStore σ) (collection : Collection)
    (progress : Progress σ) : Operation → Progress σ
  | .delete remote => schema.applyDelete store remote progress
  | .create desired => schema.applyCreate store collection desired progress
  | .update pair => schema.applyUpdate store pair progress

/-- Run the operations of a collection: deletes, creates, updates. -/
def applyOperations (schema : Schema) (store : RemoteStore σ) (collection : Collection)
    (set : OperationSet) (state : PassState σ) : ApplyOutcome × PassState σ :=
  let progress := set.operations.foldl (schema.applyOperation store collection)
    ⟨state, [], .empty⟩
  (progress.outcome, progress.state)

def planOperations (schema : Schema) (store : RemoteStore σ) (collection : Collection)
    (entries : List Attributes) (strict : Bool) (state : PassState σ) :
    Except PassError OperationSet × PassState σ :=
  match schema.descriptors entries with
  | .error error => (.error error, state)
  | .ok desired =>
      match state.call (store.list collection) with
      | (.error error, state) => (.error (.store error), state)
      | (.ok objects, state) => (schema.reconcile objects desired strict, state)

end Schema

end DesiredState
