import DesiredState.Diff
import DesiredState.Schema.Descriptor

/-!
# Matching desired with observed sub-resources

Each desired entry, in its order, takes the first observed object that is still free and has
its identity. Entries without an object are created, objects without an entry deleted, and
pairs that differ updated. The operations of a collection run in the order of
`OperationSet.operations`: deletes, creates, updates.
-/

set_option autoImplicit false

namespace DesiredState

/-- An observed object, the entry that took it, and the changes it needs, perhaps none. -/
structure MatchedPair where
  remote : RemoteObject
  desired : Descriptor
  changes : List FieldChange
  deriving DecidableEq

/-- What is to happen in one collection. -/
structure OperationSet where
  toCreate : List Descriptor
  toUpdate : List MatchedPair
  toDelete : List RemoteObject
  deriving DecidableEq

/-- One write to a collection. -/
inductive Operation where
  | delete (remote : RemoteObject)
  | create (desired : Descriptor)
  | update (pair : MatchedPair)
  deriving DecidableEq

namespace OperationSet

def empty : OperationSet := ⟨[], [], []⟩

def pendingUpdates (set : OperationSet) : List MatchedPair :=
  set.toUpdate.filter fun pair => !pair.changes.isEmpty

def operations (set : OperationSet) : List Operation :=
  set.toDelete.map .delete ++ set.toCreate.map .create ++ set.pendingUpdates.map .update

def isConverged (set : OperationSet) : Bool :=
  set.toCreate.isEmpty && set.toDelete.isEmpty && set.pendingUpdates.isEmpty

def requestCount (set : OperationSet) : Nat :=
  set.toCreate.length + set.toDelete.length + set.pendingUpdates.length

end OperationSet

/-- The first object that an entry means, and the objects without it. -/
def Descriptor.takeFrom? (descriptor : Descriptor) :
    List RemoteObject → Option (RemoteObject × List RemoteObject)
  | [] => none
  | object :: rest =>
      if descriptor.matchesObject object then some (object, rest)
      else
        match descriptor.takeFrom? rest with
        | some (found, others) => some (found, object :: others)
        | none => none

namespace Schema

/-- Match entries with the objects that are still free. With `strict` an entry that means more
than one of them fails the matching; so does a pair whose difference fails. -/
def matchEntries (schema : Schema) (strict : Bool) :
    List Descriptor → List RemoteObject → Except PassError OperationSet
  | [], free => .ok ⟨[], [], free⟩
  | entry :: rest, free =>
      let candidates := (free.filter entry.matchesObject).length
      if strict && 1 < candidates then
        .error (.ambiguousMatch schema.kind (schema.identityLabel entry) candidates)
      else
        match entry.takeFrom? free with
        | none =>
            match schema.matchEntries strict rest free with
            | .error error => .error error
            | .ok set => .ok { set with toCreate := entry :: set.toCreate }
        | some (remote, free) =>
            match schema.diff remote entry.payload schema.mutabilityPolicy with
            | .error error => .error error
            | .ok changes =>
                match schema.matchEntries strict rest free with
                | .error error => .error error
                | .ok set =>
                    .ok { set with toUpdate := ⟨remote, entry, changes⟩ :: set.toUpdate }

/-- What brings the observed objects of a collection to the desired entries. -/
def reconcile (schema : Schema) (remote : List RemoteObject) (desired : List Descriptor)
    (strict : Bool) : Except PassError OperationSet :=
  schema.matchEntries strict desired remote

end Schema

end DesiredState
