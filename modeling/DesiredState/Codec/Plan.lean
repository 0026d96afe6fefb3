import DesiredState.Codec.Error
import DesiredState.Pass.Preview
import DesiredState.Pass.Report

/-!
# Descriptions of plans and reports

What a pass would do, or has done, as values for other programs. Beside its parts a description
holds what they come to: labels, texts, whether anything is left to do.
-/

set_option autoImplicit false

namespace DesiredState

def Value.ofTexts (texts : List String) : Value := .list (texts.map .string)

namespace FieldChange

def describe (change : FieldChange) : Value :=
  let old := (change.old.map fun old => ("old", old)).toList
  .object ([("field", .string change.field)] ++ old ++
    [("new", change.new), ("display", .string change.text)])

def describeAll (changes : List FieldChange) : Value := .list (changes.map describe)

end FieldChange

namespace Schema

def descriptorParts (schema : Schema) (descriptor : Descriptor) : List (String × Value) :=
  [("identity", .ofAttributes descriptor.identity),
    ("payload", .ofAttributes descriptor.payload),
    ("label", .string (schema.identityLabel descriptor)),
    ("create_payload", .ofAttributes descriptor.createPayload),
    ("slot", .ofOption .list (schema.slotOfDescriptor? descriptor))]

def describePair (schema : Schema) (pair : MatchedPair) : Value :=
  .object [("remote", .string pair.remote.reference.text),
    ("label", .string (schema.identityLabel pair.desired)),
    ("changes", FieldChange.describeAll pair.changes)]

def describeDelete (schema : Schema) (remote : RemoteObject) : Value :=
  .object [("remote", .string remote.reference.text),
    ("identity", .string (schema.identityOf remote))]

def describeOperations (schema : Schema) (set : OperationSet) : Value :=
  .object [
    ("create", .list (set.toCreate.map fun entry => .object (schema.descriptorParts entry))),
    ("update", .list (set.toUpdate.map schema.describePair)),
    ("delete", .list (set.toDelete.map schema.describeDelete)),
    ("converged", .bool set.isConverged), ("requests", .ofNat set.requestCount)]

end Schema

namespace Plan

def describeAction : ResourceAction → Value
  | .create payload =>
      .object [("type", .string "create"), ("payload", .ofAttributes payload)]
  | .update remote _ => .object [("type", .string "update"), ("remote", remote.toValue)]

def describeCollection (collection : CollectionPlan) : Value :=
  .object [("kind", .string collection.schema.kind),
    ("operations", collection.schema.describeOperations collection.operations)]

def describe (plan : Plan) : Value :=
  .object [("label", .string plan.label), ("action", describeAction plan.action),
    ("changes", FieldChange.describeAll plan.fieldChanges),
    ("collections", .list (plan.collections.map describeCollection)),
    ("converged", .bool plan.isConverged), ("diff", .string plan.unifiedDiff)]

end Plan

end DesiredState
