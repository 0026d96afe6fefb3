import DesiredState.Codec.Event
import DesiredState.Pass.Preview
import DesiredState.Pass.Report
import DesiredState.Text.Table

/-!
# Output

The texts in which the commands show plans, reports, objects and events.
-/

set_option autoImplicit false

namespace DesiredState

namespace Output

def lines (texts : List String) : String := String.join (texts.map (· ++ "\n"))

/-! ## Plans -/

def deleteRow (schema : Schema) (remote : RemoteObject) : List String :=
  ["delete", schema.identityOf remote, remote.reference.text]

def createRow (schema : Schema) (desired : Descriptor) : List String :=
  ["create", schema.identityLabel desired, (Value.ofAttributes desired.createPayload).compact]

def updateRow (schema : Schema) (pair : MatchedPair) : List String :=
  ["update", schema.identityOf pair.remote, "; ".intercalate (pair.changes.map (·.text))]

def operationRows (schema : Schema) (set : OperationSet) : List (List String) :=
  set.toDelete.map (deleteRow schema) ++ set.toCreate.map (createRow schema) ++
    set.pendingUpdates.map (updateRow schema)

def ofCollection (collection : CollectionPlan) : String :=
  match operationRows collection.schema collection.operations with
  | [] => ""
  | rows => lines [collection.schema.kind, Table.rounded ["op", "identity", "detail"] rows]

def ofPlan (plan : Plan) : String :=
  if plan.isConverged then lines ["No changes for " ++ plan.label ++ "."]
  else plan.unifiedDiff ++ String.join (plan.collections.map ofCollection)

/-! ## Reports -/

def ofApplied (change : AppliedChange) : String :=
  match change with
  | .created _ _ => lines ["+ " ++ change.text]
  | .updated _ _ changes =>
      lines (("~ " ++ change.text) :: changes.map fun change => "    " ++ change.text)
  | .deleted _ _ => lines ["- " ++ change.text]

def ofCompletion : Completion → String
  | .notRequired => ""
  | completion => lines ["completion: " ++ completion.text]

def ofReport (report : PassReport) : String :=
  String.join (report.applied.map ofApplied) ++
    lines (report.errors.map fun error => "! " ++ error.message) ++
    ofCompletion report.completion ++ lines [report.summary]

/-! ## Events -/

def eventRow (record : EventRecord) : List String :=
  [Nat.repr record.id, record.action, record.status.text,
    record.createdAt.dateText ++ " " ++ record.createdAt.clockText]

def ofEvents (kind : String) (id : Nat) (records : List EventRecord) : String :=
  match records with
  | [] => lines ["No events for " ++ kind ++ " " ++ Nat.repr id ++ "."]
  | _ =>
      lines [Table.rounded ["id", "action", "status", "created"] (records.map eventRow)]

def eventsJson (records : List EventRecord) : String :=
  lines [(Value.list (records.map EventRecord.toValue)).pretty]

end Output

end DesiredState
