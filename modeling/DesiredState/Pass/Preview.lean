import DesiredState.LineDiff.Unified
import DesiredState.Pass.Plan

/-!
# Previews

What a plan would do to the attributes of the top-level object, shown as the difference of two
JSON texts.
-/

set_option autoImplicit false

namespace DesiredState

namespace Plan

def attributesBefore (plan : Plan) : Attributes :=
  match plan.action with
  | .create _ => ∅
  | .update remote _ => remote.attributes

def attributesAfter (plan : Plan) : Attributes :=
  match plan.action with
  | .create payload => payload
  | .update remote changes => FieldChange.applyAll changes remote.attributes

def oldName (plan : Plan) : String :=
  match plan.action with
  | .create _ => "/dev/null"
  | .update remote _ => "a/" ++ remote.reference.text

def newName (plan : Plan) : String := "b/" ++ plan.label

def shownLines (attributes : Attributes) : List String :=
  LineDiff.linesOf ((Value.ofAttributes attributes).pretty ++ "\n")

/-- The difference of the attributes, empty if an object that is there needs no changes. -/
def unifiedDiff (plan : Plan) : String :=
  match plan.action with
  | .update _ [] => ""
  | _ =>
      LineDiff.unified plan.oldName plan.newName (shownLines plan.attributesBefore)
        (shownLines plan.attributesAfter)

end Plan

end DesiredState
