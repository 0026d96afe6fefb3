import DesiredState.Schema

/-!
# Attribute differences

`Schema.diff` finds the changes that bring an observed object to the desired attributes.
Attributes that are not desired, or not known to the schema, stay as they are.
-/

set_option autoImplicit false

namespace DesiredState

namespace Schema

/-- The changes for some desired attributes, in their order. The first attribute that is of the
wrong kind, or that differs without being allowed to, fails the whole difference. -/
def diffEntries (schema : Schema) (remote : RemoteObject) (policy : MutabilityPolicy) :
    List (String × Value) → Except PassError (List FieldChange)
  | [] => .ok []
  | (key, want) :: rest =>
      match schema.field? key with
      | none => schema.diffEntries remote policy rest
      | some spec =>
          if spec.passesOver want then schema.diffEntries remote policy rest
          else
            match spec.check remote.reference.text want with
            | .error error => .error error
            | .ok () =>
                if want.agrees (remote.getD spec.name) then
                  schema.diffEntries remote policy rest
                else if policy.allows key then
                  match schema.diffEntries remote policy rest with
                  | .error error => .error error
                  | .ok changes => .ok (⟨key, remote.get? spec.name, want⟩ :: changes)
                else .error (.nonMutableField remote.reference.text key)

/-- The changes that bring an object to the desired attributes. A desired null clears a
nullable field and is passed over on any other. -/
def diff (schema : Schema) (remote : RemoteObject) (desired : Attributes)
    (policy : MutabilityPolicy) : Except PassError (List FieldChange) :=
  schema.diffEntries remote policy desired.entries

end Schema

namespace FieldChange

def applyAll (changes : List FieldChange) (attributes : Attributes) : Attributes :=
  attributes.insertAll (changes.map fun change => (change.field, change.new))

end FieldChange

end DesiredState
