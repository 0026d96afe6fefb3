import DesiredState.Error

/-!
# Schemas

A schema describes one kind of resource: the fields it knows, what each holds, which of them
may change after creation and which identify a sub-resource among its siblings. Attributes a
schema does not know are never looked at.
-/

set_option autoImplicit false

namespace DesiredState

/-- What a field holds. -/
inductive FieldKind where
  | string
  | integer
  | boolean
  | object
  | list
  deriving DecidableEq

namespace FieldKind

/-- Whether a value is of this kind. A number with a fraction or an exponent is no integer. -/
def accepts : FieldKind → Value → Bool
  | .string, .string _ => true
  | .integer, .number (.integer _) => true
  | .boolean, .bool _ => true
  | .object, .object _ => true
  | .list, .list _ => true
  | _, _ => false

def name : FieldKind → String
  | .string => "string"
  | .integer => "integer"
  | .boolean => "boolean"
  | .object => "object"
  | .list => "list"

end FieldKind

/-- One field of a resource: whether it may change after creation, whether a desired null
clears it, and whether it takes part in the identity of a sub-resource. -/
structure FieldSpec where
  name : String
  kind : FieldKind
  mutable : Bool
  nullable : Bool
  identity : Bool
  deriving DecidableEq

namespace FieldSpec

def read (spec : FieldSpec) (object : RemoteObject) : Option Value := object.get? spec.name

def objection? (spec : FieldSpec) (value : Value) : Option String :=
  if value.isNull then
    if spec.nullable then none else some "field cannot be cleared"
  else if spec.kind.accepts value then none
  else some ("expected " ++ spec.kind.name ++ ", got " ++ value.plain)

/-- Fail with the objection to a value, in the name of a resource. -/
def check (spec : FieldSpec) (resource : String) (value : Value) : Except PassError Unit :=
  match spec.objection? value with
  | none => .ok ()
  | some reason => .error (.invalidValue resource spec.name reason)

def write (spec : FieldSpec) (resource : String) (request : Attributes) (value : Value) :
    Except PassError Attributes :=
  match spec.check resource value with
  | .ok () => .ok (request.insert spec.name value)
  | .error error => .error error

/-- Whether a desired value is passed over: a null where the field cannot be cleared. -/
def passesOver (spec : FieldSpec) (value : Value) : Bool := value.isNull && !spec.nullable

end FieldSpec

/-- How the creates of a collection depend on its deletes. -/
inductive SlotPolicy where
  | independent
  /-- A create takes the place of a delete that has equal values in these fields. -/
  | sharedSlot (fields : List String)
  | exclusive
  deriving DecidableEq

/-- The description of one kind of resource. -/
structure Schema where
  kind : String
  fields : List FieldSpec
  slots : SlotPolicy
  /-- The kinds of the sub-resources managed under an object of this kind. -/
  children : List String
  deriving DecidableEq

/-- The fields that a change may touch. -/
structure MutabilityPolicy where
  allowed : List String
  deriving DecidableEq

namespace MutabilityPolicy

def allows (policy : MutabilityPolicy) (field : String) : Bool := policy.allowed.contains field

end MutabilityPolicy

namespace Schema

def field? (schema : Schema) (name : String) : Option FieldSpec :=
  schema.fields.find? (·.name == name)

def knows (schema : Schema) (name : String) : Bool := (schema.field? name).isSome

/-- The fields that identify a sub-resource, in the order of the schema. -/
def identityFields (schema : Schema) : List FieldSpec := schema.fields.filter (·.identity)

/-- Whether sub-resources of this kind are managed under the resource. -/
def hasChild (schema : Schema) (kind : String) : Bool := schema.children.contains kind

def mutabilityPolicy (schema : Schema) : MutabilityPolicy :=
  ⟨(schema.fields.filter (·.mutable)).map (·.name)⟩

/-- The name under which the event log files an operation on this kind. -/
def eventAction (schema : Schema) (operation : OperationKind) : String :=
  schema.kind ++ "_" ++ operation.text

/-- Check the known ones of some attributes, one after the other. -/
def validateEntries (schema : Schema) : List (String × Value) → Except PassError Unit
  | [] => .ok ()
  | (key, value) :: rest =>
      match schema.field? key with
      | none => schema.validateEntries rest
      | some spec =>
          if spec.passesOver value then schema.validateEntries rest
          else
            match spec.check schema.kind value with
            | .ok () => schema.validateEntries rest
            | .error error => .error error

def validate (schema : Schema) (desired : Attributes) : Except PassError Unit :=
  schema.validateEntries desired.entries

/-- The body that creates a resource with these attributes: the known ones that are not null. -/
def createBody (schema : Schema) (desired : Attributes) : Attributes :=
  desired.filter fun key value => schema.knows key && !value.isNull

/-- The label of an observed object by its identifying fields, or by its address if there are
none. A field that is not reported has an empty text. -/
def identityOf (schema : Schema) (object : RemoteObject) : String :=
  match schema.identityFields with
  | [] => object.reference.text
  | specs =>
      let part (spec : FieldSpec) : String :=
        spec.name ++ "=" ++ ((spec.read object).map Value.plain).getD ""
      schema.kind ++ "[" ++ ",".intercalate (specs.map part) ++ "]"

/-- The values that an observed object has in the fields of a shared slot. -/
def slotOfObject? (schema : Schema) (object : RemoteObject) : Option (List Value) :=
  match schema.slots with
  | .sharedSlot fields => some (fields.map object.getD)
  | .independent | .exclusive => none

end Schema

end DesiredState
