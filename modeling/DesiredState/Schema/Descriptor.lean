import DesiredState.Schema

/-!
# Desired sub-resources

A desired entry of a collection is split into the fields that say which object is meant and the
fields that say what it should hold. `Schema.descriptor` does this, or says which field keeps
the entry from naming an object.
-/

set_option autoImplicit false

namespace DesiredState

def Attributes.ofDesired (value : Value) : Except PassError Attributes :=
  match value.attributes? with
  | some attributes => .ok attributes
  | none =>
      .error (.invalidValue "desired state" "" ("expected an object, got " ++ value.compact))

/-- A desired sub-resource: what identifies it, and what else it should hold. -/
structure Descriptor where
  identity : Attributes
  payload : Attributes
  deriving DecidableEq

namespace Descriptor

def get? (descriptor : Descriptor) (field : String) : Option Value :=
  (descriptor.identity.find? field).or (descriptor.payload.find? field)

/-- The desired value of a field, where one that is not given counts as null. -/
def getD (descriptor : Descriptor) (field : String) : Value :=
  (descriptor.get? field).getD .null

/-- Whether an observed object is the one that is meant: every identifying field agrees. -/
def matchesObject (descriptor : Descriptor) (object : RemoteObject) : Bool :=
  descriptor.identity.entries.all fun (field, want) => want.agrees (object.getD field)

def identityKey (descriptor : Descriptor) : String :=
  ",".intercalate (descriptor.identity.entries.map fun (field, value) =>
    field ++ "=" ++ value.plain)

/-- The body that creates the sub-resource: everything that is not null, a field of the payload
before one of the identity. -/
def createPayload (descriptor : Descriptor) : Attributes :=
  let given (attributes : Attributes) := attributes.filter fun _ value => !value.isNull
  (given descriptor.identity).insertAll (given descriptor.payload).entries

end Descriptor

namespace Schema

/-- Give every identifying field a value: null for a nullable one that is left out. Any other
has to be there and not to be null. -/
def completeIdentity (schema : Schema) (identity : Attributes) :
    List FieldSpec → Except PassError Attributes
  | [] => .ok identity
  | spec :: rest =>
      let present := (identity.find? spec.name).any (!·.isNull)
      if present then schema.completeIdentity identity rest
      else if spec.nullable then
        schema.completeIdentity (identity.insert spec.name .null) rest
      else .error (.invalidValue schema.kind spec.name "identity field is required")

def identifies (schema : Schema) (name : String) : Bool :=
  (schema.field? name).any (·.identity)

/-- Split a desired entry. Attributes the schema does not know are left out. -/
def descriptor (schema : Schema) (desired : Attributes) : Except PassError Descriptor :=
  match schema.validate desired with
  | .error error => .error error
  | .ok () =>
      let given := desired.filter fun key _ => schema.identifies key
      let payload := desired.filter fun key _ => schema.knows key && !schema.identifies key
      match schema.completeIdentity given schema.identityFields with
      | .error error => .error error
      | .ok identity => .ok ⟨identity, payload⟩

def descriptors (schema : Schema) : List Attributes → Except PassError (List Descriptor)
  | [] => .ok []
  | entry :: rest =>
      match schema.descriptor entry with
      | .error error => .error error
      | .ok head =>
          match schema.descriptors rest with
          | .error error => .error error
          | .ok tail => .ok (head :: tail)

def identityLabel (schema : Schema) (descriptor : Descriptor) : String :=
  schema.kind ++ "[" ++ descriptor.identityKey ++ "]"

/-- The values that a desired entry has in the fields of a shared slot. -/
def slotOfDescriptor? (schema : Schema) (descriptor : Descriptor) : Option (List Value) :=
  match schema.slots with
  | .sharedSlot fields => some (fields.map descriptor.getD)
  | .independent | .exclusive => none

end Schema

end DesiredState
