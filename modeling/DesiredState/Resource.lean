import DesiredState.Json.Writer

/-!
# Resources

Remote objects and their addresses. An object lives at a reference: its kind and number, and
for a sub-resource the reference of the object it belongs to. A collection is the place where
the sub-resources of one kind under one object live.
-/

set_option autoImplicit false

namespace DesiredState

/-- The address of a remote object. -/
inductive ResourceRef where
  | top (kind : String) (id : Nat)
  | child (parent : ResourceRef) (kind : String) (id : Nat)
  deriving DecidableEq, Inhabited

namespace ResourceRef

def kind : ResourceRef → String
  | .top kind _ => kind
  | .child _ kind _ => kind

def id : ResourceRef → Nat
  | .top _ id => id
  | .child _ _ id => id

def parent? : ResourceRef → Option ResourceRef
  | .top _ _ => none
  | .child parent _ _ => some parent

/-- The address of an object of this kind and number under a parent, if there is one. -/
def under (parent : Option ResourceRef) (kind : String) (id : Nat) : ResourceRef :=
  match parent with
  | none => .top kind id
  | some parent => .child parent kind id

def isDescendantOf (reference ancestor : ResourceRef) : Bool :=
  match reference with
  | .top _ _ => false
  | .child parent _ _ => parent == ancestor || parent.isDescendantOf ancestor

/-- The path from the outermost parent: kinds and numbers between slashes. -/
def text : ResourceRef → String
  | .top kind id => kind ++ "/" ++ Nat.repr id
  | .child parent kind id => parent.text ++ "/" ++ kind ++ "/" ++ Nat.repr id

end ResourceRef

/-- The objects of one kind under one parent, or at the top level. -/
structure Collection where
  kind : String
  parent : Option ResourceRef
  deriving DecidableEq

namespace Collection

/-- The collection of the sub-resources of a kind under an object. -/
def under (parent : ResourceRef) (kind : String) : Collection := ⟨kind, some parent⟩

def contains (collection : Collection) (reference : ResourceRef) : Bool :=
  reference.kind == collection.kind && reference.parent? == collection.parent

def text (collection : Collection) : String :=
  match collection.parent with
  | some parent => parent.text ++ "/" ++ collection.kind
  | none => collection.kind

end Collection

/-- An object as the remote side reports it. -/
structure RemoteObject where
  reference : ResourceRef
  attributes : Attributes
  deriving DecidableEq

namespace RemoteObject

def id (object : RemoteObject) : Nat := object.reference.id

def get? (object : RemoteObject) (field : String) : Option Value := object.attributes.find? field

/-- The value of an attribute, where one that is not reported counts as null. -/
def getD (object : RemoteObject) (field : String) : Value := (object.get? field).getD .null

end RemoteObject

/-- One attribute that is to change. There is no old value if the remote side did not report
the attribute. -/
structure FieldChange where
  field : String
  old : Option Value
  new : Value
  deriving DecidableEq

namespace FieldChange

def text (change : FieldChange) : String :=
  let old := match change.old with
    | some old => old.compact
    | none => "(unset)"
  change.field ++ ": " ++ old ++ " -> " ++ change.new.compact

end FieldChange

/-- The ways to write to the remote side. -/
inductive OperationKind where
  | create
  | update
  | delete
  deriving DecidableEq

namespace OperationKind

def text : OperationKind → String
  | .create => "create"
  | .update => "update"
  | .delete => "delete"

end OperationKind

end DesiredState
