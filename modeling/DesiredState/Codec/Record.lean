import DesiredState.Json.Shape

/-!
# Records as values

A record is encoded as an object with one field per component. It is read from such an object,
whatever else that holds, or from a list of the components in their order. A component that is
left out may have a default; at the end of a list it may be left out too.
-/

set_option autoImplicit false

namespace DesiredState

namespace Value

def components? (names : List String) : Value → Option (List (String × Value))
  | .object fields => some fields
  | .list items => if items.length ≤ names.length then some (names.zip items) else none
  | _ => none

def required? {α : Type} (fields : List (String × Value)) (name : String)
    (read : Value → Option α) : Option α :=
  match Entries.find? name fields with
  | some value => read value
  | none => none

def defaulted? {α : Type} (fields : List (String × Value)) (name : String) (default : α)
    (read : Value → Option α) : Option α :=
  match Entries.find? name fields with
  | some value => read value
  | none => some default

def optional? {α : Type} (fields : List (String × Value)) (name : String)
    (read : Value → Option α) : Option (Option α) :=
  match Entries.find? name fields with
  | none | some .null => some none
  | some value => (read value).map some

def nullable? {α : Type} (read : Value → Option α) : Value → Option (Option α)
  | .null => some none
  | value => (read value).map some

def items? {α : Type} (read : Value → Option α) : Value → Option (List α)
  | .list items => items.mapM read
  | _ => none

end Value

end DesiredState
