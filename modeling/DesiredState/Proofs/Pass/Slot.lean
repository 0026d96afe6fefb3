import DesiredState.Pass.Apply

/-!
# Slots that are still held

An object that could not be deleted keeps some entries from being created, according to the slots of the
schema. `Schema.obstructs` says which, in terms of the object and the entry; `Schema.blocker?` finds the
first such object.
-/

set_option autoImplicit false

namespace DesiredState.Schema

variable {schema : Schema}

def heldSlot (schema : Schema) (remote : RemoteObject) : HeldSlot :=
  ⟨schema.identityOf remote, schema.slotOfObject? remote⟩

/-- Whether an object has to be gone before an entry can be created. -/
def obstructs (schema : Schema) (remote : RemoteObject) (desired : Descriptor) : Bool :=
  match schema.slots with
  | .independent => false
  | .exclusive => true
  | .sharedSlot fields => fields.all fun field => (remote.getD field).agrees (desired.getD field)

private theorem sameSlot_map (fields : List String) (held wanted : String → Value) :
    sameSlot (fields.map held) (fields.map wanted) =
      fields.all fun field => (held field).agrees (wanted field) := by
  induction fields with
  | nil => rfl
  | cons field rest ih =>
      rw [List.all_cons, ← ih]
      rfl

/-- The first object that obstructs an entry is the one that blocks it. -/
theorem blocker?_heldSlots (refused : List RemoteObject) (desired : Descriptor) :
    schema.blocker? (refused.map schema.heldSlot) desired =
      (refused.find? (schema.obstructs · desired)).map schema.heldSlot := by
  cases slots : schema.slots with
  | independent =>
      have none : refused.find? (schema.obstructs · desired) = none :=
        List.find?_eq_none.mpr fun remote _ => by simp [obstructs, slots]
      rw [none, blocker?, slots]
      rfl
  | exclusive =>
      cases refused with
      | nil => simp [blocker?, slots]
      | cons remote rest => simp [blocker?, obstructs, slots]
  | sharedSlot fields =>
      simp only [blocker?, slots, List.find?_map, Function.comp_def, heldSlot, slotOfObject?, obstructs,
        Option.any_some, sameSlot_map]

end DesiredState.Schema
