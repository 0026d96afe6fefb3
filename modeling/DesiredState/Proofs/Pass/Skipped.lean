import DesiredState.Proofs.Pass.Turn

/-!
# Skipped creates

A create is skipped exactly if an object that the store refused to delete still holds its slot. The
skip is the whole turn: it is reported with the first such object, and apart from that the run is the one
of the other operations.
-/

set_option autoImplicit false

namespace DesiredState.Schema

variable {σ : Type} {schema : Schema} {collection : Collection} {refused : List RemoteObject}
  {desired : Descriptor} {turn : Turn}

/-- The turn of a create is a skip exactly if its slot is held, and otherwise a call of the store. -/
structure SkipsIfHeld (schema : Schema) (collection : Collection) (refused : List RemoteObject)
    (desired : Descriptor) (turn : Turn) : Prop where
  independent : schema.slots = .independent → ¬turn.Skips
  exclusive : schema.slots = .exclusive → (turn.Skips ↔ refused ≠ [])
  sharedSlot : ∀ fields, schema.slots = .sharedSlot fields →
    (turn.Skips ↔ ∃ remote ∈ refused,
      ∀ field ∈ fields, (remote.getD field).agrees (desired.getD field) = true)
  skipped : turn.Skips → ∃ blocker, refused.find? (schema.obstructs · desired) = some blocker ∧
    turn = ⟨[], ⟨[], [.dependentSkipped schema.kind (schema.identityLabel desired)
      (schema.identityOf blocker)]⟩⟩
  called : ¬turn.Skips → ∃ answer, turn.exchanges = [.create collection desired.createPayload answer]

namespace CreateTurn

private theorem skips_iff (made : schema.CreateTurn collection refused desired turn) :
    turn.Skips ↔ ∃ remote ∈ refused, schema.obstructs remote desired = true := by
  cases made with
  | accepted free _ | refused free _ =>
      have unobstructed : ¬∃ remote ∈ refused, schema.obstructs remote desired = true := by
        simpa using List.find?_eq_none.mp free
      refine iff_of_false ?_ unobstructed
      intro skips
      obtain ⟨_, _, _, member⟩ := skips
      simp at member
  | @skipped blocker blocked =>
      have held : schema.obstructs blocker desired = true := by simpa using List.find?_some blocked
      constructor
      · intro _
        exact ⟨blocker, List.mem_of_find?_eq_some blocked, held⟩
      · intro _
        exact ⟨_, _, _, List.mem_singleton_self _⟩

private theorem skipsIfHeld (made : schema.CreateTurn collection refused desired turn) :
    schema.SkipsIfHeld collection refused desired turn where
  independent := by
    intro slots skips
    obtain ⟨remote, _, held⟩ := made.skips_iff.mp skips
    simp [obstructs, slots] at held
  exclusive := by
    intro slots
    rw [made.skips_iff]
    constructor
    · rintro ⟨remote, member, _⟩
      exact List.ne_nil_of_mem member
    · intro some
      obtain ⟨remote, member⟩ := List.exists_mem_of_ne_nil refused some
      exact ⟨remote, member, by rw [obstructs, slots]⟩
  sharedSlot := by
    intro fields slots
    rw [made.skips_iff]
    simp only [obstructs, slots, List.all_eq_true]
  skipped := by
    intro skips
    obtain ⟨remote, member, held⟩ := made.skips_iff.mp skips
    cases made with
    | skipped blocked => exact ⟨_, blocked, rfl⟩
    | accepted free _ | refused free _ => exact absurd held (List.find?_eq_none.mp free remote member)
  called := by
    intro notSkipped
    cases made with
    | accepted _ created => exact ⟨.ok created, rfl⟩
    | refused _ source => exact ⟨.error source, rfl⟩
    | skipped _ => exact absurd ⟨_, _, _, List.mem_singleton_self _⟩ notSkipped

end CreateTurn

/-- A create is skipped exactly if an object that could not be deleted holds its slot: never where slots
are independent, after any refused delete where they are exclusive, and otherwise if the object agrees
with the entry in every field of the slot. It is then not sent and reported once, with the first such
object. And it might as well not have been among the operations: without it all others take the turns
that they have, to the same end. -/
theorem skipped_iff_held (schema : Schema) (store : RemoteStore σ) (collection : Collection)
    (set : OperationSet) (before : PassState σ) :
    ∃ deletes creates updates after,
      schema.RunBy store collection set before after (deletes ++ creates ++ updates) ∧
      List.Forall₂ schema.DeleteTurn set.toDelete deletes ∧
      List.Forall₂ (schema.SkipsIfHeld collection (refusedAmong set.toDelete deletes)) set.toCreate
        creates ∧
      List.Forall₂ schema.UpdateTurn set.pendingUpdates updates ∧
      ∀ index turn, creates[index]? = some turn → turn.Skips →
        schema.RunBy store collection { set with toCreate := set.toCreate.eraseIdx index } before after
          (deletes ++ creates.eraseIdx index ++ updates) := by
  obtain ⟨deletes, creates, updates, after, deleteTurns, createTurns, updateTurns, run, without⟩ :=
    schema.applyOperations_turns store collection set before
  exact ⟨deletes, creates, updates, after, run, deleteTurns,
    createTurns.imp fun _ _ made => made.skipsIfHeld, updateTurns, without⟩

end DesiredState.Schema
