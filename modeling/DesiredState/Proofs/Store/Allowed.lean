import DesiredState.Proofs.Store.Memory

/-!
# Writes that can follow one another

A write needs one object at most: the parent of a create, and the object itself of an update or a
delete. Writes can be carried out one after the other if everything that they need is there in the
beginning and no delete takes away what a later write needs.
-/

set_option autoImplicit false

namespace DesiredState

namespace Write

/-- The object that has to be there. -/
def needs : Write → Option ResourceRef
  | .create collection _ => collection.parent
  | .update reference _ | .delete reference => some reference

/-- What the later write needs outlives the earlier one. -/
def LeavesFor (earlier later : Write) : Prop :=
  ∀ reference, later.needs = some reference → earlier.spares reference = true

/-- A delete in one collection of an object leaves what a write to another one needs, and so it does
in the same collection if it is not the very object. -/
theorem leavesFor_of_within {parent : ResourceRef} {kind other : String} {earlier later : Write}
    (first : earlier.Within (.under parent kind)) (second : later.Within (.under parent other))
    (apart : kind ≠ other ∨ ∀ reference, earlier = .delete reference → later.needs ≠ some reference) :
    earlier.LeavesFor later := by
  intro reference needed
  cases earlier with
  | create collection payload => rfl
  | update target fields => rfl
  | delete removed =>
      have belongs := Collection.parent?_of_contains first
      have outlives : ∀ neighbour, (Collection.under parent other).contains neighbour = true →
          later.needs = some neighbour → (Write.delete removed).spares neighbour = true := by
        intro neighbour contained needsNeighbour
        have distinct : neighbour ≠ removed := by
          rintro rfl
          rcases apart with differ | notNeeded
          · exact differ ((Collection.contains_iff.mp first).1.symm.trans
              (Collection.contains_iff.mp contained).1)
          · exact notNeeded neighbour rfl needsNeighbour
        simp [spares, distinct,
          ResourceRef.not_isDescendantOf_sibling (Collection.parent?_of_contains contained) belongs]
      cases later with
      | create collection payload =>
          cases second
          cases needed
          simp [spares, ResourceRef.not_isDescendantOf_child belongs,
            (ResourceRef.ne_of_parent? belongs).symm]
      | update target fields =>
          cases needed
          exact outlives _ second rfl
      | delete target =>
          cases needed
          exact outlives _ second rfl

end Write

namespace StoreState

theorem allows_iff {state : StoreState} {write : Write} :
    state.Allows write ↔ ∀ reference, write.needs = some reference → state.holds reference = true := by
  cases write with
  | create collection payload =>
      simp only [Allows, missingParent?, Write.needs]
      cases collection.parent with
      | none => simp
      | some parent => simp
  | update reference fields => simp [Allows, Write.needs]
  | delete reference => simp [Allows, Write.needs]

theorem SameObjects.allows {left right : StoreState} (same : left.SameObjects right) {write : Write}
    (allowed : right.Allows write) : left.Allows write := by
  rw [allows_iff] at allowed ⊢
  intro reference needed
  rw [same.holds]
  exact allowed reference needed

/-- Each of some writes is allowed when those before it have been performed. -/
def AllowsAll (state : StoreState) : List Write → Prop
  | [] => True
  | write :: rest => state.Allows write ∧ (state.performed write).AllowsAll rest

theorem allowsAll_of_pairwise {state : StoreState} {writes : List Write}
    (allowed : ∀ write ∈ writes, state.Allows write) (leaving : writes.Pairwise Write.LeavesFor) :
    state.AllowsAll writes := by
  induction writes generalizing state with
  | nil => trivial
  | cons write rest ih =>
      obtain ⟨leaves, others⟩ := List.pairwise_cons.mp leaving
      refine ⟨allowed write List.mem_cons_self, ih (fun later member => ?_) others⟩
      rw [allows_iff]
      intro reference needed
      have held := allows_iff.mp (allowed later (List.mem_cons_of_mem _ member)) reference needed
      exact holds_performed_of_spares held (leaves later member reference needed)

theorem AllowsAll.of_append {state : StoreState} {first second : List Write}
    (allowed : state.AllowsAll (first ++ second)) :
    state.AllowsAll first ∧ (state.performedAll first).AllowsAll second := by
  induction first generalizing state with
  | nil => exact ⟨trivial, allowed⟩
  | cons write rest ih =>
      obtain ⟨now, later⟩ := allowed
      obtain ⟨inFirst, inSecond⟩ := ih later
      exact ⟨⟨now, inFirst⟩, inSecond⟩

end StoreState

end DesiredState
