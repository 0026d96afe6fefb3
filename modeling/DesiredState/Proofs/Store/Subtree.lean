import DesiredState.Proofs.Store.Memory
import DesiredState.Proofs.Store.Order

/-!
# Deleting a tree

An accepted delete removes an object together with everything that belongs to it, through however many
parents, and nothing else. What is removed can no longer be read or listed, and nothing that is left
belongs to it, so that a state in which every parent is present stays one.
-/

set_option autoImplicit false

namespace DesiredState

namespace StoreState

variable {state : StoreState} {removed other : ResourceRef}

private theorem objects_removeTree (state : StoreState) (removed : ResourceRef) :
    (state.removeTree removed).objects = state.objects.filter fun object =>
      object.reference ≠ removed ∧ ¬ object.reference.BelongsTo removed := by
  refine List.filter_congr fun object _ => ?_
  rw [Bool.eq_iff_iff, decide_eq_true_iff, ← ResourceRef.isDescendantOf_iff_belongsTo]
  simp

private theorem mem_objects_removeTree {object : RemoteObject} :
    object ∈ (state.removeTree removed).objects ↔ object ∈ state.objects ∧
      object.reference ≠ removed ∧ ¬ object.reference.BelongsTo removed := by
  rw [objects_removeTree, List.mem_filter, decide_eq_true_iff]

private theorem find?_removeTree (inTree : other = removed ∨ other.BelongsTo removed) :
    (state.removeTree removed).find? other = none := by
  refine List.find?_eq_none.mpr fun object member addressed => ?_
  obtain ⟨_, isNot, isNotBelow⟩ := mem_objects_removeTree.mp member
  rw [eq_of_beq addressed] at isNot isNotBelow
  rcases inTree with same | below
  · exact isNot same
  · exact isNotBelow below

/-- What belongs to a part of the tree belongs to the whole of it. -/
theorem members_removeTree (inTree : other = removed ∨ other.BelongsTo removed) (kind : String) :
    (state.removeTree removed).members (.under other kind) = [] := by
  refine List.filter_eq_nil_iff.mpr fun object member contained => ?_
  obtain ⟨_, _, isNotBelow⟩ := mem_objects_removeTree.mp member
  exact isNotBelow (ResourceRef.belongsTo_iff.mpr
    ⟨other, Collection.parent?_of_contains contained, inTree⟩)

theorem ParentsHeld.congr {left right : StoreState} (same : left.SameObjects right)
    (held : right.ParentsHeld) : left.ParentsHeld := by
  intro object member
  rw [funext same.holds]
  exact held object (same.objects ▸ member)

end StoreState

namespace MemoryStore

open StoreState

variable {reference : ResourceRef} {store after : MemoryStore}

private theorem sameObjects_of_delete (accepted : delete reference store = (.ok (), after)) :
    after.state.SameObjects (store.state.removeTree reference) := by
  rcases delete_cases store reference with ⟨_, refused⟩ | ⟨_, carriedOut⟩
  · rw [refused] at accepted
    cases accepted
  · rw [carriedOut] at accepted
    cases accepted
    exact ⟨rfl, rfl⟩

/-- An accepted delete removes exactly a tree: the object at the address and the objects that have it
among their parents, at any distance. The others are left as they were, in their order. No address of
the tree is found any more and no collection in it has members, and if every parent was present before,
it still is. -/
theorem delete_removes_tree (reference : ResourceRef) (store after : MemoryStore)
    (accepted : delete reference store = (.ok (), after)) :
    (after.state.objects = store.state.objects.filter fun object =>
      object.reference ≠ reference ∧ ¬ object.reference.BelongsTo reference) ∧
    (∀ other, other = reference ∨ other.BelongsTo reference →
      (get other after).1 = .ok none ∧ ∀ kind, (list (.under other kind) after).1 = .ok []) ∧
    (store.state.ParentsHeld → after.state.ParentsHeld) := by
  have same := sameObjects_of_delete accepted
  refine ⟨?_, fun other inTree => ⟨?_, fun kind => ?_⟩, fun held => ?_⟩
  · rw [same.objects, objects_removeTree]
  · rw [get, same.find?, find?_removeTree inTree]
  · rw [list, same.members, members_removeTree inTree]
  · exact (held.removeTree reference).congr same

/-- Two clusters with node pools of one number, and a node that stands before the pool it belongs to. -/
def twinPools : MemoryStore :=
  .ofState ⟨5, 0, 1,
    [⟨.child (.child (.top "lke_cluster" 1) "lke_node_pool" 2) "node" 3, ∅⟩,
      ⟨.child (.top "lke_cluster" 4) "lke_node_pool" 2, (∅ : Attributes).insert "count" (.ofNat 3)⟩,
      ⟨.child (.top "lke_cluster" 1) "lke_node_pool" 2, ∅⟩, ⟨.top "lke_cluster" 1, ∅⟩,
      ⟨.child (.child (.top "lke_cluster" 4) "lke_node_pool" 2) "node" 5, ∅⟩,
      ⟨.top "lke_cluster" 4, ∅⟩], []⟩ (.stopped .epoch)

theorem delete_removes_tree_twinPools :
    ∃ after, delete (.child (.top "lke_cluster" 1) "lke_node_pool" 2) twinPools = (.ok (), after) ∧
      after.state.objects =
        [⟨.child (.top "lke_cluster" 4) "lke_node_pool" 2, (∅ : Attributes).insert "count" (.ofNat 3)⟩,
          ⟨.top "lke_cluster" 1, ∅⟩,
          ⟨.child (.child (.top "lke_cluster" 4) "lke_node_pool" 2) "node" 5, ∅⟩,
          ⟨.top "lke_cluster" 4, ∅⟩] ∧
      (get (.child (.child (.top "lke_cluster" 1) "lke_node_pool" 2) "node" 3) after).1 = .ok none ∧
      (list (.under (.child (.top "lke_cluster" 1) "lke_node_pool" 2) "node") after).1 = .ok [] ∧
      after.state.ParentsHeld := by
  have accepted : (delete (.child (.top "lke_cluster" 1) "lke_node_pool" 2) twinPools).1 = .ok () := by
    decide
  obtain ⟨left, gone, parents⟩ := delete_removes_tree _ twinPools _ (Prod.ext accepted rfl)
  refine ⟨_, Prod.ext accepted rfl, left.trans (by decide), (gone _ (.inr ?_)).1,
    (gone _ (.inl rfl)).2 "node", parents ?_⟩
  · decide
  · unfold ParentsHeld
    decide

end MemoryStore

end DesiredState
