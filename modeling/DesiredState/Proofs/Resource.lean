import Mathlib.Logic.Relation
import DesiredState.Resource

/-!
# Addresses below one another

An address is below those that its parents lead to, in one step or in several. Being below an address
is transitive and goes one way only, so that an object never belongs to its own sub-resources.
-/

set_option autoImplicit false

namespace DesiredState

namespace ResourceRef

theorem isDescendantOf_of_parent? {reference parent : ResourceRef}
    (belongs : reference.parent? = some parent) (ancestor : ResourceRef) :
    reference.isDescendantOf ancestor = (parent == ancestor || parent.isDescendantOf ancestor) := by
  cases reference with
  | top kind id => cases belongs
  | child owner kind id => cases belongs; rfl

/-- The parents of an address, and the parents of these, lead to another one. -/
def BelongsTo (reference ancestor : ResourceRef) : Prop :=
  Relation.TransGen (fun lower upper => lower.parent? = some upper) reference ancestor

theorem belongsTo_iff {reference ancestor : ResourceRef} : reference.BelongsTo ancestor ↔
    ∃ parent, reference.parent? = some parent ∧ (parent = ancestor ∨ parent.BelongsTo ancestor) := by
  rw [BelongsTo, Relation.TransGen.head'_iff]
  simp only [Relation.reflTransGen_iff_eq_or_transGen, eq_comm (a := ancestor)]
  rfl

/-- The walk along the parents finds exactly what an address belongs to. -/
theorem isDescendantOf_iff_belongsTo {reference ancestor : ResourceRef} :
    reference.isDescendantOf ancestor = true ↔ reference.BelongsTo ancestor := by
  induction reference with
  | top kind id =>
      rw [belongsTo_iff]
      simp [isDescendantOf, parent?]
  | child parent kind id ih =>
      rw [isDescendantOf, Bool.or_eq_true, beq_iff_eq, ih, @belongsTo_iff (child parent kind id)]
      simp [parent?]

instance (reference ancestor : ResourceRef) : Decidable (reference.BelongsTo ancestor) :=
  decidable_of_iff _ isDescendantOf_iff_belongsTo

private theorem sizeOf_lt_of_isDescendantOf {reference ancestor : ResourceRef}
    (below : reference.isDescendantOf ancestor = true) : sizeOf ancestor < sizeOf reference := by
  induction reference with
  | top kind id => simp [isDescendantOf] at below
  | child parent kind id ih =>
      simp only [child.sizeOf_spec]
      rcases Bool.or_eq_true_iff.mp below with same | above
      · rw [← eq_of_beq same]
        omega
      · have smaller := ih above
        omega

theorem isDescendantOf_trans {lower middle upper : ResourceRef}
    (below : lower.isDescendantOf middle = true) (above : middle.isDescendantOf upper = true) :
    lower.isDescendantOf upper = true := by
  induction lower with
  | top kind id => cases below
  | child parent kind id ih =>
      simp only [isDescendantOf, Bool.or_eq_true] at below ⊢
      rcases below with same | further
      · cases eq_of_beq same
        exact .inr above
      · exact .inr (ih further)

theorem not_isDescendantOf_self (reference : ResourceRef) :
    reference.isDescendantOf reference = false := by
  cases below : reference.isDescendantOf reference with
  | false => rfl
  | true => exact absurd (sizeOf_lt_of_isDescendantOf below) (Nat.lt_irrefl _)

theorem not_isDescendantOf_child {reference parent : ResourceRef}
    (belongs : reference.parent? = some parent) : parent.isDescendantOf reference = false := by
  cases below : parent.isDescendantOf reference with
  | false => rfl
  | true =>
      have above : reference.isDescendantOf parent = true := by
        simp [isDescendantOf_of_parent? belongs]
      have smaller := sizeOf_lt_of_isDescendantOf below
      have larger := sizeOf_lt_of_isDescendantOf above
      omega

theorem ne_of_parent? {reference parent : ResourceRef}
    (belongs : reference.parent? = some parent) : reference ≠ parent := by
  intro same
  have above : reference.isDescendantOf parent = true := by
    simp [isDescendantOf_of_parent? belongs]
  rw [same, not_isDescendantOf_self] at above
  cases above

/-- Neighbours are not below one another. -/
theorem not_isDescendantOf_sibling {left right parent : ResourceRef}
    (leftBelongs : left.parent? = some parent) (rightBelongs : right.parent? = some parent) :
    left.isDescendantOf right = false := by
  rw [isDescendantOf_of_parent? leftBelongs, not_isDescendantOf_child rightBelongs, Bool.or_false]
  exact beq_false_of_ne (ne_of_parent? rightBelongs).symm

@[simp] theorem kind_under (parent : Option ResourceRef) (kind : String) (id : Nat) :
    (under parent kind id).kind = kind := by
  cases parent <;> rfl

@[simp] theorem id_under (parent : Option ResourceRef) (kind : String) (id : Nat) :
    (under parent kind id).id = id := by
  cases parent <;> rfl

@[simp] theorem parent?_under (parent : Option ResourceRef) (kind : String) (id : Nat) :
    (under parent kind id).parent? = parent := by
  cases parent <;> rfl

end ResourceRef

namespace Collection

theorem contains_iff {collection : Collection} {reference : ResourceRef} :
    collection.contains reference = true ↔
      reference.kind = collection.kind ∧ reference.parent? = collection.parent := by
  simp [contains]

theorem parent?_of_contains {parent : ResourceRef} {kind : String} {reference : ResourceRef}
    (member : (Collection.under parent kind).contains reference = true) :
    reference.parent? = some parent :=
  (contains_iff.mp member).2

theorem contains_under_self (collection : Collection) (id : Nat) :
    collection.contains (.under collection.parent collection.kind id) = true := by
  simp [contains]

end Collection

end DesiredState
