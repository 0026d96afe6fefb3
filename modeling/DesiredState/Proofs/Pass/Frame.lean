import DesiredState.Proofs.Pass.Effect

/-!
# What the writes of a plan leave alone

Everything but the top-level object and the members of the planned collections stays as it is, in
the same order, unless it belonged to a member that was deleted and went with it.
-/

set_option autoImplicit false

namespace DesiredState

/-- The address of the top-level object once its write is done, on a store in memory. -/
def ResourceAction.address (home : Collection) (nextId : Nat) : ResourceAction → ResourceRef
  | .create _ => .under home.parent home.kind (nextId + 1)
  | .update remote _ => remote.reference

def Plan.kinds (plan : Plan) : List String := plan.collections.map (·.schema.kind)

namespace StoreState

def inside (parent : ResourceRef) (kinds : List String) (reference : ResourceRef) : Bool :=
  kinds.any fun kind => (Collection.under parent kind).contains reference

/-- Whether an address lies outside of what a pass is about: it is not that of the top-level object
and not in one of its collections. -/
def outside (parent : ResourceRef) (kinds : List String) (reference : ResourceRef) : Bool :=
  reference != parent && !inside parent kinds reference

/-- The members of some collections of an object that are gone. -/
def removed (before after : StoreState) (parent : ResourceRef) (kinds : List String) :
    List RemoteObject :=
  before.objects.filter fun object =>
    inside parent kinds object.reference && !after.holds object.reference

/-- Whether an address was below that of a member that is gone. -/
def lost (before after : StoreState) (parent : ResourceRef) (kinds : List String)
    (reference : ResourceRef) : Bool :=
  (before.removed after parent kinds).any fun object =>
    reference.isDescendantOf object.reference

variable {state : StoreState} {parent : ResourceRef}

private theorem spares_eq_false_iff {write : Write} {reference : ResourceRef} :
    write.spares reference = false ↔ ∃ removed, write = .delete removed ∧
      (reference = removed ∨ reference.isDescendantOf removed = true) := by
  cases write with
  | create collection payload => simp [Write.spares]
  | update target fields => simp [Write.spares]
  | delete removed =>
      cases below : reference.isDescendantOf removed <;> simp [Write.spares, below]

/-- Of the objects that are not deleted themselves, those go that were below a deleted one. -/
theorem all_spares_eq_not_lost (numbered : state.Numbered) {kinds : List String}
    {writes : List Write}
    (held : ∀ target, .delete target ∈ writes →
      inside parent kinds target = true ∧ state.holds target = true)
    {reference : ResourceRef} (notDeleted : .delete reference ∉ writes) :
    writes.all (·.spares reference) =
      !state.lost (state.performedAll writes) parent kinds reference := by
  rw [Bool.eq_iff_iff, Bool.not_eq_true', List.all_eq_true]
  constructor
  · intro spared
    refine List.any_eq_false.mpr fun ancestor isRemoved below => ?_
    obtain ⟨inState, isGone⟩ := List.mem_filter.mp isRemoved
    -- Whatever takes the ancestor away takes away all that is below it.
    have outlived : ∀ write ∈ writes, write.spares ancestor.reference = true := by
      intro write member
      cases spares : write.spares ancestor.reference with
      | true => rfl
      | false =>
          obtain ⟨target, rfl, further⟩ := spares_eq_false_iff.mp spares
          have belowTarget : reference.isDescendantOf target = true := by
            rcases further with same | above
            · exact same ▸ below
            · exact ResourceRef.isDescendantOf_trans below above
          have notSpared := spares_eq_false_iff.mpr ⟨target, rfl, .inr belowTarget⟩
          exact absurd (spared _ member) (by simp [notSpared])
    have stays := holds_performedAll_of_spares
      (holds_iff.mpr (List.mem_map_of_mem inState)) outlived
    simp [stays] at isGone
  · intro notLost write member
    cases spares : write.spares reference with
    | true => rfl
    | false =>
        obtain ⟨target, rfl, same | below⟩ := spares_eq_false_iff.mp spares
        · exact absurd (same ▸ member) notDeleted
        · obtain ⟨isInside, isHeld⟩ := held target member
          obtain ⟨ancestor, inState, rfl⟩ := List.mem_map.mp (holds_iff.mp isHeld)
          have isGone := not_holds_performedAll_of_delete (numbered.id_le ancestor inState) member
          have isRemoved : ancestor ∈ state.removed (state.performedAll writes) parent kinds :=
            List.mem_filter.mpr ⟨inState, by simp [isInside, isGone]⟩
          exact absurd below (List.any_eq_false.mp notLost ancestor isRemoved)

/-- The write of the top-level object concerns nothing else. -/
theorem filter_performedAll_action {keep : ResourceRef → Bool} {home : Collection}
    {action : ResourceAction} (apart : keep (action.address home state.nextId) = false) :
    (state.performedAll (action.writes home)).objects.filter (fun object => keep object.reference) =
      state.objects.filter fun object => keep object.reference := by
  cases action with
  | create payload =>
      have isApart : keep (state.nextObject home payload).reference = false := apart
      simp [performedAll, performed, ResourceAction.writes, insertObject, List.filter_append, isApart]
  | update remote changes =>
      cases changes with
      | nil => rfl
      | cons change rest =>
          exact filter_modifyFirst (reference_withFields _) apart state.objects

theorem spares_action {home : Collection} {action : ResourceAction} (reference : ResourceRef) :
    ∀ write ∈ action.writes home, write.spares reference = true := by
  intro write member
  cases action with
  | create payload =>
      cases List.mem_singleton.mp member
      rfl
  | update remote changes =>
      cases changes with
      | nil => cases member
      | cons change rest =>
          cases List.mem_singleton.mp member
          rfl

private theorem outside_self (parent : ResourceRef) (kinds : List String) :
    outside parent kinds parent = false := by
  simp [outside]

private theorem inside_of_contains {kinds : List String} {kind : String} (requested : kind ∈ kinds)
    {reference : ResourceRef} (contained : (Collection.under parent kind).contains reference = true) :
    inside parent kinds reference = true :=
  List.any_eq_true.mpr ⟨kind, requested, contained⟩

private theorem outside_of_inside {kinds : List String} {reference : ResourceRef}
    (isInside : inside parent kinds reference = true) : outside parent kinds reference = false := by
  simp [outside, isInside]

variable {plan : Plan}

private theorem apart_of_within (within : WithinParent parent plan.collections) (bound : Nat) :
    ∀ write ∈ plan.collections.flatMap (CollectionPlan.writes parent),
      write.Apart (outside parent plan.kinds) bound := by
  intro write member
  obtain ⟨planned, inPlan, inWrites⟩ := List.mem_flatMap.mp member
  have requested : planned.schema.kind ∈ plan.kinds := List.mem_map_of_mem inPlan
  have isWithin := within planned inPlan write inWrites
  cases write with
  | create target payload =>
      cases isWithin
      exact fun id _ =>
        outside_of_inside (inside_of_contains requested (Collection.contains_under_self _ id))
  | update target fields => exact outside_of_inside (inside_of_contains requested isWithin)
  | delete removed => trivial

/-- The deletes of a plan are those of its collections. -/
theorem exists_collection_of_delete {home : Collection} {target : ResourceRef}
    (deleted : .delete target ∈ plan.writes home parent) :
    ∃ planned ∈ plan.collections, .delete target ∈ planned.writes parent := by
  rcases List.mem_append.mp deleted with inTop | inRest
  · have spared := spares_action target _ inTop
    simp [Write.spares] at spared
  · exact List.mem_flatMap.mp inRest

private theorem inside_of_delete {home : Collection} (within : WithinParent parent plan.collections)
    {target : ResourceRef} (deleted : .delete target ∈ plan.writes home parent) :
    inside parent plan.kinds target = true := by
  obtain ⟨planned, inPlan, inWrites⟩ := exists_collection_of_delete deleted
  exact inside_of_contains (List.mem_map_of_mem inPlan) (within planned inPlan _ inWrites)

/-- An address outside of a pass outlives its deletes exactly if it is not lost. -/
theorem outside_and_spared (numbered : state.Numbered) {home : Collection}
    (within : WithinParent parent plan.collections)
    (held : ∀ target, .delete target ∈ plan.writes home parent → state.holds target = true)
    (reference : ResourceRef) :
    (outside parent plan.kinds reference &&
        (plan.collections.flatMap (CollectionPlan.writes parent)).all (·.spares reference)) =
      (outside parent plan.kinds reference &&
        !state.lost (state.performedAll (plan.writes home parent)) parent plan.kinds reference) := by
  cases isOutside : outside parent plan.kinds reference with
  | false => rfl
  | true =>
      have notDeleted : .delete reference ∉ plan.writes home parent := by
        intro deleted
        rw [outside_of_inside (inside_of_delete within deleted)] at isOutside
        cases isOutside
      have deletes : ∀ target, .delete target ∈ plan.writes home parent →
          inside parent plan.kinds target = true ∧ state.holds target = true :=
        fun target deleted => ⟨inside_of_delete within deleted, held target deleted⟩
      have spared : (plan.action.writes home).all (·.spares reference) = true :=
        List.all_eq_true.mpr (spares_action reference)
      rw [← all_spares_eq_not_lost numbered deletes notDeleted, Plan.writes, List.all_append, spared,
        Bool.true_and, Bool.true_and]

/-- What lies outside of a pass stays as it was, but for what belonged to deleted objects. -/
theorem filter_outside_performedAll (numbered : state.Numbered) {home : Collection}
    (address : plan.action.address home state.nextId = parent)
    (within : WithinParent parent plan.collections)
    (held : ∀ target, .delete target ∈ plan.writes home parent → state.holds target = true) :
    (state.performedAll (plan.writes home parent)).objects.filter (fun object =>
        outside parent plan.kinds object.reference) =
      state.objects.filter fun object =>
        outside parent plan.kinds object.reference &&
          !state.lost (state.performedAll (plan.writes home parent)) parent plan.kinds
            object.reference := by
  have topApart : outside parent plan.kinds
      (plan.action.address home state.nextId) = false := by
    rw [address, outside_self]
  have afterTop := filter_performedAll_action topApart
  have afterRest := filter_performedAll
    (apart_of_within within (state.performedAll (plan.action.writes home)).nextId)
  rw [← performedAll_append] at afterRest
  calc (state.performedAll (plan.writes home parent)).objects.filter (fun object =>
        outside parent plan.kinds object.reference)
      = ((state.performedAll (plan.action.writes home)).objects.filter fun object =>
          outside parent plan.kinds object.reference).filter fun object =>
            (plan.collections.flatMap (CollectionPlan.writes parent)).all
              (·.spares object.reference) := by
        rw [List.filter_filter]
        exact afterRest.trans (List.filter_congr fun _ _ => Bool.and_comm _ _)
    _ = state.objects.filter fun object =>
          outside parent plan.kinds object.reference &&
            (plan.collections.flatMap (CollectionPlan.writes parent)).all
              (·.spares object.reference) := by
        rw [afterTop, List.filter_filter]
        exact List.filter_congr fun _ _ => Bool.and_comm _ _
    _ = _ := List.filter_congr fun object _ =>
        outside_and_spared numbered within held object.reference

end StoreState

end DesiredState
