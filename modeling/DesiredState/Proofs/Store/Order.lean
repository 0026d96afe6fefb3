import DesiredState.Proofs.Store.Call

/-!
# Numbers in order

Objects and events take their numbers from counters that only grow, and an object goes no later
than the object that it belongs to. Both are kept by whatever a state can become. Along `≠` this is
that a state is well-formed, along `<` that its objects and events stand in the order of their numbers.
-/

set_option autoImplicit false

namespace DesiredState

namespace StoreState

/-- The numbers of the objects and those of the events are related along their lists and lie within
the counters, and every object that belongs to another one has that one present. -/
structure Ordered (related : Nat → Nat → Prop) (state : StoreState) : Prop where
  ids : (state.objects.map (·.id)).Pairwise related
  id_le : ∀ object ∈ state.objects, object.id ≤ state.nextId
  parent_held : ∀ object ∈ state.objects, object.reference.parent?.all state.holds = true
  eventIds : (state.records.map (·.id)).Pairwise related
  eventId_le : ∀ record ∈ state.records, record.id ≤ state.nextEventId

private theorem wellFormed_iff_ordered {state : StoreState} :
    state.WellFormed ↔ state.Ordered (· ≠ ·) := by
  constructor
  · intro wellFormed
    exact ⟨wellFormed.ids_nodup, wellFormed.id_le, wellFormed.parent_held,
      wellFormed.eventIds_nodup, wellFormed.eventId_le⟩
  · intro ordered
    exact ⟨⟨ordered.ids, ordered.id_le⟩, ordered.parent_held, ordered.eventIds, ordered.eventId_le⟩

theorem pairwise_append_next {related : Nat → Nat → Prop}
    (increasing : ∀ first second, first < second → related first second) {ids : List Nat}
    (pairwise : ids.Pairwise related) {last next : Nat} (bounded : ∀ id ∈ ids, id ≤ last)
    (above : last < next) : (ids ++ [next]).Pairwise related := by
  rw [List.pairwise_append]
  refine ⟨pairwise, List.pairwise_singleton _ _, ?_⟩
  intro id member other isNext
  rw [List.mem_singleton.mp isNext]
  exact increasing _ _ (Nat.lt_of_le_of_lt (bounded id member) above)

private theorem parent_held_iff {state : StoreState} :
    (∀ object ∈ state.objects, object.reference.parent?.all state.holds = true) ↔
      ∀ reference ∈ state.objects.map (·.reference), ∀ parent, reference.parent? = some parent →
        parent ∈ state.objects.map (·.reference) := by
  simp only [List.forall_mem_map, Option.all_eq_true, holds_iff]

/-- Every object that belongs to another one has that one present. -/
def ParentsHeld (state : StoreState) : Prop :=
  ∀ object ∈ state.objects, object.reference.parent?.all state.holds = true

variable {related : Nat → Nat → Prop} {state : StoreState}

private theorem Ordered.ids_le (ordered : state.Ordered related) :
    ∀ id ∈ state.objects.map (·.id), id ≤ state.nextId :=
  List.forall_mem_map.mpr ordered.id_le

private theorem Ordered.eventIds_le (ordered : state.Ordered related) :
    ∀ id ∈ state.records.map (·.id), id ≤ state.nextEventId :=
  List.forall_mem_map.mpr ordered.eventId_le

/-! ## Objects -/

theorem missingParent?_eq_none {collection : Collection}
    (allowed : state.missingParent? collection = none) {parent : ResourceRef}
    (belongs : collection.parent = some parent) : state.holds parent = true := by
  unfold missingParent? at allowed
  rw [belongs] at allowed
  by_contra absent
  simp [absent] at allowed

private theorem Ordered.insertObject (increasing : ∀ first second, first < second → related first second)
    (ordered : state.Ordered related) {collection : Collection} (attributes : Attributes)
    (allowed : state.missingParent? collection = none) :
    (state.insertObject collection attributes).Ordered related where
  ids := by
    have given : (state.nextObject collection attributes).id = state.nextId + 1 :=
      id_newObject collection _ attributes
    simp only [StoreState.insertObject, List.map_append, List.map_cons, List.map_nil, given]
    exact pairwise_append_next increasing ordered.ids ordered.ids_le (Nat.lt_succ_self state.nextId)
  id_le := by
    intro object member
    rcases List.mem_append.mp member with old | new
    · exact Nat.le_succ_of_le (ordered.id_le object old)
    · rw [List.mem_singleton.mp new, nextObject, id_newObject]
      exact Nat.le_refl _
  parent_held := by
    rw [parent_held_iff]
    intro reference member parent belongs
    simp only [StoreState.insertObject, List.map_append, List.mem_append] at member ⊢
    left
    rcases member with old | new
    · exact parent_held_iff.mp ordered.parent_held reference old parent belongs
    · rw [List.map_cons, List.map_nil, List.mem_singleton] at new
      rw [new, nextObject, reference_newObject, ResourceRef.parent?_under] at belongs
      exact holds_iff.mp (missingParent?_eq_none allowed belongs)
  eventIds := ordered.eventIds
  eventId_le := ordered.eventId_le

private theorem Ordered.setFields (ordered : state.Ordered related) (reference : ResourceRef)
    (fields : Attributes) : (state.setFields reference fields).Ordered related := by
  have ids : (state.setFields reference fields).objects.map (·.id) = state.objects.map (·.id) :=
    map_modifyFirst (id_withFields fields) reference state.objects
  constructor
  · rw [ids]
    exact ordered.ids
  · have bounded := ordered.ids_le
    rw [← ids] at bounded
    exact List.forall_mem_map.mp bounded
  · rw [parent_held_iff, references_setFields]
    exact parent_held_iff.mp ordered.parent_held
  · exact ordered.eventIds
  · exact ordered.eventId_le

theorem ParentsHeld.removeTree (held : state.ParentsHeld) (removed : ResourceRef) :
    (state.removeTree removed).ParentsHeld := by
  rw [ParentsHeld, parent_held_iff]
  intro reference member parent belongs
  obtain ⟨object, isKept, rfl⟩ := List.mem_map.mp member
  obtain ⟨inState, outlives⟩ := List.mem_filter.mp isKept
  have present := parent_held_iff.mp held object.reference (List.mem_map_of_mem inState) parent belongs
  obtain ⟨owner, ownerInState, rfl⟩ := List.mem_map.mp present
  -- What is not below the removed object belongs neither to it nor to anything below it.
  rw [ResourceRef.isDescendantOf_of_parent? belongs] at outlives
  simp only [Bool.and_eq_true, Bool.not_eq_true', Bool.or_eq_false_iff, beq_eq_false_iff_ne] at outlives
  refine List.mem_map_of_mem (List.mem_filter.mpr ⟨ownerInState, ?_⟩)
  simp [outlives.2.1, outlives.2.2]

private theorem Ordered.removeTree (ordered : state.Ordered related) (removed : ResourceRef) :
    (state.removeTree removed).Ordered related where
  ids := ordered.ids.sublist (List.filter_sublist.map _)
  id_le := fun object member => ordered.id_le object (List.mem_filter.mp member).1
  parent_held := ParentsHeld.removeTree ordered.parent_held removed
  eventIds := ordered.eventIds
  eventId_le := ordered.eventId_le

private theorem Ordered.performed (increasing : ∀ first second, first < second → related first second)
    (ordered : state.Ordered related) {write : Write} (allowed : state.Allows write) :
    (state.performed write).Ordered related := by
  cases write with
  | create collection payload => exact ordered.insertObject increasing payload allowed
  | update reference fields => exact ordered.setFields reference fields
  | delete reference => exact ordered.removeTree reference

/-! ## Events -/

private theorem Ordered.appendEvent (increasing : ∀ first second, first < second → related first second)
    (ordered : state.Ordered related) (entityType : String) (entityId : Nat) (action : String)
    (status : EventStatus) (pending : List EventStatus) (now : Timestamp) :
    (state.appendEvent entityType entityId action status pending now).Ordered related where
  ids := ordered.ids
  id_le := ordered.id_le
  parent_held := ordered.parent_held
  eventIds := by
    simp only [StoreState.appendEvent, records, List.map_append, List.map_cons, List.map_nil, nextRecord]
    exact pairwise_append_next increasing ordered.eventIds ordered.eventIds_le
      (Nat.lt_succ_self state.nextEventId)
  eventId_le := by
    intro record member
    simp only [records, StoreState.appendEvent, List.map_append, List.map_cons, List.map_nil,
      List.mem_append, List.mem_singleton] at member
    rcases member with old | rfl
    · exact Nat.le_succ_of_le (ordered.eventId_le record old)
    · exact Nat.le_refl _

theorem map_modifyEvent {α : Type} {label : StoredEvent → α} {change : StoredEvent → StoredEvent}
    (kept : ∀ event, label (change event) = label event) (id : Nat) (events : List StoredEvent) :
    (modifyEvent id change events).map label = events.map label := by
  induction events with
  | nil => rfl
  | cons head rest ih =>
      rw [modifyEvent]
      split
      · simp [kept]
      · simp [ih]

private theorem Ordered.reviseEvent (ordered : state.Ordered related) (id : Nat)
    {change : StoredEvent → StoredEvent}
    (sameId : ∀ event, (change event).record.id = event.record.id) :
    (state.reviseEvent id change).Ordered related := by
  have ids : (state.reviseEvent id change).records.map (·.id) = state.records.map (·.id) := by
    simp only [records, List.map_map]
    exact map_modifyEvent sameId id state.events
  constructor
  · exact ordered.ids
  · exact ordered.id_le
  · exact ordered.parent_held
  · rw [ids]
    exact ordered.eventIds
  · have bounded := ordered.eventIds_le
    rw [← ids] at bounded
    exact List.forall_mem_map.mp bounded

/-! ## Whatever becomes of a state -/

theorem Ordered.became (increasing : ∀ first second, first < second → related first second)
    {after : StoreState} (ordered : state.Ordered related) (became : state.Became after) :
    after.Ordered related := by
  cases became with
  | same => exact ordered
  | written write allowed now =>
      exact (ordered.performed increasing allowed).appendEvent increasing _ _ _ _ _ now
  | placed collection attributes allowed => exact ordered.insertObject increasing attributes allowed
  | filed entityType entityId action status pending now =>
      exact ordered.appendEvent increasing entityType entityId action status pending now
  | revised id change sameId => exact ordered.reviseEvent id sameId

private theorem WellFormed.became {after : StoreState} (wellFormed : state.WellFormed)
    (became : state.Became after) : after.WellFormed := by
  rw [wellFormed_iff_ordered] at wellFormed ⊢
  exact wellFormed.became (fun _ _ => Nat.ne_of_lt) became

theorem nextId_le_of_became {after : StoreState} (became : state.Became after) :
    state.nextId ≤ after.nextId := by
  cases became with
  | same => exact Nat.le_refl _
  | written write allowed now => exact nextId_le_performed state write
  | placed collection attributes allowed => exact Nat.le_succ _
  | filed entityType entityId action status pending now => exact Nat.le_refl _
  | revised id change sameId => exact Nat.le_refl _

end StoreState

/-- Calls leave well-formed states behind. -/
theorem MemoryStore.callsAgree_wellFormed :
    RemoteStore.CallsAgree (Kept fun store : MemoryStore => store.state.WellFormed) remote remote :=
  callsAgree_of_became fun _ _ became wellFormed => wellFormed.became became

end DesiredState
