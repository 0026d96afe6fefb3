import DesiredState.Proofs.Pass.Plan
import DesiredState.Proofs.Store.State

/-!
# What the writes of a plan make of a state

The operations of a collection leave the members that were not deleted, in their order and with the
changes made, and after them the members that were created. Neither the object they belong to nor
its other collections are touched.
-/

set_option autoImplicit false

namespace DesiredState

open StoreState

/-! ## One collection -/

/-- An object was made from an entry under a number that was not given before. -/
def Descriptor.Made (desired : Descriptor) (collection : Collection) (given : Nat)
    (object : RemoteObject) : Prop :=
  ∃ id, given < id ∧ object = newObject collection id desired.createPayload

namespace OperationSet

/-- Whether an observed object is not deleted. -/
def keeps (set : OperationSet) (object : RemoteObject) : Bool := !set.toDelete.contains object

/-- An observed object after the update of its pair. -/
def renew (set : OperationSet) (object : RemoteObject) : RemoteObject :=
  match set.pendingUpdates.find? (·.remote.reference == object.reference) with
  | some pair => withFields (FieldChange.applyAll pair.changes ∅) object
  | none => object

theorem reference_renew (set : OperationSet) (object : RemoteObject) :
    (set.renew object).reference = object.reference := by
  unfold renew
  split <;> rfl

theorem attributes_renew {set : OperationSet}
    (nodup : (set.toUpdate.map (·.remote.reference)).Nodup) {pair : MatchedPair}
    (member : pair ∈ set.toUpdate)
    (ascending : Entries.Ascending (pair.changes.map fun change => (change.field, change.new))) :
    (set.renew pair.remote).attributes = FieldChange.applyAll pair.changes pair.remote.attributes := by
  unfold renew
  cases found : set.pendingUpdates.find? (·.remote.reference == pair.remote.reference) with
  | some other =>
      have inUpdates : other ∈ set.toUpdate :=
        (List.mem_filter.mp (List.mem_of_find?_eq_some found)).1
      have same : other = pair :=
        List.inj_on_of_nodup_map nodup inUpdates member (by simpa using List.find?_some found)
      subst same
      exact FieldChange.insertAll_applyAll_empty ascending _
  | none =>
      have settled : pair.changes = [] := by
        by_contra pending
        have inPending : pair ∈ set.pendingUpdates :=
          List.mem_filter.mpr ⟨member, by simpa using pending⟩
        have absent := List.find?_eq_none.mp found pair inPending
        simp at absent
      rw [settled]
      rfl

theorem writes_eq (set : OperationSet) (collection : Collection) :
    set.operations.map (Operation.write collection) =
      (set.toDelete.map (·.reference)).map .delete ++
        ((set.toCreate.map Descriptor.createPayload).map (.create collection) ++
          (set.pendingUpdates.map fun pair =>
            (pair.remote.reference, FieldChange.applyAll pair.changes ∅)).map fun update =>
              .update update.1 update.2) := by
  simp [operations, Operation.write, Function.comp_def]

theorem mem_toDelete_of_delete {set : OperationSet} {collection : Collection} {target : ResourceRef}
    (deleted : .delete target ∈ set.operations.map (Operation.write collection)) :
    ∃ remote ∈ set.toDelete, remote.reference = target := by
  rw [writes_eq] at deleted
  simpa using deleted

end OperationSet

namespace StoreState

variable {state : StoreState} {schema : Schema} {parent : ResourceRef} {kind : String}
  {entries : List Descriptor} {set : OperationSet}

theorem within_of_matched (matched : schema.Matched entries (state.members (.under parent kind)) set) :
    ∀ write ∈ set.operations.map (Operation.write (.under parent kind)),
      write.Within (.under parent kind) := by
  intro write member
  obtain ⟨operation, inOperations, rfl⟩ := List.mem_map.mp member
  cases operation with
  | delete remote =>
      have deleted : remote ∈ set.toDelete := by
        simpa [OperationSet.operations] using inOperations
      exact (mem_members.mp (matched.toDelete_sublist.subset deleted)).2
  | create desired => rfl
  | update pair =>
      have pending : pair ∈ set.pendingUpdates := by
        simpa [OperationSet.operations] using inOperations
      have observed := (matched.pairOf_mem (List.mem_filter.mp pending).1).remote_mem
      exact (mem_members.mp observed).2

/-- A member outlives the deletes of the operations exactly if it is kept. -/
theorem spares_deletes_iff_keeps (numbered : state.Numbered)
    (matched : schema.Matched entries (state.members (.under parent kind)) set)
    {object : RemoteObject} (member : object ∈ state.members (.under parent kind)) :
    ((set.toDelete.map (·.reference)).all fun removed =>
      (Write.delete removed).spares object.reference) = set.keeps object := by
  obtain ⟨inState, contained⟩ := mem_members.mp member
  rw [Bool.eq_iff_iff, List.all_eq_true, OperationSet.keeps]
  simp only [Bool.not_eq_true', List.contains_eq_mem, decide_eq_false_iff_not]
  constructor
  · intro spared deleted
    have outlives := spared object.reference (List.mem_map_of_mem deleted)
    simp [Write.spares] at outlives
  · intro kept removed isRemoved
    obtain ⟨other, deleted, rfl⟩ := List.mem_map.mp isRemoved
    obtain ⟨otherInState, otherContained⟩ :=
      mem_members.mp (matched.toDelete_sublist.subset deleted)
    have neighbour := ResourceRef.not_isDescendantOf_sibling
      (Collection.parent?_of_contains contained) (Collection.parent?_of_contains otherContained)
    have distinct : object.reference ≠ other.reference := fun same =>
      kept (numbered.eq_of_reference inState otherInState same ▸ deleted)
    simp [Write.spares, neighbour, distinct]

private theorem objects_performedAll_pendingUpdates (references : (state.objects.map (·.reference)).Nodup)
    (targets : (set.toUpdate.map (·.remote.reference)).Nodup) :
    (state.performedAll ((set.pendingUpdates.map fun pair =>
      (pair.remote.reference, FieldChange.applyAll pair.changes ∅)).map fun update =>
        .update update.1 update.2)).objects = state.objects.map set.renew := by
  have distinct : ((set.pendingUpdates.map fun pair =>
      (pair.remote.reference, FieldChange.applyAll pair.changes ∅)).map (·.1)).Nodup := by
    rw [List.map_map]
    exact targets.sublist (List.filter_sublist.map _)
  rw [objects_performedAll_update distinct references]
  refine List.map_congr_left fun object _ => ?_
  rw [List.find?_map, OperationSet.renew]
  simp only [Function.comp_def]
  cases set.pendingUpdates.find? (·.remote.reference == object.reference) <;> rfl

/-- No update is meant for an object that is new. -/
theorem renew_newObject (numbered : state.Numbered)
    (matched : schema.Matched entries (state.members (.under parent kind)) set) {id : Nat}
    (above : state.nextId < id) (collection : Collection) (payload : Attributes) :
    set.renew (newObject collection id payload) = newObject collection id payload := by
  have absent : set.pendingUpdates.find? (·.remote.reference ==
      (newObject collection id payload).reference) = none := by
    refine List.find?_eq_none.mpr fun pair pending same => ?_
    have observed := (matched.pairOf_mem (List.mem_filter.mp pending).1).remote_mem
    have bounded := numbered.id_le pair.remote (mem_members.mp observed).1
    rw [RemoteObject.id, eq_of_beq same, reference_newObject, ResourceRef.id_under] at bounded
    omega
  rw [OperationSet.renew, absent]

/-- What the operations of a collection make of its members. -/
theorem members_performedAll_operations (numbered : state.Numbered)
    (matched : schema.Matched entries (state.members (.under parent kind)) set) :
    ∃ made,
      (state.performedAll (set.operations.map (Operation.write (.under parent kind)))).members
          (.under parent kind) =
        ((state.members (.under parent kind)).filter set.keeps).map set.renew ++ made ∧
      List.Forall₂ (fun desired => desired.Made (.under parent kind) state.nextId)
        set.toCreate made := by
  obtain ⟨afterDeletes, counter⟩ :=
    objects_performedAll_delete (set.toDelete.map (·.reference)) state
  obtain ⟨made, afterCreates, fresh⟩ := objects_performedAll_create (.under parent kind)
    (set.toCreate.map Descriptor.createPayload)
    (state.performedAll ((set.toDelete.map (·.reference)).map .delete))
  rw [counter, List.forall₂_map_left_iff] at fresh
  have later := (numbered.performedAll ((set.toDelete.map (·.reference)).map .delete)).performedAll
    ((set.toCreate.map Descriptor.createPayload).map (.create (.under parent kind)))
  have targets : (set.toUpdate.map (·.remote.reference)).Nodup :=
    matched.toUpdate_remotes_nodup (·.reference) (numbered.members_nodup _)
  have afterUpdates := objects_performedAll_pendingUpdates later.references_nodup targets
  refine ⟨made, ?_, fresh⟩
  have origin : ∀ object ∈ made, ∃ id payload, state.nextId < id ∧
      object = newObject (.under parent kind) id payload := by
    intro object member
    obtain ⟨desired, _, id, above, same⟩ := exists_of_forall₂_right fresh member
    exact ⟨id, _, above, same⟩
  have contained : made.filter (fun object =>
      (Collection.under parent kind).contains object.reference) = made := by
    refine List.filter_eq_self.mpr fun object member => ?_
    obtain ⟨id, payload, _, rfl⟩ := origin object member
    exact Collection.contains_under_self _ id
  have unchanged : made.map set.renew = made := by
    refine (List.map_congr_left fun object member => ?_).trans (List.map_id made)
    obtain ⟨id, payload, above, rfl⟩ := origin object member
    exact renew_newObject numbered matched above _ payload
  calc (state.performedAll (set.operations.map (Operation.write (.under parent kind)))).members
          (.under parent kind)
      = (((state.objects.filter fun object => (set.toDelete.map (·.reference)).all fun removed =>
            (Write.delete removed).spares object.reference) ++ made).map set.renew).filter
          fun object => (Collection.under parent kind).contains object.reference := by
        rw [OperationSet.writes_eq, performedAll_append, performedAll_append, members, afterUpdates,
          afterCreates, afterDeletes]
    _ = (((state.members (.under parent kind)).filter fun object =>
          (set.toDelete.map (·.reference)).all fun removed =>
            (Write.delete removed).spares object.reference) ++ made).map set.renew := by
        rw [List.filter_map]
        simp only [Function.comp_def, OperationSet.reference_renew, List.filter_append, contained,
          members, List.filter_filter, Bool.and_comm]
    _ = ((state.members (.under parent kind)).filter set.keeps).map set.renew ++ made := by
        rw [List.map_append, unchanged,
          List.filter_congr fun object member => spares_deletes_iff_keeps numbered matched member]

/-! ## All collections of an object -/

/-- The writes of every planned collection go to its members. -/
def WithinParent (parent : ResourceRef) (collections : List CollectionPlan) : Prop :=
  ∀ planned ∈ collections, ∀ write ∈ planned.writes parent,
    write.Within (.under parent planned.schema.kind)

variable {collections : List CollectionPlan}

theorem WithinParent.exists_kind (within : WithinParent parent collections) :
    ∀ write ∈ collections.flatMap (CollectionPlan.writes parent),
      ∃ kind, write.Within (.under parent kind) := by
  intro write member
  obtain ⟨planned, inPlan, inWrites⟩ := List.mem_flatMap.mp member
  exact ⟨planned.schema.kind, within planned inPlan write inWrites⟩

private theorem members_performedAll_collections_of_other (within : WithinParent parent collections)
    (other : kind ∉ collections.map (·.schema.kind)) :
    (state.performedAll (collections.flatMap (CollectionPlan.writes parent))).members
      (.under parent kind) = state.members (.under parent kind) := by
  induction collections generalizing state with
  | nil => rfl
  | cons planned rest ih =>
      simp only [List.map_cons, List.mem_cons, not_or] at other
      rw [List.flatMap_cons, performedAll_append,
        ih (fun later member => within later (List.mem_cons_of_mem _ member)) other.2]
      exact members_performedAll_of_within other.1 (within planned List.mem_cons_self)

/-- In a plan whose collections are distinct each has the effect on its members that it has alone. -/
theorem members_performedAll_collections (numbered : state.Numbered)
    (within : WithinParent parent collections)
    (distinct : (collections.map (·.schema.kind)).Nodup) {planned : CollectionPlan}
    (member : planned ∈ collections)
    (matched : planned.schema.Matched entries
      (state.members (.under parent planned.schema.kind)) planned.operations) :
    ∃ made,
      (state.performedAll (collections.flatMap (CollectionPlan.writes parent))).members
          (.under parent planned.schema.kind) =
        ((state.members (.under parent planned.schema.kind)).filter planned.operations.keeps).map
          planned.operations.renew ++ made ∧
      List.Forall₂ (fun desired => desired.Made (.under parent planned.schema.kind) state.nextId)
        planned.operations.toCreate made := by
  obtain ⟨before, after, rfl⟩ := List.append_of_mem member
  -- The members are untouched before the turn of the collection, and again after it.
  rw [List.map_append, List.map_cons, List.nodup_append] at distinct
  obtain ⟨_, restNodup, apart⟩ := distinct
  have notBefore : planned.schema.kind ∉ before.map (·.schema.kind) :=
    fun inBefore => apart _ inBefore _ List.mem_cons_self rfl
  have withinBefore : WithinParent parent before :=
    fun other inBefore => within other (List.mem_append_left _ inBefore)
  have withinAfter : WithinParent parent after :=
    fun other inAfter => within other (List.mem_append_right _ (List.mem_cons_of_mem _ inAfter))
  have same : (state.performedAll (before.flatMap (CollectionPlan.writes parent))).members
      (.under parent planned.schema.kind) = state.members (.under parent planned.schema.kind) :=
    members_performedAll_collections_of_other withinBefore notBefore
  rw [← same] at matched
  obtain ⟨made, effect, fresh⟩ := members_performedAll_operations
    (numbered.performedAll (before.flatMap (CollectionPlan.writes parent))) matched
  refine ⟨made, ?_, fresh.imp ?_⟩
  · rw [List.flatMap_append, List.flatMap_cons, performedAll_append, performedAll_append,
      members_performedAll_collections_of_other withinAfter (List.nodup_cons.mp restNodup).1, ← same]
    exact effect
  · rintro desired object ⟨id, above, isNew⟩
    exact ⟨id, Nat.lt_of_le_of_lt (nextId_le_performedAll state _) above, isNew⟩

/-! ## The top-level object -/

theorem find?_performed_create (numbered : state.Numbered) (home : Collection)
    (payload : Attributes) :
    (state.performed (.create home payload)).find? (.under home.parent home.kind (state.nextId + 1)) =
      some (newObject home (state.nextId + 1) payload) :=
  (numbered.performed (.create home payload)).find?_of_mem
    (List.mem_append_right _ (List.mem_singleton_self _))

theorem find?_performed_update {remote : RemoteObject} (found : state.find? parent = some remote)
    (fields : Attributes) :
    (state.performed (.update parent fields)).find? parent = some (withFields fields remote) := by
  rw [performed, find?_setFields, if_pos rfl, found, Option.map_some]

/-- Whichever writes of a planned update and its collections are carried out, the object is as it was until
its own update is among them, and then has all the changes. -/
theorem find?_performedAll_top {home : Collection} {remote : RemoteObject} {changes : List FieldChange}
    (ascending : Entries.Ascending (changes.map fun change => (change.field, change.new)))
    (within : WithinParent remote.reference collections)
    (found : state.find? remote.reference = some remote) {writes : List Write}
    (carriedOut : writes.Sublist ((ResourceAction.update remote changes).writes home ++
      collections.flatMap (CollectionPlan.writes remote.reference))) :
    ((∀ fields, .update remote.reference fields ∉ writes) ∧
      (state.performedAll writes).find? remote.reference = some remote) ∨
    (∃ fields, .update remote.reference fields ∈ writes) ∧
      (state.performedAll writes).find? remote.reference =
        some ⟨remote.reference, FieldChange.applyAll changes remote.attributes⟩ := by
  obtain ⟨top, others, rfl, topWrites, otherWrites⟩ := List.sublist_append_iff.mp carriedOut
  have below : ∀ write ∈ others, ∃ kind, write.Within (.under remote.reference kind) :=
    fun write member => within.exists_kind write (otherWrites.subset member)
  have notBelow : ∀ fields, .update remote.reference fields ∉ others := by
    intro fields member
    obtain ⟨kind, inside⟩ := below _ member
    exact ResourceRef.ne_of_parent? (Collection.parent?_of_contains inside) rfl
  rw [performedAll_append, find?_performedAll_of_within below]
  have noneOrAll : top = [] ∨ top = [.update remote.reference (FieldChange.applyAll changes ∅)] := by
    cases changes with
    | nil => exact .inl (List.sublist_nil.mp topWrites)
    | cons change rest => exact List.sublist_singleton.mp topWrites
  rcases noneOrAll with rfl | rfl
  · exact .inl ⟨notBelow, found⟩
  · refine .inr ⟨⟨_, List.mem_append_left _ (List.mem_singleton_self _)⟩, ?_⟩
    have written := find?_performed_update found (FieldChange.applyAll changes ∅)
    rwa [withFields, FieldChange.insertAll_applyAll_empty ascending] at written

theorem members_performed_create (wellFormed : state.WellFormed) (home : Collection)
    (payload : Attributes) (kind : String) :
    (state.performed (.create home payload)).members
      (.under (.under home.parent home.kind (state.nextId + 1)) kind) = [] := by
  refine List.filter_eq_nil_iff.mpr fun object member contained => ?_
  have belongs := Collection.parent?_of_contains contained
  rcases List.mem_append.mp member with old | new
  · have held := wellFormed.parent_held object old
    rw [belongs, Option.all_some, holds_iff] at held
    obtain ⟨owner, inState, same⟩ := List.mem_map.mp held
    have bounded := wellFormed.id_le owner inState
    rw [RemoteObject.id, same, ResourceRef.id_under] at bounded
    omega
  · rw [List.mem_singleton.mp new] at belongs
    exact ResourceRef.ne_of_parent? belongs rfl

theorem members_performed_update (fields : Attributes) (kind : String) :
    (state.performed (.update parent fields)).members (.under parent kind) =
      state.members (.under parent kind) := by
  have elsewhere : (Collection.under parent kind).contains parent = false := by
    rw [Bool.eq_false_iff]
    exact fun contained => ResourceRef.ne_of_parent? (Collection.parent?_of_contains contained) rfl
  exact filter_modifyFirst (reference_withFields fields) elsewhere state.objects

end StoreState

end DesiredState
