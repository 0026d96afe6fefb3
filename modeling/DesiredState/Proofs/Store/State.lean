import Mathlib.Data.List.Forall2
import Mathlib.Data.List.Nodup
import DesiredState.Proofs.Resource
import DesiredState.Proofs.Store.Write

/-!
# Objects under writes

Well-formed states, and what writes do to the objects of one: which objects a list of writes
leaves as they were, and what deletes, creates and updates make of the others.
-/

set_option autoImplicit false

namespace DesiredState

namespace StoreState

/-- Every number is given to one object, and none is greater than the counter. -/
structure Numbered (state : StoreState) : Prop where
  ids_nodup : (state.objects.map (·.id)).Nodup
  id_le : ∀ object ∈ state.objects, object.id ≤ state.nextId

/-- Objects and events have distinct numbers within their counters, hence objects have distinct
addresses, and the object that another one belongs to is there. -/
structure WellFormed (state : StoreState) : Prop extends Numbered state where
  parent_held : ∀ object ∈ state.objects, object.reference.parent?.all state.holds = true
  eventIds_nodup : (state.records.map (·.id)).Nodup
  eventId_le : ∀ record ∈ state.records, record.id ≤ state.nextEventId

/-! ## Look-ups -/

theorem holds_iff {state : StoreState} {reference : ResourceRef} :
    state.holds reference = true ↔ reference ∈ state.objects.map (·.reference) := by
  simp [holds, find?, List.find?_isSome]

theorem mem_of_find? {state : StoreState} {reference : ResourceRef} {object : RemoteObject}
    (found : state.find? reference = some object) :
    object ∈ state.objects ∧ object.reference = reference :=
  ⟨List.mem_of_find?_eq_some found, by simpa using List.find?_some found⟩

theorem Numbered.references_nodup {state : StoreState} (numbered : state.Numbered) :
    (state.objects.map (·.reference)).Nodup := by
  have ids := numbered.ids_nodup
  have viaReference : state.objects.map (·.id) = (state.objects.map (·.reference)).map (·.id) := by
    rw [List.map_map]
    rfl
  rw [viaReference] at ids
  exact ids.of_map

theorem Numbered.eq_of_reference {state : StoreState} (numbered : state.Numbered)
    {left right : RemoteObject} (leftMember : left ∈ state.objects)
    (rightMember : right ∈ state.objects) (same : left.reference = right.reference) :
    left = right :=
  List.inj_on_of_nodup_map numbered.references_nodup leftMember rightMember same

theorem Numbered.find?_of_mem {state : StoreState} (numbered : state.Numbered)
    {object : RemoteObject} (member : object ∈ state.objects) :
    state.find? object.reference = some object := by
  cases found : state.find? object.reference with
  | none =>
      have absent := List.find?_eq_none.mp found object member
      simp at absent
  | some other =>
      obtain ⟨inside, same⟩ := mem_of_find? found
      rw [numbered.eq_of_reference inside member same]

theorem mem_members {state : StoreState} {collection : Collection} {object : RemoteObject} :
    object ∈ state.members collection ↔
      object ∈ state.objects ∧ collection.contains object.reference = true :=
  List.mem_filter

theorem Numbered.members_nodup {state : StoreState} (numbered : state.Numbered)
    (collection : Collection) : ((state.members collection).map (·.reference)).Nodup :=
  numbered.references_nodup.sublist (List.filter_sublist.map _)

theorem reference_newObject (collection : Collection) (id : Nat) (attributes : Attributes) :
    (newObject collection id attributes).reference =
      .under collection.parent collection.kind id := rfl

theorem id_newObject (collection : Collection) (id : Nat) (attributes : Attributes) :
    (newObject collection id attributes).id = id := by
  simp [RemoteObject.id, reference_newObject]

/-! ## Changing one object -/

theorem reference_withFields (fields : Attributes) (object : RemoteObject) :
    (withFields fields object).reference = object.reference := rfl

theorem id_withFields (fields : Attributes) (object : RemoteObject) :
    (withFields fields object).id = object.id := rfl

theorem map_modifyFirst {α : Type} {label : RemoteObject → α} {change : RemoteObject → RemoteObject}
    (kept : ∀ object, label (change object) = label object) (reference : ResourceRef)
    (objects : List RemoteObject) :
    (modifyFirst reference change objects).map label = objects.map label := by
  induction objects with
  | nil => rfl
  | cons head rest ih =>
      rw [modifyFirst]
      split
      · simp [kept]
      · simp [ih]

theorem references_setFields (state : StoreState) (reference : ResourceRef) (fields : Attributes) :
    (state.setFields reference fields).objects.map (·.reference) =
      state.objects.map (·.reference) :=
  map_modifyFirst (reference_withFields fields) reference state.objects

theorem find?_setFields (state : StoreState) (reference other : ResourceRef) (fields : Attributes) :
    (state.setFields reference fields).find? other =
      if other = reference then (state.find? other).map (withFields fields) else state.find? other := by
  simp only [find?, setFields]
  induction state.objects with
  | nil => simp [modifyFirst]
  | cons head rest ih =>
      rw [modifyFirst]
      by_cases same : head.reference = reference
      · rw [if_pos same]
        by_cases isOther : other = reference
        · subst isOther
          simp [reference_withFields, same]
        · have apart : ¬ reference = other := Ne.symm isOther
          simp [reference_withFields, same, apart, isOther]
      · rw [if_neg same, List.find?_cons, List.find?_cons, ih]
        by_cases isOther : head.reference = other
        · have apart : ¬ other = reference := fun equal => same (isOther.trans equal)
          simp [isOther, apart]
        · rw [beq_false_of_ne isOther]

private theorem modifyFirst_of_notMem {reference : ResourceRef} {change : RemoteObject → RemoteObject}
    {objects : List RemoteObject} (absent : reference ∉ objects.map (·.reference)) :
    modifyFirst reference change objects = objects := by
  induction objects with
  | nil => rfl
  | cons head rest ih =>
      simp only [List.map_cons, List.mem_cons, not_or] at absent
      rw [modifyFirst, if_neg (Ne.symm absent.1), ih absent.2]

theorem modifyFirst_eq_map {reference : ResourceRef} {change : RemoteObject → RemoteObject}
    {objects : List RemoteObject} (nodup : (objects.map (·.reference)).Nodup) :
    modifyFirst reference change objects =
      objects.map fun object => if object.reference = reference then change object else object := by
  induction objects with
  | nil => rfl
  | cons head rest ih =>
      obtain ⟨fresh, restNodup⟩ := List.nodup_cons.mp nodup
      rw [modifyFirst, List.map_cons]
      split
      · rename_i same
        have absent : reference ∉ rest.map (·.reference) := same ▸ fresh
        have untouched := ih restNodup
        rw [modifyFirst_of_notMem absent] at untouched
        rw [← untouched]
      · rw [ih restNodup]

theorem filter_modifyFirst {keep : ResourceRef → Bool} {reference : ResourceRef}
    {change : RemoteObject → RemoteObject}
    (addressed : ∀ object, (change object).reference = object.reference)
    (apart : keep reference = false) (objects : List RemoteObject) :
    (modifyFirst reference change objects).filter (fun object => keep object.reference) =
      objects.filter fun object => keep object.reference := by
  induction objects with
  | nil => rfl
  | cons head rest ih =>
      rw [modifyFirst]
      split
      · rename_i same
        simp [addressed, same, apart]
      · simp [List.filter_cons, ih]

end StoreState

/-! ## What writes leave alone -/

namespace Write

/-- Whether an object at this address outlives the write. -/
def spares : Write → ResourceRef → Bool
  | .create _ _, _ | .update _ _, _ => true
  | .delete removed, reference => reference != removed && !reference.isDescendantOf removed

/-- A write neither makes nor changes an object at an address that is kept. Numbers up to the
bound are not given to new objects. -/
def Apart (keep : ResourceRef → Bool) (bound : Nat) : Write → Prop
  | .create collection _ => ∀ id, bound < id → keep (.under collection.parent collection.kind id) = false
  | .update reference _ => keep reference = false
  | .delete _ => True

theorem Apart.mono {keep : ResourceRef → Bool} {bound later : Nat} (least : bound ≤ later)
    {write : Write} (apart : write.Apart keep bound) : write.Apart keep later := by
  cases write with
  | create collection payload => exact fun id above => apart id (Nat.lt_of_le_of_lt least above)
  | update reference fields => exact apart
  | delete reference => trivial

/-- A write to the members of a collection. -/
def Within (collection : Collection) : Write → Prop
  | .create target _ => target = collection
  | .update reference _ | .delete reference => collection.contains reference = true

end Write

namespace StoreState

variable {state : StoreState}

theorem nextId_le_performed (state : StoreState) (write : Write) :
    state.nextId ≤ (state.performed write).nextId := by
  cases write <;> simp [performed, insertObject, setFields, removeTree]

theorem performedAll_cons (state : StoreState) (write : Write) (rest : List Write) :
    state.performedAll (write :: rest) = (state.performed write).performedAll rest := rfl

theorem performedAll_append (state : StoreState) (first second : List Write) :
    state.performedAll (first ++ second) = (state.performedAll first).performedAll second :=
  List.foldl_append

private theorem filter_performed {keep : ResourceRef → Bool} {write : Write}
    (apart : write.Apart keep state.nextId) :
    (state.performed write).objects.filter (fun object => keep object.reference) =
      state.objects.filter fun object => keep object.reference && write.spares object.reference := by
  cases write with
  | create collection payload =>
      have new := apart (state.nextId + 1) (Nat.lt_succ_self _)
      simp [performed, insertObject, nextObject, List.filter_append, reference_newObject, new,
        Write.spares]
  | update reference fields =>
      simpa [performed, setFields, Write.spares] using
        filter_modifyFirst (reference_withFields fields) apart state.objects
  | delete reference => simp [performed, removeTree, Write.spares]

/-- Of the objects that no write makes or changes, those remain that every write spares. -/
theorem filter_performedAll {keep : ResourceRef → Bool} {writes : List Write}
    (apart : ∀ write ∈ writes, write.Apart keep state.nextId) :
    (state.performedAll writes).objects.filter (fun object => keep object.reference) =
      state.objects.filter fun object =>
        keep object.reference && writes.all (·.spares object.reference) := by
  induction writes generalizing state with
  | nil => simp [performedAll]
  | cons write rest ih =>
      have later : ∀ other ∈ rest, other.Apart keep (state.performed write).nextId :=
        fun other member => (apart other (List.mem_cons_of_mem _ member)).mono
          (nextId_le_performed state write)
      have first := filter_performed (apart write List.mem_cons_self)
      have splitFilter : ∀ objects : List RemoteObject,
          objects.filter (fun object =>
            keep object.reference && rest.all (·.spares object.reference)) =
          (objects.filter fun object => keep object.reference).filter fun object =>
            rest.all (·.spares object.reference) := by
        intro objects
        rw [List.filter_filter]
        exact List.filter_congr fun _ _ => Bool.and_comm _ _
      rw [performedAll_cons, ih later, splitFilter, first, List.filter_filter]
      refine List.filter_congr fun object _ => ?_
      rw [List.all_cons, Bool.and_comm, Bool.and_assoc]

private theorem filter_performedAll_of_spared (keep : ResourceRef → Bool) {writes : List Write}
    (apart : ∀ write ∈ writes, write.Apart keep state.nextId)
    (spared : ∀ write ∈ writes, ∀ reference, keep reference = true →
      write.spares reference = true) :
    (state.performedAll writes).objects.filter (fun object => keep object.reference) =
      state.objects.filter fun object => keep object.reference := by
  rw [filter_performedAll apart]
  refine List.filter_congr fun object _ => ?_
  cases kept : keep object.reference with
  | false => rfl
  | true =>
      rw [Bool.true_and, List.all_eq_true]
      exact fun write member => spared write member object.reference kept

/-! ## Numbers and addresses under writes -/

theorem Numbered.performed (numbered : state.Numbered) (write : Write) :
    (state.performed write).Numbered := by
  cases write with
  | create collection payload =>
      have given : (state.nextObject collection payload).id = state.nextId + 1 :=
        id_newObject collection _ payload
      refine ⟨?_, fun object member => ?_⟩
      · simp only [StoreState.performed, insertObject, List.map_append, List.map_cons, List.map_nil]
        refine List.nodup_append.mpr ⟨numbered.ids_nodup, List.nodup_singleton _, ?_⟩
        intro id old other new same
        obtain ⟨object, member, rfl⟩ := List.mem_map.mp old
        have bounded := numbered.id_le object member
        rw [List.mem_singleton.mp new, given] at same
        omega
      · rcases List.mem_append.mp member with old | new
        · exact Nat.le_succ_of_le (numbered.id_le object old)
        · rw [List.mem_singleton.mp new, given]
          exact Nat.le_refl _
  | update reference fields =>
      have ids : ((state.setFields reference fields).objects.map (·.id)) =
          state.objects.map (·.id) :=
        map_modifyFirst (id_withFields fields) reference state.objects
      refine ⟨ids ▸ numbered.ids_nodup, fun object member => ?_⟩
      have old : object.id ∈ state.objects.map (·.id) := ids ▸ List.mem_map_of_mem member
      obtain ⟨origin, inState, same⟩ := List.mem_map.mp old
      exact same ▸ numbered.id_le origin inState
  | delete reference =>
      refine ⟨numbered.ids_nodup.sublist (List.filter_sublist.map _), fun object member => ?_⟩
      exact numbered.id_le object (List.mem_filter.mp member).1

theorem Numbered.performedAll (numbered : state.Numbered) (writes : List Write) :
    (state.performedAll writes).Numbered := by
  induction writes generalizing state with
  | nil => exact numbered
  | cons write rest ih => exact ih (numbered.performed write)

theorem nextId_le_performedAll (state : StoreState) (writes : List Write) :
    state.nextId ≤ (state.performedAll writes).nextId := by
  induction writes generalizing state with
  | nil => exact Nat.le_refl _
  | cons write rest ih => exact Nat.le_trans (nextId_le_performed state write) (ih _)

theorem holds_performed_of_spares {reference : ResourceRef} (held : state.holds reference = true)
    {write : Write} (spared : write.spares reference = true) :
    (state.performed write).holds reference = true := by
  rw [holds_iff] at held ⊢
  cases write with
  | create collection payload =>
      simp only [performed, insertObject, List.map_append]
      exact List.mem_append_left _ held
  | update target fields => rwa [performed, references_setFields]
  | delete removed =>
      obtain ⟨object, member, rfl⟩ := List.mem_map.mp held
      exact List.mem_map_of_mem (List.mem_filter.mpr ⟨member, spared⟩)

theorem holds_performedAll_of_spares {reference : ResourceRef} (held : state.holds reference = true)
    {writes : List Write} (spared : ∀ write ∈ writes, write.spares reference = true) :
    (state.performedAll writes).holds reference = true := by
  induction writes generalizing state with
  | nil => exact held
  | cons write rest ih =>
      apply ih
      · exact holds_performed_of_spares held (spared write List.mem_cons_self)
      · exact fun other member => spared other (List.mem_cons_of_mem _ member)

private theorem not_holds_performedAll {reference : ResourceRef} (absent : state.holds reference = false)
    (given : reference.id ≤ state.nextId) (writes : List Write) :
    (state.performedAll writes).holds reference = false := by
  induction writes generalizing state with
  | nil => exact absent
  | cons write rest ih =>
      refine ih ?_ (Nat.le_trans given (nextId_le_performed state write))
      rw [Bool.eq_false_iff, ne_eq, holds_iff] at absent ⊢
      cases write with
      | create collection payload =>
          simp only [performed, insertObject, List.map_append, List.map_cons, List.map_nil,
            List.mem_append, List.mem_singleton, not_or]
          refine ⟨absent, fun same => ?_⟩
          rw [same, nextObject, reference_newObject, ResourceRef.id_under] at given
          omega
      | update target fields => rwa [performed, references_setFields]
      | delete removed =>
          intro held
          obtain ⟨object, member, rfl⟩ := List.mem_map.mp held
          exact absent (List.mem_map_of_mem (List.mem_filter.mp member).1)

/-- A deleted object is gone for good. -/
theorem not_holds_performedAll_of_delete {reference : ResourceRef}
    (given : reference.id ≤ state.nextId) {writes : List Write}
    (deleted : .delete reference ∈ writes) :
    (state.performedAll writes).holds reference = false := by
  obtain ⟨before, after, rfl⟩ := List.append_of_mem deleted
  rw [performedAll_append, performedAll_cons]
  refine not_holds_performedAll ?_ ?_ after
  · rw [Bool.eq_false_iff, ne_eq, holds_iff]
    intro held
    obtain ⟨object, member, rfl⟩ := List.mem_map.mp held
    simpa using (List.mem_filter.mp member).2
  · exact Nat.le_trans given (Nat.le_trans (nextId_le_performedAll state before)
      (nextId_le_performed _ _))

/-! ## Writes to one collection -/

/-- Writes to one collection of an object leave its other collections alone. -/
theorem members_performedAll_of_within {parent : ResourceRef} {kind other : String}
    (different : other ≠ kind) {writes : List Write}
    (within : ∀ write ∈ writes, write.Within (.under parent kind)) :
    (state.performedAll writes).members (.under parent other) =
      state.members (.under parent other) := by
  have foreign : ∀ reference, (Collection.under parent kind).contains reference = true →
      (Collection.under parent other).contains reference = false := by
    intro reference member
    cases inOther : (Collection.under parent other).contains reference with
    | false => rfl
    | true =>
        have first := (Collection.contains_iff.mp member).1
        have second := (Collection.contains_iff.mp inOther).1
        exact absurd (second.symm.trans first) different
  refine filter_performedAll_of_spared (Collection.under parent other).contains
    (fun write member => ?_) (fun write member reference kept => ?_)
  · cases write with
    | create target payload =>
        cases within _ member
        exact fun id _ => foreign _ (Collection.contains_under_self _ id)
    | update target fields => exact foreign target (within _ member)
    | delete target => trivial
  · cases write with
    | create target payload => rfl
    | update target fields => rfl
    | delete target =>
        have inside := within _ member
        have neighbour := ResourceRef.not_isDescendantOf_sibling
          (Collection.parent?_of_contains kept) (Collection.parent?_of_contains inside)
        have distinct : reference ≠ target := by
          rintro rfl
          rw [foreign reference inside] at kept
          cases kept
        simp [Write.spares, neighbour, distinct]

/-- Writes to the collections of an object leave the object alone. -/
theorem find?_performedAll_of_within {parent : ResourceRef} {writes : List Write}
    (within : ∀ write ∈ writes, ∃ kind, write.Within (.under parent kind)) :
    (state.performedAll writes).find? parent = state.find? parent := by
  have spared : (state.performedAll writes).objects.filter (fun object => object.reference == parent) =
      state.objects.filter fun object => object.reference == parent := by
    refine filter_performedAll_of_spared (fun reference => reference == parent)
      (fun write member => ?_) (fun write member reference kept => ?_)
    · obtain ⟨kind, inside⟩ := within write member
      cases write with
      | create target payload =>
          cases inside
          intro id _
          exact beq_false_of_ne (ResourceRef.ne_of_parent? (by simp [Collection.under]))
      | update target fields =>
          exact beq_false_of_ne (ResourceRef.ne_of_parent? (Collection.parent?_of_contains inside))
      | delete target => trivial
    · cases eq_of_beq kept
      obtain ⟨kind, inside⟩ := within write member
      cases write with
      | create target payload => rfl
      | update target fields => rfl
      | delete target =>
          have belongs := Collection.parent?_of_contains inside
          simp [Write.spares, ResourceRef.not_isDescendantOf_child belongs,
            (ResourceRef.ne_of_parent? belongs).symm]
  rw [find?, find?, ← List.head?_filter, ← List.head?_filter, spared]

theorem objects_performedAll_delete (references : List ResourceRef) (state : StoreState) :
    (state.performedAll (references.map .delete)).objects =
        state.objects.filter (fun object =>
          references.all fun removed => (Write.delete removed).spares object.reference) ∧
      (state.performedAll (references.map .delete)).nextId = state.nextId := by
  induction references generalizing state with
  | nil => simp [performedAll]
  | cons removed rest ih =>
      obtain ⟨objects, counter⟩ := ih (state.removeTree removed)
      rw [List.map_cons, performedAll_cons]
      refine ⟨?_, counter⟩
      rw [performed, objects, removeTree, List.filter_filter]
      refine List.filter_congr fun object _ => ?_
      rw [List.all_cons, Bool.and_comm]
      rfl

theorem objects_performedAll_create (collection : Collection) (payloads : List Attributes)
    (state : StoreState) :
    ∃ made, (state.performedAll (payloads.map (.create collection))).objects =
        state.objects ++ made ∧
      List.Forall₂ (fun payload object => ∃ id, state.nextId < id ∧
        object = newObject collection id payload) payloads made := by
  induction payloads generalizing state with
  | nil => exact ⟨[], by simp [performedAll], .nil⟩
  | cons payload rest ih =>
      obtain ⟨made, objects, numbers⟩ := ih (state.insertObject collection payload)
      refine ⟨state.nextObject collection payload :: made, ?_, ?_⟩
      · rw [List.map_cons, performedAll_cons, performed, objects, insertObject]
        simp
      · refine .cons ⟨state.nextId + 1, Nat.lt_succ_self _, rfl⟩ (numbers.imp ?_)
        rintro _ _ ⟨id, above, same⟩
        exact ⟨id, Nat.lt_of_succ_lt above, same⟩

theorem objects_performedAll_update {updates : List (ResourceRef × Attributes)}
    (targets : (updates.map (·.1)).Nodup) {state : StoreState}
    (nodup : (state.objects.map (·.reference)).Nodup) :
    (state.performedAll (updates.map fun update => .update update.1 update.2)).objects =
      state.objects.map fun object =>
        match updates.find? (·.1 == object.reference) with
        | some update => withFields update.2 object
        | none => object := by
  induction updates generalizing state with
  | nil => simp [performedAll]
  | cons update rest ih =>
      obtain ⟨fresh, restTargets⟩ := List.nodup_cons.mp targets
      have kept : ((state.setFields update.1 update.2).objects.map (·.reference)).Nodup := by
        rw [references_setFields]
        exact nodup
      rw [List.map_cons, performedAll_cons, performed, ih restTargets kept, setFields,
        modifyFirst_eq_map nodup, List.map_map]
      refine List.map_congr_left fun object _ => ?_
      simp only [Function.comp_apply, List.find?_cons]
      by_cases same : object.reference = update.1
      · have absent : rest.find? (·.1 == update.1) = none := by
          rw [List.find?_eq_none]
          intro other member equal
          exact fresh (List.mem_map.mpr ⟨other, member, eq_of_beq equal⟩)
        simp [same, withFields, absent]
      · have apart : (update.1 == object.reference) = false := beq_false_of_ne (Ne.symm same)
        simp [same, apart]

end StoreState

end DesiredState
