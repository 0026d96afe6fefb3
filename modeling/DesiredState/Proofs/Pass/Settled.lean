import DesiredState.Proofs.Pass.Effect

/-!
# Collections that need nothing more

Once the operations of a collection have run, matching its entries again pairs every entry with the
very member that was found or made for it, and finds nothing to change.
-/

set_option autoImplicit false

namespace DesiredState

open StoreState

/-- An object was made from an entry, or it is an old one in which only the payload of the entry
was set. -/
def Descriptor.Origin (desired : Descriptor) (collection : Collection) (given : Nat)
    (objects : List RemoteObject) (object : RemoteObject) : Prop :=
  desired.Made collection given object ∨ ∃ old ∈ objects, old.reference = object.reference ∧
    ∀ key, desired.payload.find? key = none → object.get? key = old.get? key

theorem Descriptor.Origin.mono {desired : Descriptor} {collection : Collection} {given later : Nat}
    {objects wider : List RemoteObject} {object : RemoteObject}
    (origin : desired.Origin collection later objects object) (least : given ≤ later)
    (within : objects ⊆ wider) : desired.Origin collection given wider object :=
  origin.imp (fun ⟨id, above, isNew⟩ => ⟨id, Nat.lt_of_le_of_lt least above, isNew⟩)
    fun ⟨old, member, same⟩ => ⟨old, within member, same⟩

namespace Schema

variable {schema : Schema} {entries : List Descriptor} {set : OperationSet}

def Split (schema : Schema) (entries : List Descriptor) : Prop :=
  ∀ descriptor ∈ entries, ∃ desired, schema.SplitOf desired descriptor

theorem Regular.split (regular : schema.Regular) {desired : List Attributes}
    (accepted : schema.descriptors desired = .ok entries) : schema.Split entries := by
  intro descriptor member
  obtain ⟨entry, found⟩ := exists_entry_of_descriptors accepted member
  exact ⟨entry, regular.splitOf found⟩

/-- Updates leave every entry's choice of objects as it was. -/
theorem Matched.matchesObject_renew {free : List RemoteObject}
    (matched : schema.Matched entries free set) (split : schema.Split entries) {entry : Descriptor}
    (member : entry ∈ entries)
    (object : RemoteObject) :
    entry.matchesObject (set.renew object) = entry.matchesObject object := by
  unfold OperationSet.renew
  cases found : set.pendingUpdates.find? (·.remote.reference == object.reference) with
  | none => rfl
  | some pair =>
      have inUpdates := (List.mem_filter.mp (List.mem_of_find?_eq_some found)).1
      have known := matched.pairOf_mem inUpdates
      have sendable := sendable_of_diff known.differs
      obtain ⟨_, ofPair⟩ := split pair.desired known.desired_mem
      obtain ⟨_, ofEntry⟩ := split entry member
      exact ofEntry.matchesObject_applyAll sendable.ascending
        (ofPair.identifies_of_change known.differs)
        (FieldChange.insertAll_applyAll_empty sendable.ascending object.attributes)

/-- The operations of a collection settle it. -/
theorem Matched.settled {free : List RemoteObject} (references : (free.map (·.reference)).Nodup)
    (regular : schema.Regular) (split : schema.Split entries) (matched : schema.Matched entries free set)
    {collection : Collection} {given : Nat} {made : List RemoteObject}
    (fresh : List.Forall₂ (fun desired => desired.Made collection given) set.toCreate made) :
    ∃ pairs, schema.Matched entries ((free.filter set.keeps).map set.renew ++ made) ⟨[], pairs, []⟩ ∧
      ∀ pair ∈ pairs, pair.changes = [] ∧ pair.desired.Origin collection given free pair.remote := by
  have targets := matched.toUpdate_remotes_nodup (·.reference) references
  have renewed : ∀ pair ∈ set.toUpdate, (set.renew pair.remote).attributes =
      FieldChange.applyAll pair.changes pair.remote.attributes := fun pair member =>
    OperationSet.attributes_renew targets member
      (sendable_of_diff (matched.pairOf_mem member).differs).ascending
  have deleted : ∀ object ∈ free, set.keeps object = false ↔ object ∈ set.toDelete := by
    intro object _
    simp [OperationSet.keeps]
  have met : List.Forall₂ (fun (entry : Descriptor) object => entry.MetBy schema object ∧
      entry.Made collection given object) set.toCreate made := by
    have inEntries : ∀ desired ∈ set.toCreate, desired ∈ entries :=
      fun desired member => matched.toCreate_sublist.subset member
    refine ((List.forall₂_and_left _ _).mpr ⟨inEntries, fresh⟩).imp ?_
    rintro desired object ⟨member, id, above, rfl⟩
    obtain ⟨_, ofDesired⟩ := split desired member
    exact ⟨regular.metBy_newObject ofDesired collection id, id, above, rfl⟩
  obtain ⟨pairs, second, settled⟩ := matched.again references.of_map deleted
    (fun entry member object _ => matched.matchesObject_renew split member object)
    (fun pair member => diff_applyAll (matched.pairOf_mem member).differs (renewed pair member) _) met
  refine ⟨pairs, second, fun pair member => ?_⟩
  obtain ⟨noChanges, ⟨earlier, inUpdates, sameEntry, sameObject⟩ | isMade⟩ := settled pair member
  · refine ⟨noChanges, .inr ⟨earlier.remote, ?_, ?_, fun key absent => ?_⟩⟩
    · exact (matched.pairOf_mem inUpdates).remote_mem
    · rw [← sameObject, OperationSet.reference_renew]
    · have differs := (matched.pairOf_mem inUpdates).differs
      have untouched : ∀ change ∈ earlier.changes, change.field ≠ key := by
        intro change inChanges isKey
        have wanted := desired_of_change differs inChanges
        rw [isKey, sameEntry, absent] at wanted
        cases wanted
      rw [RemoteObject.get?, ← sameObject, renewed earlier inUpdates,
        FieldChange.find?_applyAll_of_not_mem (sendable_of_diff differs).ascending _ untouched]
      rfl
  · exact ⟨noChanges, .inl isMade⟩

end Schema

end DesiredState
