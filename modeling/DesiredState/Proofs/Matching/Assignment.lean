import Mathlib.Data.List.Count
import Mathlib.Data.List.Perm.Subperm
import DesiredState.Proofs.Identity

/-!
# Matchings as assignments

An assignment gives some entries an object that they mean, and no object to two of them. A successful
matching is one: it leaves every other entry to be created and every other object to be deleted, and no
entry that is created means an object that is deleted. Where entries tell objects apart no assignment
has more pairs. An entry is created only when all objects of its identity are taken, and they are taken
by entries of that identity.
-/

set_option autoImplicit false

namespace DesiredState

/-- Two lists make up a third, in which each stands in its own order. -/
inductive Interleaved {α : Type} : List α → List α → List α → Prop where
  | nil : Interleaved [] [] []
  | left (head : α) {first second merged : List α} (rest : Interleaved first second merged) :
      Interleaved (head :: first) second (head :: merged)
  | right (head : α) {first second merged : List α} (rest : Interleaved first second merged) :
      Interleaved first (head :: second) (head :: merged)

theorem Interleaved.perm {α : Type} {first second merged : List α}
    (interleaved : Interleaved first second merged) : merged.Perm (first ++ second) := by
  induction interleaved with
  | nil => exact .refl _
  | left head _ ih => exact ih.cons head
  | right head _ ih => exact (ih.cons head).trans List.perm_middle.symm

/-- Pairs of an entry and an object that it means, in which every entry and every object stands at most
as often as it is there. -/
structure Assignment (entries : List Descriptor) (objects : List RemoteObject)
    (pairs : List (Descriptor × RemoteObject)) : Prop where
  entries : (pairs.map (·.1)).Subperm entries
  objects : (pairs.map (·.2)).Subperm objects
  meant : ∀ pair ∈ pairs, pair.1.matchesObject pair.2 = true

namespace OperationSet

def pairs (set : OperationSet) : List (Descriptor × RemoteObject) :=
  set.toUpdate.map fun pair => (pair.desired, pair.remote)

/-- Whether one of the entries to be created means an object. -/
def claims (set : OperationSet) (object : RemoteObject) : Bool :=
  set.toCreate.any (·.matchesObject object)

/-- Whether one of the entries to be created has the identity of an entry. -/
def repeats (set : OperationSet) (entry : Descriptor) : Bool :=
  set.toCreate.any fun created => created.identity = entry.identity

end OperationSet

namespace Schema

variable {schema : Schema} {entries : List Descriptor} {free : List RemoteObject} {set : OperationSet}

namespace Matched

private theorem interleaved (matched : schema.Matched entries free set) :
    Interleaved set.toCreate (set.toUpdate.map (·.desired)) entries := by
  induction matched with
  | done _ => exact .nil
  | create _ _ ih => exact .left _ ih
  | pair _ _ _ _ ih => exact .right _ ih

/-- What is deleted was free when an entry found nothing that it means. -/
theorem unmeant_of_create (matched : schema.Matched entries free set) {entry : Descriptor}
    (created : entry ∈ set.toCreate) {object : RemoteObject} (deleted : object ∈ set.toDelete) :
    entry.matchesObject object = false := by
  induction matched with
  | done _ => cases created
  | create unmeant others ih =>
      rcases List.mem_cons.mp created with rfl | inRest
      · exact unmeant object (others.toDelete_sublist.subset deleted)
      · exact ih inRest deleted
  | pair _ _ _ _ ih => exact ih created deleted

private theorem assignment (matched : schema.Matched entries free set) :
    Assignment entries free set.pairs where
  entries := by
    have desired : set.pairs.map (·.1) = set.toUpdate.map (·.desired) := by
      simp [OperationSet.pairs, Function.comp_def]
    rw [desired]
    exact (List.sublist_append_right _ _).subperm.trans matched.interleaved.perm.symm.subperm
  objects := by
    have remotes : set.pairs.map (·.2) = set.toUpdate.map (·.remote) := by
      simp [OperationSet.pairs, Function.comp_def]
    rw [remotes]
    exact (List.sublist_append_left _ _).subperm.trans matched.perm_observed.symm.subperm
  meant := by
    intro pair member
    obtain ⟨made, inUpdates, rfl⟩ := List.mem_map.mp member
    exact (matched.pairOf_mem inUpdates).meant

end Matched

/-! ## No assignment is larger -/

/-- An entry shares its identity with one that is created exactly if the object it means is claimed by
such an entry. -/
theorem repeats_eq_claims (apart : TellApart entries) (created : set.toCreate ⊆ entries)
    {entry : Descriptor} (member : entry ∈ entries) {object : RemoteObject}
    (means : entry.matchesObject object = true) : set.repeats entry = set.claims object := by
  rw [Bool.eq_iff_iff, OperationSet.repeats, OperationSet.claims, List.any_eq_true, List.any_eq_true]
  constructor
  · rintro ⟨other, isCreated, same⟩
    rw [← Descriptor.matchesObject_of_identity (of_decide_eq_true same)] at means
    exact ⟨other, isCreated, means⟩
  · rintro ⟨other, isCreated, otherMeans⟩
    exact ⟨other, isCreated,
      decide_eq_true (apart other (created isCreated) entry member object otherMeans means)⟩

/-- Every pair of an assignment is counted once: by its object if that is claimed, and otherwise by its
entry. -/
theorem length_assignment (apart : TellApart entries) (created : set.toCreate ⊆ entries)
    {pairs : List (Descriptor × RemoteObject)} (assignment : Assignment entries free pairs) :
    pairs.length =
      (pairs.map (·.2)).countP set.claims + (pairs.map (·.1)).countP fun entry => !set.repeats entry := by
  have sameCount : pairs.countP (fun pair => set.claims pair.2) =
      pairs.countP fun pair => set.repeats pair.1 := by
    refine List.countP_congr fun pair member => ?_
    have known : pair.1 ∈ entries := assignment.entries.subset (List.mem_map_of_mem member)
    rw [repeats_eq_claims apart created known (assignment.meant pair member)]
  rw [List.countP_map, List.countP_map, Function.comp_def, Function.comp_def, sameCount]
  rw [List.length_eq_countP_add_countP fun pair => set.repeats pair.1]
  simp only [Bool.not_eq_true, Bool.decide_eq_false]

namespace Matched

/-- No assignment has more pairs than a matching of entries that tell objects apart. -/
theorem assignment_length_le (matched : schema.Matched entries free set) (apart : TellApart entries)
    {pairs : List (Descriptor × RemoteObject)} (assignment : Assignment entries free pairs) :
    pairs.length ≤ set.toUpdate.length := by
  have created := matched.toCreate_sublist.subset
  -- The objects that are claimed are all taken, since no entry to be created means a deleted one.
  have objects : (pairs.map (·.2)).countP set.claims ≤ (set.pairs.map (·.2)).countP set.claims := by
    have none : set.toDelete.countP set.claims = 0 := by
      refine List.countP_eq_zero.mpr fun object deleted claimed => ?_
      obtain ⟨entry, isCreated, means⟩ := List.any_eq_true.mp claimed
      rw [matched.unmeant_of_create isCreated deleted] at means
      cases means
    calc (pairs.map (·.2)).countP set.claims
        ≤ free.countP set.claims := assignment.objects.countP_le _
      _ = (set.toUpdate.map (·.remote)).countP set.claims := by
          rw [matched.perm_observed.countP_eq, List.countP_append, none, Nat.add_zero]
      _ = (set.pairs.map (·.2)).countP set.claims := by
          simp [OperationSet.pairs, Function.comp_def]
  -- An entry that is not paired is created, and so repeats itself.
  have entriesLe : ((pairs.map (·.1)).countP fun entry => !set.repeats entry) ≤
      (set.pairs.map (·.1)).countP fun entry => !set.repeats entry := by
    have none : (set.toCreate.countP fun entry => !set.repeats entry) = 0 := by
      refine List.countP_eq_zero.mpr fun entry isCreated fresh => ?_
      have repeated : set.repeats entry = true :=
        List.any_eq_true.mpr ⟨entry, isCreated, decide_eq_true rfl⟩
      rw [repeated] at fresh
      cases fresh
    calc ((pairs.map (·.1)).countP fun entry => !set.repeats entry)
        ≤ entries.countP fun entry => !set.repeats entry := assignment.entries.countP_le _
      _ = (set.toUpdate.map (·.desired)).countP fun entry => !set.repeats entry := by
          rw [matched.interleaved.perm.countP_eq, List.countP_append, none, Nat.zero_add]
      _ = (set.pairs.map (·.1)).countP fun entry => !set.repeats entry := by
          simp [OperationSet.pairs, Function.comp_def]
  have whole : set.pairs.length = set.toUpdate.length := by simp [OperationSet.pairs]
  rw [length_assignment apart created assignment, ← whole,
    length_assignment apart created matched.assignment]
  exact Nat.add_le_add objects entriesLe

end Matched

/-- A successful matching divides both sides and creates nothing that it could have kept. Every observed
object is taken or deleted, every desired entry is created or paired, and each keeps its order. A pair is
of an entry and an object that it means, with the difference between them, and no entry that is created
means an object that is deleted. For entries that identify themselves by text no other assignment of
entries to objects that they mean has more pairs, so that as little as possible is created and
deleted. -/
theorem reconcile_divides (schema : Schema) (objects : List RemoteObject) (entries : List Descriptor)
    (strict : Bool) (set : OperationSet)
    (accepted : schema.reconcile objects entries strict = .ok set) :
    objects.Perm (set.toUpdate.map (·.remote) ++ set.toDelete) ∧
    set.toDelete.Sublist objects ∧
    Interleaved set.toCreate (set.toUpdate.map (·.desired)) entries ∧
    (∀ pair ∈ set.toUpdate, pair.desired.matchesObject pair.remote = true ∧
      schema.diff pair.remote pair.desired.payload schema.mutabilityPolicy = .ok pair.changes) ∧
    (∀ entry ∈ set.toCreate, ∀ object ∈ set.toDelete, entry.matchesObject object = false) ∧
    (schema.IdentifiedByText → ∀ desired, schema.descriptors desired = .ok entries →
      Assignment entries objects set.pairs ∧ ∀ pairs, Assignment entries objects pairs →
        pairs.length ≤ set.toUpdate.length ∧
        set.toCreate.length + pairs.length ≤ entries.length ∧
        set.toDelete.length + pairs.length ≤ objects.length) := by
  have matched := matched_of_matchEntries accepted
  refine ⟨matched.perm_observed, matched.toDelete_sublist, matched.interleaved, fun pair member => ?_,
    fun entry created object deleted => matched.unmeant_of_create created deleted,
    fun byText desired described => ⟨matched.assignment, fun pairs assignment => ?_⟩⟩
  · have made := matched.pairOf_mem member
    exact ⟨made.meant, made.differs⟩
  · have most := matched.assignment_length_le (tellApart_of_descriptors byText described) assignment
    have entriesLength := matched.interleaved.perm.length_eq
    have objectsLength := matched.perm_observed.length_eq
    simp only [List.length_append, List.length_map] at entriesLength objectsLength
    exact ⟨most, by omega, by omega⟩

/-- Rules that are wanted twice, and rules that are there three times. -/
def repeatedRules : List Descriptor × List RemoteObject :=
  (["ssh", "http", "ssh"].map Catalog.wantedRule,
    [Catalog.observedRule 2 "dns", Catalog.observedRule 3 "ssh", Catalog.observedRule 4 "ssh",
      Catalog.observedRule 5 "ssh"])

theorem reconcile_divides_repeatedRules :
    Catalog.firewallRule.IdentifiedByText ∧
      Catalog.firewallRule.descriptors (repeatedRules.1.map (·.identity)) = .ok repeatedRules.1 ∧
      ∃ set, Catalog.firewallRule.reconcile repeatedRules.2 repeatedRules.1 false = .ok set ∧
        set.toCreate.map (·.identityKey) = ["label=http"] ∧ set.toDelete.map (·.id) = [2, 5] ∧
        ∀ pairs, Assignment repeatedRules.1 repeatedRules.2 pairs → pairs.length ≤ 2 := by
  have byText : Catalog.firewallRule.IdentifiedByText := Catalog.identifiedByText (by decide)
  obtain ⟨_, _, _, _, _, most⟩ :=
    reconcile_divides Catalog.firewallRule repeatedRules.2 repeatedRules.1 false _ rfl
  obtain ⟨_, noLarger⟩ := most byText (repeatedRules.1.map (·.identity)) rfl
  exact ⟨byText, rfl, _, rfl, by decide, by decide, fun pairs assignment =>
    (noLarger pairs assignment).1⟩

end Schema

end DesiredState
