import Mathlib.Data.List.Forall2
import Mathlib.Data.List.Perm.Basic
import DesiredState.Matching
import DesiredState.Proofs.Descriptor

/-!
# Greedy matching

What becomes of an entry depends on the free objects that it means and on nothing else:
`Schema.matchEntries_cons` says so for the first of several entries, and from it follows where a
matching can fail.

`Schema.Matched` is the matching as a relation: every entry in turn takes the first free object
that it means, or is created. Matching under either flag succeeds only along this relation, and
without the strict flag it succeeds along all of it. From the relation follow the partition of
both sides and what a second matching finds once the operations of the first have run.
-/

set_option autoImplicit false

namespace DesiredState

namespace OperationSet

/-! ## Operations -/

theorem operations_eq_nil_iff {set : OperationSet} :
    set.operations = [] ↔ set.isConverged = true := by
  simp only [operations, isConverged, List.append_eq_nil_iff, List.map_eq_nil_iff,
    Bool.and_eq_true, List.isEmpty_iff]
  constructor
  · rintro ⟨⟨noDeletes, noCreates⟩, noUpdates⟩
    exact ⟨⟨noCreates, noDeletes⟩, noUpdates⟩
  · rintro ⟨⟨noCreates, noDeletes⟩, noUpdates⟩
    exact ⟨⟨noDeletes, noCreates⟩, noUpdates⟩

/-- The operations with one more entry: paired, or else created. -/
def withEntry (set : OperationSet) (entry : Descriptor) : Option MatchedPair → OperationSet
  | none => { set with toCreate := entry :: set.toCreate }
  | some pair => { set with toUpdate := pair :: set.toUpdate }

end OperationSet

namespace Descriptor

variable {descriptor : Descriptor}

private theorem takeFrom?_eq_none {objects : List RemoteObject}
    (nothing : descriptor.takeFrom? objects = none) :
    ∀ object ∈ objects, descriptor.matchesObject object = false := by
  induction objects with
  | nil => simp
  | cons head rest ih =>
      rw [takeFrom?] at nothing
      split at nothing
      · cases nothing
      · rename_i unmeant
        intro object member
        rcases List.mem_cons.mp member with rfl | inRest
        · simpa using unmeant
        · refine ih ?_ object inRest
          cases recursive : descriptor.takeFrom? rest with
          | none => rfl
          | some taken => simp [recursive] at nothing

private theorem takeFrom?_of_unmeant {objects : List RemoteObject}
    (unmeant : ∀ object ∈ objects, descriptor.matchesObject object = false) :
    descriptor.takeFrom? objects = none := by
  induction objects with
  | nil => rfl
  | cons head rest ih =>
      have recursive := ih fun object member => unmeant object (List.mem_cons_of_mem _ member)
      simp [takeFrom?, unmeant head List.mem_cons_self, recursive]

private theorem takeFrom?_eq_some {objects others : List RemoteObject} {found : RemoteObject}
    (taken : descriptor.takeFrom? objects = some (found, others)) :
    ∃ before after, objects = before ++ found :: after ∧ others = before ++ after ∧
      descriptor.matchesObject found = true ∧
      ∀ object ∈ before, descriptor.matchesObject object = false := by
  induction objects generalizing found others with
  | nil => cases taken
  | cons head rest ih =>
      rw [takeFrom?] at taken
      by_cases meant : descriptor.matchesObject head = true
      · simp only [meant, if_true, Option.some.injEq, Prod.mk.injEq] at taken
        obtain ⟨rfl, rfl⟩ := taken
        exact ⟨[], rest, rfl, rfl, meant, by simp⟩
      · simp only [meant, Bool.false_eq_true, if_false] at taken
        cases recursive : descriptor.takeFrom? rest with
        | none => simp [recursive] at taken
        | some pair =>
            obtain ⟨object, remaining⟩ := pair
            simp only [recursive, Option.some.injEq, Prod.mk.injEq] at taken
            obtain ⟨rfl, rfl⟩ := taken
            obtain ⟨before, after, rfl, rfl, matched, unmeant⟩ := ih recursive
            refine ⟨head :: before, after, rfl, rfl, matched, ?_⟩
            intro other member
            rcases List.mem_cons.mp member with rfl | inBefore
            · simpa using meant
            · exact unmeant other inBefore

private theorem takeFrom?_append_cons {before after : List RemoteObject} {found : RemoteObject}
    (unmeant : ∀ object ∈ before, descriptor.matchesObject object = false)
    (meant : descriptor.matchesObject found = true) :
    descriptor.takeFrom? (before ++ found :: after) = some (found, before ++ after) := by
  induction before with
  | nil => simp [takeFrom?, meant]
  | cons head rest ih =>
      have recursive := ih fun object member => unmeant object (List.mem_cons_of_mem _ member)
      simp [takeFrom?, unmeant head List.mem_cons_self, recursive]

private theorem takeFrom?_eq (descriptor : Descriptor) (objects : List RemoteObject) :
    descriptor.takeFrom? objects = (objects.filter descriptor.matchesObject).head?.map fun found =>
      (found, objects.eraseP descriptor.matchesObject) := by
  induction objects with
  | nil => rfl
  | cons object rest ih =>
      by_cases meant : descriptor.matchesObject object = true
      · simp [takeFrom?, meant]
      · simp only [takeFrom?, meant, Bool.false_eq_true, if_false, ih, List.filter_cons, List.eraseP_cons,
          cond_false]
        cases (rest.filter descriptor.matchesObject).head? with
        | none => rfl
        | some found => rfl

end Descriptor

namespace Schema

/-! ## One entry after the other -/

variable {schema : Schema}

/-- What becomes of an entry that means these free objects: it is paired with the first of them, or has
none. -/
def settle (schema : Schema) (strict : Bool) (entry : Descriptor) (candidates : List RemoteObject) :
    Except PassError (Option MatchedPair) :=
  if strict && 1 < candidates.length then
    .error (.ambiguousMatch schema.kind (schema.identityLabel entry) candidates.length)
  else
    match candidates with
    | [] => .ok none
    | remote :: _ =>
        match schema.diff remote entry.payload schema.mutabilityPolicy with
        | .error error => .error error
        | .ok changes => .ok (some ⟨remote, entry, changes⟩)

theorem matchEntries_cons (strict : Bool) (entry : Descriptor) (rest : List Descriptor)
    (free : List RemoteObject) :
    schema.matchEntries strict (entry :: rest) free =
      match schema.settle strict entry (free.filter entry.matchesObject) with
      | .error error => .error error
      | .ok pair =>
          (schema.matchEntries strict rest (free.eraseP entry.matchesObject)).map
            (·.withEntry entry pair) := by
  rw [matchEntries, Descriptor.takeFrom?_eq]
  unfold settle
  split
  · rfl
  · cases candidates : free.filter entry.matchesObject with
    | nil =>
        have kept : free.eraseP entry.matchesObject = free :=
          List.eraseP_of_forall_not (List.filter_eq_nil_iff.mp candidates)
        rw [kept]
        cases schema.matchEntries strict rest free <;> rfl
    | cons remote others =>
        simp only [List.head?_cons, Option.map_some]
        cases schema.diff remote entry.payload schema.mutabilityPolicy with
        | error error => rfl
        | ok changes =>
            cases schema.matchEntries strict rest (free.eraseP entry.matchesObject) <;> rfl

private theorem settle_error {strict : Bool} {entry : Descriptor} {candidates : List RemoteObject}
    {error : PassError} (failed : schema.settle strict entry candidates = .error error) :
    (strict = true ∧
        error = .ambiguousMatch schema.kind (schema.identityLabel entry) candidates.length) ∨
      ∃ object ∈ candidates,
        schema.diff object entry.payload schema.mutabilityPolicy = .error error := by
  unfold settle at failed
  split at failed
  · rename_i several
    cases failed
    exact .inl ⟨(Bool.and_eq_true_iff.mp several).1, rfl⟩
  · cases candidates with
    | nil => cases failed
    | cons remote others =>
        refine .inr ⟨remote, List.mem_cons_self, ?_⟩
        cases differs : schema.diff remote entry.payload schema.mutabilityPolicy with
        | error other => simpa [differs] using failed
        | ok changes => simp [differs] at failed

/-- A matching fails at an entry that is ambiguous, or at its difference from a free object. -/
theorem matchEntries_error {strict : Bool} {entries : List Descriptor} {free : List RemoteObject}
    {error : PassError} (failed : schema.matchEntries strict entries free = .error error) :
    ∃ entry ∈ entries,
      (strict = true ∧ ∃ candidates,
        error = .ambiguousMatch schema.kind (schema.identityLabel entry) candidates) ∨
      ∃ object ∈ free, schema.diff object entry.payload schema.mutabilityPolicy = .error error := by
  induction entries generalizing free with
  | nil => cases failed
  | cons entry rest ih =>
      rw [matchEntries_cons] at failed
      cases settled : schema.settle strict entry (free.filter entry.matchesObject) with
      | error other =>
          simp only [settled, Except.error.injEq] at failed
          subst failed
          refine ⟨entry, List.mem_cons_self, ?_⟩
          rcases settle_error settled with ⟨isStrict, rfl⟩ | ⟨object, member, differs⟩
          · exact .inl ⟨isStrict, _, rfl⟩
          · exact .inr ⟨object, (List.mem_filter.mp member).1, differs⟩
      | ok pair =>
          cases recursive : schema.matchEntries strict rest (free.eraseP entry.matchesObject) with
          | ok set => simp [settled, recursive, Except.map] at failed
          | error other =>
              simp only [settled, recursive, Except.map, Except.error.injEq] at failed
              subst failed
              obtain ⟨later, member, reason⟩ := ih recursive
              refine ⟨later, List.mem_cons_of_mem _ member, reason.imp_right ?_⟩
              rintro ⟨object, remaining, differs⟩
              exact ⟨object, List.eraseP_sublist.subset remaining, differs⟩

/-- Without the strict flag a matching can fail only at a difference. -/
theorem matchEntries_total {entries : List Descriptor}
    (differs : ∀ entry ∈ entries, ∀ object,
      ∃ changes, schema.diff object entry.payload schema.mutabilityPolicy = .ok changes)
    (free : List RemoteObject) : ∃ set, schema.matchEntries false entries free = .ok set := by
  cases result : schema.matchEntries false entries free with
  | ok set => exact ⟨set, rfl⟩
  | error error =>
      obtain ⟨entry, member, ⟨absurd, _⟩ | ⟨object, _, failed⟩⟩ := matchEntries_error result
      · cases absurd
      · obtain ⟨changes, found⟩ := differs entry member object
        rw [failed] at found
        cases found

theorem reconcile_total (adaptable : schema.Adaptable) {desired : List Attributes}
    {entries : List Descriptor} (described : schema.descriptors desired = .ok entries)
    (objects : List RemoteObject) : ∃ set, schema.reconcile objects entries false = .ok set := by
  refine matchEntries_total (fun entry member object => ?_) objects
  obtain ⟨_, accepted⟩ := exists_entry_of_descriptors described member
  exact diff_payload_total adaptable accepted object

/-! ## The matching as a relation -/

/-- Matching entries with free objects, one entry after the other. -/
inductive Matched (schema : Schema) : List Descriptor → List RemoteObject → OperationSet → Prop where
  | done (free : List RemoteObject) : Matched schema [] free ⟨[], [], free⟩
  | create {entry : Descriptor} {rest : List Descriptor} {free : List RemoteObject}
      {set : OperationSet}
      (unmeant : ∀ object ∈ free, entry.matchesObject object = false)
      (others : Matched schema rest free set) :
      Matched schema (entry :: rest) free { set with toCreate := entry :: set.toCreate }
  | pair {entry : Descriptor} {rest : List Descriptor} {before after : List RemoteObject}
      {remote : RemoteObject} {changes : List FieldChange} {set : OperationSet}
      (unmeant : ∀ object ∈ before, entry.matchesObject object = false)
      (meant : entry.matchesObject remote = true)
      (differs : schema.diff remote entry.payload schema.mutabilityPolicy = .ok changes)
      (others : Matched schema rest (before ++ after) set) :
      Matched schema (entry :: rest) (before ++ remote :: after)
        { set with toUpdate := ⟨remote, entry, changes⟩ :: set.toUpdate }

theorem matched_of_matchEntries {strict : Bool} {entries : List Descriptor}
    {free : List RemoteObject} {set : OperationSet}
    (accepted : schema.matchEntries strict entries free = .ok set) :
    schema.Matched entries free set := by
  induction entries generalizing free set with
  | nil => cases accepted; exact .done free
  | cons entry rest ih =>
      rw [matchEntries] at accepted
      split at accepted
      · cases accepted
      · cases taken : entry.takeFrom? free with
        | none =>
            simp only [taken] at accepted
            split at accepted
            · cases accepted
            · rename_i others recursive
              cases accepted
              exact .create (Descriptor.takeFrom?_eq_none taken) (ih recursive)
        | some pair =>
            obtain ⟨remote, remaining⟩ := pair
            obtain ⟨before, after, rfl, rfl, meant, unmeant⟩ := Descriptor.takeFrom?_eq_some taken
            simp only [taken] at accepted
            split at accepted
            · cases accepted
            · rename_i changes differs
              split at accepted
              · cases accepted
              · rename_i others recursive
                cases accepted
                exact .pair unmeant meant differs (ih recursive)

/-- Without the strict flag every matching of the relation is found. -/
theorem Matched.matchEntries {entries : List Descriptor} {free : List RemoteObject}
    {set : OperationSet} (matched : schema.Matched entries free set) :
    schema.matchEntries false entries free = .ok set := by
  induction matched with
  | done free => rfl
  | create unmeant _ ih =>
      simp [Schema.matchEntries, Descriptor.takeFrom?_of_unmeant unmeant, ih]
  | pair unmeant meant differs _ ih =>
      simp [Schema.matchEntries, Descriptor.takeFrom?_append_cons unmeant meant, differs, ih]

namespace Matched

variable {entries : List Descriptor} {free : List RemoteObject} {set : OperationSet}

private theorem sublist_without (before after : List RemoteObject) (taken : RemoteObject) :
    (before ++ after).Sublist (before ++ taken :: after) :=
  (List.sublist_cons_self taken after).append_left before

/-- Every observed object is taken by an entry or deleted. -/
theorem perm_observed (matched : schema.Matched entries free set) :
    free.Perm (set.toUpdate.map (·.remote) ++ set.toDelete) := by
  induction matched with
  | done free => exact .refl free
  | create _ _ ih => exact ih
  | pair _ _ _ _ ih => exact List.perm_middle.trans (ih.cons _)

theorem toDelete_sublist (matched : schema.Matched entries free set) :
    set.toDelete.Sublist free := by
  induction matched with
  | done free => exact .refl free
  | create _ _ ih => exact ih
  | @pair _ _ before after remote _ _ _ _ _ _ ih =>
      exact ih.trans (sublist_without before after remote)

theorem toCreate_sublist (matched : schema.Matched entries free set) :
    set.toCreate.Sublist entries := by
  induction matched with
  | done _ => exact .slnil
  | create _ _ ih => exact ih.cons_cons _
  | pair _ _ _ _ ih => exact ih.cons _

theorem desired_of_no_create (matched : schema.Matched entries free set)
    (nothing : set.toCreate = []) : set.toUpdate.map (·.desired) = entries := by
  induction matched with
  | done _ => rfl
  | create _ _ _ => cases nothing
  | pair _ _ _ _ ih => simp [ih nothing]

structure PairOf (schema : Schema) (entries : List Descriptor) (free : List RemoteObject)
    (pair : MatchedPair) : Prop where
  desired_mem : pair.desired ∈ entries
  remote_mem : pair.remote ∈ free
  meant : pair.desired.matchesObject pair.remote = true
  differs : schema.diff pair.remote pair.desired.payload schema.mutabilityPolicy = .ok pair.changes

theorem pairOf_mem (matched : schema.Matched entries free set) {pair : MatchedPair}
    (member : pair ∈ set.toUpdate) : PairOf schema entries free pair := by
  induction matched with
  | done _ => cases member
  | create _ _ ih =>
      have inner := ih member
      exact ⟨List.mem_cons_of_mem _ inner.desired_mem, inner.remote_mem, inner.meant, inner.differs⟩
  | @pair entry rest before after remote changes set unmeant meant differs _ ih =>
      rcases List.mem_cons.mp member with rfl | inRest
      · exact ⟨List.mem_cons_self, by simp, meant, differs⟩
      · have inner := ih inRest
        have wider : pair.remote ∈ before ++ remote :: after :=
          (sublist_without before after remote).subset inner.remote_mem
        exact ⟨List.mem_cons_of_mem _ inner.desired_mem, wider, inner.meant, inner.differs⟩

theorem toUpdate_remotes_nodup (matched : schema.Matched entries free set)
    {α : Type} (label : RemoteObject → α) (nodup : (free.map label).Nodup) :
    (set.toUpdate.map fun pair => label pair.remote).Nodup := by
  have permuted := (matched.perm_observed.map label).nodup_iff.mp nodup
  rw [List.map_append, List.map_map] at permuted
  exact permuted.of_append_left

private theorem unmeant_renewed {entry : Descriptor} {objects : List RemoteObject}
    {kept : RemoteObject → Bool} {renew : RemoteObject → RemoteObject}
    (meaning : ∀ object ∈ objects, entry.matchesObject (renew object) = entry.matchesObject object)
    (unmeant : ∀ object ∈ objects, entry.matchesObject object = false) :
    ∀ object ∈ (objects.filter kept).map renew, entry.matchesObject object = false := by
  intro object member
  obtain ⟨original, isKept, rfl⟩ := List.mem_map.mp member
  have inObjects := (List.mem_filter.mp isKept).1
  rw [meaning original inObjects]
  exact unmeant original inObjects

/-- Where the pairs of a second matching come from: from pairs of the first, or from entries for
which an object was made. -/
def Renewed (set : OperationSet) (renew : RemoteObject → RemoteObject)
    (madeFor : Descriptor → RemoteObject → Prop) (pair : MatchedPair) : Prop :=
  (∃ earlier ∈ set.toUpdate, earlier.desired = pair.desired ∧ renew earlier.remote = pair.remote) ∨
    madeFor pair.desired pair.remote

/-- Matching again after the deletes, updates and creates have run. The objects that were kept
stand in their old order before those that were made, so that every entry takes the very object
that it took, or had made for it, the first time, and finds nothing to change. -/
theorem again (matched : schema.Matched entries free set) (nodup : free.Nodup)
    {kept : RemoteObject → Bool} (deleted : ∀ object ∈ free, kept object = false ↔ object ∈ set.toDelete)
    {renew : RemoteObject → RemoteObject}
    (meaning : ∀ entry ∈ entries, ∀ object ∈ free,
      entry.matchesObject (renew object) = entry.matchesObject object)
    (renewed : ∀ pair ∈ set.toUpdate,
      schema.diff (renew pair.remote) pair.desired.payload schema.mutabilityPolicy = .ok [])
    {madeFor : Descriptor → RemoteObject → Prop} {made : List RemoteObject}
    (met : List.Forall₂ (fun entry object => entry.MetBy schema object ∧ madeFor entry object)
      set.toCreate made) :
    ∃ pairs, schema.Matched entries ((free.filter kept).map renew ++ made) ⟨[], pairs, []⟩ ∧
      ∀ pair ∈ pairs, pair.changes = [] ∧ Renewed set renew madeFor pair := by
  induction matched generalizing made with
  | done free =>
      have none : free.filter kept = [] := by
        rw [List.filter_eq_nil_iff]
        intro object member
        simpa using (deleted object member).mpr member
      cases met
      rw [none]
      exact ⟨[], .done [], by simp⟩
  | @create entry rest free set unmeant _ ih =>
      cases met with
      | @cons _ object _ made both others =>
          obtain ⟨first, isMade⟩ := both
          have innerMeaning : ∀ entry ∈ rest, ∀ object ∈ free,
              entry.matchesObject (renew object) = entry.matchesObject object :=
            fun entry member => meaning entry (List.mem_cons_of_mem _ member)
          obtain ⟨pairs, second, settled⟩ := ih nodup deleted innerMeaning renewed others
          -- The entry means none of the kept objects, so the first that it means is the one made.
          have stillUnmeant : ∀ other ∈ (free.filter kept).map renew,
              entry.matchesObject other = false :=
            unmeant_renewed (meaning entry List.mem_cons_self) unmeant
          refine ⟨⟨object, entry, []⟩ :: pairs, .pair stillUnmeant first.meant first.settled second,
            fun pair member => ?_⟩
          rcases List.mem_cons.mp member with rfl | inPairs
          · exact ⟨rfl, .inr isMade⟩
          · exact settled pair inPairs
  | @pair entry rest before after remote changes set unmeant meant _ others ih =>
      have innerNodup : (before ++ after).Nodup := nodup.sublist (sublist_without before after remote)
      have wider : ∀ object ∈ before ++ after, object ∈ before ++ remote :: after :=
        fun object member => (sublist_without before after remote).subset member
      have innerMeaning : ∀ entry ∈ rest, ∀ object ∈ before ++ after,
          entry.matchesObject (renew object) = entry.matchesObject object :=
        fun entry member object free =>
          meaning entry (List.mem_cons_of_mem _ member) object (wider object free)
      obtain ⟨pairs, second, settled⟩ := ih innerNodup
        (fun object member => deleted object (wider object member)) innerMeaning
        (fun pair member => renewed pair (List.mem_cons_of_mem _ member)) met
      have remoteFree : remote ∈ before ++ remote :: after := by simp
      have remoteKept : kept remote = true := by
        cases isKept : kept remote with
        | true => rfl
        | false =>
            have inOthers := others.toDelete_sublist.subset ((deleted remote remoteFree).mp isKept)
            exact absurd inOthers (List.nodup_cons.mp (List.perm_middle.nodup_iff.mp nodup)).1
      -- Updates change no meaning and deletes no order, so the taken object is the first again.
      have stillUnmeant : ∀ other ∈ (before.filter kept).map renew,
          entry.matchesObject other = false :=
        unmeant_renewed (fun object inBefore =>
          meaning entry List.mem_cons_self object (List.mem_append_left _ inBefore)) unmeant
      have stillMeant : entry.matchesObject (renew remote) = true := by
        rw [meaning entry List.mem_cons_self remote remoteFree]
        exact meant
      have settledFirst := renewed ⟨remote, entry, changes⟩ List.mem_cons_self
      simp only [List.filter_append, List.filter_cons, remoteKept, if_true, List.map_append,
        List.map_cons, List.append_assoc, List.cons_append] at second ⊢
      refine ⟨⟨renew remote, entry, []⟩ :: pairs,
        .pair stillUnmeant stillMeant settledFirst second, fun pair member => ?_⟩
      rcases List.mem_cons.mp member with rfl | inPairs
      · exact ⟨rfl, .inl ⟨_, List.mem_cons_self, rfl, rfl⟩⟩
      · obtain ⟨none, origin⟩ := settled pair inPairs
        refine ⟨none, origin.imp_left ?_⟩
        rintro ⟨earlier, inSet, same, renewed⟩
        exact ⟨earlier, List.mem_cons_of_mem _ inSet, same, renewed⟩

end Matched

end Schema

/-! ## Rules of a firewall -/

namespace Catalog

/-- A rule that is wanted, by its label alone. -/
def wantedRule (label : String) : Descriptor := ⟨(∅ : Attributes).insert "label" (.string label), ∅⟩

/-- A rule that is there, with its number and label. -/
def observedRule (id : Nat) (label : String) : RemoteObject :=
  ⟨.child (.top "firewall" 1) "firewall_rule" id, (wantedRule label).identity⟩

end Catalog

end DesiredState
