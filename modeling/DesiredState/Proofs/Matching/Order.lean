import Mathlib.Data.List.Perm.Basic
import DesiredState.Proofs.Identity

/-!
# Matching and order

Objects that show distinct identities can be listed in any order, since every entry means at most one of
them. Entries of distinct identities can stand in any order, since none takes an object that another
means.
-/

set_option autoImplicit false

namespace DesiredState

namespace Schema

variable {schema : Schema}

/-! ## Any order of the objects -/

/-- Results of matching that are the same but for the order of the deletes. -/
inductive SameButDeleteOrder : Except PassError OperationSet → Except PassError OperationSet → Prop where
  | failed (error : PassError) : SameButDeleteOrder (.error error) (.error error)
  | matched {first second : OperationSet} (creates : first.toCreate = second.toCreate)
      (updates : first.toUpdate = second.toUpdate) (deletes : first.toDelete.Perm second.toDelete) :
      SameButDeleteOrder (.ok first) (.ok second)

private theorem SameButDeleteOrder.withEntry {first second : Except PassError OperationSet}
    (same : SameButDeleteOrder first second) (entry : Descriptor) (pair : Option MatchedPair) :
    SameButDeleteOrder (first.map (·.withEntry entry pair)) (second.map (·.withEntry entry pair)) := by
  cases same with
  | failed error => exact .failed error
  | matched creates updates deletes =>
      cases pair with
      | none => exact .matched (congrArg (List.cons entry) creates) updates deletes
      | some pair => exact .matched creates (congrArg (List.cons pair) updates) deletes

/-- No two of some objects are meant by one entry. -/
def MeansOne (entry : Descriptor) (objects : List RemoteObject) : Prop :=
  objects.Pairwise fun first second =>
    entry.matchesObject first = true → entry.matchesObject second = true → False

private theorem MeansOne.filter_eq {entry : Descriptor} {free others : List RemoteObject}
    (one : MeansOne entry free) (permuted : free.Perm others) :
    free.filter entry.matchesObject = others.filter entry.matchesObject := by
  -- Of two objects that are meant there is none, and so a permutation of the meant ones is an equality.
  have single : ∀ {objects : List RemoteObject}, MeansOne entry objects →
      (objects.filter entry.matchesObject).Pairwise fun _ _ => False := by
    intro objects one
    refine List.Pairwise.imp_of_mem ?_ (one.filter entry.matchesObject)
    intro first second firstMember secondMember apart
    exact apart (List.mem_filter.mp firstMember).2 (List.mem_filter.mp secondMember).2
  have oneOfOthers : MeansOne entry others :=
    permuted.pairwise one fun apart meansSecond meansFirst => apart meansFirst meansSecond
  exact (permuted.filter entry.matchesObject).eq_of_pairwise (fun _ _ _ _ absurd => absurd.elim)
    (single one) (single oneOfOthers)

private theorem matchEntries_perm_objects {entries : List Descriptor} {free others : List RemoteObject}
    (permuted : free.Perm others) (one : ∀ entry ∈ entries, MeansOne entry free) (strict : Bool) :
    SameButDeleteOrder (schema.matchEntries strict entries free)
      (schema.matchEntries strict entries others) := by
  induction entries generalizing free others with
  | nil => exact .matched rfl rfl permuted
  | cons entry rest ih =>
      have oneFirst := one entry List.mem_cons_self
      have remaining := ih (permuted.eraseP entry.matchesObject oneFirst) fun other member =>
        (one other (List.mem_cons_of_mem _ member)).sublist List.eraseP_sublist
      rw [matchEntries_cons, matchEntries_cons, oneFirst.filter_eq permuted]
      cases schema.settle strict entry (others.filter entry.matchesObject) with
      | error error => exact .failed error
      | ok pair => exact remaining.withEntry entry pair

private theorem meansOne_of_nodup (byText : schema.IdentifiedByText) {desired : Attributes}
    {entry : Descriptor} (accepted : schema.descriptor desired = .ok entry)
    {objects : List RemoteObject} (distinct : (objects.map schema.identityValues).Nodup) :
    MeansOne entry objects := by
  refine List.Pairwise.imp ?_ (List.pairwise_map.mp distinct)
  intro first second different meansFirst meansSecond
  exact different (identityValues_eq_of_means byText accepted meansFirst meansSecond)

/-! ## Any order of the entries -/

/-- Results of matching that both fail, or are the same but for the order of the entries. -/
inductive SameButEntryOrder : Except PassError OperationSet → Except PassError OperationSet → Prop where
  | failed (first second : PassError) : SameButEntryOrder (.error first) (.error second)
  | matched {first second : OperationSet} (creates : first.toCreate.Perm second.toCreate)
      (updates : first.toUpdate.Perm second.toUpdate) (deletes : first.toDelete = second.toDelete) :
      SameButEntryOrder (.ok first) (.ok second)

namespace SameButEntryOrder

theorem trans {first second third : Except PassError OperationSet}
    (start : SameButEntryOrder first second) (rest : SameButEntryOrder second third) :
    SameButEntryOrder first third := by
  cases start with
  | failed error _ =>
      cases rest with
      | failed _ last => exact .failed error last
  | matched creates updates deletes =>
      cases rest with
      | matched laterCreates laterUpdates laterDeletes =>
          exact .matched (creates.trans laterCreates) (updates.trans laterUpdates)
            (deletes.trans laterDeletes)

private theorem withEntry {first second : Except PassError OperationSet}
    (same : SameButEntryOrder first second) (entry : Descriptor) (pair : Option MatchedPair) :
    SameButEntryOrder (first.map (·.withEntry entry pair)) (second.map (·.withEntry entry pair)) := by
  cases same with
  | failed error other => exact .failed error other
  | matched creates updates deletes =>
      cases pair with
      | none => exact .matched (creates.cons entry) updates deletes
      | some pair => exact .matched creates (updates.cons pair) deletes

private theorem swap (set : OperationSet) (first second : Descriptor)
    (firstPair secondPair : Option MatchedPair) :
    SameButEntryOrder (.ok ((set.withEntry first firstPair).withEntry second secondPair))
      (.ok ((set.withEntry second secondPair).withEntry first firstPair)) := by
  cases firstPair with
  | none =>
      cases secondPair with
      | none => exact .matched (.swap _ _ _) (.refl _) rfl
      | some pair => exact .matched (.refl _) (.refl _) rfl
  | some pair =>
      cases secondPair with
      | none => exact .matched (.refl _) (.refl _) rfl
      | some other => exact .matched (.refl _) (.swap _ _ _) rfl

end SameButEntryOrder

private theorem Apart.eraseP_comm {first second : Descriptor} (apart : Apart first second)
    (objects : List RemoteObject) :
    (objects.eraseP first.matchesObject).eraseP second.matchesObject =
      (objects.eraseP second.matchesObject).eraseP first.matchesObject := by
  refine List.eraseP_comm fun object _ => ?_
  by_cases means : first.matchesObject object = true
  · exact .inr (apart object means)
  · exact .inl means

private theorem matchEntries_swap {first second : Descriptor} (apart : Apart first second) (strict : Bool)
    (rest : List Descriptor) (free : List RemoteObject) :
    SameButEntryOrder (schema.matchEntries strict (first :: second :: rest) free)
      (schema.matchEntries strict (second :: first :: rest) free) := by
  -- Neither entry takes a candidate of the other, so that both settle and leave the same in either order.
  simp only [matchEntries_cons, apart.filter_eraseP, apart.symm.filter_eraseP, apart.eraseP_comm]
  cases schema.settle strict first (free.filter first.matchesObject) with
  | error error =>
      cases schema.settle strict second (free.filter second.matchesObject) with
      | error other => exact .failed error other
      | ok pair => exact .failed error error
  | ok pair =>
      cases schema.settle strict second (free.filter second.matchesObject) with
      | error error => exact .failed error error
      | ok other =>
          cases schema.matchEntries strict rest
              ((free.eraseP second.matchesObject).eraseP first.matchesObject) with
          | error error => exact .failed error error
          | ok set => exact .swap set second first other pair

private theorem matchEntries_perm_entries {entries others : List Descriptor} (permuted : entries.Perm others)
    (apart : entries.Pairwise Apart) (strict : Bool) (free : List RemoteObject) :
    SameButEntryOrder (schema.matchEntries strict entries free)
      (schema.matchEntries strict others free) := by
  induction permuted generalizing free with
  | nil => exact .matched (.refl _) (.refl _) rfl
  | cons entry _ ih =>
      have remaining := ih apart.of_cons (free.eraseP entry.matchesObject)
      rw [matchEntries_cons, matchEntries_cons]
      cases schema.settle strict entry (free.filter entry.matchesObject) with
      | error error => exact .failed error error
      | ok pair => exact remaining.withEntry entry pair
  | swap first second rest =>
      exact matchEntries_swap (List.rel_of_pairwise_cons apart List.mem_cons_self) strict rest free
  | trans firstPermuted _ ihFirst ihSecond =>
      have middleApart := firstPermuted.pairwise apart fun apart => apart.symm
      exact (ihFirst apart free).trans (ihSecond middleApart free)

private theorem pairwise_apart_of_nodup {entries : List Descriptor} (tell : TellApart entries)
    (distinct : (entries.map (·.identity)).Nodup) : entries.Pairwise Apart :=
  List.Pairwise.imp_of_mem (fun firstMember secondMember different =>
    (tell.same_or_apart firstMember secondMember).resolve_left different) (List.pairwise_map.mp distinct)

/-- Order plays no part in matching where identities are unique. If no two observed objects show the same
identity, they can be listed in any order: the result is the same, a failure included, but for the order
of the deletes. If no two desired entries have the same identity, they can stand in any order: matching
fails or succeeds all the same, and then has the same pairs with the same changes, the same creates and
the very same deletes. -/
theorem reconcile_ignores_order (schema : Schema) (byText : schema.IdentifiedByText)
    (desired : List Attributes) (entries : List Descriptor)
    (described : schema.descriptors desired = .ok entries) (objects : List RemoteObject)
    (strict : Bool) :
    ((objects.map schema.identityValues).Nodup → ∀ others, objects.Perm others →
      SameButDeleteOrder (schema.reconcile objects entries strict)
        (schema.reconcile others entries strict)) ∧
    ((entries.map (·.identity)).Nodup → ∀ others, entries.Perm others →
      SameButEntryOrder (schema.reconcile objects entries strict)
        (schema.reconcile objects others strict)) := by
  constructor
  · intro distinct others permuted
    refine matchEntries_perm_objects permuted (fun entry member => ?_) strict
    obtain ⟨_, _, accepted⟩ := exists_of_forall₂_right (forall₂_of_descriptors described) member
    exact meansOne_of_nodup byText accepted distinct
  · intro distinct others permuted
    have apart := pairwise_apart_of_nodup (tellApart_of_descriptors byText described) distinct
    exact matchEntries_perm_entries permuted apart strict objects

/-- Rules of which one is wanted and there, two are only wanted and two are only there. -/
def distinctRules : List Descriptor × List RemoteObject :=
  (["ssh", "http", "dns"].map Catalog.wantedRule,
    [Catalog.observedRule 2 "smtp", Catalog.observedRule 3 "dns", Catalog.observedRule 4 "ntp"])

theorem reconcile_ignores_order_distinctRules :
    Catalog.firewallRule.IdentifiedByText ∧
      Catalog.firewallRule.descriptors (distinctRules.1.map (·.identity)) = .ok distinctRules.1 ∧
      (distinctRules.2.map Catalog.firewallRule.identityValues).Nodup ∧
      (distinctRules.1.map (·.identity)).Nodup ∧
      ∃ set, Catalog.firewallRule.reconcile distinctRules.2 distinctRules.1 true = .ok set ∧
        set.toCreate.map (·.identityKey) = ["label=ssh", "label=http"] ∧
        set.toUpdate.map (·.remote.id) = [3] ∧ set.toDelete.map (·.id) = [2, 4] ∧
        (∀ others, distinctRules.2.Perm others → SameButDeleteOrder (.ok set)
          (Catalog.firewallRule.reconcile others distinctRules.1 true)) ∧
        ∀ others, distinctRules.1.Perm others → SameButEntryOrder (.ok set)
          (Catalog.firewallRule.reconcile distinctRules.2 others true) := by
  have byText : Catalog.firewallRule.IdentifiedByText := Catalog.identifiedByText (by decide)
  have distinctObjects : (distinctRules.2.map Catalog.firewallRule.identityValues).Nodup := by decide
  have distinctEntries : (distinctRules.1.map (·.identity)).Nodup := by decide
  obtain ⟨ofObjects, ofEntries⟩ := reconcile_ignores_order Catalog.firewallRule byText
    (distinctRules.1.map (·.identity)) distinctRules.1 rfl distinctRules.2 true
  exact ⟨byText, rfl, distinctObjects, distinctEntries, _, rfl, by decide, by decide, by decide,
    ofObjects distinctObjects, ofEntries distinctEntries⟩

end Schema

end DesiredState
