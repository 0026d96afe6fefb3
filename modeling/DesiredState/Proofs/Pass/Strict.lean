import DesiredState.Proofs.Matching.Strict
import DesiredState.Proofs.Pass.Fixpoint
import DesiredState.Proofs.Pass.Report

/-!
# Strict passes

A strict pass looks for a second candidate among the members that are there when it starts. Where the
entries of a collection have distinct identities a strict pass without errors is stable: it is planned
as converged from then on. Where two entries share an identity it may still succeed, and makes an
object for each of them; the same request is then ambiguous.
-/

set_option autoImplicit false

namespace DesiredState

namespace PassRequest

/-- No two entries of one collection have the same identity. -/
def EntriesDistinct (request : PassRequest) : Prop :=
  ∀ desired ∈ request.collections, ∀ entries, desired.schema.descriptors desired.entries = .ok entries →
    (entries.map (·.identity)).Nodup

/-- The entries of a collection are accepted, and the strict matching of its members is ambiguous. -/
def CollectionAmbiguous (state : StoreState) (parent : ResourceRef) (desired : DesiredCollection) :
    Prop :=
  ∃ entries label candidates, desired.schema.descriptors desired.entries = .ok entries ∧
    desired.schema.reconcile (state.members (.under parent desired.schema.kind)) entries true =
      .error (.ambiguousMatch desired.schema.kind label candidates)

variable {request : PassRequest} {state : StoreState} {top : RemoteObject}

namespace CollectionSettled

variable {parent : ResourceRef} {desired : DesiredCollection} {entries : List Descriptor}

private theorem accepted (settled : CollectionSettled state parent desired) :
    ∃ entries, desired.schema.descriptors desired.entries = .ok entries := by
  obtain ⟨entries, _, described, _⟩ := settled
  exact ⟨entries, described⟩

private theorem idle_strict (settled : CollectionSettled state parent desired)
    (cataloged : desired.schema ∈ Catalog.all)
    (accepted : desired.schema.descriptors desired.entries = .ok entries)
    (distinct : (entries.map (·.identity)).Nodup) : CollectionIdle true state parent desired := by
  obtain ⟨found, pairs, described, matched, unchanged⟩ := settled
  cases accepted.symm.trans described
  have tell := Schema.tellApart_of_descriptors (Catalog.identifiedByText cataloged) accepted
  exact ⟨entries, pairs, accepted, matched.strict_of_distinct rfl tell distinct, unchanged⟩

private theorem ambiguous (settled : CollectionSettled state parent desired)
    (cataloged : desired.schema ∈ Catalog.all)
    (accepted : desired.schema.descriptors desired.entries = .ok entries)
    (repeated : ¬ (entries.map (·.identity)).Nodup) : CollectionAmbiguous state parent desired := by
  obtain ⟨found, pairs, described, matched, _⟩ := settled
  cases accepted.symm.trans described
  have tell := Schema.tellApart_of_descriptors (Catalog.identifiedByText cataloged) accepted
  obtain ⟨label, candidates, failed⟩ := matched.ambiguous_of_repeated rfl tell repeated
  exact ⟨entries, label, candidates, accepted, failed⟩

end CollectionSettled

/-- Collections are planned up to the first one that is ambiguous. -/
theorem planCollections_ambiguous {collections : List DesiredCollection} {store : MemoryStore}
    (each : ∀ desired ∈ collections, CollectionIdle true store.state top.reference desired ∨
      CollectionAmbiguous store.state top.reference desired)
    (one : ∃ desired ∈ collections, ¬ CollectionIdle true store.state top.reference desired) :
    ∃ kind label candidates after,
      planCollections MemoryStore.remote (.update top []) true collections store =
        (.error (.ambiguousMatch kind label candidates), after) := by
  induction collections generalizing store with
  | nil =>
      obtain ⟨_, member, _⟩ := one
      cases member
  | cons desired rest ih =>
      by_cases first : CollectionIdle true store.state top.reference desired
      · obtain ⟨head, middle, planned, same, _⟩ := planCollection_of_idle first
        have restEach : ∀ other ∈ rest, CollectionIdle true middle.state top.reference other ∨
            CollectionAmbiguous middle.state top.reference other := by
          intro other member
          rw [same]
          exact each other (List.mem_cons_of_mem _ member)
        have restOne : ∃ other ∈ rest, ¬ CollectionIdle true middle.state top.reference other := by
          obtain ⟨other, member, busy⟩ := one
          rw [same]
          rcases List.mem_cons.mp member with rfl | inRest
          · exact absurd first busy
          · exact ⟨other, inRest, busy⟩
        obtain ⟨kind, label, candidates, after, failed⟩ := ih restEach restOne
        exact ⟨kind, label, candidates, after, by simp only [planCollections, planned, failed]⟩
      · obtain ⟨entries, label, candidates, accepted, ambiguous⟩ :=
          (each desired List.mem_cons_self).resolve_left first
        refine ⟨desired.schema.kind, label, candidates,
          store.noted (.list (.under top.reference desired.schema.kind)), ?_⟩
        simp only [planCollections, planCollection, accepted, observed, MemoryStore.remote,
          MemoryStore.list, ambiguous]

/-- Where everything is as a strict request wants it, the identities of its entries decide whether it
can be planned again. -/
theorem plan_strict_of_settledIn {store : MemoryStore} (settled : request.SettledIn store.state top)
    (catalog : request.FromCatalog) (strict : request.strict = true) :
    (request.EntriesDistinct → ∃ plan after,
      (request.again top.reference).plan MemoryStore.remote store = (.ok plan, after) ∧
        plan.isConverged = true) ∧
    (¬ request.EntriesDistinct → ∃ kind label candidates after,
      (request.again top.reference).plan MemoryStore.remote store =
        (.error (.ambiguousMatch kind label candidates), after)) := by
  constructor
  · intro distinct
    have idle : ∀ desired ∈ request.collections,
        CollectionIdle request.strict store.state top.reference desired := by
      intro desired member
      rw [strict]
      have collection := settled.collections desired member
      obtain ⟨entries, accepted⟩ := collection.accepted
      exact collection.idle_strict (catalog.collections desired member) accepted
        (distinct desired member entries accepted)
    obtain ⟨plan, after, planned, _, converged⟩ := plan_of_idle settled idle
    exact ⟨plan, after, planned, converged⟩
  · intro repeated
    have each : ∀ desired ∈ request.collections,
        CollectionIdle true store.state top.reference desired ∨
          CollectionAmbiguous store.state top.reference desired := by
      intro desired member
      have collection := settled.collections desired member
      obtain ⟨entries, accepted⟩ := collection.accepted
      by_cases distinct : (entries.map (·.identity)).Nodup
      · exact .inl (collection.idle_strict (catalog.collections desired member) accepted distinct)
      · exact .inr (collection.ambiguous (catalog.collections desired member) accepted distinct)
    have one : ∃ desired ∈ request.collections,
        ¬ CollectionIdle true store.state top.reference desired := by
      simp only [EntriesDistinct, not_forall] at repeated
      obtain ⟨desired, member, entries, accepted, notDistinct⟩ := repeated
      refine ⟨desired, member, ?_⟩
      rintro ⟨found, pairs, described, matching, _⟩
      cases accepted.symm.trans described
      obtain ⟨_, label, candidates, again, failed⟩ :=
        (settled.collections desired member).ambiguous (catalog.collections desired member) accepted
          notDistinct
      cases accepted.symm.trans again
      rw [failed] at matching
      cases matching
    have noted : ∃ kind label candidates after, planCollections MemoryStore.remote (.update top []) true
        request.collections (store.noted (.get top.reference)) =
          (.error (.ambiguousMatch kind label candidates), after) :=
      planCollections_ambiguous each one
    obtain ⟨kind, label, candidates, after, failed⟩ := noted
    refine ⟨kind, label, candidates, after, ?_⟩
    simp only [plan_again_eq settled, strict, failed]

/-- A strict pass without errors is stable exactly if no two entries of a collection have the same
identity. The same request, made of the object that it reached or created, is then planned as
converged on any store that has come to hold the same; otherwise it fails as ambiguous. -/
theorem strict_converge_stable (request : PassRequest) (intervals : WaitIntervals)
    (state after : PassState MemoryStore) (report : PassReport)
    (wellFormed : state.store.state.WellFormed) (catalog : request.FromCatalog)
    (strict : request.strict = true)
    (ran : request.converge MemoryStore.remote intervals state = (.ok report, after))
    (clean : report.errors = []) :
    ∃ top, report.object = some top ∧ request.Addressed state.store.state top ∧
      ∀ later : MemoryStore, later.state = after.store.state →
        (request.EntriesDistinct → ∃ plan last,
          (request.again top.reference).plan MemoryStore.remote later = (.ok plan, last) ∧
            plan.isConverged = true) ∧
        (¬ request.EntriesDistinct → ∃ kind label candidates last,
          (request.again top.reference).plan MemoryStore.remote later =
            (.error (.ambiguousMatch kind label candidates), last)) := by
  obtain ⟨plan, top, isTop, pass⟩ := cleanPass_of_converge ran clean
  refine ⟨top, isTop, (pass.topWritten wellFormed).addressed, fun later same => ?_⟩
  have settled : request.SettledIn later.state top := by
    rw [same]
    exact pass.settledIn wellFormed catalog
  exact plan_strict_of_settledIn settled catalog strict

theorem strict_converge_stable_ruleChange :
    ruleChange.2.store.state.WellFormed ∧ { ruleChange.1 with strict := true }.FromCatalog ∧
      ∃ report after plan last,
        { ruleChange.1 with strict := true }.converge MemoryStore.remote .standard ruleChange.2 =
          (.ok report, after) ∧
        report.errors = [] ∧ report.applied.length = 3 ∧
        ({ ruleChange.1 with strict := true }.again (.top "firewall" 1)).plan MemoryStore.remote
          after.store = (.ok plan, last) ∧
        plan.isConverged = true := by
  have catalog : { ruleChange.1 with strict := true }.FromCatalog := by
    refine ⟨?_, ?_, ?_⟩ <;> decide
  obtain ⟨top, isTop, _, again⟩ := strict_converge_stable { ruleChange.1 with strict := true } .standard
    ruleChange.2 _ _ wellFormed_ruleChange catalog rfl rfl rfl
  cases isTop
  have distinct : { ruleChange.1 with strict := true }.EntriesDistinct := by
    intro desired member entries accepted
    obtain rfl := List.mem_singleton.mp member
    cases accepted
    decide
  obtain ⟨plan, last, planned, converged⟩ := (again _ rfl).1 distinct
  exact ⟨wellFormed_ruleChange, catalog, _, _, plan, last, rfl, rfl, rfl, planned, converged⟩

/-- A firewall without rules that is to have two rules of one label, asked for strictly. -/
def twinRules : PassRequest × PassState MemoryStore :=
  let labelled (label : String) : Attributes := (∅ : Attributes).insert "label" (.string label)
  ({ PassRequest.of Catalog.firewall (.existing (.top "firewall" 1)) ∅ with
      strict := true
      collections := [⟨Catalog.firewallRule, [labelled "ssh", labelled "ssh"]⟩] },
    ⟨.ofState ⟨1, 0, 0, [⟨.top "firewall" 1, labelled "edge"⟩], []⟩ (.stopped .epoch), [], 0⟩)

/-- A strict pass may succeed and leave a state in which the same request is ambiguous. -/
theorem strict_converge_not_stable :
    twinRules.2.store.state.WellFormed ∧ twinRules.1.FromCatalog ∧ twinRules.1.strict = true ∧
      twinRules.1.awaitAction = none ∧
      ∃ report after last,
        twinRules.1.converge MemoryStore.remote .standard twinRules.2 = (.ok report, after) ∧
        report.errors = [] ∧ (report.object.map (·.reference)) = some (.top "firewall" 1) ∧
        (twinRules.1.again (.top "firewall" 1)).plan MemoryStore.remote after.store =
          (.error (.ambiguousMatch "firewall_rule" "firewall_rule[label=ssh]" 2), last) := by
  refine ⟨⟨⟨by decide, by decide⟩, by decide, by decide, by decide⟩, ⟨by decide, by decide, by decide⟩,
    rfl, rfl, _, _, _, rfl, rfl, rfl, rfl⟩

end PassRequest

end DesiredState
