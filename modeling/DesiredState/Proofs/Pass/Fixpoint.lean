import DesiredState.Proofs.Pass.Convergence
import DesiredState.Proofs.Pass.ReadOnly

/-!
# Passing again

After a pass without errors the same request, made of the object that is there now, finds nothing to
do: every entry of a collection takes the member that it took, or had made for it, before.
-/

set_option autoImplicit false

namespace DesiredState

private theorem OperationSet.isConverged_of_settled {pairs : List MatchedPair}
    (settled : ∀ pair ∈ pairs, pair.changes = []) :
    (⟨[], pairs, []⟩ : OperationSet).isConverged = true := by
  have none : (⟨[], pairs, []⟩ : OperationSet).pendingUpdates = [] := by
    refine List.filter_eq_nil_iff.mpr fun pair member => ?_
    simp [settled pair member]
  simp [isConverged, none]

namespace PassRequest

/-- The same request for an object that is there. -/
def again (request : PassRequest) (reference : ResourceRef) : PassRequest :=
  { request with target := .existing reference }

/-! ## Planning again -/

def CollectionSettled (state : StoreState) (parent : ResourceRef) (desired : DesiredCollection) :
    Prop :=
  ∃ entries pairs, desired.schema.descriptors desired.entries = .ok entries ∧
    desired.schema.Matched entries (state.members (.under parent desired.schema.kind))
      ⟨[], pairs, []⟩ ∧
    ∀ pair ∈ pairs, pair.changes = []

/-- The objects of a state are as a request wants them. -/
structure SettledIn (request : PassRequest) (state : StoreState) (top : RemoteObject) : Prop where
  native : request.foreignCollection? = none
  stored : state.find? top.reference = some top
  attributes :
    request.schema.diff top request.desired request.schema.mutabilityPolicy = .ok []
  collections : ∀ desired ∈ request.collections, CollectionSettled state top.reference desired

variable {request : PassRequest} {state : StoreState} {top : RemoteObject}

theorem CleanPass.settledIn {before after : StoreState} {plan : Plan}
    (pass : request.CleanPass before after plan top) (wellFormed : before.WellFormed)
    (catalog : request.FromCatalog) : request.SettledIn after top where
  native := pass.planned.native
  stored := pass.read
  attributes := (pass.topWritten wellFormed).settled (Catalog.regular catalog.schema) _
  collections := by
    intro desired member
    obtain ⟨entries, pairs, accepted, matched, settled⟩ :=
      pass.collection_settled wellFormed catalog member
    exact ⟨entries, pairs, accepted, matched, fun pair inPairs => (settled pair inPairs).1⟩

/-- Matching the members of a collection with its entries finds nothing to do. -/
def CollectionIdle (strict : Bool) (state : StoreState) (parent : ResourceRef)
    (desired : DesiredCollection) : Prop :=
  ∃ entries pairs, desired.schema.descriptors desired.entries = .ok entries ∧
    desired.schema.reconcile (state.members (.under parent desired.schema.kind)) entries strict =
      .ok ⟨[], pairs, []⟩ ∧
    ∀ pair ∈ pairs, pair.changes = []

private theorem CollectionSettled.idle {parent : ResourceRef} {desired : DesiredCollection}
    (settled : CollectionSettled state parent desired) : CollectionIdle false state parent desired := by
  obtain ⟨entries, pairs, accepted, matched, unchanged⟩ := settled
  exact ⟨entries, pairs, accepted, matched.matchEntries, unchanged⟩

variable {strict : Bool}

theorem planCollection_of_idle {store : MemoryStore} {desired : DesiredCollection}
    (idle : CollectionIdle strict store.state top.reference desired) :
    ∃ planned after,
      planCollection MemoryStore.remote (.update top []) strict desired store = (.ok planned, after) ∧
      after.state = store.state ∧ planned.operations.isConverged = true := by
  obtain ⟨entries, pairs, accepted, matched, unchanged⟩ := idle
  refine ⟨⟨desired.schema, ⟨[], pairs, []⟩⟩,
    store.noted (.list (.under top.reference desired.schema.kind)), ?_, rfl,
    OperationSet.isConverged_of_settled unchanged⟩
  simp only [planCollection, accepted, observed, MemoryStore.remote, MemoryStore.list, matched]

private theorem planCollections_of_idle {collections : List DesiredCollection} {store : MemoryStore}
    (idle : ∀ desired ∈ collections, CollectionIdle strict store.state top.reference desired) :
    ∃ planned after,
      planCollections MemoryStore.remote (.update top []) strict collections store =
        (.ok planned, after) ∧
      ∀ each ∈ planned, each.operations.isConverged = true := by
  induction collections generalizing store with
  | nil => exact ⟨[], store, rfl, by simp⟩
  | cons desired rest ih =>
      obtain ⟨head, middle, first, same, converged⟩ :=
        planCollection_of_idle (idle desired List.mem_cons_self)
      have restIdle : ∀ other ∈ rest, CollectionIdle strict middle.state top.reference other := by
        intro other member
        rw [same]
        exact idle other (List.mem_cons_of_mem _ member)
      obtain ⟨tail, after, others, restConverged⟩ := ih restIdle
      refine ⟨head :: tail, after, by simp only [planCollections, first, others], ?_⟩
      exact List.forall_mem_cons.mpr ⟨converged, restConverged⟩

/-- The same request for an object that is as it should be comes down to its collections. -/
theorem plan_again_eq {store : MemoryStore} (settled : request.SettledIn store.state top) :
    (request.again top.reference).plan MemoryStore.remote store =
      match planCollections MemoryStore.remote (.update top []) request.strict request.collections
        (store.noted (.get top.reference)) with
      | (.error error, after) => (.error error, after)
      | (.ok planned, after) => (.ok ⟨request.schema, .update top [], planned⟩, after) := by
  have native : (request.again top.reference).foreignCollection? = none := settled.native
  have read : fetch MemoryStore.remote (request.again top.reference) store =
      (.ok (some top), store.noted (.get top.reference)) := by
    simp only [fetch, again, MemoryStore.remote, MemoryStore.get, settled.stored]
  have acted : (request.again top.reference).action (some top) = .ok (.update top []) := by
    simp only [PassRequest.action, again, settled.attributes]
  simp only [plan, native, read, acted]
  simp only [again]
  rcases planCollections MemoryStore.remote (.update top []) request.strict request.collections
    (store.noted (.get top.reference)) with ⟨error | planned, after⟩
  · rfl
  · rfl

/-- Where everything is as a request wants it, a plan has nothing to do. -/
theorem plan_of_idle {store : MemoryStore} (settled : request.SettledIn store.state top)
    (idle : ∀ desired ∈ request.collections,
      CollectionIdle request.strict store.state top.reference desired) :
    ∃ plan after,
      (request.again top.reference).plan MemoryStore.remote store = (.ok plan, after) ∧
      plan.action = .update top [] ∧ plan.isConverged = true := by
  have noted : ∀ desired ∈ request.collections, CollectionIdle request.strict
      (store.noted (.get top.reference)).state top.reference desired := idle
  obtain ⟨planned, after, others, converged⟩ := planCollections_of_idle noted
  refine ⟨⟨request.schema, .update top [], planned⟩, after, ?_, rfl, ?_⟩
  · simp only [plan_again_eq settled, others]
  · simpa [Plan.isConverged] using converged

theorem plan_of_settledIn {store : MemoryStore} (settled : request.SettledIn store.state top)
    (lenient : request.strict = false) :
    ∃ plan after,
      (request.again top.reference).plan MemoryStore.remote store = (.ok plan, after) ∧
      plan.action = .update top [] ∧ plan.isConverged = true := by
  apply plan_of_idle settled
  intro desired member
  rw [lenient]
  exact (settled.collections desired member).idle

/-! ## Carrying nothing out -/

variable {σ : Type} (store : RemoteStore σ)

private theorem applyCollections_of_no_operations (parent : ResourceRef) {collections : List CollectionPlan}
    (idle : ∀ planned ∈ collections, planned.operations.operations = []) (report : PassReport)
    (state : PassState σ) : applyCollections store parent collections report state = (report, state) := by
  induction collections with
  | nil => rfl
  | cons planned rest ih =>
      have first : planned.schema.applyOperations store (.under parent planned.schema.kind)
          planned.operations state = (.empty, state) := by
        simp [Schema.applyOperations, idle planned List.mem_cons_self]
      have same : report.absorb .empty = report := by simp [PassReport.absorb, ApplyOutcome.empty]
      simp only [applyCollections, first, same]
      exact ih fun other member => idle other (List.mem_cons_of_mem _ member)

/-- A plan that is converged is carried out by reading the top-level object once more. -/
theorem carryOut_of_isConverged {plan : Plan} (action : plan.action = .update top [])
    (converged : plan.isConverged = true) (budget : Budget) (state : PassState σ) :
    request.carryOut store plan none budget state =
      finish store top.reference (.start plan.label) state := by
  have idle : ∀ planned ∈ plan.collections, planned.operations.operations = [] := by
    intro planned member
    have others := (Bool.and_eq_true_iff.mp converged).2
    exact OperationSet.operations_eq_nil_iff.mpr (List.all_eq_true.mp others planned member)
  simp [carryOut, action, applyTop, updateTop, Schema.applyChanges, awaitStep,
    applyCollections_of_no_operations store top.reference idle, PassReport.start]

/-- Where everything is as a request wants it, a pass reads and does nothing else. -/
theorem converge_of_settledIn {later : PassState MemoryStore}
    (settled : request.SettledIn later.store.state top) (lenient : request.strict = false)
    (unawaited : request.awaitAction = none) (intervals : WaitIntervals) :
    ∃ report last,
      (request.again top.reference).converge MemoryStore.remote intervals later = (.ok report, last) ∧
      report.applied = [] ∧ report.errors = [] ∧ report.completion = .notRequired ∧
      later.store.ReadSince last.store := by
  obtain ⟨plan, middle, planned, action, converged⟩ := plan_of_settledIn settled lenient
  have since : later.store.ReadSince
      ((request.again top.reference).plan MemoryStore.remote later.store).2 :=
    kept_of_plan (MemoryStore.pagesAgree_readSince later.store).toLooksAgree (.refl later.store)
  rw [planned] at since
  have stillStored : middle.state.find? top.reference = some top := by
    rw [since.state]
    exact settled.stored
  have quiet : (request.again top.reference).startWaiter MemoryStore.remote intervals plan middle =
      (.ok none, middle) := by
    simp [startWaiter, awaited?, again, unawaited, Plan.defaultAction?, action]
  have ended : finish MemoryStore.remote top.reference (.start plan.label)
        ⟨middle, later.log, later.clock⟩ =
      ({ PassReport.start plan.label with object := some top },
        ⟨middle.noted (.get top.reference), later.log, later.clock⟩) := by
    simp [finish, Schema.refetch, PassState.call, MemoryStore.remote, MemoryStore.get, stillStored]
  refine ⟨{ PassReport.start plan.label with object := some top },
    ⟨middle.noted (.get top.reference), later.log, later.clock⟩, ?_, rfl, rfl, rfl, since.noted rfl⟩
  simp only [converge, planned, quiet, carryOut_of_isConverged MemoryStore.remote action converged,
    ended]

/-- A pass without errors that is not strict is a fixpoint. The same request, made of the object
that it reached or created, is planned as converged, and passing again makes no write, leaves the
objects and the events alone and has nothing to report. -/
theorem converge_is_fixpoint (request : PassRequest) (intervals : WaitIntervals)
    (state after : PassState MemoryStore) (report : PassReport)
    (wellFormed : state.store.state.WellFormed) (catalog : request.FromCatalog)
    (lenient : request.strict = false) (unawaited : request.awaitAction = none)
    (ran : request.converge MemoryStore.remote intervals state = (.ok report, after))
    (clean : report.errors = []) :
    ∃ top, report.object = some top ∧ request.Addressed state.store.state top ∧
      ∀ (later : PassState MemoryStore) (laterIntervals : WaitIntervals),
        later.store.state = after.store.state →
        (∃ plan last, (request.again top.reference).plan MemoryStore.remote later.store =
          (.ok plan, last) ∧ plan.isConverged = true) ∧
        ∃ second last, (request.again top.reference).converge MemoryStore.remote laterIntervals later =
            (.ok second, last) ∧
          second.applied = [] ∧ second.errors = [] ∧ second.completion = .notRequired ∧
          later.store.ReadSince last.store := by
  obtain ⟨plan, top, isTop, pass⟩ := cleanPass_of_converge ran clean
  refine ⟨top, isTop, (pass.topWritten wellFormed).addressed, fun later laterIntervals same => ?_⟩
  have settled : request.SettledIn later.store.state top := by
    rw [same]
    exact pass.settledIn wellFormed catalog
  obtain ⟨again, last, planned, _, converged⟩ := plan_of_settledIn settled lenient
  exact ⟨⟨again, last, planned, converged⟩,
    converge_of_settledIn settled lenient unawaited laterIntervals⟩

theorem converge_is_fixpoint_ruleChange :
    ruleChange.2.store.state.WellFormed ∧ ruleChange.1.FromCatalog ∧
      ∃ report after second last,
        ruleChange.1.converge MemoryStore.remote .standard ruleChange.2 = (.ok report, after) ∧
        report.errors = [] ∧
        (ruleChange.1.again (.top "firewall" 1)).converge MemoryStore.remote .standard after =
          (.ok second, last) ∧
        second.applied = [] ∧ after.store.ReadSince last.store := by
  obtain ⟨top, isTop, _, again⟩ := converge_is_fixpoint ruleChange.1 .standard ruleChange.2 _ _
    wellFormed_ruleChange fromCatalog_ruleChange rfl rfl rfl rfl
  cases isTop
  obtain ⟨_, second, last, passed, applied, _, _, since⟩ := again _ .standard rfl
  exact ⟨wellFormed_ruleChange, fromCatalog_ruleChange, _, _, second, last, rfl, rfl, passed,
    applied, since⟩

end PassRequest

end DesiredState
