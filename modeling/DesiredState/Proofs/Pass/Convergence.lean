import DesiredState.Proofs.Pass.Clean

/-!
# What a pass without errors brings about

The top-level object and every requested collection are as the request wants them, and everything
else is as it was. What belonged to a deleted member went with it.
-/

set_option autoImplicit false

namespace DesiredState

open StoreState

/-- An object is the one that a desired entry means and holds what the entry wants. It was made from
the entry, or it is an old one that was changed in nothing but the payload of the entry. -/
structure Schema.Fulfilled (schema : Schema) (before : StoreState) (parent : ResourceRef)
    (entry : Attributes) (object : RemoteObject) : Prop where
  holds : schema.Holds entry object
  meant : ∃ descriptor, schema.descriptor entry = .ok descriptor ∧
    descriptor.matchesObject object = true ∧
    descriptor.Origin (.under parent schema.kind) before.nextId before.objects object

namespace PassRequest

/-- The top-level object is the one that a request names, in which nothing but desired attributes
that the schema knows were set, or one that was made from these if it was not there. -/
inductive Addressed (request : PassRequest) (before : StoreState) (top : RemoteObject) : Prop where
  | existing {old : RemoteObject} (target : request.target = .existing top.reference)
      (found : before.find? top.reference = some old)
      (untouched : ∀ key, request.desired.find? key = none ∨ request.schema.knows key = false →
        top.get? key = old.get? key)
  | new (absent : ∀ reference, request.target = .existing reference → before.find? reference = none)
      (made : top = newObject request.homeCollection (before.nextId + 1)
        (request.schema.createBody request.desired))

def kinds (request : PassRequest) : List String := request.collections.map (·.schema.kind)

/-- The objects are as a request wants them, and the others are as they were. -/
structure BroughtAbout (request : PassRequest) (before after : StoreState) (top : RemoteObject) :
    Prop where
  addressed : request.Addressed before top
  stored : after.find? top.reference = some top
  attributes : request.schema.Holds request.desired top
  collections : ∀ desired ∈ request.collections, ∃ objects,
    (after.members (.under top.reference desired.schema.kind)).Perm objects ∧
      List.Forall₂ (desired.schema.Fulfilled before top.reference) desired.entries objects
  others : after.objects.filter (fun object =>
      outside top.reference request.kinds object.reference) =
    before.objects.filter fun object => outside top.reference request.kinds object.reference &&
      !before.lost after top.reference request.kinds object.reference

variable {request : PassRequest} {before after : StoreState} {plan : Plan} {top : RemoteObject}

theorem TopWritten.addressed (written : request.TopWritten before top) :
    request.Addressed before top := by
  cases written with
  | made absent _ new => exact .new absent new
  | @kept old changes target found differs attributes =>
      refine .existing target found fun key idle => ?_
      have untouched : ∀ change ∈ changes, change.field ≠ key := by
        rintro change member rfl
        rcases idle with undesired | unknown
        · cases undesired.symm.trans (Schema.desired_of_change differs member)
        · obtain ⟨spec, known, _⟩ := (Schema.changeOf_of_mem differs member).known
          rw [Schema.knows, known] at unknown
          cases unknown
      rw [RemoteObject.get?, attributes,
        FieldChange.find?_applyAll_of_not_mem (Schema.sendable_of_diff differs).ascending _ untouched]
      rfl

namespace CleanPass

private theorem collection_fulfilled (pass : request.CleanPass before after plan top)
    (wellFormed : before.WellFormed) (catalog : request.FromCatalog) {desired : DesiredCollection}
    (member : desired ∈ request.collections) :
    ∃ objects, (after.members (.under top.reference desired.schema.kind)).Perm objects ∧
      List.Forall₂ (desired.schema.Fulfilled before top.reference) desired.entries objects := by
  have regular : desired.schema.Regular := Catalog.regular (catalog.collections desired member)
  obtain ⟨entries, pairs, accepted, matched, settled⟩ :=
    pass.collection_settled wellFormed catalog member
  refine ⟨pairs.map (·.remote), by simpa using matched.perm_observed, ?_⟩
  have described : List.Forall₂ (fun entry (pair : MatchedPair) =>
      desired.schema.descriptor entry = .ok pair.desired) desired.entries pairs := by
    have split := Schema.forall₂_of_descriptors accepted
    rwa [← matched.desired_of_no_create rfl, List.forall₂_map_right_iff] at split
  have fulfilled : ∀ pair ∈ pairs, ∀ entry, desired.schema.descriptor entry = .ok pair.desired →
      desired.schema.Fulfilled before top.reference entry pair.remote := by
    intro pair inPairs entry described
    obtain ⟨unchanged, origin⟩ := settled pair inPairs
    have known := matched.pairOf_mem inPairs
    have met : pair.desired.MetBy desired.schema pair.remote :=
      ⟨known.meant, unchanged ▸ known.differs⟩
    exact ⟨(regular.splitOf described).holds_of_metBy met, _, described, known.meant, origin⟩
  rw [List.forall₂_map_right_iff]
  refine (((List.forall₂_and_left _ _).mpr ⟨fulfilled, described.flip⟩).imp ?_).flip
  exact fun pair entry ⟨fulfils, describes⟩ => fulfils entry describes

private theorem others_kept (pass : request.CleanPass before after plan top)
    (wellFormed : before.WellFormed) :
    after.objects.filter (fun object => outside top.reference request.kinds object.reference) =
      before.objects.filter fun object => outside top.reference request.kinds object.reference &&
        !before.lost after top.reference request.kinds object.reference := by
  have kept := filter_outside_performedAll wellFormed.toNumbered pass.address
    (pass.within wellFormed) fun _ => pass.held_of_delete wellFormed
  rw [pass.kinds_eq, ← pass.objects.objects] at kept
  refine kept.trans (List.filter_congr fun object _ => ?_)
  rw [lost, removed, lost, removed]
  simp only [pass.objects.holds]
  rfl

end CleanPass

theorem wellFormed_ruleChange : ruleChange.2.store.state.WellFormed :=
  ⟨⟨by decide, by decide⟩, by decide, by decide, by decide⟩

theorem fromCatalog_ruleChange : ruleChange.1.FromCatalog := ⟨by decide, by decide, by decide⟩

/-- A pass without errors on a store in memory brings about what was asked for and touches nothing
else, whatever the state, the request and the rules for refusing writes. -/
theorem converge_brings_about (request : PassRequest) (intervals : WaitIntervals)
    (state after : PassState MemoryStore) (report : PassReport)
    (wellFormed : state.store.state.WellFormed) (catalog : request.FromCatalog)
    (ran : request.converge MemoryStore.remote intervals state = (.ok report, after))
    (clean : report.errors = []) :
    ∃ top, report.object = some top ∧
      request.BroughtAbout state.store.state after.store.state top := by
  obtain ⟨plan, top, isTop, pass⟩ := cleanPass_of_converge ran clean
  have written := pass.topWritten wellFormed
  have settled := written.settled (Catalog.regular catalog.schema) request.schema.mutabilityPolicy
  refine ⟨top, isTop, ?_⟩
  exact {
    addressed := written.addressed
    stored := pass.read
    attributes := Schema.holds_of_diff settled
    collections := fun desired member => pass.collection_fulfilled wellFormed catalog member
    others := pass.others_kept wellFormed }

theorem converge_brings_about_ruleChange :
    ruleChange.2.store.state.WellFormed ∧ ruleChange.1.FromCatalog ∧
      ∃ report after top,
        ruleChange.1.converge MemoryStore.remote .standard ruleChange.2 = (.ok report, after) ∧
        report.errors = [] ∧
        ruleChange.1.BroughtAbout ruleChange.2.store.state after.store.state top := by
  obtain ⟨top, _, broughtAbout⟩ := converge_brings_about ruleChange.1 .standard ruleChange.2 _ _
    wellFormed_ruleChange fromCatalog_ruleChange rfl rfl
  exact ⟨wellFormed_ruleChange, fromCatalog_ruleChange, _, _, top, rfl, rfl, broughtAbout⟩

end PassRequest

end DesiredState
