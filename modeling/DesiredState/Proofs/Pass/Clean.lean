import DesiredState.Proofs.Pass.Sent
import DesiredState.Proofs.Pass.Settled

/-!
# Passes without errors on a store in memory

A report without errors determines what the objects of the store have become: those of the
beginning after the writes of the plan. From there on the top-level object and every collection
are followed to the state in which they need nothing more.
-/

set_option autoImplicit false

namespace DesiredState

open StoreState

/-- The objects once the top-level object of a plan is written. -/
def Plan.topWritten (plan : Plan) (home : Collection) (state : StoreState) : StoreState :=
  state.performedAll (plan.action.writes home)

namespace PassRequest

/-- What a pass without errors has done to the objects of a store in memory. -/
structure CleanPass (request : PassRequest) (before after : StoreState) (plan : Plan)
    (top : RemoteObject) : Prop where
  planned : request.Planned before.Finds before.Lists plan
  address : plan.action.address request.homeCollection before.nextId = top.reference
  objects : after.SameObjects
    (before.performedAll (plan.writes request.homeCollection top.reference))
  read : after.find? top.reference = some top

variable {request : PassRequest}

theorem cleanPass_of_converge {intervals : WaitIntervals} {state after : PassState MemoryStore}
    {report : PassReport}
    (ran : request.converge MemoryStore.remote intervals state = (.ok report, after))
    (clean : report.errors = []) :
    ∃ plan top, report.object = some top ∧
      request.CleanPass state.store.state after.store.state plan top := by
  obtain ⟨plan, exchanges, _, _, accounted, passed⟩ := converge_passed ran
  obtain ⟨parent, top, earlier, split, writes, reaches, isTop⟩ := accounted.clean clean
  have noneRefused : NoneRefused exchanges := accounted.stretch.refusals clean
  have explained := passed.explained
  -- The last read came after all writes, so what it found is there in the end.
  have lastAnswer := explained.answers earlier (.get parent (.ok (some top))) [] split
  have found : some top =
      (state.store.state.performedAll (acceptedWritesOf earlier)).find? parent :=
    Except.ok.inj lastAnswer
  have sameWrites : acceptedWritesOf earlier = plan.writes request.homeCollection parent := by
    have noneEarlier : NoneRefused earlier := (NoneRefused.of_append (split ▸ noneRefused)).1
    rw [acceptedWritesOf_of_noneRefused noneEarlier, ← writes, split, writesOf_append]
    exact (List.append_nil _).symm
  rw [sameWrites] at found
  obtain ⟨_, rfl⟩ := mem_of_find? found.symm
  have objects : after.store.state.SameObjects
      (state.store.state.performedAll (plan.writes request.homeCollection top.reference)) := by
    have explains := explained.objects
    rwa [acceptedWritesOf_of_noneRefused noneRefused, writes] at explains
  have address := (ResourceAction.GoesOnAt.reached reaches).address_eq explained
  exact ⟨plan, top, isTop, passed.planned, address, objects, (objects.find? _).trans found.symm⟩

/-! ## From the plan to the end -/

/-- The schemas of a request are those of the catalog, and its collections are distinct. -/
structure FromCatalog (request : PassRequest) : Prop where
  schema : request.schema ∈ Catalog.all
  collections : ∀ desired ∈ request.collections, desired.schema ∈ Catalog.all
  kinds_nodup : (request.collections.map (·.schema.kind)).Nodup

/-- How the plan of a collection was matched with its members, which are old objects. -/
structure CollectionMatched (before middle : StoreState) (parent : ResourceRef)
    (desired : DesiredCollection) (planned : CollectionPlan) : Prop where
  schema : planned.schema = desired.schema
  old : middle.members (.under parent desired.schema.kind) ⊆ before.objects
  matched : ∃ entries, desired.schema.descriptors desired.entries = .ok entries ∧
    desired.schema.Matched entries (middle.members (.under parent desired.schema.kind))
      planned.operations

theorem withinParent_of_matched {before middle : StoreState} {parent : ResourceRef}
    {collections : List DesiredCollection} {planned : List CollectionPlan}
    (aligned : List.Forall₂ (CollectionMatched before middle parent) collections planned) :
    WithinParent parent planned := by
  intro each member
  obtain ⟨desired, _, schema, _, entries, _, matched⟩ := exists_of_forall₂_right aligned member
  rw [CollectionPlan.writes, schema]
  exact within_of_matched matched

/-- What a pass has made of its top-level object. -/
inductive TopWritten (request : PassRequest) (before : StoreState) (top : RemoteObject) : Prop where
  | made (absent : ∀ reference, request.target = .existing reference → before.find? reference = none)
      (valid : request.schema.validate request.desired = .ok ())
      (new : top = newObject request.homeCollection (before.nextId + 1)
        (request.schema.createBody request.desired))
  | kept {old : RemoteObject} {changes : List FieldChange}
      (target : request.target = .existing top.reference)
      (found : before.find? top.reference = some old)
      (differs : request.schema.diff old request.desired request.schema.mutabilityPolicy = .ok changes)
      (attributes : top.attributes = FieldChange.applyAll changes old.attributes)

namespace CleanPass

variable {before after : StoreState} {plan : Plan} {top : RemoteObject}

private theorem sameObjects (pass : request.CleanPass before after plan top) :
    after.SameObjects ((plan.topWritten request.homeCollection before).performedAll
      (plan.collections.flatMap (CollectionPlan.writes top.reference))) := by
  have objects := pass.objects
  rwa [Plan.writes, performedAll_append] at objects

private theorem collections_matched (pass : request.CleanPass before after plan top)
    (wellFormed : before.WellFormed) :
    List.Forall₂
      (CollectionMatched before (plan.topWritten request.homeCollection before) top.reference)
      request.collections plan.collections := by
  refine pass.planned.collections.imp fun desired planned each => ?_
  obtain ⟨schema, entries, objects, split, observed, matched⟩ := each
  have members : objects = (plan.topWritten request.homeCollection before).members
      (.under top.reference desired.schema.kind) ∧ objects ⊆ before.objects := by
    have address := pass.address
    unfold Plan.topWritten
    cases action : plan.action with
    | create payload =>
        rw [action] at observed address
        obtain rfl : objects = [] := observed
        rw [← address]
        exact ⟨(members_performed_create wellFormed request.homeCollection payload _).symm,
          List.nil_subset _⟩
    | update remote changes =>
        rw [action] at observed address
        obtain rfl : objects = before.members (.under remote.reference _) := observed
        have same : remote.reference = top.reference := address
        refine ⟨?_, List.filter_sublist.subset⟩
        rw [← same]
        cases changes with
        | nil => rfl
        | cons change rest => exact (members_performed_update _ _).symm
  obtain ⟨rfl, old⟩ := members
  exact ⟨schema, old, entries, split, Schema.matched_of_matchEntries matched⟩

theorem kinds_eq (pass : request.CleanPass before after plan top) :
    plan.kinds = request.collections.map (·.schema.kind) :=
  pass.planned.kinds_eq

theorem within (pass : request.CleanPass before after plan top) (wellFormed : before.WellFormed) :
    WithinParent top.reference plan.collections :=
  withinParent_of_matched (pass.collections_matched wellFormed)

theorem held_of_delete (pass : request.CleanPass before after plan top)
    (wellFormed : before.WellFormed) {target : ResourceRef}
    (deleted : .delete target ∈ plan.writes request.homeCollection top.reference) :
    before.holds target = true := by
  obtain ⟨planned, inPlan, inWrites⟩ := exists_collection_of_delete deleted
  obtain ⟨desired, _, schema, old, entries, _, matched⟩ :=
    exists_of_forall₂_right (pass.collections_matched wellFormed) inPlan
  obtain ⟨remote, inDeletes, rfl⟩ := OperationSet.mem_toDelete_of_delete inWrites
  exact holds_iff.mpr (List.mem_map_of_mem (old (matched.toDelete_sublist.subset inDeletes)))

private theorem find?_top (pass : request.CleanPass before after plan top)
    (wellFormed : before.WellFormed) :
    (plan.topWritten request.homeCollection before).find? top.reference = some top := by
  rw [← find?_performedAll_of_within (pass.within wellFormed).exists_kind,
    ← pass.sameObjects.find?, pass.read]

theorem topWritten (pass : request.CleanPass before after plan top)
    (wellFormed : before.WellFormed) : request.TopWritten before top := by
  have address := pass.address
  have found := pass.find?_top wellFormed
  unfold Plan.topWritten at found
  cases action : plan.action with
  | create payload =>
      obtain ⟨remote, fetched, acted⟩ := pass.planned.action
      rw [action] at acted address found
      obtain ⟨rfl, valid, rfl⟩ := validate_of_action acted
      rw [← address] at found
      have new := find?_performed_create wellFormed.toNumbered request.homeCollection
        (request.schema.createBody request.desired)
      refine .made (fun reference target => ?_) valid (Option.some.inj (found.symm.trans new))
      rw [target] at fetched
      exact fetched.symm
  | update old changes =>
      obtain ⟨target, inStore, differs⟩ := pass.planned.found_of_update action
      rw [action] at address found
      have same : old.reference = top.reference := address
      rw [same] at inStore target
      refine .kept target inStore differs ?_
      cases changes with
      | nil =>
          cases inStore.symm.trans found
          rfl
      | cons change rest =>
          rw [ResourceAction.writes, same] at found
          have written := find?_performed_update inStore
            (FieldChange.applyAll (change :: rest) ∅)
          rw [Option.some.inj (found.symm.trans written)]
          exact FieldChange.insertAll_applyAll_empty (Schema.sendable_of_diff differs).ascending _

theorem collection_settled (pass : request.CleanPass before after plan top)
    (wellFormed : before.WellFormed) (catalog : request.FromCatalog) {desired : DesiredCollection}
    (member : desired ∈ request.collections) :
    ∃ entries pairs, desired.schema.descriptors desired.entries = .ok entries ∧
      desired.schema.Matched entries (after.members (.under top.reference desired.schema.kind))
        ⟨[], pairs, []⟩ ∧
      ∀ pair ∈ pairs, pair.changes = [] ∧
        pair.desired.Origin (.under top.reference desired.schema.kind) before.nextId before.objects
          pair.remote := by
  obtain ⟨planned, inPlan, schema, old, entries, accepted, matched⟩ :=
    exists_of_forall₂_right (pass.collections_matched wellFormed).flip member
  have numbered : (plan.topWritten request.homeCollection before).Numbered :=
    wellFormed.performedAll _
  have distinct : (plan.collections.map (·.schema.kind)).Nodup := by
    rw [show plan.collections.map (·.schema.kind) = plan.kinds from rfl, pass.kinds_eq]
    exact catalog.kinds_nodup
  rw [← schema] at matched accepted old ⊢
  obtain ⟨made, effect, fresh⟩ := members_performedAll_collections numbered
    (pass.within wellFormed) distinct inPlan matched
  rw [← pass.sameObjects.members] at effect
  have regular : planned.schema.Regular :=
    Catalog.regular (schema ▸ catalog.collections desired member)
  obtain ⟨pairs, settled, origins⟩ :=
    matched.settled (numbered.members_nodup _) regular (regular.split accepted) fresh
  refine ⟨entries, pairs, accepted, effect ▸ settled, fun pair inPairs => ?_⟩
  obtain ⟨unchanged, origin⟩ := origins pair inPairs
  exact ⟨unchanged, origin.mono (nextId_le_performedAll before _) old⟩

end CleanPass

theorem TopWritten.settled {before : StoreState} {top : RemoteObject}
    (written : request.TopWritten before top) (regular : request.schema.Regular)
    (policy : MutabilityPolicy) : request.schema.diff top request.desired policy = .ok [] := by
  cases written with
  | made _ valid new =>
      rw [new]
      exact regular.diff_newObject_createBody valid _ _ policy
  | kept _ _ differs attributes => exact Schema.diff_applyAll differs attributes policy

end PassRequest

end DesiredState
