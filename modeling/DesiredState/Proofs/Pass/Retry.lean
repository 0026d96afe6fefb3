import DesiredState.Proofs.Pass.Fixpoint
import DesiredState.Proofs.Pass.Possible
import DesiredState.Proofs.Store.Order

/-!
# Passing again after failures

Failures do not roll back: a pass may leave any of its writes undone. Whatever was done, the objects are
well-formed, and the top-level object is as it was found or as it should be. So the same request can be
planned again, nothing keeps its writes from being accepted, and then nothing is left to do.
-/

set_option autoImplicit false

namespace DesiredState

open StoreState

namespace PassRequest

variable {request : PassRequest} {before after : MemoryStore} {plan : Plan} {exchanges : List Exchange}
  {old : RemoteObject} {changes : List FieldChange}

/-- After a pass the top-level object is as it was found, or with all its changes made. -/
theorem Passed.find?_top (passed : request.Passed before after plan exchanges)
    (action : plan.action = .update old changes) :
    after.state.find? old.reference = some old ∨ after.state.find? old.reference =
      some ⟨old.reference, FieldChange.applyAll changes old.attributes⟩ := by
  obtain ⟨_, found, differs⟩ := passed.planned.found_of_update action
  have accepted := passed.accepted_sublist
  rw [Plan.writes, action, ResourceAction.address] at accepted
  rw [passed.explained.objects.find?]
  exact (find?_performedAll_top (Schema.sendable_of_diff differs).ascending
    (withinParent_of_matched (passed.planned.collections_matched action)) found accepted).imp And.right And.right

/-- Where the object of a request is there, its plan is an update of it. -/
theorem Planned.update_of_held {state : StoreState}
    (planned : request.Planned state.Finds state.Lists plan) {reference : ResourceRef}
    (target : request.target = .existing reference) (held : state.holds reference = true) :
    ∃ old changes, plan.action = .update old changes ∧ state.find? reference = some old ∧
      request.schema.diff old request.desired request.schema.mutabilityPolicy = .ok changes := by
  cases action : plan.action with
  | create payload =>
      obtain ⟨found, fetched, acted⟩ := planned.action
      rw [action] at acted
      obtain ⟨rfl, _, _⟩ := validate_of_action acted
      rw [target] at fetched
      have absent : none = state.find? reference := fetched
      rw [holds, ← absent] at held
      cases held
  | update old changes =>
      obtain ⟨sameTarget, found, differs⟩ := planned.found_of_update action
      cases sameTarget.symm.trans target
      exact ⟨old, changes, rfl, found, differs⟩

/-- After a pass of any outcome the request can be planned again. -/
theorem Passed.plan_again (passed : request.Passed before after plan exchanges)
    (catalog : request.FromCatalog) (lenient : request.strict = false) {reference : ResourceRef}
    (target : request.target = .existing reference) (held : before.state.holds reference = true)
    {store : MemoryStore} (same : store.state = after.state) :
    ∃ next looked top rest, request.plan MemoryStore.remote store = (.ok next, looked) ∧
      next.action = .update top rest ∧ top.reference = reference ∧
      store.state.holds reference = true := by
  obtain ⟨old, changes, action, found, differs⟩ := passed.planned.update_of_held target held
  obtain ⟨_, rfl⟩ := mem_of_find? found
  have described : ∀ desired ∈ request.collections, ∃ entries,
      desired.schema.descriptors desired.entries = .ok entries := by
    intro desired member
    obtain ⟨_, _, _, entries, _, described, _⟩ :=
      exists_of_forall₂_right passed.planned.collections.flip member
    exact ⟨entries, described⟩
  -- Either way the object that is there now can be compared with the desired one.
  have compared : ∃ top rest, store.state.find? old.reference = some top ∧
      request.schema.diff top request.desired request.schema.mutabilityPolicy = .ok rest := by
    rw [same]
    rcases passed.find?_top action with unchanged | written
    · exact ⟨old, changes, unchanged, differs⟩
    · exact ⟨_, [], written, Schema.diff_applyAll differs rfl _⟩
  obtain ⟨top, rest, isThere, remaining⟩ := compared
  obtain ⟨next, looked, planned, nextAction⟩ :=
    plan_total catalog passed.planned.native lenient target described isThere remaining
  refine ⟨next, looked, top, rest, planned, nextAction, (mem_of_find? isThere).2, ?_⟩
  rw [holds, isThere]
  rfl

/-- A pass that does not wait can be retried after any failures. Once the rules that refused writes are
gone, the same request passes without an error, and its plan is then converged. -/
theorem converge_can_be_retried (request : PassRequest) (intervals : WaitIntervals)
    (state after : PassState MemoryStore) (report : PassReport) (reference : ResourceRef)
    (wellFormed : state.store.state.WellFormed) (catalog : request.FromCatalog)
    (lenient : request.strict = false) (noWait : request.wait = .noWait)
    (target : request.target = .existing reference)
    (held : state.store.state.holds reference = true)
    (ran : request.converge MemoryStore.remote intervals state = (.ok report, after)) :
    ∀ (laterIntervals : WaitIntervals) (log : List String) (clock : Nat),
      ∃ second last,
        request.converge MemoryStore.remote laterIntervals ⟨after.store.clearFailures, log, clock⟩ =
          (.ok second, last) ∧ second.errors = [] ∧
        ∃ plan looked, request.plan MemoryStore.remote last.store = (.ok plan, looked) ∧
          plan.isConverged = true := by
  intro laterIntervals log clock
  obtain ⟨plan, exchanges, _, _, _, passed⟩ := converge_passed ran
  have stillWellFormed : after.store.state.WellFormed :=
    kept_of_converge MemoryStore.callsAgree_wellFormed ran wellFormed
  let later : PassState MemoryStore := ⟨after.store.clearFailures, log, clock⟩
  have same : later.store.state = after.store.state := rfl
  obtain ⟨next, looked, top, rest, planned, action, rfl, stillHeld⟩ :=
    passed.plan_again catalog lenient target held same
  have follows := planned_of_plan_memory (congrArg Prod.fst planned)
  have unopposed : later.store.Unopposed later.store.state := ⟨rfl, .refl _⟩
  obtain ⟨second, last, ranAgain, clean⟩ := converge_unopposed planned unopposed noWait action
    stillHeld (withinParent_of_matched (follows.collections_matched action))
    (follows.allowsAll stillWellFormed.toNumbered catalog action stillHeld) laterIntervals
  obtain ⟨_, reached, _, pass⟩ := cleanPass_of_converge ranAgain clean
  have again : request.again reached.reference = request := by
    have sameTarget : request.target = .existing reached.reference := by
      cases (pass.topWritten stillWellFormed).addressed with
      | existing sameTarget _ _ => exact sameTarget
      | new absent _ =>
          have gone := absent top.reference target
          rw [holds, gone] at stillHeld
          cases stillHeld
    rw [PassRequest.again, ← sameTarget]
  obtain ⟨final, lastLooked, plannedLast, _, converged⟩ :=
    plan_of_settledIn (pass.settledIn stillWellFormed catalog) lenient
  rw [again] at plannedLast
  exact ⟨second, last, ranAgain, clean, final, lastLooked, plannedLast, converged⟩

/-- A change of rules that does not wait, on a store that refuses to delete and to update rules. -/
def refusedRuleChange : PassRequest × PassState MemoryStore :=
  ({ ruleChange.1 with wait := .noWait },
    { ruleChange.2 with
      store := { ruleChange.2.store with
        failures := [.of .delete "firewall_rule", .of .update "firewall_rule"] } })

theorem converge_can_be_retried_refusedRuleChange :
    refusedRuleChange.2.store.state.WellFormed ∧ refusedRuleChange.1.FromCatalog ∧
      ∃ report after second last plan looked,
        refusedRuleChange.1.converge MemoryStore.remote .standard refusedRuleChange.2 =
          (.ok report, after) ∧ report.errors.length = 2 ∧
        refusedRuleChange.1.converge MemoryStore.remote .standard
          ⟨after.store.clearFailures, [], 0⟩ = (.ok second, last) ∧ second.errors = [] ∧
        refusedRuleChange.1.plan MemoryStore.remote last.store = (.ok plan, looked) ∧
        plan.isConverged = true := by
  have catalog : refusedRuleChange.1.FromCatalog := ⟨by decide, by decide, by decide⟩
  obtain ⟨second, last, ran, clean, plan, looked, planned, converged⟩ := converge_can_be_retried
    refusedRuleChange.1 .standard refusedRuleChange.2 _ _ (.top "firewall" 1) wellFormed_ruleChange
    catalog rfl rfl rfl rfl rfl .standard [] 0
  exact ⟨wellFormed_ruleChange, catalog, _, _, second, last, plan, looked, rfl, rfl, ran, clean, planned,
    converged⟩

end PassRequest

end DesiredState
