import DesiredState.Pass.Preview
import DesiredState.Proofs.Json.Injective
import DesiredState.Proofs.LineDiff.Unified
import DesiredState.Proofs.Pass.Aside

/-!
# What a preview foretells

The two sides of a preview are attribute sets, and different sets are shown in different lines. On a store
in memory the first is what the top-level object has, and along the pass of that plan the object has the
first until its update is accepted and the second ever after. The preview is empty exactly if the plan
changes none of the attributes.
-/

set_option autoImplicit false

namespace DesiredState

open StoreState

/-! ## Empty previews -/

/-- Changes that a difference found change something. -/
theorem Schema.applyAll_ne_of_diff {schema : Schema} {remote : RemoteObject} {desired : Attributes}
    {policy : MutabilityPolicy} {changes : List FieldChange}
    (differs : schema.diff remote desired policy = .ok changes) (pending : changes ≠ []) :
    FieldChange.applyAll changes remote.attributes ≠ remote.attributes := by
  obtain ⟨change, rest, rfl⟩ := List.exists_cons_of_ne_nil pending
  intro same
  have written := FieldChange.find?_applyAll_of_mem (sendable_of_diff differs).ascending remote.attributes
    List.mem_cons_self
  rw [same] at written
  have disagrees := (changeOf_of_mem differs List.mem_cons_self).differs
  rw [RemoteObject.getD, RemoteObject.get?, written, Option.getD_some, Value.agrees_self] at disagrees
  cases disagrees

namespace Plan

/-- Different attributes are shown in different lines. -/
theorem eq_of_shownLines {first second : Attributes} (same : shownLines first = shownLines second) :
    first = second := by
  have sameValue := Value.pretty_inj (LineDiff.eq_of_linesOf same)
  rw [Value.ofAttributes, Value.ofAttributes, Value.object.injEq] at sameValue
  cases first
  cases second
  cases sameValue
  rfl

/-- What a preview shows, unless an object that is there needs no changes. -/
theorem unifiedDiff_eq {plan : Plan} (pending : ∀ remote, plan.action ≠ .update remote []) :
    plan.unifiedDiff = LineDiff.unified plan.oldName plan.newName (shownLines plan.attributesBefore)
      (shownLines plan.attributesAfter) := by
  unfold unifiedDiff
  split
  case h_1 remote action => exact absurd action (pending remote)
  case h_2 => rfl

private theorem unifiedDiff_eq_empty {plan : Plan} (pending : ∀ remote, plan.action ≠ .update remote []) :
    plan.unifiedDiff = "" ↔ plan.attributesBefore = plan.attributesAfter := by
  rw [unifiedDiff_eq pending, LineDiff.unified_eq_empty_iff]
  exact ⟨eq_of_shownLines, congrArg shownLines⟩

/-- The top-level object is there and is not changed, or is created without attributes. -/
def ChangesNoAttribute (plan : Plan) : Prop :=
  (∃ remote, plan.action = .update remote []) ∨ plan.action = .create ∅

end Plan

namespace PassRequest

variable {σ : Type} {request : PassRequest} {plan : Plan}

/-- An update is planned of what a difference found. -/
theorem diff_of_plan {store : RemoteStore σ} {state : σ} (planned : (request.plan store state).1 = .ok plan)
    {remote : RemoteObject} {changes : List FieldChange} (action : plan.action = .update remote changes) :
    request.schema.diff remote request.desired request.schema.mutabilityPolicy = .ok changes := by
  rcases made : request.plan store state with ⟨answer, last⟩
  rw [made] at planned
  cases planned
  obtain ⟨_, _, acted⟩ := (planned_of_plan (shows_anything store) trivial made).1.action
  rw [action] at acted
  exact (diff_of_action acted).2

/-- The preview of a plan is empty exactly if the plan changes no attribute. -/
theorem unifiedDiff_eq_empty_iff {store : RemoteStore σ} {state : σ}
    (planned : (request.plan store state).1 = .ok plan) :
    plan.unifiedDiff = "" ↔ plan.ChangesNoAttribute := by
  unfold Plan.ChangesNoAttribute
  cases action : plan.action with
  | create payload =>
      rw [Plan.unifiedDiff_eq_empty (by simp [action]), Plan.attributesBefore, Plan.attributesAfter, action]
      simp [eq_comm]
  | update remote changes =>
      by_cases idle : changes = []
      · rw [Plan.unifiedDiff, action, idle]
        simp
      · have changed := Schema.applyAll_ne_of_diff (diff_of_plan planned action) idle
        rw [Plan.unifiedDiff_eq_empty (by simp [action, idle]), Plan.attributesBefore, Plan.attributesAfter,
          action]
        simp [idle, changed.symm]

end PassRequest

/-! ## The object along a pass -/

/-- An update of the object was accepted. -/
def UpdatedIn (exchanges : List Exchange) (reference : ResourceRef) : Prop :=
  ∃ fields written, .update reference fields (.ok written) ∈ exchanges

private theorem updatedIn_iff {exchanges : List Exchange} {reference : ResourceRef} :
    UpdatedIn exchanges reference ↔ ∃ fields, .update reference fields ∈ acceptedWritesOf exchanges := by
  constructor
  · rintro ⟨fields, written, member⟩
    exact ⟨fields, List.mem_filterMap.mpr ⟨_, List.mem_filter.mpr ⟨member, rfl⟩, rfl⟩⟩
  · rintro ⟨fields, member⟩
    obtain ⟨exchange, accepted, isUpdate⟩ := List.mem_filterMap.mp member
    obtain ⟨inRecord, isAccepted⟩ := List.mem_filter.mp accepted
    obtain ⟨answer, rfl⟩ : ∃ answer, exchange = .update reference fields answer := by
      cases exchange <;> cases isUpdate
      exact ⟨_, rfl⟩
    cases answer with
    | ok written => exact ⟨fields, written, inRecord⟩
    | error error => cases isAccepted

/-- After some exchanges an object is what a plan shows before its changes, or after them if an update of the
object was accepted. -/
structure Plan.Foretold (plan : Plan) (reference : ResourceRef) (exchanges : List Exchange)
    (found : Option RemoteObject) : Prop where
  unchanged : ¬UpdatedIn exchanges reference → found = some ⟨reference, plan.attributesBefore⟩
  changed : UpdatedIn exchanges reference → found = some ⟨reference, plan.attributesAfter⟩

/-- Whenever the object is read in a record, and in the state that the record ends with, it is as foretold.
Nothing but a refused write keeps its update from being accepted. -/
structure Plan.Foretells (plan : Plan) (reference : ResourceRef) (exchanges : List Exchange)
    (last : StoreState) : Prop where
  read : ∀ earlier answer later, exchanges = earlier ++ .get reference answer :: later →
    ∃ found, answer = .ok found ∧ plan.Foretold reference earlier found
  left : plan.Foretold reference exchanges (last.find? reference)
  accepted : NoneRefused exchanges → UpdatedIn exchanges reference

namespace PassRequest

variable {request : PassRequest} {plan : Plan} {remote : RemoteObject} {changes : List FieldChange}
  {before after : MemoryStore}

private theorem Passed.foretold {exchanges : List Exchange}
    (passed : request.Passed before after plan exchanges)
    (action : plan.action = .update remote changes) {earlier later : List Exchange}
    (split : exchanges = earlier ++ later) :
    plan.Foretold remote.reference earlier
      ((before.state.performedAll (acceptedWritesOf earlier)).find? remote.reference) := by
  obtain ⟨_, found, differs⟩ := passed.planned.found_of_update action
  have within := passed.planned.withinParent request.homeCollection
  have accepted := passed.accepted_sublist
  rw [split, acceptedWritesOf_append, Plan.writes] at accepted
  rw [action] at within accepted
  have top := find?_performedAll_top (Schema.sendable_of_diff differs).ascending within found
    ((List.sublist_append_left _ _).trans accepted)
  rw [← not_exists, ← updatedIn_iff] at top
  rcases top with ⟨notYet, isThere⟩ | ⟨updated, isThere⟩
  · refine ⟨fun _ => ?_, fun updated => absurd updated notYet⟩
    rw [isThere, Plan.attributesBefore, action]
  · refine ⟨fun notYet => absurd updated notYet, fun _ => ?_⟩
    rw [isThere, Plan.attributesAfter, action]

private theorem Passed.foretells {exchanges : List Exchange}
    (passed : request.Passed before after plan exchanges)
    (action : plan.action = .update remote changes) (pending : changes ≠ []) :
    plan.Foretells remote.reference exchanges after.state where
  read _ _ _ split := ⟨_, passed.explained.answers _ _ _ split, passed.foretold action split⟩
  left := by
    rw [passed.explained.objects.find?]
    exact passed.foretold action (List.append_nil exchanges).symm
  accepted := by
    intro none
    obtain ⟨change, rest, rfl⟩ := List.exists_cons_of_ne_nil pending
    rw [updatedIn_iff, acceptedWritesOf_of_noneRefused none, passed.sent.complete none, Plan.writes, action]
    exact ⟨_, List.mem_append_left _ (List.mem_singleton_self _)⟩

/-- A preview of changes to an object in memory shows what the object is and what the pass makes of it. Any
preview is empty exactly if the plan changes no attribute. -/
theorem preview_foretells (request : PassRequest) :
    (∀ (state : PassState MemoryStore) (plan : Plan) (looked : MemoryStore) (remote : RemoteObject)
        (changes : List FieldChange),
      request.plan MemoryStore.remote state.store = (.ok plan, looked) →
      plan.action = .update remote changes → changes ≠ [] →
      plan.unifiedDiff = LineDiff.unified plan.oldName plan.newName
          (Plan.shownLines plan.attributesBefore) (Plan.shownLines plan.attributesAfter) ∧
        state.store.state.find? remote.reference = some ⟨remote.reference, plan.attributesBefore⟩ ∧
        ∀ intervals, ∃ report after exchanges,
          request.converge MemoryStore.remote intervals state = (.ok report, after) ∧
          request.converge MemoryStore.remote.recorded intervals
              ⟨⟨state.store, []⟩, state.log, state.clock⟩ =
            (.ok report, ⟨⟨after.store, exchanges⟩, after.log, after.clock⟩) ∧
          plan.Foretells remote.reference exchanges after.store.state) ∧
    ∀ {σ : Type} (store : RemoteStore σ) (state : σ) (plan : Plan),
      (request.plan store state).1 = .ok plan → (plan.unifiedDiff = "" ↔ plan.ChangesNoAttribute) := by
  refine ⟨?_, fun _ _ _ planned => unifiedDiff_eq_empty_iff planned⟩
  intro state plan looked remote changes planned action pending
  have isPlan : (request.plan MemoryStore.remote state.store).1 = .ok plan := congrArg Prod.fst planned
  obtain ⟨_, found, _⟩ := (planned_of_plan_memory isPlan).found_of_update action
  refine ⟨?_, ?_, fun intervals => ?_⟩
  · refine Plan.unifiedDiff_eq fun other idle => pending ?_
    cases action.symm.trans idle
    rfl
  · rw [found, Plan.attributesBefore, action]
  · obtain ⟨report, after, ran⟩ := converge_of_plan planned intervals
    obtain ⟨again, exchanges, samePlan, recorded, _, passed⟩ := converge_passed ran
    cases isPlan.symm.trans samePlan
    exact ⟨report, after, exchanges, ran, recorded, passed.foretells action pending⟩

/-- The change of rules together with a new label of the firewall, without a wait. -/
def relabelledRuleChange : PassRequest :=
  { ruleChange.1 with desired := (∅ : Attributes).insert "label" (.string "border"), wait := .noWait }

theorem preview_foretells_relabelledRuleChange :
    ∃ plan looked report after,
      relabelledRuleChange.plan MemoryStore.remote ruleChange.2.store = (.ok plan, looked) ∧
      plan.unifiedDiff ≠ "" ∧
      relabelledRuleChange.converge MemoryStore.remote .standard ruleChange.2 = (.ok report, after) ∧
      after.store.state.find? (.top "firewall" 1) = some ⟨.top "firewall" 1, plan.attributesAfter⟩ ∧
      plan.attributesAfter = (∅ : Attributes).insert "label" (.string "border") := by
  obtain ⟨updates, empty⟩ := preview_foretells relabelledRuleChange
  obtain ⟨_, _, passes⟩ := updates ruleChange.2 _ _ _ _ rfl rfl (List.cons_ne_nil _ _)
  obtain ⟨report, after, exchanges, ran, recorded, foretold⟩ := passes .standard
  have sent : (relabelledRuleChange.converge MemoryStore.remote.recorded .standard
      ⟨⟨ruleChange.2.store, []⟩, [], 0⟩).2.store.exchanges = exchanges :=
    congrArg (fun result => result.2.store.exchanges) recorded
  have noneRefused : NoneRefused exchanges := by
    rw [← sent]
    unfold NoneRefused
    decide +kernel
  refine ⟨_, _, report, after, rfl, ?_, ran, foretold.left.changed (foretold.accepted noneRefused), rfl⟩
  rw [ne_eq, empty MemoryStore.remote ruleChange.2.store _ rfl]
  simp [Plan.ChangesNoAttribute]

end PassRequest

end DesiredState
