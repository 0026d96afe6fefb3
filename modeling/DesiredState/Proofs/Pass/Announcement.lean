import Mathlib.Algebra.GroupWithZero.Nat
import DesiredState.Command.Output
import DesiredState.Proofs.Pass.Sent

/-!
# What a plan announces

A plan announces the calls that carry it out: one or none for the top-level object, and then, collection
by collection, deletes, creates and updates. A pass makes these very calls unless one of them is
refused, the counts of a plan are the numbers of its calls, and every call has its row where the plan is
shown.
-/

set_option autoImplicit false

namespace DesiredState

namespace ResourceAction

/-- Whether the top-level object is written at all. -/
def acts : ResourceAction → Bool
  | .create _ => true
  | .update _ changes => !changes.isEmpty

def announced (home : Collection) : ResourceAction → List StoreCall
  | .create payload => [.create home payload]
  | .update remote changes =>
      if changes.isEmpty then [] else [.update remote.reference (changes.map (·.field))]

end ResourceAction

def CollectionPlan.announced (parent : ResourceRef) (planned : CollectionPlan) : List StoreCall :=
  (planned.operations.toDelete.map fun remote => .delete remote.reference) ++
    (planned.operations.toCreate.map fun desired =>
      .create (.under parent planned.schema.kind) desired.createPayload) ++
    planned.operations.pendingUpdates.map fun pair =>
      .update pair.remote.reference (pair.changes.map (·.field))

namespace Plan

/-- The calls that carry a plan out, in their order. -/
def announced (plan : Plan) (home : Collection) (parent : ResourceRef) : List StoreCall :=
  plan.action.announced home ++ plan.collections.flatMap (CollectionPlan.announced parent)

def requestCount (plan : Plan) : Nat :=
  (if plan.action.acts then 1 else 0) + (plan.collections.map (·.operations.requestCount)).sum

end Plan

/-- The row that stands for a call where a plan is shown. -/
inductive StoreCall.ShownAs (schema : Schema) : StoreCall → List String → Prop where
  | delete (remote : RemoteObject) :
      ShownAs schema (.delete remote.reference)
        ["delete", schema.identityOf remote, remote.reference.text]
  | create (collection : Collection) (desired : Descriptor) :
      ShownAs schema (.create collection desired.createPayload)
        ["create", schema.identityLabel desired, (Value.ofAttributes desired.createPayload).compact]
  | update (pair : MatchedPair) :
      ShownAs schema (.update pair.remote.reference (pair.changes.map (·.field)))
        ["update", schema.identityOf pair.remote, "; ".intercalate (pair.changes.map (·.text))]

/-! ## Announced and planned -/

private theorem ResourceAction.length_announced (home : Collection) (action : ResourceAction) :
    (action.announced home).length = if action.acts then 1 else 0 := by
  cases action with
  | create payload => rfl
  | update remote changes =>
      cases changes with
      | nil => rfl
      | cons change rest => rfl

private theorem CollectionPlan.length_announced (parent : ResourceRef) (planned : CollectionPlan) :
    (planned.announced parent).length = planned.operations.requestCount := by
  simp only [announced, OperationSet.requestCount, List.length_append, List.length_map]
  omega

private theorem Plan.length_announced (plan : Plan) (home : Collection) (parent : ResourceRef) :
    (plan.announced home parent).length = plan.requestCount := by
  have collections : ∀ collections : List CollectionPlan,
      (collections.flatMap (CollectionPlan.announced parent)).length =
        (collections.map (·.operations.requestCount)).sum := by
    intro collections
    rw [List.length_flatMap]
    simp only [CollectionPlan.length_announced]
  rw [announced, List.length_append, ResourceAction.length_announced, collections]
  rfl

private theorem CollectionPlan.shown (parent : ResourceRef) (planned : CollectionPlan) :
    List.Forall₂ (StoreCall.ShownAs planned.schema) (planned.announced parent)
      (Output.operationRows planned.schema planned.operations) := by
  have aligned : ∀ {α : Type} (calls : α → StoreCall) (rows : α → List String) (items : List α),
      (∀ item, (calls item).ShownAs planned.schema (rows item)) →
        List.Forall₂ (StoreCall.ShownAs planned.schema) (items.map calls) (items.map rows) := by
    intro α calls rows items shown
    rw [List.forall₂_map_left_iff, List.forall₂_map_right_iff]
    exact List.forall₂_same.mpr fun item _ => shown item
  refine List.rel_append (List.rel_append ?_ ?_) ?_
  · exact aligned _ _ _ fun remote => .delete remote
  · exact aligned _ _ _ fun desired => .create _ desired
  · exact aligned _ _ _ fun pair => .update pair

private theorem keys_applyAll_empty {schema : Schema} {changes : List FieldChange}
    (sendable : schema.Sendable changes) :
    (FieldChange.applyAll changes ∅).keys = changes.map (·.field) := by
  rw [SortedMap.keys, Schema.entries_applyAll_empty sendable, List.map_map]
  rfl

private theorem ResourceAction.calls_writes (home : Collection) {schema : Schema} {action : ResourceAction}
    (sendable : ∀ remote changes, action = .update remote changes → schema.Sendable changes) :
    (action.writes home).map Write.call = action.announced home := by
  cases action with
  | create payload => rfl
  | update remote changes =>
      cases changes with
      | nil => rfl
      | cons change rest =>
          have keys := keys_applyAll_empty (sendable remote (change :: rest) rfl)
          simp only [writes, announced, List.map_cons, List.map_nil, Write.call, keys]
          rfl

private theorem CollectionPlan.calls_writes (parent : ResourceRef) {planned : CollectionPlan}
    (sendable : ∀ operation ∈ planned.operations.operations, operation.Sendable planned.schema) :
    (planned.writes parent).map Write.call = planned.announced parent := by
  have updates : ∀ pair ∈ planned.operations.pendingUpdates,
      (FieldChange.applyAll pair.changes ∅).keys = pair.changes.map (·.field) := by
    intro pair pending
    have planned := sendable (.update pair) (by simp [OperationSet.operations, pending])
    exact keys_applyAll_empty planned.2
  rw [writes, OperationSet.writes_eq, announced, List.map_append, List.map_append, List.append_assoc]
  congr 1
  · simp only [List.map_map, Function.comp_def, Write.call]
  · congr 1
    · simp only [List.map_map, Function.comp_def, Write.call]
    · rw [List.map_map, List.map_map]
      refine List.map_congr_left fun pair pending => ?_
      simp only [Function.comp_apply, Write.call, updates pair pending]

namespace Plan

variable {plan : Plan}

private theorem calls_writes (sendable : plan.Sendable) (home : Collection) (parent : ResourceRef) :
    (plan.writes home parent).map Write.call = plan.announced home parent := by
  rw [writes, announced, List.map_append, ResourceAction.calls_writes home sendable.action,
    List.map_flatMap]
  congr 1
  exact List.flatMap_congr fun planned member =>
    CollectionPlan.calls_writes parent (sendable.operations planned member)

private theorem isConverged_iff : plan.isConverged = true ↔ plan.action.acts = false ∧
    ∀ planned ∈ plan.collections, planned.operations.isConverged = true := by
  unfold isConverged
  cases plan.action with
  | create payload => simp [ResourceAction.acts]
  | update remote changes => simp [ResourceAction.acts]

/-- A plan is converged exactly if it has nothing to write. -/
theorem writes_eq_nil_iff (home : Collection) (parent : ResourceRef) :
    plan.writes home parent = [] ↔ plan.isConverged = true := by
  have top : plan.action.writes home = [] ↔ plan.action.acts = false := by
    cases plan.action with
    | create payload => simp [ResourceAction.writes, ResourceAction.acts]
    | update remote changes => cases changes <;> simp [ResourceAction.writes, ResourceAction.acts]
  rw [writes, List.append_eq_nil_iff, top, List.flatMap_eq_nil_iff, isConverged_iff]
  simp only [CollectionPlan.writes, List.map_eq_nil_iff, OperationSet.operations_eq_nil_iff]

end Plan

namespace PassRequest

private theorem noneRefused_of_writesOf {exchanges : List Exchange} (none : writesOf exchanges = []) :
    NoneRefused exchanges := by
  intro exchange member
  have noWrite := List.filterMap_eq_nil_iff.mp none exchange member
  cases exchange with
  | get _ _ | list _ _ | listEvents _ _ | getEvent _ _ => rfl
  | create _ _ _ | update _ _ _ | delete _ _ => cases noWrite

/-- A pass on a store in memory does what its plan announced. It makes a write call exactly if the plan
is not converged, whatever rules refuse writes. As long as no write is refused, its write calls in the
journal are the announced ones, in their order and number, and the rows that show a collection stand
one by one for the calls announced for it. -/
theorem converge_does_as_announced (request : PassRequest) (intervals : WaitIntervals)
    (state : PassState MemoryStore) (plan : Plan) (looked : MemoryStore)
    (planned : request.plan MemoryStore.remote state.store = (.ok plan, looked)) :
    ∃ (report : PassReport) (after : PassState MemoryStore) (exchanges : List Exchange),
      request.converge MemoryStore.remote intervals state = (.ok report, after) ∧
      request.converge MemoryStore.remote.recorded intervals
          ⟨⟨state.store, []⟩, state.log, state.clock⟩ =
        (.ok report, ⟨⟨after.store, exchanges⟩, after.log, after.clock⟩) ∧
      after.store.journal = state.store.journal ++ exchanges.map Exchange.call ∧
      ((∀ call ∈ exchanges.map Exchange.call, call.isMutation = false) ↔ plan.isConverged = true) ∧
      ((∀ exchange ∈ exchanges, exchange.isRefused = false) →
        (exchanges.map Exchange.call).filter StoreCall.isMutation =
          plan.announced request.homeCollection
            (plan.action.address request.homeCollection state.store.state.nextId) ∧
        ((exchanges.map Exchange.call).filter StoreCall.isMutation).length = plan.requestCount) ∧
      ∀ each ∈ plan.collections, List.Forall₂ (StoreCall.ShownAs each.schema)
        (each.announced (plan.action.address request.homeCollection state.store.state.nextId))
        (Output.operationRows each.schema each.operations) := by
  obtain ⟨report, after, ran⟩ := converge_of_plan planned intervals
  obtain ⟨other, exchanges, same, recorded, _, passed⟩ := converge_passed ran
  rw [planned] at same
  cases same
  refine ⟨report, after, exchanges, ran, recorded, passed.journaled, ?_, ?_, ?_⟩
  · have mutations : (∀ call ∈ exchanges.map Exchange.call, call.isMutation = false) ↔
        writesOf exchanges = [] := by
      rw [← List.map_eq_nil_iff (f := Write.call), ← filter_isMutation_calls, List.filter_eq_nil_iff]
      simp only [Bool.not_eq_true]
    rw [mutations, ← plan.writes_eq_nil_iff request.homeCollection
      (plan.action.address request.homeCollection state.store.state.nextId)]
    constructor
    · intro none
      rw [← passed.sent.complete (noneRefused_of_writesOf none), none]
    · intro idle
      have sublist := passed.sent.sublist
      rw [idle] at sublist
      exact List.sublist_nil.mp sublist
  · intro noneRefused
    have calls : (exchanges.map Exchange.call).filter StoreCall.isMutation =
        plan.announced request.homeCollection
          (plan.action.address request.homeCollection state.store.state.nextId) := by
      rw [filter_isMutation_calls, passed.sent.complete noneRefused,
        Plan.calls_writes passed.planned.sendable]
    exact ⟨calls, by rw [calls, Plan.length_announced]⟩
  · intro each _
    exact each.shown _

theorem converge_does_as_announced_ruleChange :
    ∃ plan looked report after,
      ruleChange.1.plan MemoryStore.remote ruleChange.2.store = (.ok plan, looked) ∧
      plan.requestCount = 3 ∧
      ruleChange.1.converge MemoryStore.remote .standard ruleChange.2 = (.ok report, after) ∧
      after.store.journal.filter StoreCall.isMutation =
        plan.announced ruleChange.1.homeCollection (.top "firewall" 1) := by
  obtain ⟨report, after, exchanges, ran, recorded, journal, _, accepted, _⟩ :=
    converge_does_as_announced ruleChange.1 .standard ruleChange.2 _ _ rfl
  have sent : (ruleChange.1.converge MemoryStore.remote.recorded .standard
      ⟨⟨ruleChange.2.store, []⟩, [], 0⟩).2.store.exchanges = exchanges :=
    congrArg (fun result => result.2.store.exchanges) recorded
  have noneRefused : ∀ exchange ∈ exchanges, exchange.isRefused = false := by
    rw [← sent]
    decide
  refine ⟨_, _, report, after, rfl, rfl, ran, ?_⟩
  rw [journal, List.filter_append, (accepted noneRefused).1]
  rfl

end PassRequest

end DesiredState
