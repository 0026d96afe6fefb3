import DesiredState.Proofs.Pass.Clean
import DesiredState.Proofs.Store.Allowed

/-!
# Passes that nothing refuses

On a store in memory without rules for refusing writes, writes that can follow one another are all
accepted, and a pass that does not wait reports no error.
-/

set_option autoImplicit false

namespace DesiredState

open StoreState

/-- A store in memory refuses nothing by rule and holds these objects. -/
structure MemoryStore.Unopposed (objects : StoreState) (store : MemoryStore) : Prop where
  failures : store.failures = []
  objects : store.state.SameObjects objects

namespace MemoryStore.Unopposed

variable {objects : StoreState} {store : MemoryStore}

private theorem injected? (unopposed : store.Unopposed objects) (operation : OperationKind) (kind : String)
    (attributes : Attributes) : store.injected? operation kind attributes = none := by
  simp [MemoryStore.injected?, unopposed.failures]

private theorem noted (unopposed : store.Unopposed objects) (call : StoreCall) :
    (store.noted call).Unopposed objects := ⟨unopposed.failures, unopposed.objects⟩

private theorem written (unopposed : store.Unopposed objects) (write : Write) :
    (store.written write).Unopposed (objects.performed write) where
  failures := unopposed.failures
  objects := by
    have effect : (store.written write).state.SameObjects (store.state.performed write) := ⟨rfl, rfl⟩
    exact effect.trans (unopposed.objects.performed write)

private theorem create (unopposed : store.Unopposed objects) {collection : Collection} {payload : Attributes}
    (allowed : objects.Allows (.create collection payload)) :
    ∃ object, remote.create collection payload store =
      (.ok object, store.written (.create collection payload)) := by
  have parentHeld : (store.noted (.create collection payload)).state.missingParent? collection = none :=
    unopposed.objects.allows allowed
  have accepted := (unopposed.noted (.create collection payload)).injected? .create collection.kind payload
  refine ⟨store.state.nextObject collection payload, ?_⟩
  simp only [remote, MemoryStore.create, accepted, parentHeld]
  rfl

private theorem update (unopposed : store.Unopposed objects) {reference : ResourceRef} {fields : Attributes}
    (allowed : objects.Allows (.update reference fields)) :
    ∃ object, remote.update reference fields store =
      (.ok object, store.written (.update reference fields)) := by
  obtain ⟨object, found⟩ := Option.isSome_iff_exists.mp (unopposed.objects.allows allowed)
  have stored : (store.noted (.update reference fields.keys)).state.find? reference = some object := found
  have accepted := (unopposed.noted (.update reference fields.keys)).injected? .update reference.kind
    object.attributes
  refine ⟨withFields fields object, ?_⟩
  simp only [remote, MemoryStore.update, stored, accepted]
  rfl

private theorem delete (unopposed : store.Unopposed objects) {reference : ResourceRef}
    (allowed : objects.Allows (.delete reference)) :
    remote.delete reference store = (.ok (), store.written (.delete reference)) := by
  obtain ⟨object, found⟩ := Option.isSome_iff_exists.mp (unopposed.objects.allows allowed)
  have stored : (store.noted (.delete reference)).state.find? reference = some object := found
  have accepted := (unopposed.noted (.delete reference)).injected? .delete reference.kind
    object.attributes
  simp only [remote, MemoryStore.delete, stored, accepted]
  rfl

end MemoryStore.Unopposed

/-! ## One object -/

namespace Schema

variable {schema : Schema} {objects : StoreState} {state : PassState MemoryStore}

private theorem refetch_unopposed {store : MemoryStore} (unopposed : store.Unopposed objects)
    {reference : ResourceRef} {object : RemoteObject} (found : objects.find? reference = some object)
    (log : List String) (clock : Nat) :
    refetch MemoryStore.remote reference ⟨store, log, clock⟩ =
      (.ok object, ⟨store.noted (.get reference), log, clock⟩) := by
  rw [refetch_memory, unopposed.objects.find?, found]
  rfl

/-- An update that is not refused finds the object again. -/
theorem applyChanges_unopposed (unopposed : state.store.Unopposed objects) {remote : RemoteObject}
    {changes : List FieldChange} (sendable : schema.Sendable changes) (pending : changes ≠ [])
    (allowed : objects.Allows (.update remote.reference (FieldChange.applyAll changes ∅))) :
    ∃ object after, schema.applyChanges MemoryStore.remote remote changes state =
        (.ok ⟨changes, .ok object⟩, after) ∧ object.reference = remote.reference ∧
      after.store.Unopposed
        (objects.performed (.update remote.reference (FieldChange.applyAll changes ∅))) := by
  have some : changes.isEmpty = false := by simpa using pending
  obtain ⟨answer, accepted⟩ := unopposed.update allowed
  have later := unopposed.written (.update remote.reference (FieldChange.applyAll changes ∅))
  have stillHeld : (objects.performed (.update remote.reference (FieldChange.applyAll changes ∅))).holds
      remote.reference = true := holds_performed_of_spares allowed rfl
  obtain ⟨object, found⟩ := Option.isSome_iff_exists.mp stillHeld
  have answered : state.call (MemoryStore.remote.update remote.reference
      (FieldChange.applyAll changes ∅)) = (.ok answer, { state with
        store := state.store.written (.update remote.reference (FieldChange.applyAll changes ∅)) }) := by
    simp only [PassState.call, accepted]
  simp only [applyChanges, some, Bool.false_eq_true, if_false, updateBody_of_sendable sendable,
    answered]
  simp only [PassState.noted, refetch_unopposed later found]
  exact ⟨object, _, rfl, (mem_of_find? found).2, later.noted (.get remote.reference)⟩

end Schema

/-! ## Collections -/

/-- The work on a collection has met with no refusal and no error. -/
structure Progress.Unopposed (objects : StoreState) (progress : Progress MemoryStore) : Prop where
  store : progress.state.store.Unopposed objects
  held : progress.held = []
  errors : progress.outcome.errors = []

namespace Schema

variable {schema : Schema} {objects : StoreState} {progress : Progress MemoryStore}
  {collection : Collection}

private theorem applyOperation_unopposed (unopposed : progress.Unopposed objects) {operation : Operation}
    (sendable : operation.Sendable schema) (allowed : objects.Allows (operation.write collection)) :
    (schema.applyOperation MemoryStore.remote collection progress operation).Unopposed
      (objects.performed (operation.write collection)) := by
  cases operation with
  | delete remote =>
      simp only [applyOperation, applyDelete, PassState.call, unopposed.store.delete allowed]
      exact ⟨unopposed.store.written _, unopposed.held, unopposed.errors⟩
  | create desired =>
      obtain ⟨object, accepted⟩ := unopposed.store.create allowed
      simp only [applyOperation, applyCreate, unopposed.held, blocker?_nil, PassState.call, accepted]
      exact ⟨unopposed.store.written _, rfl, unopposed.errors⟩
  | update pair =>
      obtain ⟨pending, fine⟩ := sendable
      obtain ⟨object, after, ran, _, later⟩ :=
        applyChanges_unopposed unopposed.store fine pending allowed
      simp only [applyOperation, applyUpdate, ran]
      exact ⟨later, unopposed.held, unopposed.errors⟩

private theorem applyOperations_unopposed {state : PassState MemoryStore}
    (unopposed : state.store.Unopposed objects) {set : OperationSet}
    (sendable : ∀ operation ∈ set.operations, operation.Sendable schema)
    (allowed : objects.AllowsAll (set.operations.map (Operation.write collection))) :
    ∃ outcome after,
      schema.applyOperations MemoryStore.remote collection set state = (outcome, after) ∧
        outcome.errors = [] ∧ after.store.Unopposed
          (objects.performedAll (set.operations.map (Operation.write collection))) := by
  have folded : ∀ (operations : List Operation) {objects : StoreState} {progress : Progress MemoryStore},
      progress.Unopposed objects → (∀ operation ∈ operations, operation.Sendable schema) →
      objects.AllowsAll (operations.map (Operation.write collection)) →
        (operations.foldl (schema.applyOperation MemoryStore.remote collection) progress).Unopposed
          (objects.performedAll (operations.map (Operation.write collection))) := by
    intro operations
    induction operations with
    | nil => exact fun unopposed _ _ => unopposed
    | cons operation rest ih =>
        intro objects progress unopposed sendable allowed
        exact ih (applyOperation_unopposed unopposed (sendable operation List.mem_cons_self) allowed.1)
          (fun other member => sendable other (List.mem_cons_of_mem _ member)) allowed.2
  have start : Progress.Unopposed objects ⟨state, [], .empty⟩ := ⟨unopposed, rfl, rfl⟩
  have run := folded set.operations start sendable allowed
  exact ⟨_, _, rfl, run.errors, run.store⟩

end Schema

namespace PassRequest

variable {request : PassRequest} {objects : StoreState}

private theorem applyCollections_unopposed {parent : ResourceRef} {collections : List CollectionPlan}
    {state : PassState MemoryStore} (unopposed : state.store.Unopposed objects)
    (sendable : ∀ planned ∈ collections, ∀ operation ∈ planned.operations.operations,
      operation.Sendable planned.schema)
    (allowed : objects.AllowsAll (collections.flatMap (CollectionPlan.writes parent)))
    (report : PassReport) :
    ∃ last after, applyCollections MemoryStore.remote parent collections report state = (last, after) ∧
      last.errors = report.errors ∧ last.completion = report.completion ∧ after.store.Unopposed
        (objects.performedAll (collections.flatMap (CollectionPlan.writes parent))) := by
  induction collections generalizing objects state report with
  | nil => exact ⟨report, state, rfl, rfl, rfl, unopposed⟩
  | cons planned rest ih =>
      rw [List.flatMap_cons] at allowed
      obtain ⟨now, later⟩ := allowed.of_append
      obtain ⟨outcome, middle, ran, none, halfway⟩ := Schema.applyOperations_unopposed unopposed
        (sendable planned List.mem_cons_self) now
      obtain ⟨last, after, ranRest, same, completion, ended⟩ := ih halfway
        (fun other member => sendable other (List.mem_cons_of_mem _ member)) later
        (report.absorb outcome)
      refine ⟨last, after, ?_, ?_, completion, ?_⟩
      · simp only [applyCollections, ran, ranRest]
      · rw [same, PassReport.absorb, none, List.append_nil]
      · rw [List.flatMap_cons, performedAll_append]
        exact ended

/-! ## Whole passes -/

private theorem updateTop_unopposed {state : PassState MemoryStore}
    (unopposed : state.store.Unopposed objects)
    {remote : RemoteObject} {changes : List FieldChange} (sendable : request.schema.Sendable changes)
    {home : Collection}
    (allowed : objects.AllowsAll ((ResourceAction.update remote changes).writes home))
    (waiter : Option EventWaiter) (label : String) :
    ∃ object mutated, (request.updateTop MemoryStore.remote remote changes waiter (.start label)
        state).reached = some (object, mutated) ∧ object.reference = remote.reference ∧
      (request.updateTop MemoryStore.remote remote changes waiter (.start label) state).report.errors =
        [] ∧
      (request.updateTop MemoryStore.remote remote changes waiter (.start label)
        state).state.store.Unopposed
        (objects.performedAll ((ResourceAction.update remote changes).writes home)) := by
  cases changes with
  | nil => exact ⟨remote, false, rfl, rfl, rfl, unopposed⟩
  | cons change rest =>
      obtain ⟨object, after, ran, same, later⟩ := Schema.applyChanges_unopposed unopposed sendable
        (List.cons_ne_nil change rest) allowed.1
      simp only [updateTop, ran]
      exact ⟨object, true, rfl, same, rfl, later⟩

/-- Looking for the event once finds no fault and takes no time. -/
theorem awaitStep_noWait (noWait : request.wait = .noWait) (waiter : Option EventWaiter)
    (mutated : Bool) (budget : Budget) {report : PassReport} (inTime : report.completion ≠ .timedOut)
    {state : PassState MemoryStore} (unopposed : state.store.Unopposed objects) :
    ∃ waited after,
      request.awaitStep MemoryStore.remote waiter mutated budget report state = (waited, after) ∧
        waited.errors = report.errors ∧ waited.completion ≠ .timedOut ∧
        after.store.Unopposed objects := by
  unfold awaitStep
  cases waiter with
  | none => exact ⟨report, state, rfl, rfl, inTime, unopposed⟩
  | some waiter =>
      dsimp only
      split
      · have page : MemoryStore.remote.listEvents waiter.filter state.store =
            (.ok (state.store.state.page waiter.filter), state.store.noted (.listEvents waiter.filter)) :=
          rfl
        simp only [noWait, awaitCompletion, awaitOnce, EventWaiter.pollOnce, page]
        cases waiter.firstUnseen? (state.store.state.page waiter.filter) with
        | none => exact ⟨_, _, rfl, List.append_nil _, by simp, unopposed.noted _⟩
        | some record => exact ⟨_, _, rfl, List.append_nil _, by simp, unopposed.noted _⟩
      · exact ⟨report, state, rfl, rfl, inTime, unopposed⟩

private theorem carryOut_unopposed {plan : Plan} {remote : RemoteObject} {changes : List FieldChange}
    (action : plan.action = .update remote changes) (sendable : plan.Sendable)
    (schema : plan.schema = request.schema) (noWait : request.wait = .noWait)
    (within : WithinParent remote.reference plan.collections) {state : PassState MemoryStore}
    (unopposed : state.store.Unopposed objects) (held : objects.holds remote.reference = true)
    (allowed : objects.AllowsAll (plan.writes request.homeCollection remote.reference))
    (waiter : Option EventWaiter) (budget : Budget) :
    (request.carryOut MemoryStore.remote plan waiter budget state).1.errors = [] := by
  rw [Plan.writes] at allowed
  obtain ⟨allowedTop, allowedRest⟩ := allowed.of_append
  rw [action] at allowedTop allowedRest
  have topSendable : request.schema.Sendable changes := schema ▸ sendable.action remote changes action
  obtain ⟨object, mutated, reached, same, noErrors, later⟩ :=
    updateTop_unopposed unopposed topSendable allowedTop waiter plan.label
  have notLate := completion_applyTop MemoryStore.remote request (.update remote changes) waiter
    (.start plan.label) state
  simp only [carryOut, action, applyTop] at notLate ⊢
  generalize request.updateTop MemoryStore.remote remote changes waiter (.start plan.label) state = top
    at reached noErrors later notLate ⊢
  simp only [reached, same]
  obtain ⟨report, middle, ran, sameErrors, sameCompletion, halfway⟩ := applyCollections_unopposed later
    sendable.operations allowedRest top.report
  have inTime : report.completion ≠ .timedOut := by
    rw [sameCompletion, notLate]
    exact fun late => by cases late
  obtain ⟨waited, last, ranWait, sameAgain, stillInTime, ended⟩ :=
    awaitStep_noWait noWait top.waiter mutated budget inTime halfway
  -- Neither the update of the object nor the work on its collections removes it.
  have stillHeld : ((objects.performedAll ((ResourceAction.update remote changes).writes
      request.homeCollection)).performedAll (plan.collections.flatMap
        (CollectionPlan.writes remote.reference))).holds remote.reference = true := by
    rw [holds, find?_performedAll_of_within within.exists_kind]
    exact holds_performedAll_of_spares held (spares_action _)
  obtain ⟨found, isFound⟩ := Option.isSome_iff_exists.mp stillHeld
  simp only [ran, ranWait, if_neg stillInTime, finish, Schema.refetch_unopposed ended isFound]
  rw [sameAgain, sameErrors, noErrors]

/-- A pass whose writes can follow one another, on a store in memory that refuses nothing by rule,
reports no error. -/
theorem converge_unopposed {later : PassState MemoryStore} {plan : Plan} {looked : MemoryStore}
    (planned : request.plan MemoryStore.remote later.store = (.ok plan, looked))
    (unopposed : later.store.Unopposed objects) (noWait : request.wait = .noWait)
    {remote : RemoteObject} {changes : List FieldChange}
    (action : plan.action = .update remote changes) (held : objects.holds remote.reference = true)
    (within : WithinParent remote.reference plan.collections)
    (allowed : objects.AllowsAll (plan.writes request.homeCollection remote.reference))
    (intervals : WaitIntervals) :
    ∃ report after, request.converge MemoryStore.remote intervals later = (.ok report, after) ∧
      report.errors = [] := by
  obtain ⟨waiter, last, prepared⟩ := prepare_of_plan planned intervals
  have keeps : RemoteStore.PagesAgree (Kept (MemoryStore.Unopposed objects)) MemoryStore.remote
      MemoryStore.remote := {
    get := fun _ => agree_kept_iff.mpr fun _ kept => kept.noted _
    list := fun _ => agree_kept_iff.mpr fun _ kept => kept.noted _
    listEvents := fun _ => agree_kept_iff.mpr fun _ kept => kept.noted _ }
  have stillUnopposed := agree_kept_iff.mp (agree_prepare keeps request intervals) later.store unopposed
  rw [prepared] at stillUnopposed
  have follows := planned_of_plan_memory (congrArg Prod.fst planned)
  have noErrors : (request.carryOut MemoryStore.remote plan waiter
      (.starting later.clock request.timeout) { later with store := last }).1.errors = [] :=
    carryOut_unopposed action follows.sendable follows.schema noWait within stillUnopposed held allowed
      waiter _
  rw [converge_eq, prepared]
  exact ⟨_, _, rfl, noErrors⟩

end PassRequest

end DesiredState
