import DesiredState.Pass.Plan
import DesiredState.Proofs.Matching
import DesiredState.Proofs.Store.Write

/-!
# What a plan says

A plan is determined by what the looks of the store answer: the top-level object and the members of
each collection. `PassRequest.Planned` says how. The writes of a plan are those of the top-level
object and then, collection by collection, deletes, creates and updates.
-/

set_option autoImplicit false

namespace DesiredState

/-- What the looks of a store answer while its state is valid, which they keep it. -/
structure RemoteStore.Shows {σ : Type} (store : RemoteStore σ) (valid : σ → Prop)
    (found : ResourceRef → Option RemoteObject → Prop)
    (listed : Collection → List RemoteObject → Prop) : Prop where
  get : ∀ reference state answer after, valid state →
    store.get reference state = (.ok answer, after) → found reference answer ∧ valid after
  list : ∀ collection state answer after, valid state →
    store.list collection state = (.ok answer, after) → listed collection answer ∧ valid after

namespace PassRequest

/-- The objects of a collection that a plan starts from. -/
def Observed (listed : Collection → List RemoteObject → Prop) (action : ResourceAction)
    (kind : String) (objects : List RemoteObject) : Prop :=
  match action with
  | .create _ => objects = []
  | .update remote _ => listed (.under remote.reference kind) objects

def Fetched (found : ResourceRef → Option RemoteObject → Prop) (target : Target)
    (remote : Option RemoteObject) : Prop :=
  match target with
  | .new _ => remote = none
  | .existing reference => found reference remote

/-- How the plan of one collection follows from its members. -/
structure CollectionPlanned (listed : Collection → List RemoteObject → Prop)
    (action : ResourceAction) (strict : Bool) (desired : DesiredCollection)
    (planned : CollectionPlan) : Prop where
  schema : planned.schema = desired.schema
  matching : ∃ entries objects, desired.schema.descriptors desired.entries = .ok entries ∧
    Observed listed action desired.schema.kind objects ∧
    desired.schema.reconcile objects entries strict = .ok planned.operations

/-- How a plan follows from what the store shows. -/
structure Planned (request : PassRequest) (found : ResourceRef → Option RemoteObject → Prop)
    (listed : Collection → List RemoteObject → Prop) (plan : Plan) : Prop where
  schema : plan.schema = request.schema
  native : request.foreignCollection? = none
  action : ∃ remote, Fetched found request.target remote ∧ request.action remote = .ok plan.action
  collections : List.Forall₂ (CollectionPlanned listed plan.action request.strict)
    request.collections plan.collections

theorem Planned.kinds_eq {request : PassRequest} {found : ResourceRef → Option RemoteObject → Prop}
    {listed : Collection → List RemoteObject → Prop} {plan : Plan}
    (planned : request.Planned found listed plan) :
    plan.collections.map (·.schema.kind) = request.collections.map (·.schema.kind) := by
  have aligned := planned.collections
  generalize request.collections = collections at aligned
  generalize plan.collections = plans at aligned
  induction aligned with
  | nil => rfl
  | cons each _ ih => rw [List.map_cons, List.map_cons, each.schema, ih]

variable {σ : Type} {store : RemoteStore σ} {request : PassRequest} {valid : σ → Prop}
  {found : ResourceRef → Option RemoteObject → Prop}
  {listed : Collection → List RemoteObject → Prop}

private theorem fetched_of_fetch (shows : store.Shows valid found listed) {state after : σ}
    {remote : Option RemoteObject} (start : valid state)
    (ran : fetch store request state = (.ok remote, after)) :
    Fetched found request.target remote ∧ valid after := by
  unfold fetch at ran
  cases target : request.target with
  | new parent =>
      simp only [target] at ran
      cases ran
      exact ⟨rfl, start⟩
  | existing reference =>
      simp only [target] at ran
      rcases asked : store.get reference state with ⟨error | answer, last⟩
      · simp [asked] at ran
      · simp only [asked] at ran
        cases ran
        exact shows.get reference state _ _ start asked

private theorem observed_of_observed (shows : store.Shows valid found listed) {action : ResourceAction}
    {kind : String} {state after : σ} {objects : List RemoteObject} (start : valid state)
    (ran : observed store action kind state = (.ok objects, after)) :
    Observed listed action kind objects ∧ valid after := by
  cases action with
  | create payload =>
      cases ran
      exact ⟨rfl, start⟩
  | update remote changes =>
      rw [observed] at ran
      rcases asked : store.list (.under remote.reference kind) state with ⟨error | answer, last⟩
      · simp [asked] at ran
      · simp only [asked] at ran
        cases ran
        exact shows.list _ state _ _ start asked

private theorem collectionPlanned_of_planCollection (shows : store.Shows valid found listed)
    {action : ResourceAction} {strict : Bool} {desired : DesiredCollection} {state after : σ}
    {planned : CollectionPlan} (start : valid state)
    (ran : planCollection store action strict desired state = (.ok planned, after)) :
    CollectionPlanned listed action strict desired planned ∧ valid after := by
  unfold planCollection at ran
  cases split : desired.schema.descriptors desired.entries with
  | error error => simp [split] at ran
  | ok entries =>
      simp only [split] at ran
      rcases seen : observed store action desired.schema.kind state with ⟨error | objects, last⟩
      · simp [seen] at ran
      · simp only [seen] at ran
        obtain ⟨shown, still⟩ := observed_of_observed shows start seen
        cases matched : desired.schema.reconcile objects entries strict with
        | error error => simp [matched] at ran
        | ok operations =>
            simp only [matched] at ran
            cases ran
            exact ⟨⟨rfl, entries, objects, split, shown, matched⟩, still⟩

private theorem collectionsPlanned_of_planCollections (shows : store.Shows valid found listed)
    {action : ResourceAction} {strict : Bool} {collections : List DesiredCollection}
    {state after : σ} {planned : List CollectionPlan} (start : valid state)
    (ran : planCollections store action strict collections state = (.ok planned, after)) :
    List.Forall₂ (CollectionPlanned listed action strict) collections planned ∧ valid after := by
  induction collections generalizing state planned with
  | nil =>
      cases ran
      exact ⟨.nil, start⟩
  | cons desired rest ih =>
      rw [planCollections] at ran
      rcases first : planCollection store action strict desired state with ⟨error | head, middle⟩
      · simp [first] at ran
      · simp only [first] at ran
        obtain ⟨headPlanned, still⟩ := collectionPlanned_of_planCollection shows start first
        rcases others : planCollections store action strict rest middle with ⟨error | tail, last⟩
        · simp [others] at ran
        · simp only [others] at ran
          cases ran
          obtain ⟨tailPlanned, last⟩ := ih still others
          exact ⟨.cons headPlanned tailPlanned, last⟩

/-- Whatever a store shows, a plan follows from it. -/
theorem planned_of_plan (shows : store.Shows valid found listed) {state after : σ} {plan : Plan}
    (start : valid state) (ran : request.plan store state = (.ok plan, after)) :
    request.Planned found listed plan ∧ valid after := by
  unfold PassRequest.plan at ran
  cases native : request.foreignCollection? with
  | some desired => simp [native] at ran
  | none =>
      simp only [native] at ran
      rcases read : fetch store request state with ⟨error | remote, middle⟩
      · simp [read] at ran
      · simp only [read] at ran
        obtain ⟨fetched, still⟩ := fetched_of_fetch shows start read
        cases acted : request.action remote with
        | error error => simp [acted] at ran
        | ok action =>
            simp only [acted] at ran
            rcases others : planCollections store action request.strict request.collections middle with
              ⟨error | collections, last⟩
            · simp [others] at ran
            · simp only [others] at ran
              cases ran
              obtain ⟨planned, last⟩ := collectionsPlanned_of_planCollections shows still others
              exact ⟨⟨rfl, native, ⟨remote, fetched, acted⟩, planned⟩, last⟩

theorem shows_anything (store : RemoteStore σ) :
    store.Shows (fun _ => True) (fun _ _ => True) fun _ _ => True :=
  ⟨fun _ _ _ _ _ _ => ⟨trivial, trivial⟩, fun _ _ _ _ _ _ => ⟨trivial, trivial⟩⟩

end PassRequest

/-! ## Writes -/

def Operation.write (collection : Collection) : Operation → Write
  | .delete remote => .delete remote.reference
  | .create desired => .create collection desired.createPayload
  | .update pair => .update pair.remote.reference (FieldChange.applyAll pair.changes ∅)

def ResourceAction.writes (home : Collection) : ResourceAction → List Write
  | .create payload => [.create home payload]
  | .update _ [] => []
  | .update remote (change :: rest) =>
      [.update remote.reference (FieldChange.applyAll (change :: rest) ∅)]

def CollectionPlan.writes (parent : ResourceRef) (planned : CollectionPlan) : List Write :=
  planned.operations.operations.map (Operation.write (.under parent planned.schema.kind))

/-- The writes of a plan, given the address of its top-level object. -/
def Plan.writes (plan : Plan) (home : Collection) (parent : ResourceRef) : List Write :=
  plan.action.writes home ++ plan.collections.flatMap (CollectionPlan.writes parent)

def Operation.Sendable (schema : Schema) : Operation → Prop
  | .delete _ | .create _ => True
  | .update pair => pair.changes ≠ [] ∧ schema.Sendable pair.changes

structure Plan.Sendable (plan : Plan) : Prop where
  action : ∀ remote changes, plan.action = .update remote changes → plan.schema.Sendable changes
  operations : ∀ planned ∈ plan.collections, ∀ operation ∈ planned.operations.operations,
    operation.Sendable planned.schema

namespace PassRequest

variable {request : PassRequest} {found : ResourceRef → Option RemoteObject → Prop}
  {listed : Collection → List RemoteObject → Prop} {plan : Plan}

theorem diff_of_action {found : Option RemoteObject} {remote : RemoteObject}
    {changes : List FieldChange} (acted : request.action found = .ok (.update remote changes)) :
    found = some remote ∧
      request.schema.diff remote request.desired request.schema.mutabilityPolicy = .ok changes := by
  unfold PassRequest.action at acted
  cases found with
  | none =>
      cases valid : request.schema.validate request.desired with
      | error error => simp [valid] at acted
      | ok done => simp [valid] at acted
  | some object =>
      cases differs : request.schema.diff object request.desired request.schema.mutabilityPolicy with
      | error error => simp [differs] at acted
      | ok found =>
          simp only [differs] at acted
          cases acted
          exact ⟨rfl, differs⟩

theorem validate_of_action {found : Option RemoteObject} {payload : Attributes}
    (acted : request.action found = .ok (.create payload)) :
    found = none ∧ request.schema.validate request.desired = .ok () ∧
      payload = request.schema.createBody request.desired := by
  unfold PassRequest.action at acted
  cases found with
  | none =>
      cases valid : request.schema.validate request.desired with
      | error error => simp [valid] at acted
      | ok done =>
          simp only [valid] at acted
          cases acted
          exact ⟨rfl, rfl, rfl⟩
  | some object =>
      cases differs : request.schema.diff object request.desired request.schema.mutabilityPolicy with
      | error error => simp [differs] at acted
      | ok found => simp [differs] at acted

/-- The changes of every plan can be sent, since they come from differences. -/
theorem Planned.sendable (planned : request.Planned found listed plan) : plan.Sendable where
  action := by
    intro remote changes isUpdate
    obtain ⟨_, _, acted⟩ := planned.action
    rw [isUpdate] at acted
    rw [planned.schema]
    exact Schema.sendable_of_diff (diff_of_action acted).2
  operations := by
    intro collection member operation inOperations
    obtain ⟨desired, _, schema, entries, objects, _, _, matched⟩ :=
      exists_of_forall₂_right planned.collections member
    cases operation with
    | delete remote => trivial
    | create desired => trivial
    | update pair =>
        have pending : pair ∈ collection.operations.pendingUpdates := by
          simpa [OperationSet.operations] using inOperations
        obtain ⟨inUpdates, differs⟩ := List.mem_filter.mp pending
        rw [schema]
        exact ⟨by simpa using differs,
          Schema.sendable_of_diff ((Schema.matched_of_matchEntries matched).pairOf_mem inUpdates).differs⟩

end PassRequest

end DesiredState
