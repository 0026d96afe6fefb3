import DesiredState.Proofs.Pass.Sent
import DesiredState.Proofs.Pass.Settled
import DesiredState.Proofs.Store.EventLog

/-!
# Work aside from the top-level object

The work on the collections of an object takes no time and files only events of other kinds than that
of the object, whether its writes are accepted or not.
-/

set_option autoImplicit false

namespace DesiredState

open StoreState

private theorem MemoryStore.filedBeside_sent {kind : String} (store : MemoryStore) {write : Write}
    (foreign : (write.address store.state.nextId).kind ≠ kind) :
    FiledBeside kind store.state (store.sent write).state := by
  rcases sent_cases store write with refused | ⟨_, accepted⟩
  · rw [refused]
    exact .refl kind store.state
  · rw [accepted]
    exact .written store.state write store.clock.now foreign

/-- No time has passed, and only events of other kinds were filed. -/
structure PassState.Aside (kind : String) (before after : PassState MemoryStore) : Prop where
  clock : after.clock = before.clock
  filed : FiledBeside kind before.store.state after.store.state

namespace PassState.Aside

variable {kind : String} {before middle after : PassState MemoryStore}

theorem refl (kind : String) (state : PassState MemoryStore) : Aside kind state state :=
  ⟨rfl, .refl kind state.store.state⟩

theorem trans (first : Aside kind before middle) (second : Aside kind middle after) :
    Aside kind before after :=
  ⟨second.clock.trans first.clock, first.filed.trans second.filed⟩

private theorem noted (aside : Aside kind before after) (entries : List String) :
    Aside kind before (after.noted entries) := ⟨aside.clock, aside.filed⟩

/-- A call of the store for a write to an object of another kind. -/
theorem call {α : Type} {request : MemoryStore → Except StoreError α × MemoryStore} (write : Write)
    (asked : (request before.store).2 = before.store.sent write)
    (foreign : (write.address before.store.state.nextId).kind ≠ kind) {answer : Except StoreError α}
    (ran : before.call request = (answer, after)) : Aside kind before after := by
  cases ran
  constructor
  · rfl
  · have filed := MemoryStore.filedBeside_sent before.store foreign
    rw [← asked] at filed
    exact filed

end PassState.Aside

private theorem Write.kind_address {collection : Collection} {write : Write}
    (within : write.Within collection) (nextId : Nat) : (write.address nextId).kind = collection.kind := by
  cases write with
  | create target payload =>
      cases within
      exact ResourceRef.kind_under _ _ _
  | update reference fields => exact (Collection.contains_iff.mp within).1
  | delete reference => exact (Collection.contains_iff.mp within).1

namespace Schema

open PassState

variable {kind : String} (schema : Schema)

private theorem aside_refetch (kind : String) (reference : ResourceRef) (state : PassState MemoryStore) :
    Aside kind state (refetch MemoryStore.remote reference state).2 := by
  rw [refetch_memory]
  exact ⟨rfl, .refl kind state.store.state⟩

private theorem aside_applyChanges {remote : RemoteObject} (foreign : remote.reference.kind ≠ kind)
    (changes : List FieldChange) (state : PassState MemoryStore) :
    Aside kind state (schema.applyChanges MemoryStore.remote remote changes state).2 := by
  unfold applyChanges
  split
  · exact .refl kind state
  · cases schema.updateBody changes ∅ with
    | error error => exact .refl kind state
    | ok fields =>
        rcases ran : state.call (MemoryStore.remote.update remote.reference fields) with
          ⟨answer, after⟩
        have asked : Aside kind state after := .call (.update remote.reference fields) rfl foreign ran
        cases answer with
        | error error =>
            simp only [ran]
            exact asked
        | ok written =>
            simp only [ran]
            exact (asked.noted _).trans (aside_refetch kind remote.reference _)

private theorem aside_applyOperation {collection : Collection} (foreign : collection.kind ≠ kind)
    {operation : Operation} (within : (operation.write collection).Within collection)
    (progress : Progress MemoryStore) :
    Aside kind progress.state
      (schema.applyOperation MemoryStore.remote collection progress operation).state := by
  have foreignWrite : ∀ nextId, ((operation.write collection).address nextId).kind ≠ kind :=
    fun nextId => Write.kind_address within nextId ▸ foreign
  cases operation with
  | delete remote =>
      rcases ran : progress.state.call (MemoryStore.remote.delete remote.reference) with
        ⟨answer, after⟩
      have asked : Aside kind progress.state after :=
        .call (.delete remote.reference) rfl (foreignWrite _) ran
      simp only [applyOperation, applyDelete, ran]
      cases answer with
      | error error => exact asked
      | ok deleted => exact asked.noted _
  | create desired =>
      simp only [applyOperation, applyCreate]
      cases schema.blocker? progress.held desired with
      | some blocker => exact .refl kind progress.state
      | none =>
          rcases ran : progress.state.call (MemoryStore.remote.create collection desired.createPayload)
            with ⟨answer, after⟩
          have asked : Aside kind progress.state after :=
            .call (.create collection desired.createPayload) rfl (foreignWrite _) ran
          cases answer with
          | error error => exact asked
          | ok created => exact asked.noted _
  | update pair =>
      have foreignRemote : pair.remote.reference.kind ≠ kind := foreignWrite 0
      have sent := schema.aside_applyChanges foreignRemote pair.changes progress.state
      simp only [applyOperation, applyUpdate]
      rcases ran : schema.applyChanges MemoryStore.remote pair.remote pair.changes progress.state with
        ⟨error | ⟨changes, error | object⟩, after⟩ <;> rw [ran] at sent
      · exact sent
      · exact sent
      · exact sent

private theorem aside_applyOperations {collection : Collection} (foreign : collection.kind ≠ kind)
    {set : OperationSet}
    (within : ∀ write ∈ set.operations.map (Operation.write collection), write.Within collection)
    (state : PassState MemoryStore) :
    Aside kind state (schema.applyOperations MemoryStore.remote collection set state).2 := by
  have folded : ∀ (operations : List Operation) (progress : Progress MemoryStore),
      (∀ operation ∈ operations, (operation.write collection).Within collection) →
      Aside kind progress.state
        (operations.foldl (schema.applyOperation MemoryStore.remote collection) progress).state := by
    intro operations
    induction operations with
    | nil => exact fun progress _ => .refl kind progress.state
    | cons operation rest ih =>
        intro progress inside
        refine (aside_applyOperation schema foreign (inside operation List.mem_cons_self) progress).trans ?_
        exact ih _ fun other member => inside other (List.mem_cons_of_mem _ member)
  exact folded set.operations ⟨state, [], .empty⟩
    fun operation member => within _ (List.mem_map_of_mem member)

end Schema

namespace PassRequest

open PassState

variable {request : PassRequest} {kind : String}

theorem aside_applyCollections {parent : ResourceRef} {collections : List CollectionPlan}
    (within : WithinParent parent collections)
    (foreign : ∀ planned ∈ collections, planned.schema.kind ≠ kind) (report : PassReport)
    (state : PassState MemoryStore) :
    ∃ last after, applyCollections MemoryStore.remote parent collections report state = (last, after) ∧
      Aside kind state after ∧ last.object = report.object := by
  induction collections generalizing report state with
  | nil => exact ⟨report, state, rfl, .refl kind state, rfl⟩
  | cons planned rest ih =>
      have aside := planned.schema.aside_applyOperations (foreign planned List.mem_cons_self)
        (within planned List.mem_cons_self) state
      rcases ran : planned.schema.applyOperations MemoryStore.remote
        (.under parent planned.schema.kind) planned.operations state with ⟨outcome, middle⟩
      rw [ran] at aside
      obtain ⟨last, after, ranRest, others, same⟩ :=
        ih (fun other member => within other (List.mem_cons_of_mem _ member))
          (fun other member => foreign other (List.mem_cons_of_mem _ member))
          (report.absorb outcome) middle
      exact ⟨last, after, by simp only [applyCollections, ran, ranRest], aside.trans others, same⟩

/-- The collections of a plan are under the top-level object, whether it is found or to be made. -/
theorem Planned.withinParent {state : StoreState} {plan : Plan}
    (planned : request.Planned state.Finds state.Lists plan) (home : Collection) :
    WithinParent (plan.action.address home state.nextId) plan.collections := by
  intro each member
  obtain ⟨desired, _, schema, entries, objects, _, observed, matched⟩ :=
    exists_of_forall₂_right planned.collections member
  have permitted := Schema.matched_of_matchEntries matched
  rw [CollectionPlan.writes, schema]
  cases action : plan.action with
  | create payload =>
      rw [action] at observed
      obtain rfl : objects = [] := observed
      have nothing : StoreState.empty.members (.under (ResourceAction.address home state.nextId
          (.create payload)) desired.schema.kind) = [] := rfl
      rw [← nothing] at permitted
      exact within_of_matched permitted
  | update remote changes =>
      rw [action] at observed
      obtain rfl : objects = state.members (.under remote.reference desired.schema.kind) := observed
      exact within_of_matched permitted

/-- The collections of a request of a catalog kind are of other kinds. -/
theorem Planned.foreign {found : ResourceRef → Option RemoteObject → Prop}
    {listed : Collection → List RemoteObject → Prop} {plan : Plan}
    (planned : request.Planned found listed plan) (catalog : request.schema ∈ Catalog.all) :
    ∀ each ∈ plan.collections, each.schema.kind ≠ request.schema.kind := by
  intro each member same
  obtain ⟨desired, inRequest, schema, _⟩ := exists_of_forall₂_right planned.collections member
  have child := List.find?_eq_none.mp planned.native desired inRequest
  rw [← schema, same] at child
  have childless : ∀ schema ∈ Catalog.all, schema.hasChild schema.kind = false := by decide
  simp [childless request.schema catalog] at child

end PassRequest

end DesiredState
