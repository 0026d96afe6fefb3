import DesiredState.Proofs.Pass.Unopposed

/-!
# Plans that can be made and carried out

Planning a request of catalog kinds without the strict flag can fail at the top-level object and at the
entries, but not at the members that the collections happen to have. In a well-formed state the writes
of a plan can follow one another.
-/

set_option autoImplicit false

namespace DesiredState

open StoreState

namespace PassRequest

variable {request : PassRequest}

/-! ## Making a plan -/

private theorem planCollections_total {action : ResourceAction} {collections : List DesiredCollection}
    (adaptable : ∀ desired ∈ collections, desired.schema.Adaptable)
    (described : ∀ desired ∈ collections, ∃ entries,
      desired.schema.descriptors desired.entries = .ok entries) (store : MemoryStore) :
    ∃ planned last,
      planCollections MemoryStore.remote action false collections store = (.ok planned, last) := by
  induction collections generalizing store with
  | nil => exact ⟨[], store, rfl⟩
  | cons desired rest ih =>
      obtain ⟨entries, accepted⟩ := described desired List.mem_cons_self
      have looked : ∃ objects last,
          observed MemoryStore.remote action desired.schema.kind store = (.ok objects, last) := by
        cases action with
        | create payload => exact ⟨[], store, rfl⟩
        | update remote changes => exact ⟨_, _, rfl⟩
      obtain ⟨objects, middle, seen⟩ := looked
      obtain ⟨set, matched⟩ :=
        Schema.reconcile_total (adaptable desired List.mem_cons_self) accepted objects
      obtain ⟨tail, last, others⟩ := ih
        (fun other member => adaptable other (List.mem_cons_of_mem _ member))
        (fun other member => described other (List.mem_cons_of_mem _ member)) middle
      have first : planCollection MemoryStore.remote action false desired store =
          (.ok ⟨desired.schema, set⟩, middle) := by
        simp only [planCollection, accepted, seen, matched]
      refine ⟨⟨desired.schema, set⟩ :: tail, last, ?_⟩
      simp only [planCollections, first, others]

private theorem adaptable_of_catalog (catalog : request.FromCatalog)
    (native : request.foreignCollection? = none) {desired : DesiredCollection}
    (member : desired ∈ request.collections) : desired.schema.Adaptable := by
  have managed := List.find?_eq_none.mp native desired member
  exact Catalog.adaptable catalog.schema (catalog.collections desired member) (by simpa using managed)

/-- Where the top-level object is found and differs in nothing that is fixed, there is a plan. -/
theorem plan_total (catalog : request.FromCatalog) (native : request.foreignCollection? = none)
    (lenient : request.strict = false) {reference : ResourceRef}
    (target : request.target = .existing reference)
    (described : ∀ desired ∈ request.collections, ∃ entries,
      desired.schema.descriptors desired.entries = .ok entries)
    {store : MemoryStore} {top : RemoteObject} (found : store.state.find? reference = some top)
    {changes : List FieldChange}
    (differs : request.schema.diff top request.desired request.schema.mutabilityPolicy = .ok changes) :
    ∃ plan looked, request.plan MemoryStore.remote store = (.ok plan, looked) ∧
      plan.action = .update top changes := by
  have read : fetch MemoryStore.remote request store = (.ok (some top), store.noted (.get reference)) := by
    simp only [fetch, target, MemoryStore.remote, MemoryStore.get, found]
  have acted : request.action (some top) = .ok (.update top changes) := by
    simp only [PassRequest.action, differs]
  have collections : ∃ planned last, planCollections MemoryStore.remote (.update top changes) false
      request.collections (store.noted (.get reference)) = (.ok planned, last) :=
    planCollections_total (fun desired member => adaptable_of_catalog catalog native member) described _
  obtain ⟨planned, last, others⟩ := collections
  rw [← lenient] at others
  refine ⟨⟨request.schema, .update top changes, planned⟩, last, ?_, rfl⟩
  simp only [plan, native, read, acted, others]

end PassRequest

/-! ## Carrying it out -/

namespace StoreState

variable {state : StoreState} {schema : Schema} {parent : ResourceRef} {kind : String}
  {entries : List Descriptor} {set : OperationSet}

/-- The operations of a collection delete nothing that a later one needs. -/
theorem leaving_of_matched (numbered : state.Numbered)
    (matched : schema.Matched entries (state.members (.under parent kind)) set) :
    (set.operations.map (Operation.write (.under parent kind))).Pairwise Write.LeavesFor := by
  have within := within_of_matched matched
  have references := numbered.members_nodup (.under parent kind)
  have permuted := (matched.perm_observed.map (·.reference)).nodup_iff.mp references
  rw [List.map_append, List.map_map, List.nodup_append] at permuted
  obtain ⟨_, deletesNodup, disjoint⟩ := permuted
  have apart : (set.operations.map (Operation.write (.under parent kind))).Pairwise
      fun earlier later => ∀ reference, earlier = .delete reference → later.needs ≠ some reference := by
    rw [OperationSet.writes_eq, List.pairwise_append]
    refine ⟨?_, ?_, ?_⟩
    · rw [List.pairwise_map]
      refine deletesNodup.imp fun differ reference isDelete needed => ?_
      cases isDelete
      exact differ (Option.some.inj needed).symm
    · refine List.pairwise_of_forall_mem_list fun earlier member later _ reference isDelete => ?_
      subst isDelete
      simp at member
    · intro earlier deleted later member reference isDelete needed
      subst isDelete
      obtain ⟨removed, inDeletes, same⟩ := List.mem_map.mp deleted
      cases same
      obtain ⟨remote, isDeleted, rfl⟩ := List.mem_map.mp inDeletes
      have observed := mem_members.mp (matched.toDelete_sublist.subset isDeleted)
      rcases List.mem_append.mp member with create | update
      · obtain ⟨payload, _, rfl⟩ := List.mem_map.mp create
        exact ResourceRef.ne_of_parent? (Collection.parent?_of_contains observed.2)
          (Option.some.inj needed).symm
      · simp only [List.map_map, List.mem_map, Function.comp_apply] at update
        obtain ⟨pair, pending, rfl⟩ := update
        have inUpdates := (List.mem_filter.mp pending).1
        exact disjoint _ (List.mem_map_of_mem (f := (·.reference) ∘ (·.remote)) inUpdates) _ inDeletes
          (Option.some.inj needed)
  exact apart.imp_of_mem fun first second differ =>
    Write.leavesFor_of_within (within _ first) (within _ second) (.inr differ)

private theorem allows_of_matched (held : state.holds parent = true)
    (matched : schema.Matched entries (state.members (.under parent kind)) set) :
    ∀ write ∈ set.operations.map (Operation.write (.under parent kind)), state.Allows write := by
  intro write member
  rw [allows_iff]
  intro reference needed
  have present : ∀ remote ∈ state.members (.under parent kind), state.holds remote.reference = true :=
    fun remote observed => holds_iff.mpr (List.mem_map_of_mem (mem_members.mp observed).1)
  obtain ⟨operation, inOperations, rfl⟩ := List.mem_map.mp member
  cases operation with
  | delete remote =>
      cases needed
      have isDeleted : remote ∈ set.toDelete := by
        simpa [OperationSet.operations] using inOperations
      exact present remote (matched.toDelete_sublist.subset isDeleted)
  | create desired =>
      cases needed
      exact held
  | update pair =>
      cases needed
      have pending : pair ∈ set.pendingUpdates := by
        simpa [OperationSet.operations] using inOperations
      exact present pair.remote (matched.pairOf_mem (List.mem_filter.mp pending).1).remote_mem

end StoreState

namespace PassRequest

variable {request : PassRequest} {state : StoreState} {plan : Plan} {remote : RemoteObject}
  {changes : List FieldChange}

theorem Planned.collections_matched (planned : request.Planned state.Finds state.Lists plan)
    (action : plan.action = .update remote changes) :
    List.Forall₂ (CollectionMatched state state remote.reference) request.collections
      plan.collections := by
  refine planned.collections.imp fun desired each found => ?_
  obtain ⟨schema, entries, objects, described, observed, matched⟩ := found
  rw [action] at observed
  obtain rfl : objects = state.members (.under remote.reference desired.schema.kind) := observed
  exact ⟨schema, List.filter_sublist.subset, entries, described,
    Schema.matched_of_matchEntries matched⟩

/-- In a well-formed state the writes of a plan can follow one another. -/
theorem Planned.allowsAll (planned : request.Planned state.Finds state.Lists plan)
    (numbered : state.Numbered) (catalog : request.FromCatalog)
    (action : plan.action = .update remote changes) (held : state.holds remote.reference = true) :
    state.AllowsAll (plan.writes request.homeCollection remote.reference) := by
  have aligned := planned.collections_matched action
  have within := withinParent_of_matched aligned
  have kinds : (plan.collections.map (·.schema.kind)).Nodup := planned.kinds_eq ▸ catalog.kinds_nodup
  apply allowsAll_of_pairwise
  · intro write member
    rcases List.mem_append.mp member with top | rest
    · rw [action] at top
      cases changes with
      | nil => cases top
      | cons change others =>
          cases List.mem_singleton.mp top
          exact held
    · obtain ⟨each, inPlan, inWrites⟩ := List.mem_flatMap.mp rest
      obtain ⟨desired, _, schema, _, entries, _, matched⟩ := exists_of_forall₂_right aligned inPlan
      rw [CollectionPlan.writes, schema] at inWrites
      exact allows_of_matched held matched write inWrites
  · rw [Plan.writes, List.pairwise_append]
    refine ⟨?_, ?_, ?_⟩
    · refine List.pairwise_of_forall_mem_list fun earlier member later _ reference _ => ?_
      exact spares_action reference earlier member
    · rw [List.pairwise_flatMap]
      constructor
      · intro each inPlan
        obtain ⟨desired, _, schema, _, entries, _, matched⟩ := exists_of_forall₂_right aligned inPlan
        rw [CollectionPlan.writes, schema]
        exact leaving_of_matched numbered matched
      · refine (List.pairwise_map.mp kinds).imp_of_mem fun inPlan laterInPlan differ earlier first
          later second => ?_
        exact Write.leavesFor_of_within (within _ inPlan earlier first)
          (within _ laterInPlan later second) (.inl differ)
    · intro earlier member later _ reference _
      exact spares_action reference earlier member

end PassRequest

end DesiredState
