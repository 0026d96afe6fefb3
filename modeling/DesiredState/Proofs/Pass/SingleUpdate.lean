import DesiredState.Proofs.Diff.Least
import DesiredState.Proofs.Pass.Sent
import DesiredState.Proofs.Store.Atomicity

/-!
# One object, at most one update

To reconcile an object is to send its difference as one update, if there is one to send, and to read the
object again. Before the update is accepted every failure leaves the store and the log alone, and after
that there is no failure. On a store in memory the object that is read needs no more changes.
-/

set_option autoImplicit false

namespace DesiredState

namespace Schema

variable {σ : Type} {schema : Schema} {remote : RemoteObject} {desired : Attributes}

/-- The run of a single update. It is refused, and the run fails and ends there. Or it is accepted, and the
changes are logged in order and the object is read once, whatever that read answers. -/
inductive UpdatesOnce (schema : Schema) (remote : RemoteObject) (changes : List FieldChange)
    (body : Attributes) (before : PassState (Recorded σ)) :
    Except PassError AttributeOutcome × PassState (Recorded σ) → Prop where
  | refused {after : PassState (Recorded σ)} (source : StoreError)
      (sent : after.store.exchanges = before.store.exchanges ++
        [.update remote.reference body (.error source)])
      (log : after.log = before.log) :
      UpdatesOnce schema remote changes body before
        (.error (.operationFailed .update schema.kind (schema.identityOf remote) source), after)
  | accepted {after : PassState (Recorded σ)} (written : RemoteObject)
      (answer : Except StoreError (Option RemoteObject))
      (sent : after.store.exchanges = before.store.exchanges ++
        [.update remote.reference body (.ok written), .get remote.reference answer])
      (log : after.log = before.log ++
        changes.map fun change => "update " ++ schema.identityOf remote ++ ": " ++ change.text) :
      UpdatesOnce schema remote changes body before
        (.ok ⟨changes, reread remote.reference answer⟩, after)

/-- What is sent for a difference: its fields with their new values, which pass the checks of the
update. -/
structure BodyOf (schema : Schema) (changes : List FieldChange) (body : Attributes) : Prop where
  entries : body.entries = changes.map fun change => (change.field, change.new)
  written : ∀ change ∈ changes, ∃ spec, schema.field? change.field = some spec ∧
    ∀ resource request, spec.write resource request change.new =
      .ok (request.insert change.field change.new)

private theorem bodyOf_applyAll {policy : MutabilityPolicy} {changes : List FieldChange}
    (differs : schema.diff remote desired policy = .ok changes) :
    schema.BodyOf changes (FieldChange.applyAll changes ∅) where
  entries := entries_applyAll_empty (sendable_of_diff differs)
  written := by
    intro change member
    obtain ⟨spec, found, _, fine⟩ := (changeOf_of_mem differs member).known
    refine ⟨spec, found, fun resource request => ?_⟩
    rw [FieldSpec.write, FieldSpec.check_ok fine, name_of_field? found]

private theorem reconcileObject_of_diff {store : RemoteStore σ} {state : PassState σ}
    {changes : List FieldChange}
    (differs : schema.diff remote desired schema.mutabilityPolicy = .ok changes) :
    schema.reconcileObject store remote desired state = schema.applyChanges store remote changes state := by
  rw [reconcileObject, differs]

private theorem reconcileObject_of_error {store : RemoteStore σ} {state : PassState σ} {error : PassError}
    (failed : schema.diff remote desired schema.mutabilityPolicy = .error error) :
    schema.reconcileObject store remote desired state = (.error error, state) := by
  rw [reconcileObject, failed]

private theorem reconcileObject_of_settled {store : RemoteStore σ} {state : PassState σ}
    (settled : schema.diff remote desired schema.mutabilityPolicy = .ok []) :
    schema.reconcileObject store remote desired state = (.ok ⟨[], .ok remote⟩, state) := by
  rw [reconcileObject_of_diff settled]
  rfl

private theorem updatesOnce_reconcileObject (store : RemoteStore σ) {changes : List FieldChange}
    (differs : schema.diff remote desired schema.mutabilityPolicy = .ok changes) (pending : changes ≠ [])
    (state : PassState (Recorded σ)) :
    schema.UpdatesOnce remote changes (FieldChange.applyAll changes ∅) state
      (schema.reconcileObject store.recorded remote desired state) := by
  rw [reconcileObject_of_diff differs]
  rcases applyChanges_recorded store remote (sendable_of_diff differs) pending state with
    ⟨source, after, ran, sent, log⟩ | ⟨written, answer, after, ran, sent, log⟩
  · rw [ran]
    exact .refused source sent log
  · rw [ran]
    exact .accepted written answer sent log

/-! ## A store in memory -/

/-- What a run on a store in memory leaves for the next one: the object as it is stored, which needs no
more changes and no call, and of which only desired attributes were touched. -/
structure LeavesSettled (schema : Schema) (remote : RemoteObject) (desired : Attributes)
    (before after : PassState MemoryStore) (object : RemoteObject) : Prop where
  stored : after.store.state.find? remote.reference = some object
  settled : schema.reconcileObject MemoryStore.remote object desired after = (.ok ⟨[], .ok object⟩, after)
  kept : ∀ key, desired.find? key = none → object.get? key = remote.get? key
  others : ∀ other, other ≠ remote.reference →
    after.store.state.find? other = before.store.state.find? other

private theorem leavesSettled_of_settled {state : PassState MemoryStore}
    (stored : state.store.state.find? remote.reference = some remote)
    (settled : schema.diff remote desired schema.mutabilityPolicy = .ok []) :
    schema.LeavesSettled remote desired state state remote where
  stored := stored
  settled := reconcileObject_of_settled settled
  kept := fun _ _ => rfl
  others := fun _ _ => rfl

/-- On a store in memory the update of a stored object fails, or the object is read with the changes. -/
theorem applyChanges_memory {changes : List FieldChange} (sendable : schema.Sendable changes)
    (pending : changes ≠ []) {state : PassState MemoryStore}
    (stored : state.store.state.find? remote.reference = some remote) :
    (∃ error after, schema.applyChanges MemoryStore.remote remote changes state = (.error error, after)) ∨
    ∃ after, schema.applyChanges MemoryStore.remote remote changes state =
        (.ok ⟨changes, .ok ⟨remote.reference, FieldChange.applyAll changes remote.attributes⟩⟩, after) ∧
      after.store.state.find? remote.reference =
        some ⟨remote.reference, FieldChange.applyAll changes remote.attributes⟩ ∧
      ∀ other, other ≠ remote.reference →
        after.store.state.find? other = state.store.state.find? other := by
  have some : changes.isEmpty = false := by simpa using pending
  have asked : MemoryStore.remote.update remote.reference (FieldChange.applyAll changes ∅) state.store =
      MemoryStore.update remote.reference (FieldChange.applyAll changes ∅) state.store := rfl
  simp only [applyChanges, some, Bool.false_eq_true, if_false, updateBody_of_sendable sendable,
    PassState.call, asked]
  rcases MemoryStore.update_cases state.store remote.reference (FieldChange.applyAll changes ∅) with
    ⟨error, ran⟩ | ⟨_, found, ran⟩
  · simp only [ran]
    exact .inl ⟨_, _, rfl⟩
  · simp only [ran]
    have lookUp := state.store.state.find?_written_update remote.reference (FieldChange.applyAll changes ∅)
      state.store.clock.now
    have updated := lookUp remote.reference
    rw [if_pos rfl, stored, Option.map_some, StoreState.withFields,
      FieldChange.insertAll_applyAll_empty sendable.ascending] at updated
    have read : (state.store.written (.update remote.reference (FieldChange.applyAll changes ∅))).state.find?
        remote.reference = _ := updated
    simp only [refetch_memory, PassState.noted, read]
    exact .inr ⟨_, rfl, read, fun other apart => (lookUp other).trans (if_neg apart)⟩

private theorem leavesSettled_of_reconcileObject {state after : PassState MemoryStore}
    {outcome : AttributeOutcome} (stored : state.store.state.find? remote.reference = some remote)
    (ran : schema.reconcileObject MemoryStore.remote remote desired state = (.ok outcome, after)) :
    ∃ object, outcome.refetch = .ok object ∧ schema.LeavesSettled remote desired state after object := by
  cases differs : schema.diff remote desired schema.mutabilityPolicy with
  | error error =>
      rw [reconcileObject_of_error differs] at ran
      cases ran
  | ok changes =>
      by_cases pending : changes = []
      · subst pending
        rw [reconcileObject_of_settled differs] at ran
        cases ran
        exact ⟨remote, rfl, leavesSettled_of_settled stored differs⟩
      · have sendable := sendable_of_diff differs
        rw [reconcileObject_of_diff differs] at ran
        rcases applyChanges_memory sendable pending stored with
          ⟨error, last, refused⟩ | ⟨last, accepted, read, others⟩
        · rw [refused] at ran
          cases ran
        · rw [accepted] at ran
          cases ran
          refine ⟨_, rfl, read, ?_, ?_, others⟩
          · exact reconcileObject_of_settled (diff_applyAll differs rfl schema.mutabilityPolicy)
          · intro key unnamed
            refine FieldChange.find?_applyAll_of_not_mem sendable.ascending remote.attributes ?_
            intro change member same
            have wanted := desired_of_change differs member
            rw [same, unnamed] at wanted
            cases wanted

/-- To reconcile an object takes at most one update, and an error means that nothing was written. If there
is no difference, or it cannot be made, there is no call and nothing is logged; otherwise it is sent whole.
A store in memory has then nothing left to do. -/
theorem reconcile_updates_once (schema : Schema) (store : RemoteStore σ) (remote : RemoteObject)
    (desired : Attributes) :
    (∀ (state : PassState (Recorded σ)) (error : PassError),
      schema.diff remote desired schema.mutabilityPolicy = .error error →
      schema.reconcileObject store.recorded remote desired state = (.error error, state)) ∧
    (∀ state : PassState (Recorded σ), schema.diff remote desired schema.mutabilityPolicy = .ok [] →
      schema.reconcileObject store.recorded remote desired state = (.ok ⟨[], .ok remote⟩, state)) ∧
    (∀ changes, schema.diff remote desired schema.mutabilityPolicy = .ok changes → changes ≠ [] →
      ∃ body, schema.BodyOf changes body ∧ ∀ state : PassState (Recorded σ),
        schema.UpdatesOnce remote changes body state
          (schema.reconcileObject store.recorded remote desired state)) ∧
    (∀ (state after : PassState MemoryStore) (outcome : AttributeOutcome),
      state.store.state.find? remote.reference = some remote →
      schema.reconcileObject MemoryStore.remote remote desired state = (.ok outcome, after) →
      ∃ object, outcome.refetch = .ok object ∧
        schema.LeavesSettled remote desired state after object) := by
  refine ⟨?_, ?_, ?_, ?_⟩
  · exact fun _ _ failed => reconcileObject_of_error failed
  · exact fun _ settled => reconcileObject_of_settled settled
  · intro changes differs pending
    exact ⟨_, bodyOf_applyAll differs, updatesOnce_reconcileObject store differs pending⟩
  · exact fun _ _ _ stored ran => leavesSettled_of_reconcileObject stored ran

/-- A store with nothing but one instance. -/
def regroupedStore : MemoryStore := .ofState ⟨7, 0, 0, [regroupedInstance.1], []⟩ (.stopped .epoch)

theorem reconcile_updates_once_regroupedInstance :
    ∃ changes body object after,
      Catalog.computeInstance.diff regroupedInstance.1 regroupedInstance.2
        Catalog.computeInstance.mutabilityPolicy = .ok changes ∧
      Catalog.computeInstance.BodyOf changes body ∧
      body.entries = [("group", .null), ("label", .string "b")] ∧
      Catalog.computeInstance.UpdatesOnce regroupedInstance.1 changes body ⟨⟨regroupedStore, []⟩, [], 0⟩
        (Catalog.computeInstance.reconcileObject MemoryStore.remote.recorded regroupedInstance.1
          regroupedInstance.2 ⟨⟨regroupedStore, []⟩, [], 0⟩) ∧
      Catalog.computeInstance.reconcileObject MemoryStore.remote regroupedInstance.1 regroupedInstance.2
        ⟨regroupedStore, [], 0⟩ = (.ok ⟨changes, .ok object⟩, after) ∧
      Catalog.computeInstance.LeavesSettled regroupedInstance.1 regroupedInstance.2
        ⟨regroupedStore, [], 0⟩ after object ∧
      after.store.journal = [.update (.top "instance" 7) ["group", "label"], .get (.top "instance" 7)] := by
  obtain ⟨_, _, whole, memory⟩ := reconcile_updates_once Catalog.computeInstance MemoryStore.remote
    regroupedInstance.1 regroupedInstance.2
  obtain ⟨body, isBody, runs⟩ := whole _ rfl (List.cons_ne_nil _ _)
  obtain ⟨object, read, leaves⟩ := memory ⟨regroupedStore, [], 0⟩ _ _ rfl rfl
  cases read
  exact ⟨_, body, _, _, rfl, isBody, isBody.entries, runs _, rfl, leaves, rfl⟩

end Schema

end DesiredState
