import DesiredState.Proofs.Pass.Accounting
import DesiredState.Proofs.Pass.Slot
import DesiredState.Schema.Catalog
import DesiredState.Store.Memory

/-!
# Turns of operations

Every operation of a collection has one turn: what it exchanges with the store, and what comes of it. A
run is the turns of its operations in their order, whatever the store refuses, and its outcome is made of
theirs. Which creates are skipped depends on the deletes alone that the store refused, so that a skipped
create could as well not have been there.
-/

set_option autoImplicit false

namespace DesiredState

variable {σ : Type}

structure Turn where
  exchanges : List Exchange
  outcome : ApplyOutcome

namespace Turn

def isRefused (turn : Turn) : Bool := turn.exchanges.any Exchange.isRefused

/-- Whether a create is reported as skipped. -/
def Skips (turn : Turn) : Prop :=
  ∃ resource identity blocker, .dependentSkipped resource identity blocker ∈ turn.outcome.errors

end Turn

/-- The objects that the store refused to delete, in the turns of their deletes. -/
def refusedAmong (remotes : List RemoteObject) (turns : List Turn) : List RemoteObject :=
  ((remotes.zip turns).filter fun (_, turn) => turn.isRefused).map (·.1)

namespace PassState

def recording (state : PassState σ) (exchanges : List Exchange) : PassState (Recorded σ) :=
  ⟨⟨state.store, exchanges⟩, state.log, state.clock⟩

private theorem call_recording {α : Type} {ask : σ → Except StoreError α × σ} {state after : PassState σ}
    {answer : Except StoreError α} (ran : state.call ask = (answer, after))
    (exchange : Except StoreError α → Exchange) (exchanges : List Exchange) :
    (state.recording exchanges).call (RemoteStore.recordCall ask exchange) =
      (answer, after.recording (exchanges ++ [exchange answer])) := by
  cases ran
  rfl

theorem noted_recording (state : PassState σ) (exchanges : List Exchange) (entries : List String) :
    (state.recording exchanges).noted entries = (state.noted entries).recording exchanges :=
  rfl

end PassState

namespace Schema

variable (schema : Schema)

/-! ## What a turn can be -/

inductive DeleteTurn (remote : RemoteObject) : Turn → Prop where
  | accepted :
      DeleteTurn remote ⟨[.delete remote.reference (.ok ())],
        ⟨[.deleted (schema.identityOf remote) remote.reference], []⟩⟩
  | refused (source : StoreError) :
      DeleteTurn remote ⟨[.delete remote.reference (.error source)],
        ⟨[], [.operationFailed .delete schema.kind (schema.identityOf remote) source]⟩⟩

/-- The turn of a create, after the store refused to delete some objects. -/
inductive CreateTurn (collection : Collection) (refused : List RemoteObject) (desired : Descriptor) :
    Turn → Prop where
  | accepted (free : refused.find? (schema.obstructs · desired) = none) (created : RemoteObject) :
      CreateTurn collection refused desired
        ⟨[.create collection desired.createPayload (.ok created)],
          ⟨[.created (schema.identityLabel desired) created.reference], []⟩⟩
  | refused (free : refused.find? (schema.obstructs · desired) = none) (source : StoreError) :
      CreateTurn collection refused desired
        ⟨[.create collection desired.createPayload (.error source)],
          ⟨[], [.operationFailed .create schema.kind (schema.identityLabel desired) source]⟩⟩
  | skipped {blocker : RemoteObject}
      (blocked : refused.find? (schema.obstructs · desired) = some blocker) :
      CreateTurn collection refused desired
        ⟨[], ⟨[], [.dependentSkipped schema.kind (schema.identityLabel desired)
          (schema.identityOf blocker)]⟩⟩

/-- The turn of an update. It is sent if its values suit, and the object is read again if the store
accepted it. -/
inductive UpdateTurn (pair : MatchedPair) : Turn → Prop where
  | unsuited {error : PassError} (unsuited : schema.Unsuited pair.changes error) :
      UpdateTurn pair ⟨[], ⟨[], [error]⟩⟩
  | refused (fits : schema.Fits pair.changes) (source : StoreError) :
      UpdateTurn pair
        ⟨[.update pair.remote.reference (FieldChange.applyAll pair.changes ∅) (.error source)],
          ⟨[], [.operationFailed .update schema.kind (schema.identityOf pair.remote) source]⟩⟩
  | accepted (fits : schema.Fits pair.changes) (written object : RemoteObject) :
      UpdateTurn pair
        ⟨[.update pair.remote.reference (FieldChange.applyAll pair.changes ∅) (.ok written),
            .get pair.remote.reference (.ok (some object))],
          ⟨[.updated (schema.identityOf pair.remote) object.reference pair.changes], []⟩⟩
  | unread (fits : schema.Fits pair.changes) (written : RemoteObject)
      {answer : Except StoreError (Option RemoteObject)} {error : PassError}
      (unread : reread pair.remote.reference answer = .error error) :
      UpdateTurn pair
        ⟨[.update pair.remote.reference (FieldChange.applyAll pair.changes ∅) (.ok written),
            .get pair.remote.reference answer],
          ⟨[.updated (schema.identityOf pair.remote) pair.remote.reference pair.changes], [error]⟩⟩

/-! ## One operation -/

/-- Operations take these turns from one state to another, whatever was exchanged and reported before. -/
def Takes (store : RemoteStore σ) (collection : Collection) (operations : List Operation)
    (turns : List Turn) (before : PassState σ) (held : List HeldSlot) (after : PassState σ)
    (stillHeld : List HeldSlot) : Prop :=
  ∀ exchanges outcome,
    operations.foldl (schema.applyOperation store.recorded collection)
        ⟨before.recording exchanges, held, outcome⟩ =
      ⟨after.recording (exchanges ++ turns.flatMap (·.exchanges)), stillHeld,
        outcome.merge ⟨turns.flatMap (·.outcome.applied), turns.flatMap (·.outcome.errors)⟩⟩

variable {schema} {store : RemoteStore σ} {collection : Collection}

namespace Takes

theorem nil (state : PassState σ) (held : List HeldSlot) :
    schema.Takes store collection [] [] state held state held := by
  intro exchanges outcome
  simp [ApplyOutcome.merge]

theorem append {operations others : List Operation} {turns later : List Turn}
    {before middle after : PassState σ} {held stillHeld lastHeld : List HeldSlot}
    (first : schema.Takes store collection operations turns before held middle stillHeld)
    (rest : schema.Takes store collection others later middle stillHeld after lastHeld) :
    schema.Takes store collection (operations ++ others) (turns ++ later) before held after
      lastHeld := by
  intro exchanges outcome
  rw [List.foldl_append, first, rest]
  simp only [List.flatMap_append, ApplyOutcome.merge, List.append_assoc]

theorem single {operation : Operation} {turn : Turn} {before after : PassState σ}
    {held stillHeld : List HeldSlot}
    (taken : ∀ exchanges outcome, schema.applyOperation store.recorded collection
      ⟨before.recording exchanges, held, outcome⟩ operation =
        ⟨after.recording (exchanges ++ turn.exchanges), stillHeld, outcome.merge turn.outcome⟩) :
    schema.Takes store collection [operation] [turn] before held after stillHeld := by
  intro exchanges outcome
  rw [List.foldl_cons, List.foldl_nil, taken]
  simp

end Takes

private theorem takes_delete (store : RemoteStore σ) (collection : Collection) (remote : RemoteObject)
    (before : PassState σ) (held : List HeldSlot) :
    ∃ turn after, schema.DeleteTurn remote turn ∧
      schema.Takes store collection [.delete remote] [turn] before held after
        (held ++ (refusedAmong [remote] [turn]).map schema.heldSlot) := by
  rcases ran : before.call (store.delete remote.reference) with ⟨answer, after⟩
  have answered := PassState.call_recording ran (.delete remote.reference)
  cases answer with
  | error source =>
      refine ⟨_, after, .refused source, .single fun exchanges outcome => ?_⟩
      simp only [applyOperation, applyDelete, RemoteStore.recorded, answered,
        ApplyOutcome.withError_eq_merge]
      rfl
  | ok done =>
      refine ⟨_, after.noted ["delete " ++ schema.identityOf remote], .accepted,
        .single fun exchanges outcome => ?_⟩
      simp only [applyOperation, applyDelete, RemoteStore.recorded, answered,
        ApplyOutcome.withApplied_eq_merge]
      simp [refusedAmong, Turn.isRefused, Exchange.isRefused, PassState.noted, PassState.recording]

private theorem takes_create (store : RemoteStore σ) (collection : Collection) (refused : List RemoteObject)
    (desired : Descriptor) (before : PassState σ) :
    ∃ turn after, schema.CreateTurn collection refused desired turn ∧
      schema.Takes store collection [.create desired] [turn] before (refused.map schema.heldSlot) after
        (refused.map schema.heldSlot) ∧
      (turn.Skips → after = before) := by
  have blocking : schema.blocker? (refused.map schema.heldSlot) desired = _ :=
    blocker?_heldSlots refused desired
  cases obstructed : refused.find? (schema.obstructs · desired) with
  | some blocker =>
      rw [obstructed] at blocking
      refine ⟨_, before, .skipped obstructed, .single fun exchanges outcome => ?_, fun _ => rfl⟩
      simp only [applyOperation, applyCreate, blocking, Option.map_some, heldSlot,
        ApplyOutcome.withError_eq_merge, List.append_nil]
  | none =>
      rw [obstructed] at blocking
      rcases ran : before.call (store.create collection desired.createPayload) with ⟨answer, after⟩
      have answered := PassState.call_recording ran (.create collection desired.createPayload)
      cases answer with
      | error source =>
          refine ⟨_, after, .refused obstructed source, .single fun exchanges outcome => ?_, ?_⟩
          · simp only [applyOperation, applyCreate, blocking, Option.map_none, RemoteStore.recorded,
              answered, ApplyOutcome.withError_eq_merge, Schema.refused]
          · rintro ⟨_, _, _, member⟩
            cases List.mem_singleton.mp member
      | ok created =>
          refine ⟨_, after.noted ["create " ++ schema.identityLabel desired],
            .accepted obstructed created, .single fun exchanges outcome => ?_, ?_⟩
          · simp only [applyOperation, applyCreate, blocking, Option.map_none, RemoteStore.recorded,
              answered, ApplyOutcome.withApplied_eq_merge]
            rfl
          · rintro ⟨_, _, _, member⟩
            cases member

private theorem refetch_recording {reference : ResourceRef} {state after : PassState σ}
    {answer : Except StoreError (Option RemoteObject)}
    (read : state.call (store.get reference) = (answer, after)) (exchanges : List Exchange) :
    refetch store.recorded reference (state.recording exchanges) =
      (reread reference answer, after.recording (exchanges ++ [.get reference answer])) := by
  simp only [refetch, RemoteStore.recorded, PassState.call_recording read]
  rcases answer with error | _ | object <;> rfl

/-- An update that the store accepts is followed by a read. -/
theorem applyChanges_accepted {remote : RemoteObject} {changes : List FieldChange}
    (pending : changes.isEmpty = false) (fits : schema.Fits changes) {before middle : PassState σ}
    {written : RemoteObject}
    (ran : before.call (store.update remote.reference (FieldChange.applyAll changes ∅)) =
      (.ok written, middle)) :
    ∃ answer, ∃ after : PassState σ, ∀ exchanges,
      schema.applyChanges store.recorded remote changes (before.recording exchanges) =
        (.ok ⟨changes, reread remote.reference answer⟩,
          after.recording (exchanges ++
            [.update remote.reference (FieldChange.applyAll changes ∅) (.ok written),
              .get remote.reference answer])) := by
  let noted := middle.noted (changes.map fun change =>
    "update " ++ schema.identityOf remote ++ ": " ++ change.text)
  rcases read : noted.call (store.get remote.reference) with ⟨answer, after⟩
  refine ⟨answer, after, fun exchanges => ?_⟩
  have updated : (before.recording exchanges).call
      (store.recorded.update remote.reference (FieldChange.applyAll changes ∅)) = (.ok written, _) :=
    PassState.call_recording ran (.update remote.reference (FieldChange.applyAll changes ∅)) exchanges
  simp only [applyChanges, pending, Bool.false_eq_true, if_false, updateBody_of_fine fits, updated,
    PassState.noted_recording]
  rw [refetch_recording read, List.append_assoc]
  rfl

private theorem takes_update (store : RemoteStore σ) (collection : Collection) {pair : MatchedPair}
    (pending : pair.changes ≠ []) (before : PassState σ) (held : List HeldSlot) :
    ∃ turn after, schema.UpdateTurn pair turn ∧
      schema.Takes store collection [.update pair] [turn] before held after held := by
  have some : pair.changes.isEmpty = false := by simpa using pending
  rcases schema.fits_or_unsuited pair.changes with fits | ⟨error, unsuited⟩
  · rcases ran : before.call
      (store.update pair.remote.reference (FieldChange.applyAll pair.changes ∅)) with ⟨reply, middle⟩
    cases reply with
    | error source =>
        have refused := PassState.call_recording ran
          (.update pair.remote.reference (FieldChange.applyAll pair.changes ∅))
        refine ⟨_, middle, .refused fits source, .single fun exchanges outcome => ?_⟩
        simp only [applyOperation, applyUpdate, applyChanges, some, Bool.false_eq_true, if_false,
          updateBody_of_fine fits, RemoteStore.recorded, refused, ApplyOutcome.withError_eq_merge]
    | ok written =>
        obtain ⟨answer, after, applied⟩ := applyChanges_accepted some fits ran
        cases read : reread pair.remote.reference answer with
        | ok object =>
            have found := reread_eq_ok read
            subst found
            refine ⟨_, after, .accepted fits written object, .single fun exchanges outcome => ?_⟩
            simp only [applyOperation, applyUpdate, applied, read, ApplyOutcome.withApplied_eq_merge]
        | error error =>
            refine ⟨_, after, .unread fits written read, .single fun exchanges outcome => ?_⟩
            simp only [applyOperation, applyUpdate, applied, read, ApplyOutcome.withApplied_eq_merge,
              ApplyOutcome.withError_eq_merge, ApplyOutcome.merge_assoc]
            rfl
  · refine ⟨_, before, .unsuited unsuited, .single fun exchanges outcome => ?_⟩
    simp only [applyOperation, applyUpdate, applyChanges, some, Bool.false_eq_true, if_false,
      updateBody_of_unsuited unsuited, ApplyOutcome.withError_eq_merge, List.append_nil]

/-! ## All operations -/

private theorem refusedAmong_cons (remote : RemoteObject) (rest : List RemoteObject) (turn : Turn)
    (turns : List Turn) :
    refusedAmong (remote :: rest) (turn :: turns) =
      refusedAmong [remote] [turn] ++ refusedAmong rest turns := by
  simp only [refusedAmong, List.zip_cons_cons, List.zip_nil_left, List.filter_cons, List.filter_nil]
  split <;> rfl

private theorem takes_deletes (schema : Schema) (store : RemoteStore σ) (collection : Collection)
    (remotes : List RemoteObject) (before : PassState σ) (held : List HeldSlot) :
    ∃ turns after, List.Forall₂ schema.DeleteTurn remotes turns ∧
      schema.Takes store collection (remotes.map .delete) turns before held after
        (held ++ (refusedAmong remotes turns).map schema.heldSlot) := by
  induction remotes generalizing before held with
  | nil => exact ⟨[], before, .nil, by simpa [refusedAmong] using Takes.nil before held⟩
  | cons remote rest ih =>
      obtain ⟨turn, middle, made, taken⟩ := takes_delete store collection remote before held
      obtain ⟨turns, after, others, takenRest⟩ := ih middle
        (held ++ (refusedAmong [remote] [turn]).map schema.heldSlot)
      refine ⟨turn :: turns, after, .cons made others, ?_⟩
      rw [refusedAmong_cons, List.map_append, ← List.append_assoc]
      exact taken.append takenRest

/-- The creates take their turns, and any skipped one of them can be left out. -/
theorem takes_creates (store : RemoteStore σ) (collection : Collection) (refused : List RemoteObject)
    (entries : List Descriptor) (before : PassState σ) :
    ∃ turns after, List.Forall₂ (schema.CreateTurn collection refused) entries turns ∧
      schema.Takes store collection (entries.map .create) turns before (refused.map schema.heldSlot)
        after (refused.map schema.heldSlot) ∧
      ∀ index turn, turns[index]? = some turn → turn.Skips →
        schema.Takes store collection ((entries.eraseIdx index).map .create) (turns.eraseIdx index)
          before (refused.map schema.heldSlot) after (refused.map schema.heldSlot) := by
  induction entries generalizing before with
  | nil => exact ⟨[], before, .nil, .nil before _, fun _ _ found => by cases found⟩
  | cons desired rest ih =>
      obtain ⟨turn, middle, made, taken, unchanged⟩ :=
        takes_create store collection refused desired before
      obtain ⟨turns, after, others, takenRest, without⟩ := ih middle
      refine ⟨turn :: turns, after, .cons made others, taken.append takenRest, ?_⟩
      intro index skipped found skips
      cases index with
      | zero =>
          -- A skip leaves the state as it was, and so the rest starts from there.
          cases found
          rw [← unchanged skips]
          exact takenRest
      | succ index => exact taken.append (without index skipped found skips)

private theorem takes_updates (store : RemoteStore σ) (collection : Collection) {pairs : List MatchedPair}
    (pending : ∀ pair ∈ pairs, pair.changes ≠ []) (before : PassState σ) (held : List HeldSlot) :
    ∃ turns after, List.Forall₂ schema.UpdateTurn pairs turns ∧
      schema.Takes store collection (pairs.map .update) turns before held after held := by
  induction pairs generalizing before with
  | nil => exact ⟨[], before, .nil, .nil before held⟩
  | cons pair rest ih =>
      obtain ⟨pendingFirst, pendingRest⟩ := List.forall_mem_cons.mp pending
      obtain ⟨turn, middle, made, taken⟩ := takes_update store collection pendingFirst before held
      obtain ⟨turns, after, others, takenRest⟩ := ih pendingRest middle
      exact ⟨turn :: turns, after, .cons made others, taken.append takenRest⟩

/-- The operations of a collection run from one state to another in these turns. With a record the run
is the same, and the record is what the turns exchanged. -/
structure RunBy (schema : Schema) (store : RemoteStore σ) (collection : Collection) (set : OperationSet)
    (before after : PassState σ) (turns : List Turn) : Prop where
  ran : schema.applyOperations store collection set before =
    (⟨turns.flatMap (·.outcome.applied), turns.flatMap (·.outcome.errors)⟩, after)
  sent : schema.applyOperations store.recorded collection set (before.recording []) =
    (⟨turns.flatMap (·.outcome.applied), turns.flatMap (·.outcome.errors)⟩,
      after.recording (turns.flatMap (·.exchanges)))

private theorem Takes.runBy {set : OperationSet} {turns : List Turn} {before after : PassState σ}
    {held : List HeldSlot}
    (taken : schema.Takes store collection set.operations turns before [] after held) :
    schema.RunBy store collection set before after turns := by
  have sent : schema.applyOperations store.recorded collection set (before.recording []) =
      (⟨turns.flatMap (·.outcome.applied), turns.flatMap (·.outcome.errors)⟩,
        after.recording (turns.flatMap (·.exchanges))) := by
    rw [applyOperations, taken [] .empty]
    rfl
  refine ⟨?_, sent⟩
  have begun : PassState.Related (Recorded.Traces [] fun _ => True) before (before.recording []) :=
    ⟨Recorded.traces_start before.store [] _, rfl, rfl⟩
  obtain ⟨outcome, plain, recorded, ran, ranRecorded, related⟩ :=
    (agree_applyOperations (store.callsAgree_recorded []) schema collection set).run begun
  rw [sent] at ranRecorded
  obtain ⟨rfl, rfl⟩ := Prod.mk.inj ranRecorded
  obtain ⟨state, log, clock⟩ := plain
  obtain ⟨⟨rfl, _⟩, rfl, rfl⟩ := related
  exact ran

/-- Every operation has its turn. -/
theorem applyOperations_turns (schema : Schema) (store : RemoteStore σ) (collection : Collection)
    (set : OperationSet) (before : PassState σ) :
    ∃ deletes creates updates after,
      List.Forall₂ schema.DeleteTurn set.toDelete deletes ∧
      List.Forall₂ (schema.CreateTurn collection (refusedAmong set.toDelete deletes)) set.toCreate
        creates ∧
      List.Forall₂ schema.UpdateTurn set.pendingUpdates updates ∧
      schema.RunBy store collection set before after (deletes ++ creates ++ updates) ∧
      ∀ index turn, creates[index]? = some turn → turn.Skips →
        schema.RunBy store collection { set with toCreate := set.toCreate.eraseIdx index } before after
          (deletes ++ creates.eraseIdx index ++ updates) := by
  have pending : ∀ pair ∈ set.pendingUpdates, pair.changes ≠ [] := by
    intro pair member
    simpa using (List.mem_filter.mp member).2
  obtain ⟨deletes, deleted, deleteTurns, takenDeletes⟩ :=
    schema.takes_deletes store collection set.toDelete before []
  obtain ⟨creates, created, createTurns, takenCreates, without⟩ := takes_creates store collection
    (refusedAmong set.toDelete deletes) set.toCreate deleted
  obtain ⟨updates, after, updateTurns, takenUpdates⟩ := takes_updates store collection pending created
    ((refusedAmong set.toDelete deletes).map schema.heldSlot)
  refine ⟨deletes, creates, updates, after, deleteTurns, createTurns, updateTurns,
    ((takenDeletes.append takenCreates).append takenUpdates).runBy, fun index turn found skips => ?_⟩
  exact ((takenDeletes.append (without index turn found skips)).append takenUpdates).runBy

/-- The operations of a collection all run, whatever the store refuses, and each is accounted for. The
deletes take their turns, then the creates that no object blocks after its refused delete, then the
updates that have changes; an update carries exactly the fields and values of its changes. The exchanges
with the store are those of the turns and no others, and the outcome lists what came of each turn, in
the same order. -/
theorem every_operation_accounted (schema : Schema) (store : RemoteStore σ) (collection : Collection)
    (set : OperationSet) (before : PassState σ)
    (distinct : ∀ pair ∈ set.toUpdate, (pair.changes.map (·.field)).Nodup) :
    ∃ deletes creates updates after,
      schema.RunBy store collection set before after (deletes ++ creates ++ updates) ∧
      List.Forall₂ schema.DeleteTurn set.toDelete deletes ∧
      List.Forall₂ (schema.CreateTurn collection (refusedAmong set.toDelete deletes)) set.toCreate
        creates ∧
      List.Forall₂ schema.UpdateTurn set.pendingUpdates updates ∧
      ∀ pair ∈ set.pendingUpdates, (FieldChange.applyAll pair.changes ∅).entries.Perm
        (pair.changes.map fun change => (change.field, change.new)) := by
  obtain ⟨deletes, creates, updates, after, deleteTurns, createTurns, updateTurns, run, _⟩ :=
    schema.applyOperations_turns store collection set before
  exact ⟨deletes, creates, updates, after, run, deleteTurns, createTurns, updateTurns, fun pair member =>
    FieldChange.entries_applyAll_perm (distinct pair (List.mem_of_mem_filter member))⟩

/-- Operations on rules in a store that refuses to delete one of them: a rule in its place is to be
created, and so is another, and of two rules that are to change one would get an unsuitable value. -/
def partlyRefused : OperationSet × PassState MemoryStore :=
  let rule := Catalog.observedRule
  let rules := [rule 2 "dns", rule 3 "ssh", rule 4 "http", rule 5 "smtp", rule 6 "ntp"]
  let pair (id : Nat) (label : String) (changes : List FieldChange) : MatchedPair :=
    ⟨rule id label, Catalog.wantedRule label, changes⟩
  let updates := [pair 4 "http" [⟨"action", none, .string "DROP"⟩, ⟨"ports", none, .string "80"⟩],
    pair 5 "smtp" [⟨"action", none, .bool true⟩], pair 6 "ntp" []]
  let store := MemoryStore.ofState ⟨6, 0, 0, ⟨.top "firewall" 1, ∅⟩ :: rules, []⟩ (.stopped .epoch)
  let failure : InjectedFailure :=
    ⟨.delete, "firewall_rule", some ("label", .string "ssh"), 400, "injected failure"⟩
  (⟨["ssh", "pop"].map Catalog.wantedRule, updates, [rule 2 "dns", rule 3 "ssh"]⟩,
    ⟨{ store with failures := [failure] }, [], 0⟩)

theorem every_operation_accounted_partlyRefused :
    (∀ pair ∈ partlyRefused.1.toUpdate, (pair.changes.map (·.field)).Nodup) ∧
      ∃ deletes creates updates after,
        Catalog.firewallRule.RunBy MemoryStore.remote (.under (.top "firewall" 1) "firewall_rule")
          partlyRefused.1 partlyRefused.2 after (deletes ++ creates ++ updates) ∧
        deletes.length = 2 ∧ creates.length = 2 ∧ updates.length = 2 ∧
        ((deletes ++ creates ++ updates).flatMap (·.outcome.applied)).length = 3 ∧
        ((deletes ++ creates ++ updates).flatMap (·.outcome.errors)).length = 3 ∧
        ((deletes ++ creates ++ updates).flatMap (·.exchanges)).length = 5 := by
  have distinct : ∀ pair ∈ partlyRefused.1.toUpdate, (pair.changes.map (·.field)).Nodup := by decide
  obtain ⟨deletes, creates, updates, after, run, deleteTurns, createTurns, updateTurns, _⟩ :=
    every_operation_accounted Catalog.firewallRule MemoryStore.remote
      (.under (.top "firewall" 1) "firewall_rule") partlyRefused.1 partlyRefused.2 distinct
  exact ⟨distinct, deletes, creates, updates, after, run, deleteTurns.length_eq.symm,
    createTurns.length_eq.symm, updateTurns.length_eq.symm,
    (congrArg (·.1.applied.length) run.ran).symm, (congrArg (·.1.errors.length) run.ran).symm,
    (congrArg (·.2.store.exchanges.length) run.sent).symm⟩

end Schema

end DesiredState
