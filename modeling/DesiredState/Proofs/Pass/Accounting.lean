import Mathlib.Data.List.Forall2
import DesiredState.Proofs.Pass.Agreement
import DesiredState.Proofs.Pass.Plan

/-!
# Reports and logs account for every write

A pass on a recorded store is followed step by step. Each step sends some exchanges; the ones that
the store accepted come back, one to one and in order, as entries of the report and of the log, and
a refusal leaves an error. What the entries say is what the plan has to say of the write. As long as
nothing is refused, the writes are those of the plan.
-/

set_option autoImplicit false

namespace DesiredState

/-- An entry of a report together with its entries of the log. -/
structure AccountEntry where
  change : AppliedChange
  notes : List String

/-- An object after an update: as it was read again, and as it was before if that failed. -/
def RemoteObject.orReread (remote : RemoteObject) : Except StoreError (Option RemoteObject) → RemoteObject
  | .ok (some object) => object
  | .ok none | .error _ => remote

/-- The entries of the log for an update: one for each changed field. -/
def updateNotes (identity : String) (changes : List FieldChange) : List String :=
  changes.map fun change => "update " ++ identity ++ ": " ++ change.text

/-- The entry for an accepted write, which is one of a plan and was sent among some exchanges. That of
an update lists exactly the fields that were sent, under the address that was read right after it. The
top-level object is reported under its kind when it is created, and under its identity after an update;
in the log it goes by its address and by its identity before the update. The objects of collections go
by their identity, those that are created by that of the desired entry. -/
inductive Exchange.AccountedAs (home : Collection) (plan : Plan) (exchanges : List Exchange) :
    Exchange → AccountEntry → Prop where
  | topCreated {payload : Attributes} (isAction : plan.action = .create payload)
      (object : RemoteObject) :
      AccountedAs home plan exchanges (.create home payload (.ok object))
        ⟨.created plan.schema.kind object.reference, ["create " ++ object.reference.text]⟩
  | topUpdated {remote written : RemoteObject} {changes : List FieldChange} {fields : Attributes}
      {answer : Except StoreError (Option RemoteObject)} (isAction : plan.action = .update remote changes)
      (sent : fields.entries = changes.map fun change => (change.field, change.new))
      (read : [.update remote.reference fields (.ok written), .get remote.reference answer] <:+: exchanges) :
      AccountedAs home plan exchanges (.update remote.reference fields (.ok written))
        ⟨.updated (plan.schema.identityOf (remote.orReread answer)) (remote.orReread answer).reference
          changes, updateNotes (plan.schema.identityOf remote) changes⟩
  | created {planned : CollectionPlan} {desired : Descriptor} (member : planned ∈ plan.collections)
      (isOperation : .create desired ∈ planned.operations.operations) (parent : ResourceRef)
      (object : RemoteObject) :
      AccountedAs home plan exchanges
        (.create (.under parent planned.schema.kind) desired.createPayload (.ok object))
        ⟨.created (planned.schema.identityLabel desired) object.reference,
          ["create " ++ planned.schema.identityLabel desired]⟩
  | updated {planned : CollectionPlan} {pair : MatchedPair} {written : RemoteObject} {fields : Attributes}
      {answer : Except StoreError (Option RemoteObject)} (member : planned ∈ plan.collections)
      (isOperation : .update pair ∈ planned.operations.operations)
      (sent : fields.entries = pair.changes.map fun change => (change.field, change.new))
      (read : [.update pair.remote.reference fields (.ok written),
        .get pair.remote.reference answer] <:+: exchanges) :
      AccountedAs home plan exchanges (.update pair.remote.reference fields (.ok written))
        ⟨.updated (planned.schema.identityOf pair.remote) (pair.remote.orReread answer).reference
          pair.changes, updateNotes (planned.schema.identityOf pair.remote) pair.changes⟩
  | deleted {planned : CollectionPlan} {remote : RemoteObject} (member : planned ∈ plan.collections)
      (isOperation : .delete remote ∈ planned.operations.operations) :
      AccountedAs home plan exchanges (.delete remote.reference (.ok ()))
        ⟨.deleted (planned.schema.identityOf remote) remote.reference,
          ["delete " ++ planned.schema.identityOf remote]⟩

theorem Exchange.AccountedAs.widen {home : Collection} {plan : Plan} {exchanges all : List Exchange}
    {exchange : Exchange} {entry : AccountEntry}
    (accounted : exchange.AccountedAs home plan exchanges entry) (within : exchanges <:+: all) :
    exchange.AccountedAs home plan all entry := by
  cases accounted with
  | topCreated isAction object => exact .topCreated isAction object
  | topUpdated isAction sent read => exact .topUpdated isAction sent (read.trans within)
  | created member isOperation parent object => exact .created member isOperation parent object
  | updated member isOperation sent read => exact .updated member isOperation sent (read.trans within)
  | deleted member isOperation => exact .deleted member isOperation

/-! ## Reads among exchanges -/

namespace Exchange

theorem write?_of_isRead {exchange : Exchange} (reads : exchange.isRead = true) :
    exchange.write? = none := by
  cases exchange <;> first | rfl | cases reads

private theorem isAccepted_of_isRead {exchange : Exchange} (reads : exchange.isRead = true) :
    exchange.isAccepted = false := by
  cases exchange <;> first | rfl | cases reads

private theorem isRefused_of_isRead {exchange : Exchange} (reads : exchange.isRead = true) :
    exchange.isRefused = false := by
  cases exchange <;> first | rfl | cases reads

theorem isRead_of_not_isRefused {exchange : Exchange} (notRefused : exchange.isRefused = false)
    (notAccepted : exchange.isAccepted = false) : exchange.isRead = true := by
  cases exchange with
  | get _ _ | list _ _ | listEvents _ _ | getEvent _ _ => rfl
  | create _ _ answer =>
      cases answer with
      | error error => cases notRefused
      | ok created => cases notAccepted
  | update _ _ answer =>
      cases answer with
      | error error => cases notRefused
      | ok written => cases notAccepted
  | delete _ answer =>
      cases answer with
      | error error => cases notRefused
      | ok done => cases notAccepted

end Exchange

theorem writesOf_append (first second : List Exchange) :
    writesOf (first ++ second) = writesOf first ++ writesOf second :=
  List.filterMap_append

theorem writesOf_of_isRead {exchanges : List Exchange}
    (reads : ∀ exchange ∈ exchanges, exchange.isRead = true) : writesOf exchanges = [] :=
  List.filterMap_eq_nil_iff.mpr fun exchange member =>
    Exchange.write?_of_isRead (reads exchange member)

/-! ## Stretches of a pass -/

variable {σ : Type}

/-- A stretch of a pass on a recorded store: what it sent, and what it had to report. -/
structure Stretch (home : Collection) (plan : Plan) (before after : PassState (Recorded σ))
    (exchanges : List Exchange) (outcome : ApplyOutcome) : Prop where
  sent : after.store.exchanges = before.store.exchanges ++ exchanges
  accounted : ∃ entries : List AccountEntry, outcome.applied = entries.map (·.change) ∧
    after.log = before.log ++ entries.flatMap (·.notes) ∧
    List.Forall₂ (Exchange.AccountedAs home plan exchanges) (exchanges.filter Exchange.isAccepted) entries
  refusals : outcome.errors = [] → ∀ exchange ∈ exchanges, exchange.isRefused = false

namespace Stretch

variable {home : Collection} {plan : Plan}

theorem reading {before after : PassState (Recorded σ)} {exchanges : List Exchange}
    (sent : after.store.exchanges = before.store.exchanges ++ exchanges)
    (log : after.log = before.log) (reads : ∀ exchange ∈ exchanges, exchange.isRead = true)
    (errors : List PassError) : Stretch home plan before after exchanges ⟨[], errors⟩ where
  sent := sent
  accounted := by
    have none : exchanges.filter Exchange.isAccepted = [] :=
      List.filter_eq_nil_iff.mpr fun exchange member => by
        simp [Exchange.isAccepted_of_isRead (reads exchange member)]
    refine ⟨[], rfl, by simpa using log, ?_⟩
    rw [none]
    exact .nil
  refusals := fun _ exchange member => Exchange.isRefused_of_isRead (reads exchange member)

theorem refl (state : PassState (Recorded σ)) (errors : List PassError) :
    Stretch home plan state state [] ⟨[], errors⟩ :=
  reading (by simp) rfl (by simp) errors

theorem trans {first middle last : PassState (Recorded σ)} {sent later : List Exchange}
    {outcome other : ApplyOutcome} (start : Stretch home plan first middle sent outcome)
    (rest : Stretch home plan middle last later other) :
    Stretch home plan first last (sent ++ later) (outcome.merge other) where
  sent := by rw [rest.sent, start.sent, List.append_assoc]
  accounted := by
    obtain ⟨entries, applied, log, accounted⟩ := start.accounted
    obtain ⟨laterEntries, laterApplied, laterLog, laterAccounted⟩ := rest.accounted
    refine ⟨entries ++ laterEntries, ?_, ?_, ?_⟩
    · rw [List.map_append, ← applied, ← laterApplied]
      rfl
    · rw [laterLog, log, List.flatMap_append, List.append_assoc]
    · rw [List.filter_append]
      refine List.rel_append (accounted.imp fun _ _ one => ?_) (laterAccounted.imp fun _ _ one => ?_)
      · exact one.widen (List.prefix_append sent later).isInfix
      · exact one.widen (List.suffix_append sent later).isInfix
  refusals := by
    intro none
    obtain ⟨noneFirst, noneLater⟩ := List.append_eq_nil_iff.mp none
    intro exchange member
    rcases List.mem_append.mp member with inFirst | inLater
    · exact start.refusals noneFirst exchange inFirst
    · exact rest.refusals noneLater exchange inLater

theorem refused {before after : PassState (Recorded σ)} {exchange : Exchange}
    (sent : after.store.exchanges = before.store.exchanges ++ [exchange])
    (log : after.log = before.log) (notAccepted : exchange.isAccepted = false) (error : PassError) :
    Stretch home plan before after [exchange] ⟨[], [error]⟩ where
  sent := sent
  accounted := by
    refine ⟨[], rfl, by simpa using log, ?_⟩
    rw [List.filter_cons_of_neg (by simp [notAccepted])]
    exact .nil
  refusals := fun none => absurd none (List.cons_ne_nil _ _)

theorem accepted {before after : PassState (Recorded σ)} {exchange : Exchange}
    {reads : List Exchange} {entry : AccountEntry}
    (sent : after.store.exchanges = before.store.exchanges ++ exchange :: reads)
    (log : after.log = before.log ++ entry.notes) (isAccepted : exchange.isAccepted = true)
    (isRead : ∀ exchange ∈ reads, exchange.isRead = true)
    (accounted : exchange.AccountedAs home plan (exchange :: reads) entry) (errors : List PassError) :
    Stretch home plan before after (exchange :: reads) ⟨[entry.change], errors⟩ where
  sent := sent
  accounted := by
    have none : reads.filter Exchange.isAccepted = [] :=
      List.filter_eq_nil_iff.mpr fun exchange member => by
        simp [Exchange.isAccepted_of_isRead (isRead exchange member)]
    refine ⟨[entry], rfl, by simpa using log, ?_⟩
    rw [List.filter_cons_of_pos isAccepted, none]
    exact .cons accounted .nil
  refusals := by
    intro _ other member
    rcases List.mem_cons.mp member with rfl | inReads
    · cases accounted <;> rfl
    · exact Exchange.isRefused_of_isRead (isRead other inReads)

end Stretch

def NoneRefused (exchanges : List Exchange) : Prop :=
  ∀ exchange ∈ exchanges, exchange.isRefused = false

theorem NoneRefused.of_append {first second : List Exchange} (none : NoneRefused (first ++ second)) :
    NoneRefused first ∧ NoneRefused second :=
  List.forall_mem_append.mp none

theorem not_noneRefused_cons {exchange : Exchange} (refused : exchange.isRefused = true)
    (rest : List Exchange) : ¬NoneRefused (exchange :: rest) := by
  intro none
  rw [none exchange List.mem_cons_self] at refused
  cases refused

/-- Of some planned writes some were sent, in their order, and all of them unless one was refused. -/
structure SentOf (planned : List Write) (exchanges : List Exchange) : Prop where
  sublist : (writesOf exchanges).Sublist planned
  complete : NoneRefused exchanges → writesOf exchanges = planned

theorem SentOf.append {planned others : List Write} {sent later : List Exchange}
    (first : SentOf planned sent) (rest : SentOf others later) :
    SentOf (planned ++ others) (sent ++ later) where
  sublist := by
    rw [writesOf_append]
    exact first.sublist.append rest.sublist
  complete := by
    intro none
    obtain ⟨noneFirst, noneLater⟩ := none.of_append
    rw [writesOf_append, first.complete noneFirst, rest.complete noneLater]

theorem SentOf.nothing {exchanges : List Exchange}
    (isRead : ∀ exchange ∈ exchanges, exchange.isRead = true) : SentOf [] exchanges where
  sublist := by
    rw [writesOf_of_isRead isRead]
  complete := fun _ => writesOf_of_isRead isRead

namespace PassState

/-- A call of a recorded store is one exchange and leaves the log alone. -/
theorem call_recorded {α : Type} (ask : σ → Except StoreError α × σ)
    (exchange : Except StoreError α → Exchange) (state : PassState (Recorded σ)) :
    ∃ answer after, state.call (RemoteStore.recordCall ask exchange) = (answer, after) ∧
      after.store.exchanges = state.store.exchanges ++ [exchange answer] ∧ after.log = state.log :=
  ⟨_, _, rfl, rfl, rfl⟩

end PassState

/-! ## One object -/

namespace Schema

variable {schema : Schema}

def reread (reference : ResourceRef) :
    Except StoreError (Option RemoteObject) → Except PassError RemoteObject
  | .ok (some object) => .ok object
  | .ok none => .error (.vanished reference.text)
  | .error error => .error (.store error)

theorem reread_eq_ok {reference : ResourceRef} {answer : Except StoreError (Option RemoteObject)}
    {object : RemoteObject} (read : reread reference answer = .ok object) :
    answer = .ok (some object) := by
  rcases answer with error | _ | found <;> cases read
  rfl

theorem refetch_recorded (store : RemoteStore σ) (reference : ResourceRef)
    (state : PassState (Recorded σ)) :
    ∃ answer after, refetch store.recorded reference state = (reread reference answer, after) ∧
      after.store.exchanges = state.store.exchanges ++ [.get reference answer] ∧
      after.log = state.log := by
  obtain ⟨answer, after, ran, sent, log⟩ :=
    PassState.call_recorded (store.get reference) (.get reference) state
  refine ⟨answer, after, ?_, sent, log⟩
  simp only [refetch, RemoteStore.recorded, ran]
  rcases answer with error | _ | object <;> rfl

theorem orReread_of_reread {remote object : RemoteObject}
    {answer : Except StoreError (Option RemoteObject)}
    (read : reread remote.reference answer = .ok object) : remote.orReread answer = object := by
  rw [reread_eq_ok read]
  rfl

theorem orReread_of_not_reread {remote : RemoteObject} {error : PassError}
    {answer : Except StoreError (Option RemoteObject)}
    (unread : reread remote.reference answer = .error error) : remote.orReread answer = remote := by
  rcases answer with source | _ | found
  · rfl
  · rfl
  · cases unread

/-- The update of an object is refused, or accepted and followed by a read. -/
theorem applyChanges_recorded (store : RemoteStore σ) (remote : RemoteObject)
    {changes : List FieldChange} (sendable : schema.Sendable changes) (pending : changes ≠ [])
    (state : PassState (Recorded σ)) :
    (∃ source after, schema.applyChanges store.recorded remote changes state =
        (.error (.operationFailed .update schema.kind (schema.identityOf remote) source), after) ∧
      after.store.exchanges = state.store.exchanges ++
        [.update remote.reference (FieldChange.applyAll changes ∅) (.error source)] ∧
      after.log = state.log) ∨
    ∃ written answer after, schema.applyChanges store.recorded remote changes state =
        (.ok ⟨changes, reread remote.reference answer⟩, after) ∧
      after.store.exchanges = state.store.exchanges ++
        [.update remote.reference (FieldChange.applyAll changes ∅) (.ok written),
          .get remote.reference answer] ∧
      after.log = state.log ++ updateNotes (schema.identityOf remote) changes := by
  have some : changes.isEmpty = false := by simpa using pending
  obtain ⟨reply, middle, ran, sent, log⟩ := PassState.call_recorded
    (store.update remote.reference (FieldChange.applyAll changes ∅))
    (.update remote.reference (FieldChange.applyAll changes ∅)) state
  have answered : state.call
      (store.recorded.update remote.reference (FieldChange.applyAll changes ∅)) = (reply, middle) := ran
  simp only [applyChanges, some, Bool.false_eq_true, if_false, updateBody_of_sendable sendable,
    answered]
  cases reply with
  | error source => exact .inl ⟨source, middle, rfl, sent, log⟩
  | ok written =>
      obtain ⟨answer, after, read, sentLater, logLater⟩ := refetch_recorded store remote.reference
        (middle.noted (updateNotes (schema.identityOf remote) changes))
      refine .inr ⟨written, answer, after, ?_, ?_, ?_⟩
      · rw [updateNotes] at read
        simp only [read]
      · rw [sentLater]
        simp [PassState.noted, sent]
      · rw [logLater]
        simp [PassState.noted, log]

theorem entries_applyAll_empty {changes : List FieldChange} (sendable : schema.Sendable changes) :
    (FieldChange.applyAll changes ∅).entries =
      changes.map fun change => (change.field, change.new) :=
  SortedMap.entries_insertAll_empty sendable.ascending

end Schema

/-! ## A collection -/

namespace ApplyOutcome

theorem withError_eq_merge (outcome : ApplyOutcome) (error : PassError) :
    outcome.withError error = outcome.merge ⟨[], [error]⟩ := by
  simp [withError, merge]

theorem withApplied_eq_merge (outcome : ApplyOutcome) (change : AppliedChange) :
    outcome.withApplied change = outcome.merge ⟨[change], []⟩ := by
  simp [withApplied, merge]

theorem merge_empty (outcome : ApplyOutcome) : outcome.merge .empty = outcome := by
  simp [merge, empty]

theorem merge_assoc (first second third : ApplyOutcome) :
    (first.merge second).merge third = first.merge (second.merge third) := by
  simp [merge]

end ApplyOutcome

/-- Some planned writes carry the work on a collection from one state to another. -/
structure Progress.Carried (home : Collection) (plan : Plan) (writes : List Write)
    (before after : Progress (Recorded σ)) (exchanges : List Exchange) (outcome : ApplyOutcome) : Prop where
  stretch : Stretch home plan before.state after.state exchanges outcome
  merged : after.outcome = before.outcome.merge outcome
  planned : (writesOf exchanges).Sublist writes
  complete : before.held = [] → NoneRefused exchanges →
    after.held = [] ∧ writesOf exchanges = writes

theorem Schema.blocker?_nil {schema : Schema} (desired : Descriptor) :
    schema.blocker? [] desired = none := by
  unfold blocker?
  cases schema.slots <;> rfl

namespace CollectionPlan

variable (store : RemoteStore σ) (home : Collection) {plan : Plan} {planned : CollectionPlan}
  (member : planned ∈ plan.collections) (parent : ResourceRef)
include member

private theorem applyDelete_carried {remote : RemoteObject}
    (isOperation : .delete remote ∈ planned.operations.operations) (progress : Progress (Recorded σ)) :
    ∃ exchanges outcome, Progress.Carried home plan
      [(Operation.delete remote).write (.under parent planned.schema.kind)] progress
      (planned.schema.applyDelete store.recorded remote progress) exchanges outcome := by
  obtain ⟨answer, after, ran, sent, log⟩ := PassState.call_recorded
    (store.delete remote.reference) (.delete remote.reference) progress.state
  have answered : progress.state.call (store.recorded.delete remote.reference) = (answer, after) :=
    ran
  simp only [Schema.applyDelete, answered]
  cases answer with
  | error source =>
      exact ⟨[_], ⟨[], [_]⟩, .refused sent log rfl _, ApplyOutcome.withError_eq_merge _ _, .refl _,
        fun _ none => absurd none (not_noneRefused_cons rfl [])⟩
  | ok done =>
      cases done
      refine ⟨[_], ⟨[.deleted _ _], []⟩, .accepted ?_ ?_ rfl (by simp) (.deleted member isOperation) [],
        ApplyOutcome.withApplied_eq_merge _ _, .refl _, fun held _ => ⟨held, rfl⟩⟩
      · exact sent
      · exact congrArg (· ++ _) log

private theorem applyCreate_carried {desired : Descriptor}
    (isOperation : .create desired ∈ planned.operations.operations) (progress : Progress (Recorded σ)) :
    ∃ exchanges outcome, Progress.Carried home plan
      [(Operation.create desired).write (.under parent planned.schema.kind)] progress
      (planned.schema.applyCreate store.recorded (.under parent planned.schema.kind) desired progress)
      exchanges outcome := by
  cases blocked : planned.schema.blocker? progress.held desired with
  | some blocker =>
      simp only [Schema.applyCreate, blocked]
      refine ⟨[], ⟨[], [_]⟩, .refl progress.state _, ApplyOutcome.withError_eq_merge _ _,
        List.nil_sublist _, fun held _ => ?_⟩
      rw [held, Schema.blocker?_nil] at blocked
      cases blocked
  | none =>
      obtain ⟨answer, after, ran, sent, log⟩ := PassState.call_recorded
        (store.create (.under parent planned.schema.kind) desired.createPayload)
        (.create (.under parent planned.schema.kind) desired.createPayload) progress.state
      have answered : progress.state.call (store.recorded.create
          (.under parent planned.schema.kind) desired.createPayload) = (answer, after) := ran
      simp only [Schema.applyCreate, blocked, answered]
      cases answer with
      | error source =>
          exact ⟨[_], ⟨[], [_]⟩, .refused sent log rfl _, ApplyOutcome.withError_eq_merge _ _,
            .refl _, fun _ none => absurd none (not_noneRefused_cons rfl [])⟩
      | ok created =>
          refine ⟨[_], ⟨[.created _ _], []⟩,
            .accepted ?_ ?_ rfl (by simp) (.created member isOperation parent created) [],
            ApplyOutcome.withApplied_eq_merge _ _, .refl _, fun held _ => ⟨held, rfl⟩⟩
          · exact sent
          · exact congrArg (· ++ _) log

private theorem applyUpdate_carried {pair : MatchedPair}
    (isOperation : .update pair ∈ planned.operations.operations)
    (sendable : (Operation.update pair).Sendable planned.schema) (progress : Progress (Recorded σ)) :
    ∃ exchanges outcome, Progress.Carried home plan
      [(Operation.update pair).write (.under parent planned.schema.kind)] progress
      (planned.schema.applyUpdate store.recorded pair progress) exchanges outcome := by
  obtain ⟨pending, fine⟩ := sendable
  rcases Schema.applyChanges_recorded store pair.remote fine pending progress.state with
    ⟨source, after, ran, sent, log⟩ | ⟨written, answer, after, ran, sent, log⟩
  · simp only [Schema.applyUpdate, ran]
    exact ⟨[_], ⟨[], [_]⟩, .refused sent log rfl _, ApplyOutcome.withError_eq_merge _ _, .refl _,
      fun _ none => absurd none (not_noneRefused_cons rfl [])⟩
  · have accepted : ∀ errors, Stretch home plan progress.state after
        [.update pair.remote.reference (FieldChange.applyAll pair.changes ∅) (.ok written),
          .get pair.remote.reference answer]
        ⟨[.updated (planned.schema.identityOf pair.remote) (pair.remote.orReread answer).reference
          pair.changes], errors⟩ :=
      .accepted sent log rfl (by simp [Exchange.isRead])
        (.updated member isOperation (Schema.entries_applyAll_empty fine) (List.infix_refl _))
    simp only [Schema.applyUpdate, ran]
    cases read : Schema.reread pair.remote.reference answer with
    | ok object =>
        rw [Schema.orReread_of_reread read] at accepted
        exact ⟨_, _, accepted [], ApplyOutcome.withApplied_eq_merge _ _, .refl _, fun held _ => ⟨held, rfl⟩⟩
    | error error =>
        rw [Schema.orReread_of_not_reread read] at accepted
        refine ⟨_, _, accepted [error], ?_, .refl _, fun held _ => ⟨held, rfl⟩⟩
        simp [ApplyOutcome.withApplied, ApplyOutcome.withError, ApplyOutcome.merge]

private theorem applyOperation_carried {operation : Operation}
    (isOperation : operation ∈ planned.operations.operations)
    (sendable : operation.Sendable planned.schema) (progress : Progress (Recorded σ)) :
    ∃ exchanges outcome, Progress.Carried home plan
      [operation.write (.under parent planned.schema.kind)] progress
      (planned.schema.applyOperation store.recorded (.under parent planned.schema.kind) progress operation)
      exchanges outcome := by
  cases operation with
  | delete remote => exact applyDelete_carried store home member parent isOperation progress
  | create desired => exact applyCreate_carried store home member parent isOperation progress
  | update pair => exact applyUpdate_carried store home member parent isOperation sendable progress

private theorem foldl_applyOperation_carried {operations : List Operation}
    (areOperations : operations ⊆ planned.operations.operations)
    (sendable : ∀ operation ∈ operations, operation.Sendable planned.schema)
    (progress : Progress (Recorded σ)) :
    ∃ exchanges outcome, Progress.Carried home plan
      (operations.map (Operation.write (.under parent planned.schema.kind))) progress
      (operations.foldl
        (planned.schema.applyOperation store.recorded (.under parent planned.schema.kind)) progress)
      exchanges outcome := by
  induction operations generalizing progress with
  | nil =>
      exact ⟨[], .empty, .refl progress.state [], (ApplyOutcome.merge_empty _).symm, .refl _,
        fun held _ => ⟨held, rfl⟩⟩
  | cons operation rest ih =>
      obtain ⟨isOperation, areRest⟩ := List.cons_subset.mp areOperations
      obtain ⟨sent, outcome, first⟩ := applyOperation_carried store home member parent isOperation
        (sendable operation List.mem_cons_self) progress
      obtain ⟨later, other, others⟩ := ih areRest
        (fun operation inRest => sendable operation (List.mem_cons_of_mem _ inRest))
        (planned.schema.applyOperation store.recorded (.under parent planned.schema.kind) progress operation)
      refine ⟨sent ++ later, outcome.merge other, first.stretch.trans others.stretch, ?_, ?_,
        fun held none => ?_⟩
      · rw [List.foldl_cons, others.merged, first.merged, ApplyOutcome.merge_assoc]
      · rw [writesOf_append]
        exact first.planned.append others.planned
      · obtain ⟨noneFirst, noneLater⟩ := none.of_append
        obtain ⟨stillHeld, writes⟩ := first.complete held noneFirst
        obtain ⟨lastHeld, otherWrites⟩ := others.complete stillHeld noneLater
        refine ⟨lastHeld, ?_⟩
        rw [writesOf_append, writes, otherWrites]
        rfl

theorem applyOperations_stretch
    (sendable : ∀ operation ∈ planned.operations.operations, operation.Sendable planned.schema)
    (state : PassState (Recorded σ)) :
    ∃ exchanges outcome after,
      planned.schema.applyOperations store.recorded (.under parent planned.schema.kind)
          planned.operations state = (outcome, after) ∧
        Stretch home plan state after exchanges outcome ∧
        SentOf (planned.writes parent) exchanges := by
  obtain ⟨exchanges, outcome, carried⟩ := foldl_applyOperation_carried store home member parent
    (List.Subset.refl _) sendable ⟨state, [], .empty⟩
  refine ⟨exchanges, outcome, _, ?_, carried.stretch, carried.planned,
    fun none => (carried.complete rfl none).2⟩
  rw [Schema.applyOperations, carried.merged]
  simp [ApplyOutcome.merge, ApplyOutcome.empty]

end CollectionPlan

end DesiredState
