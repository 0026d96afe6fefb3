import DesiredState.Proofs.Pass.Accounting
import DesiredState.Schema.Catalog
import DesiredState.Store.Memory

/-!
# The report of a whole pass

The steps of a pass put together: top-level object, collections, waiting and the last read. A
report without errors means that every write of the plan was sent and accepted, and that the object
in it was read after all of them.
-/

set_option autoImplicit false

namespace DesiredState

variable {σ : Type} (store : RemoteStore σ)

def PassReport.outcome (report : PassReport) : ApplyOutcome := ⟨report.applied, report.errors⟩

/-- The address at which a pass goes on after the top-level object: that of the object it created,
that of the object it left alone, or that of the object as it was read after the update. -/
inductive ResourceAction.Reaches (home : Collection) (exchanges : List Exchange) :
    ResourceAction → ResourceRef → Prop where
  | created {payload : Attributes} {object : RemoteObject} {before after : List Exchange}
      (sent : exchanges = before ++ .create home payload (.ok object) :: after)
      (first : writesOf before = []) : Reaches home exchanges (.create payload) object.reference
  | unchanged (remote : RemoteObject) : Reaches home exchanges (.update remote []) remote.reference
  | reread {remote object : RemoteObject} {changes : List FieldChange}
      (read : .get remote.reference (.ok (some object)) ∈ exchanges) :
      Reaches home exchanges (.update remote changes) object.reference

theorem ResourceAction.Reaches.widen {home : Collection} {exchanges : List Exchange}
    {action : ResourceAction} {parent : ResourceRef} (reaches : action.Reaches home exchanges parent)
    (before : List Exchange) (reads : writesOf before = []) (after : List Exchange) :
    action.Reaches home (before ++ exchanges ++ after) parent := by
  cases reaches with
  | @created payload object earlier later sent first =>
      have split : before ++ exchanges ++ after =
          (before ++ earlier) ++ .create home payload (.ok object) :: (later ++ after) := by
        rw [sent]
        simp
      exact .created split (by rw [writesOf_append, reads, first]; rfl)
  | unchanged remote => exact .unchanged remote
  | reread read => exact .reread (List.mem_append_left _ (List.mem_append_right _ read))

/-- The address at which a pass goes on even after failures: if its object could not be updated, or
not be read again, that of the object as it was found. -/
inductive ResourceAction.GoesOnAt (home : Collection) (exchanges : List Exchange) :
    ResourceAction → ResourceRef → Prop where
  | reached {action : ResourceAction} {parent : ResourceRef}
      (reaches : action.Reaches home exchanges parent) : GoesOnAt home exchanges action parent
  | found (remote : RemoteObject) (changes : List FieldChange) :
      GoesOnAt home exchanges (.update remote changes) remote.reference

theorem ResourceAction.GoesOnAt.widen {home : Collection} {exchanges : List Exchange}
    {action : ResourceAction} {parent : ResourceRef} (goesOn : action.GoesOnAt home exchanges parent)
    (before : List Exchange) (reads : writesOf before = []) (after : List Exchange) :
    action.GoesOnAt home (before ++ exchanges ++ after) parent := by
  cases goesOn with
  | reached reaches => exact .reached (reaches.widen before reads after)
  | found remote changes => exact .found remote changes

namespace PassRequest

/-! ## The top-level object -/

/-- What the work on the top-level object sent and reported. -/
structure TopLevel.Accounted (home : Collection) (plan : Plan) (action : ResourceAction)
    (state : PassState (Recorded σ)) (top : TopLevel (Recorded σ)) (exchanges : List Exchange) :
    Prop where
  stretch : Stretch home plan state top.state exchanges top.report.outcome
  sent : SentOf (action.writes home) exchanges
  failed : top.reached = none → ¬NoneRefused exchanges ∧ top.report.errors ≠ []
  goesOn : ∀ object mutated, top.reached = some (object, mutated) →
    action.GoesOnAt home exchanges object.reference ∧ (NoneRefused exchanges →
      top.report.errors = [] → action.Reaches home exchanges object.reference)

private theorem createTop_accounted (request : PassRequest) {plan : Plan}
    (schema : plan.schema = request.schema) {payload : Attributes}
    (isAction : plan.action = .create payload) (waiter : Option EventWaiter) (label : String)
    (state : PassState (Recorded σ)) :
    ∃ exchanges, TopLevel.Accounted request.homeCollection plan (.create payload) state
      (request.createTop store.recorded payload waiter (.start label) state) exchanges := by
  obtain ⟨answer, after, ran, sent, log⟩ := PassState.call_recorded
    (store.create request.homeCollection payload) (.create request.homeCollection payload) state
  have answered : state.call (store.recorded.create request.homeCollection payload) =
      (answer, after) := ran
  simp only [createTop, answered]
  cases answer with
  | error source =>
      refine ⟨_, .refused sent log rfl _, ⟨.refl _, fun _ => rfl⟩,
        fun _ => ⟨not_noneRefused_cons rfl _, List.cons_ne_nil _ _⟩, ?_⟩
      intro object mutated reached
      cases reached
  | ok created =>
      refine ⟨[.create request.homeCollection payload (.ok created)], ?_, ⟨.refl _, fun _ => rfl⟩, ?_, ?_⟩
      · rw [← schema]
        refine .accepted ?_ ?_ rfl (by simp) (.topCreated isAction created) []
        · exact sent
        · exact congrArg (· ++ _) log
      · intro failed
        cases failed
      · intro object mutated reached
        cases reached
        have alone : [Exchange.create request.homeCollection payload (.ok created)] =
            [] ++ .create request.homeCollection payload (.ok created) :: [] := rfl
        exact ⟨.reached (.created alone rfl), fun _ _ => .created alone rfl⟩

private theorem updateTop_accounted (request : PassRequest) {plan : Plan}
    (schema : plan.schema = request.schema) {remote : RemoteObject} {changes : List FieldChange}
    (isAction : plan.action = .update remote changes) (sendable : request.schema.Sendable changes)
    (waiter : Option EventWaiter) (label : String) (state : PassState (Recorded σ)) :
    ∃ exchanges, TopLevel.Accounted request.homeCollection plan (.update remote changes) state
      (request.updateTop store.recorded remote changes waiter (.start label) state) exchanges := by
  cases changes with
  | nil =>
      refine ⟨[], .refl state [], ⟨.refl _, fun _ => rfl⟩, ?_, ?_⟩
      · intro failed
        cases failed
      · intro object mutated reached
        cases reached
        exact ⟨.found remote [], fun _ _ => .unchanged remote⟩
  | cons change rest =>
      rcases Schema.applyChanges_recorded store remote sendable (List.cons_ne_nil change rest) state
        with ⟨source, after, ran, sent, log⟩ | ⟨written, answer, after, ran, sent, log⟩
      · simp only [updateTop, ran]
        refine ⟨_, .refused sent log rfl _, ⟨.refl _, fun _ => rfl⟩, ?_, ?_⟩
        · intro failed
          cases failed
        · intro object mutated reached
          cases reached
          exact ⟨.found remote _, fun none => absurd none (not_noneRefused_cons rfl _)⟩
      · rw [← schema] at log
        have accepted : ∀ errors, Stretch request.homeCollection plan state after
            [.update remote.reference (FieldChange.applyAll (change :: rest) ∅) (.ok written),
              .get remote.reference answer]
            ⟨[.updated (plan.schema.identityOf (remote.orReread answer))
              (remote.orReread answer).reference (change :: rest)], errors⟩ :=
          .accepted sent log rfl (by simp [Exchange.isRead])
            (.topUpdated isAction (Schema.entries_applyAll_empty sendable) (List.infix_refl _))
        rw [schema] at accepted
        simp only [updateTop, ran]
        cases read : Schema.reread remote.reference answer with
        | ok object =>
            rw [Schema.orReread_of_reread read] at accepted
            refine ⟨_, accepted [], ⟨.refl _, fun _ => rfl⟩, ?_, ?_⟩
            · intro failed
              cases failed
            · intro other mutated reached
              cases reached
              rw [Schema.reread_eq_ok read]
              have asked : Exchange.get remote.reference (.ok (some object)) ∈
                  [Exchange.get remote.reference (.ok (some object))] := List.mem_singleton_self _
              exact ⟨.reached (.reread (List.mem_cons_of_mem _ asked)),
                fun _ _ => .reread (List.mem_cons_of_mem _ asked)⟩
        | error error =>
            rw [Schema.orReread_of_not_reread read] at accepted
            refine ⟨_, accepted [error], ⟨.refl _, fun _ => rfl⟩, ?_, ?_⟩
            · intro failed
              cases failed
            · intro other mutated reached
              cases reached
              refine ⟨.found remote _, fun _ none => ?_⟩
              cases none

private theorem applyTop_accounted (request : PassRequest) {plan : Plan}
    (schema : plan.schema = request.schema)
    (sendable : ∀ remote changes, plan.action = .update remote changes →
      request.schema.Sendable changes)
    (waiter : Option EventWaiter) (label : String) (state : PassState (Recorded σ)) :
    ∃ exchanges, TopLevel.Accounted request.homeCollection plan plan.action state
      (request.applyTop store.recorded plan.action waiter (.start label) state) exchanges := by
  cases isAction : plan.action with
  | create payload => exact createTop_accounted store request schema isAction waiter label state
  | update remote changes =>
      exact updateTop_accounted store request schema isAction (sendable remote changes isAction) waiter
        label state

/-! ## The collections -/

private theorem applyCollections_stretch (home : Collection) {plan : Plan} (parent : ResourceRef)
    {collections : List CollectionPlan} (arePlanned : collections ⊆ plan.collections)
    (sendable : ∀ planned ∈ collections, ∀ operation ∈ planned.operations.operations,
      operation.Sendable planned.schema)
    (report : PassReport) (state : PassState (Recorded σ)) :
    ∃ exchanges outcome after,
      applyCollections store.recorded parent collections report state =
        (report.absorb outcome, after) ∧
      Stretch home plan state after exchanges outcome ∧
      SentOf (collections.flatMap (CollectionPlan.writes parent)) exchanges := by
  induction collections generalizing report state with
  | nil =>
      refine ⟨[], .empty, state, ?_, .refl state [], .nothing (by simp)⟩
      simp [applyCollections, PassReport.absorb, ApplyOutcome.empty]
  | cons planned rest ih =>
      obtain ⟨isPlanned, restPlanned⟩ := List.cons_subset.mp arePlanned
      obtain ⟨sent, outcome, middle, ran, first, sentFirst⟩ := CollectionPlan.applyOperations_stretch
        store home isPlanned parent (sendable planned List.mem_cons_self) state
      obtain ⟨later, other, after, ranRest, others, sentLater⟩ := ih restPlanned
        (fun planned member => sendable planned (List.mem_cons_of_mem _ member))
        (report.absorb outcome) middle
      refine ⟨sent ++ later, outcome.merge other, after, ?_, first.trans others,
        sentFirst.append sentLater⟩
      simp only [applyCollections, ran, ranRest]
      simp [PassReport.absorb, ApplyOutcome.merge]

/-! ## Waiting and the last read -/

private theorem log_awaitStep (request : PassRequest) (waiter : Option EventWaiter) (mutated : Bool)
    (budget : Budget) (report : PassReport) (state : PassState σ) :
    (request.awaitStep store waiter mutated budget report state).2.log = state.log := by
  unfold awaitStep
  split
  · rfl
  · split
    · cases request.wait with
      | block =>
          simp only [awaitCompletion, awaitBlocking]
          split <;> rfl
      | noWait =>
          simp only [awaitCompletion, awaitOnce]
          split <;> rfl
    · rfl

/-- Waiting adds failures to a report and nothing else, among them that it took too long. -/
theorem report_awaitStep (request : PassRequest) (waiter : Option EventWaiter) (mutated : Bool)
    (budget : Budget) {report : PassReport} (inTime : report.completion ≠ .timedOut)
    (state : PassState σ) :
    ∃ completion errors, (request.awaitStep store waiter mutated budget report state).1 =
        { report with completion, errors := report.errors ++ errors } ∧
      (completion = .timedOut → errors ≠ []) := by
  have asBefore : report = { report with errors := report.errors ++ [] } := by simp
  cases waiter with
  | none => exact ⟨report.completion, [], asBefore, fun late => absurd late inTime⟩
  | some waiter =>
      unfold awaitStep
      dsimp only
      split
      · refine ⟨_, _, rfl, fun late => ?_⟩
        cases mode : request.wait with
        | block =>
            simp only [mode, awaitCompletion, awaitBlocking] at late ⊢
            split at late
            · cases late
            · cases late
            · exact List.cons_ne_nil _ _
        | noWait =>
            simp only [mode, awaitCompletion, awaitOnce] at late
            split at late <;> cases late
      · exact ⟨report.completion, [], asBefore, fun late => absurd late inTime⟩

private theorem awaitStep_stretch (home : Collection) (plan : Plan) (request : PassRequest)
    (waiter : Option EventWaiter) (mutated : Bool)
    (budget : Budget) {report : PassReport} (inTime : report.completion ≠ .timedOut)
    (state : PassState (Recorded σ)) :
    ∃ reads errors waited after,
      request.awaitStep store.recorded waiter mutated budget report state = (waited, after) ∧
      waited.outcome = report.outcome.merge ⟨[], errors⟩ ∧
      (waited.completion = .timedOut → errors ≠ []) ∧
      Stretch home plan state after reads ⟨[], errors⟩ ∧
      ∀ exchange ∈ reads, exchange.isRead = true := by
  obtain ⟨completion, errors, reported, late⟩ :=
    report_awaitStep store.recorded request waiter mutated budget inTime state
  have log := log_awaitStep store.recorded request waiter mutated budget report state
  have start : PassState.Related (Recorded.Traces state.store.exchanges fun exchange =>
      exchange.isRead = true) ⟨state.store.state, state.log, state.clock⟩ state :=
    ⟨Recorded.traces_start state.store.state state.store.exchanges _, rfl, rfl⟩
  obtain ⟨_, _, after, _, ran, ⟨⟨_, reads, sent, isRead⟩, _, _⟩⟩ :=
    (agree_awaitStep (RemoteStore.readsAgree_recorded store state.store.exchanges) request waiter
      mutated budget report).run start
  rw [ran] at reported log
  cases reported
  refine ⟨reads, errors, _, after, ran, ?_, late, .reading sent log isRead errors, isRead⟩
  simp [PassReport.outcome, ApplyOutcome.merge]

private theorem finish_stretch (home : Collection) (plan : Plan) (reference : ResourceRef)
    (report : PassReport) (state : PassState (Recorded σ)) :
    ∃ answer outcome after, (finish store.recorded reference report state).2 = after ∧
      (finish store.recorded reference report state).1.outcome = report.outcome.merge outcome ∧
      Stretch home plan state after [.get reference answer] outcome ∧
      (outcome.errors = [] → ∃ object, answer = .ok (some object) ∧
        (finish store.recorded reference report state).1.object = some object) := by
  obtain ⟨answer, after, ran, sent, log⟩ := Schema.refetch_recorded store reference state
  have reading : ∀ errors, Stretch home plan state after [.get reference answer] ⟨[], errors⟩ :=
    Stretch.reading sent log (by simp [Exchange.isRead])
  simp only [finish, ran]
  cases read : Schema.reread reference answer with
  | ok object =>
      refine ⟨answer, .empty, after, rfl, (ApplyOutcome.merge_empty _).symm, reading [], fun _ => ?_⟩
      exact ⟨object, Schema.reread_eq_ok read, rfl⟩
  | error error =>
      refine ⟨answer, ⟨[], [error]⟩, after, rfl, ?_, reading [error], fun none => by cases none⟩
      exact ApplyOutcome.withError_eq_merge report.outcome error

/-! ## Whole passes -/

/-- What a pass sent and reported after its plan was made. -/
structure Accounted (request : PassRequest) (plan : Plan) (state after : PassState (Recorded σ))
    (exchanges : List Exchange) (report : PassReport) : Prop where
  stretch : Stretch request.homeCollection plan state after exchanges report.outcome
  sent : (∀ parent, SentOf (plan.writes request.homeCollection parent) exchanges) ∨
    ∃ parent, plan.action.GoesOnAt request.homeCollection exchanges parent ∧
      SentOf (plan.writes request.homeCollection parent) exchanges
  clean : report.errors = [] → ∃ parent object earlier,
    exchanges = earlier ++ [.get parent (.ok (some object))] ∧
      writesOf exchanges = plan.writes request.homeCollection parent ∧
      plan.action.Reaches request.homeCollection exchanges parent ∧ report.object = some object

/-- The last read completes the account of a pass that came to its end. -/
theorem finish_accounted {request : PassRequest} {plan : Plan} {state last : PassState (Recorded σ)}
    {exchanges : List Exchange} {reference : ResourceRef} {report : PassReport}
    (stretch : Stretch request.homeCollection plan state last exchanges report.outcome)
    (sent : SentOf (plan.writes request.homeCollection reference) exchanges)
    (goesOn : plan.action.GoesOnAt request.homeCollection exchanges reference)
    (reaches : NoneRefused exchanges → report.errors = [] →
      plan.action.Reaches request.homeCollection exchanges reference) :
    ∃ answer final after, finish store.recorded reference report last = (final, after) ∧
      request.Accounted plan state after (exchanges ++ [.get reference answer]) final := by
  obtain ⟨answer, outcome, after, ended, finalOutcome, reading, found⟩ :=
    finish_stretch store request.homeCollection plan reference report last
  have whole := stretch.trans reading
  rw [← finalOutcome] at whole
  have allSent : SentOf (plan.writes request.homeCollection reference)
      (exchanges ++ [.get reference answer]) := by
    have onlyRead : SentOf [] [Exchange.get reference answer] := .nothing (by simp [Exchange.isRead])
    simpa using sent.append onlyRead
  refine ⟨answer, _, after, Prod.ext rfl ended, whole,
    .inr ⟨reference, goesOn.widen [] rfl _, allSent⟩, ?_⟩
  intro none
  have noneRefused : NoneRefused _ := whole.refusals none
  have noErrors := congrArg ApplyOutcome.errors finalOutcome
  rw [show ApplyOutcome.errors (PassReport.outcome _) = [] from none] at noErrors
  obtain ⟨before, noFinal⟩ := List.append_eq_nil_iff.mp noErrors.symm
  obtain ⟨read, isAnswer, isObject⟩ := found noFinal
  have widened := (reaches noneRefused.of_append.1 before).widen [] rfl [.get reference answer]
  exact ⟨reference, read, exchanges, by rw [isAnswer], allSent.complete noneRefused, widened, isObject⟩

theorem completion_applyTop (request : PassRequest) (action : ResourceAction)
    (waiter : Option EventWaiter) (report : PassReport) (state : PassState σ) :
    (request.applyTop store action waiter report state).report.completion = report.completion := by
  cases action with
  | create payload =>
      simp only [applyTop, createTop]
      split <;> rfl
  | update remote changes =>
      simp only [applyTop, updateTop]
      split
      · rfl
      · split <;> split <;> rfl

private theorem carryOut_accounted (request : PassRequest) {plan : Plan} (sendable : plan.Sendable)
    (schema : plan.schema = request.schema) (waiter : Option EventWaiter) (budget : Budget)
    (state : PassState (Recorded σ)) :
    ∃ exchanges report after,
      request.carryOut store.recorded plan waiter budget state = (report, after) ∧
        request.Accounted plan state after exchanges report := by
  obtain ⟨sent, accounted⟩ := applyTop_accounted store request schema
    (fun remote changes isUpdate => schema ▸ sendable.action remote changes isUpdate) waiter plan.label
    state
  have notLate := completion_applyTop store.recorded request plan.action waiter (.start plan.label) state
  simp only [carryOut]
  generalize request.applyTop store.recorded plan.action waiter (.start plan.label) state = top
    at accounted notLate ⊢
  cases reached : top.reached with
  | none =>
      obtain ⟨refused, failed⟩ := accounted.failed reached
      refine ⟨sent, top.report, top.state, rfl, accounted.stretch, .inl fun parent => ?_,
        fun none => absurd none failed⟩
      exact ⟨accounted.sent.sublist.trans (List.sublist_append_left _ _),
        fun none => absurd none refused⟩
  | some written =>
      obtain ⟨object, mutated⟩ := written
      obtain ⟨goesOn, reachesTop⟩ := accounted.goesOn object mutated reached
      obtain ⟨later, outcome, middle, ran, others, sentLater⟩ := applyCollections_stretch store
        request.homeCollection object.reference (List.Subset.refl _) sendable.operations top.report top.state
      have inTime : (top.report.absorb outcome).completion ≠ .timedOut := by
        rw [PassReport.absorb, notLate]
        exact fun late => by cases late
      obtain ⟨reads, errors, waited, last, ranWait, waitedOutcome, late, waiting, isRead⟩ :=
        awaitStep_stretch store request.homeCollection plan request top.waiter mutated budget inTime middle
      have upToHere : Stretch request.homeCollection plan state last (sent ++ later ++ reads)
          waited.outcome := by
        rw [waitedOutcome]
        exact (accounted.stretch.trans others).trans waiting
      have allSent : SentOf (plan.writes request.homeCollection object.reference)
          (sent ++ later ++ reads) := by
        simpa [Plan.writes] using (accounted.sent.append sentLater).append (.nothing isRead)
      have stillAt : plan.action.GoesOnAt request.homeCollection (sent ++ later ++ reads)
          object.reference := by
        simpa only [List.nil_append, List.append_assoc] using goesOn.widen [] rfl (later ++ reads)
      simp only [ran, ranWait]
      by_cases timedOut : waited.completion = .timedOut
      · rw [if_pos timedOut]
        refine ⟨_, waited, last, rfl, upToHere, .inr ⟨_, stillAt, allSent⟩, fun none => ?_⟩
        have noErrors := congrArg ApplyOutcome.errors waitedOutcome
        rw [show waited.outcome.errors = [] from none] at noErrors
        exact absurd (List.append_eq_nil_iff.mp noErrors.symm).2 (late timedOut)
      · rw [if_neg timedOut]
        have reaches : NoneRefused (sent ++ later ++ reads) → waited.errors = [] →
            plan.action.Reaches request.homeCollection (sent ++ later ++ reads) object.reference := by
          intro noneRefused none
          -- Without errors after the wait there was none at the top-level object.
          have noErrors := congrArg ApplyOutcome.errors waitedOutcome
          rw [show waited.outcome.errors = [] from none] at noErrors
          have before := (List.append_eq_nil_iff.mp noErrors.symm).1
          have noTop : top.report.errors = [] := (List.append_eq_nil_iff.mp before).1
          have noneSent := noneRefused.of_append.1.of_append.1
          have widened := (reachesTop noneSent noTop).widen [] rfl (later ++ reads)
          simpa only [List.nil_append, List.append_assoc] using widened
        obtain ⟨answer, final, after, ended, account⟩ :=
          finish_accounted store upToHere allSent stillAt reaches
        exact ⟨_, final, after, ended, account⟩

private theorem plan_of_prepare {request : PassRequest} {intervals : WaitIntervals} {state after : σ}
    {plan : Plan} {waiter : Option EventWaiter}
    (prepared : request.prepare store intervals state = (.ok (plan, waiter), after)) :
    ∃ middle, request.plan store state = (.ok plan, middle) := by
  unfold prepare at prepared
  rcases planned : request.plan store state with ⟨error | made, middle⟩
  · simp [planned] at prepared
  · simp only [planned] at prepared
    rcases started : request.startWaiter store intervals made middle with ⟨error | found, last⟩
    · simp [started] at prepared
    · simp only [started] at prepared
      cases prepared
      exact ⟨middle, rfl⟩

theorem Accounted.prepend {request : PassRequest} {plan : Plan}
    {start state after : PassState (Recorded σ)} {reads exchanges : List Exchange}
    {report : PassReport} (reading : Stretch request.homeCollection plan start state reads .empty)
    (isRead : ∀ exchange ∈ reads, exchange.isRead = true)
    (accounted : request.Accounted plan state after exchanges report) :
    request.Accounted plan start after (reads ++ exchanges) report where
  stretch := reading.trans accounted.stretch
  sent := by
    refine accounted.sent.imp (fun sent parent => (SentOf.nothing isRead).append (sent parent)) ?_
    rintro ⟨parent, goesOn, sent⟩
    have widened := goesOn.widen reads (writesOf_of_isRead isRead) []
    rw [List.append_nil] at widened
    exact ⟨parent, widened, (SentOf.nothing isRead).append sent⟩
  clean := by
    intro none
    obtain ⟨parent, object, earlier, split, writes, reaches, isObject⟩ := accounted.clean none
    refine ⟨parent, object, reads ++ earlier, ?_, ?_, ?_, isObject⟩
    · rw [split, List.append_assoc]
    · rw [writesOf_append, writesOf_of_isRead isRead, writes, List.nil_append]
    · simpa using reaches.widen reads (writesOf_of_isRead isRead) []

/-- A pass that returns a report has made a plan, and the record of the pass accounts for it. -/
theorem converge_accounted {request : PassRequest} {intervals : WaitIntervals}
    {state after : PassState σ} {report : PassReport}
    (ran : request.converge store intervals state = (.ok report, after)) :
    ∃ plan exchanges, (request.plan store state.store).1 = .ok plan ∧
      request.converge store.recorded intervals ⟨⟨state.store, []⟩, state.log, state.clock⟩ =
        (.ok report, ⟨⟨after.store, exchanges⟩, after.log, after.clock⟩) ∧
      request.Accounted plan ⟨⟨state.store, []⟩, state.log, state.clock⟩
        ⟨⟨after.store, exchanges⟩, after.log, after.clock⟩ exchanges report := by
  have start : PassState.Related (Recorded.Traces [] fun _ => True) state
      ⟨⟨state.store, []⟩, state.log, state.clock⟩ :=
    ⟨Recorded.traces_start state.store [] _, rfl, rfl⟩
  obtain ⟨_, _, ⟨⟨_, exchanges⟩, _, _⟩, plain, recorded, ⟨⟨rfl, _⟩, rfl, rfl⟩⟩ :=
    (agree_converge (RemoteStore.callsAgree_recorded store []) request intervals).run start
  cases ran.symm.trans plain
  have whole := recorded
  rw [converge_eq] at whole
  obtain ⟨prepared, _, ⟨middle, reads⟩, ranFirst, recordedFirst, rfl, _, rfl, isRead⟩ :=
    (agree_prepare (RemoteStore.readsAgree_recorded store []).toPagesAgree request intervals).run
      (Recorded.traces_start state.store [] _)
  simp only [recordedFirst] at whole
  cases prepared with
  | error error => cases whole
  | ok made =>
      obtain ⟨plan, waiter⟩ := made
      obtain ⟨last, planned⟩ := plan_of_prepare store ranFirst
      have follows := (planned_of_plan (shows_anything store) trivial planned).1
      have reading : Stretch request.homeCollection plan ⟨⟨state.store, []⟩, state.log, state.clock⟩
          ⟨⟨middle, reads⟩, state.log, state.clock⟩ reads ⟨[], []⟩ := by
        refine .reading ?_ ?_ isRead []
        · rfl
        · rfl
      obtain ⟨sent, carried, last, ranRest, accounted⟩ := carryOut_accounted store request
        follows.sendable follows.schema waiter (.starting state.clock request.timeout)
        ⟨⟨middle, reads⟩, state.log, state.clock⟩
      simp only [ranRest] at whole
      cases whole
      have all := Accounted.prepend reading isRead accounted
      have same : exchanges = reads ++ sent := all.stretch.sent
      rw [← same] at all
      exact ⟨plan, exchanges, by rw [planned], recorded, all⟩

end PassRequest

/-! ## Reports -/

private theorem PassReport.nothing_of_summary {report : PassReport}
    (quiet : report.summary = report.resource ++ ": no changes") :
    report.errors = [] ∧ report.applied = [] := by
  -- The three forms of a summary end in different characters.
  have lasts := congrArg (fun text : String => text.toList.getLast?) quiet
  by_cases noErrors : report.errors.length = 0
  · by_cases noneApplied : report.applied.length = 0
    · exact ⟨List.eq_nil_of_length_eq_zero noErrors, List.eq_nil_of_length_eq_zero noneApplied⟩
    · simp [summary, noErrors, noneApplied, List.getLast?_cons] at lasts
  · simp [summary, noErrors, List.getLast?_cons] at lasts

namespace PassRequest

/-- The report and the log account for every write, whatever the store answers. To every write that was
accepted belongs, one to one and in order, an entry of the report with its entries of the log, as its
operation of the plan has them. Without errors all writes of the plan were sent and accepted, and the
object in the report was read at the end, at the address of the top-level object. A summary that
speaks of no changes means that nothing was written at all. -/
theorem report_accounts_for_writes (request : PassRequest) (intervals : WaitIntervals)
    (state after : PassState σ) (report : PassReport)
    (ran : request.converge store intervals state = (.ok report, after)) :
    ∃ (plan : Plan) (exchanges : List Exchange) (entries : List AccountEntry),
      (request.plan store state.store).1 = .ok plan ∧
      request.converge store.recorded intervals ⟨⟨state.store, []⟩, state.log, state.clock⟩ =
        (.ok report, ⟨⟨after.store, exchanges⟩, after.log, after.clock⟩) ∧
      report.applied = entries.map (·.change) ∧
      after.log = state.log ++ entries.flatMap (·.notes) ∧
      List.Forall₂ (Exchange.AccountedAs request.homeCollection plan exchanges)
        (exchanges.filter Exchange.isAccepted) entries ∧
      (report.errors = [] →
        (∀ exchange ∈ exchanges, exchange.isRefused = false) ∧
        ∃ parent object earlier,
          writesOf exchanges = plan.writes request.homeCollection parent ∧
          plan.action.Reaches request.homeCollection exchanges parent ∧
          exchanges = earlier ++ [.get parent (.ok (some object))] ∧ report.object = some object) ∧
      (report.summary = report.resource ++ ": no changes" →
        ∀ exchange ∈ exchanges, exchange.isRead = true) := by
  obtain ⟨plan, exchanges, planned, recorded, accounted⟩ := converge_accounted store ran
  obtain ⟨entries, applied, log, each⟩ := accounted.stretch.accounted
  refine ⟨plan, exchanges, entries, planned, recorded, applied, log, each,
    fun none => ⟨accounted.stretch.refusals none, ?_⟩, fun quiet exchange member => ?_⟩
  · obtain ⟨parent, object, earlier, split, writes, reaches, isObject⟩ := accounted.clean none
    exact ⟨parent, object, earlier, writes, reaches, split, isObject⟩
  · obtain ⟨noErrors, noneApplied⟩ := PassReport.nothing_of_summary quiet
    have notRefused := accounted.stretch.refusals noErrors exchange member
    have noneAccepted : exchanges.filter Exchange.isAccepted = [] := by
      rw [show report.outcome.applied = [] from noneApplied] at applied
      rw [List.map_eq_nil_iff.mp applied.symm] at each
      exact List.forall₂_nil_right_iff.mp each
    have notAccepted : exchange.isAccepted = false := by
      simpa using List.filter_eq_nil_iff.mp noneAccepted exchange member
    exact Exchange.isRead_of_not_isRefused notRefused notAccepted

/-- A firewall with two rules, of which one is to go, one to change and a third to be made. -/
def ruleChange : PassRequest × PassState MemoryStore :=
  let labelled (label : String) : Attributes := (∅ : Attributes).insert "label" (.string label)
  ({ PassRequest.of Catalog.firewall (.existing (.top "firewall" 1)) (labelled "edge") with
      strict := false
      collections := [⟨Catalog.firewallRule,
        [(labelled "http").insert "action" (.string "DROP"), labelled "ssh"]⟩] },
    ⟨.ofState ⟨3, 0, 0, [⟨.top "firewall" 1, labelled "edge"⟩,
      ⟨.child (.top "firewall" 1) "firewall_rule" 2, labelled "dns"⟩,
      ⟨.child (.top "firewall" 1) "firewall_rule" 3, labelled "http"⟩], []⟩ (.stopped .epoch), [], 0⟩)

/-- What the pass over the firewall with its rules wrote, reported and noted. -/
theorem report_accounts_for_ruleChange :
    ∃ report after exchanges,
      ruleChange.1.converge MemoryStore.remote .standard ruleChange.2 = (.ok report, after) ∧
      ruleChange.1.converge MemoryStore.remote.recorded .standard
          ⟨⟨ruleChange.2.store, []⟩, ruleChange.2.log, ruleChange.2.clock⟩ =
        (.ok report, ⟨⟨after.store, exchanges⟩, after.log, after.clock⟩) ∧
      report.errors = [] ∧ (∀ exchange ∈ exchanges, exchange.isRefused = false) ∧
      (exchanges.filter Exchange.isAccepted).length = report.applied.length ∧
      (writesOf exchanges).length = 3 ∧
      report.applied =
        [.deleted "firewall_rule[label=dns]" (.child (.top "firewall" 1) "firewall_rule" 2),
          .created "firewall_rule[label=ssh]" (.child (.top "firewall" 1) "firewall_rule" 4),
          .updated "firewall_rule[label=http]" (.child (.top "firewall" 1) "firewall_rule" 3)
            [⟨"action", none, .string "DROP"⟩]] ∧
      after.log = ["delete firewall_rule[label=dns]", "create firewall_rule[label=ssh]",
        "update firewall_rule[label=http]: action: (unset) -> \"DROP\""] := by
  obtain ⟨plan, exchanges, entries, planned, recorded, applied, log, each, clean, _⟩ :=
    report_accounts_for_writes MemoryStore.remote ruleChange.1 .standard ruleChange.2 _ _ rfl
  obtain ⟨noneRefused, parent, object, earlier, writes, _⟩ := clean rfl
  cases planned
  refine ⟨_, _, exchanges, rfl, recorded, rfl, noneRefused, ?_, by rw [writes]; rfl, ?_, ?_⟩
  · rw [applied, List.length_map, each.length_eq]
  · decide
  · decide

end PassRequest

end DesiredState
