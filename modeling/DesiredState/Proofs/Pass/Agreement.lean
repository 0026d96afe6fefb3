import DesiredState.Pass.Converge
import DesiredState.Proofs.Wait.Agreement

/-!
# Passes on stores that agree

Along agreeing stores a pass makes the same plan, writes the same log and gives the same report.
Each part asks agreement only of the calls it makes: a plan of the looks, what comes before the
first write of the looks and the page of events, waiting of all reads.
-/

set_option autoImplicit false

namespace DesiredState

open RemoteStore

variable {σ τ α : Type} {related : σ → τ → Prop} {first : RemoteStore σ} {second : RemoteStore τ}

/-- The same log and time, and related stores. -/
structure PassState.Related (related : σ → τ → Prop) (left : PassState σ) (right : PassState τ) :
    Prop where
  store : related left.store right.store
  log : left.log = right.log
  clock : left.clock = right.clock

namespace PassState

private theorem agree_call {ask : σ → Except StoreError α × σ} {other : τ → Except StoreError α × τ}
    (agree : Agree related ask other) :
    Agree (Related related) (fun state => state.call ask) (fun state => state.call other) := by
  rintro ⟨left, log, clock⟩ ⟨right, _, _⟩ ⟨begun, rfl, rfl⟩
  obtain ⟨answer, leftAfter, rightAfter, ran, otherRan, after⟩ := agree.run begun
  simp only [call, ran, otherRan]
  exact ⟨trivial, after, rfl, rfl⟩

private theorem Related.noted {left : PassState σ} {right : PassState τ} (begun : Related related left right)
    (entries : List String) : Related related (left.noted entries) (right.noted entries) :=
  ⟨begun.store, congrArg (· ++ entries) begun.log, begun.clock⟩

end PassState

namespace PassRequest

/-! ## Before the first write -/

private theorem agree_fetch (agree : first.LooksAgree related second) (request : PassRequest) :
    Agree related (fetch first request) (fetch second request) := by
  intro left right begun
  unfold fetch
  cases request.target with
  | new parent => exact ⟨rfl, begun⟩
  | existing reference =>
      obtain ⟨answer, leftAfter, rightAfter, ran, otherRan, after⟩ := (agree.get reference).run begun
      simp only [ran, otherRan]
      cases answer with
      | error error => exact ⟨rfl, after⟩
      | ok found => exact ⟨rfl, after⟩

private theorem agree_observed (agree : first.LooksAgree related second) (action : ResourceAction)
    (kind : String) : Agree related (observed first action kind) (observed second action kind) := by
  intro left right begun
  unfold observed
  cases action with
  | create payload => exact ⟨rfl, begun⟩
  | update remote changes =>
      obtain ⟨answer, leftAfter, rightAfter, ran, otherRan, after⟩ :=
        (agree.list (.under remote.reference kind)).run begun
      simp only [ran, otherRan]
      cases answer with
      | error error => exact ⟨rfl, after⟩
      | ok objects => exact ⟨rfl, after⟩

private theorem agree_planCollection (agree : first.LooksAgree related second) (action : ResourceAction)
    (strict : Bool) (desired : DesiredCollection) :
    Agree related (planCollection first action strict desired)
      (planCollection second action strict desired) := by
  intro left right begun
  unfold planCollection
  cases desired.schema.descriptors desired.entries with
  | error error => exact ⟨rfl, begun⟩
  | ok entries =>
      obtain ⟨answer, leftAfter, rightAfter, ran, otherRan, after⟩ :=
        (agree_observed agree action desired.schema.kind).run begun
      simp only [ran, otherRan]
      cases answer with
      | error error => exact ⟨rfl, after⟩
      | ok objects =>
          dsimp only
          cases desired.schema.reconcile objects entries strict with
          | error error => exact ⟨rfl, after⟩
          | ok operations => exact ⟨rfl, after⟩

private theorem agree_planCollections (agree : first.LooksAgree related second) (action : ResourceAction)
    (strict : Bool) (collections : List DesiredCollection) :
    Agree related (planCollections first action strict collections)
      (planCollections second action strict collections) := by
  induction collections with
  | nil => exact fun _ _ begun => ⟨rfl, begun⟩
  | cons desired rest ih =>
      intro left right begun
      obtain ⟨answer, leftAfter, rightAfter, ran, otherRan, after⟩ :=
        (agree_planCollection agree action strict desired).run begun
      simp only [planCollections, ran, otherRan]
      cases answer with
      | error error => exact ⟨rfl, after⟩
      | ok head =>
          obtain ⟨others, leftLast, rightLast, ranRest, otherRanRest, last⟩ := ih.run after
          simp only [ranRest, otherRanRest]
          cases others with
          | error error => exact ⟨rfl, last⟩
          | ok tail => exact ⟨rfl, last⟩

theorem agree_plan (agree : first.LooksAgree related second) (request : PassRequest) :
    Agree related (plan first request) (plan second request) := by
  intro left right begun
  unfold plan
  cases request.foreignCollection? with
  | some desired => exact ⟨rfl, begun⟩
  | none =>
      obtain ⟨answer, leftAfter, rightAfter, ran, otherRan, after⟩ :=
        (agree_fetch agree request).run begun
      simp only [ran, otherRan]
      cases answer with
      | error error => exact ⟨rfl, after⟩
      | ok remote =>
          dsimp only
          cases request.action remote with
          | error error => exact ⟨rfl, after⟩
          | ok action =>
              obtain ⟨others, leftLast, rightLast, ranRest, otherRanRest, last⟩ :=
                (agree_planCollections agree action request.strict request.collections).run after
              simp only [ranRest, otherRanRest]
              cases others with
              | error error => exact ⟨rfl, last⟩
              | ok collections => exact ⟨rfl, last⟩

private theorem agree_startWaiter (agree : first.PagesAgree related second) (request : PassRequest)
    (intervals : WaitIntervals) (plan : Plan) :
    Agree related (startWaiter first request intervals plan)
      (startWaiter second request intervals plan) := by
  intro left right begun
  unfold startWaiter
  cases request.awaited? plan with
  | none => exact ⟨rfl, begun⟩
  | some action =>
      obtain ⟨answer, leftAfter, rightAfter, ran, otherRan, after⟩ :=
        (EventWaiter.agree_start agree (awaitedFilter plan action) intervals).run begun
      simp only [ran, otherRan]
      cases answer with
      | error error => exact ⟨rfl, after⟩
      | ok waiter => exact ⟨rfl, after⟩

/-- What a pass does before its first write. -/
def prepare (store : RemoteStore σ) (request : PassRequest) (intervals : WaitIntervals)
    (state : σ) : Except PassError (Plan × Option EventWaiter) × σ :=
  match request.plan store state with
  | (.error error, state) => (.error error, state)
  | (.ok plan, state) =>
      match request.startWaiter store intervals plan state with
      | (.error error, state) => (.error error, state)
      | (.ok waiter, state) => (.ok (plan, waiter), state)

/-- A pass prepares itself, and carries out its plan unless that failed. -/
theorem converge_eq (store : RemoteStore σ) (request : PassRequest) (intervals : WaitIntervals)
    (state : PassState σ) :
    request.converge store intervals state =
      match request.prepare store intervals state.store with
      | (.error error, after) => (.error error, { state with store := after })
      | (.ok (plan, waiter), after) =>
          match request.carryOut store plan waiter (.starting state.clock request.timeout)
              { state with store := after } with
          | (report, state) => (.ok report, state) := by
  unfold converge prepare
  rcases request.plan store state.store with ⟨planned | plan, after⟩
  · rfl
  · dsimp only
    rcases request.startWaiter store intervals plan after with ⟨failed | waiter, last⟩
    · rfl
    · rfl

theorem agree_prepare (agree : first.PagesAgree related second) (request : PassRequest)
    (intervals : WaitIntervals) :
    Agree related (prepare first request intervals) (prepare second request intervals) := by
  intro left right begun
  obtain ⟨answer, leftAfter, rightAfter, ran, otherRan, after⟩ :=
    (agree_plan agree.toLooksAgree request).run begun
  simp only [prepare, ran, otherRan]
  cases answer with
  | error error => exact ⟨rfl, after⟩
  | ok plan =>
      obtain ⟨started, leftLast, rightLast, ranRest, otherRanRest, last⟩ :=
        (agree_startWaiter agree request intervals plan).run after
      simp only [ranRest, otherRanRest]
      cases started with
      | error error => exact ⟨rfl, last⟩
      | ok waiter => exact ⟨rfl, last⟩

end PassRequest

/-! ## Writes -/

structure Progress.Related (related : σ → τ → Prop) (left : Progress σ) (right : Progress τ) :
    Prop where
  state : PassState.Related related left.state right.state
  held : left.held = right.held
  outcome : left.outcome = right.outcome

namespace Schema

private theorem agree_refetch (agree : first.LooksAgree related second) (reference : ResourceRef) :
    Agree (PassState.Related related) (refetch first reference) (refetch second reference) := by
  intro left right begun
  obtain ⟨answer, leftAfter, rightAfter, ran, otherRan, after⟩ :=
    (PassState.agree_call (agree.get reference)).run begun
  simp only [refetch, ran, otherRan]
  cases answer with
  | error error => exact ⟨rfl, after⟩
  | ok found =>
      cases found with
      | none => exact ⟨rfl, after⟩
      | some object => exact ⟨rfl, after⟩

private theorem agree_applyChanges (agree : first.CallsAgree related second) (schema : Schema)
    (remote : RemoteObject) (changes : List FieldChange) :
    Agree (PassState.Related related) (schema.applyChanges first remote changes)
      (schema.applyChanges second remote changes) := by
  intro left right begun
  unfold applyChanges
  cases changes.isEmpty with
  | true => exact ⟨rfl, begun⟩
  | false =>
      simp only [Bool.false_eq_true, if_false]
      cases schema.updateBody changes ∅ with
      | error error => exact ⟨rfl, begun⟩
      | ok request =>
          obtain ⟨answer, leftAfter, rightAfter, ran, otherRan, after⟩ :=
            (PassState.agree_call (agree.update remote.reference request)).run begun
          simp only [ran, otherRan]
          cases answer with
          | error source => exact ⟨rfl, after⟩
          | ok written =>
              obtain ⟨object, leftLast, rightLast, reread, otherReread, last⟩ :=
                (agree_refetch agree.toLooksAgree remote.reference).run (after.noted
                  (changes.map fun change => "update " ++ schema.identityOf remote ++ ": " ++ change.text))
              simp only [reread, otherReread]
              exact ⟨trivial, last⟩

private theorem agree_applyOperation (agree : first.CallsAgree related second) (schema : Schema)
    (collection : Collection) (operation : Operation) {left : Progress σ} {right : Progress τ}
    (begun : Progress.Related related left right) :
    Progress.Related related (schema.applyOperation first collection left operation)
      (schema.applyOperation second collection right operation) := by
  obtain ⟨left, held, outcome⟩ := left
  obtain ⟨right, _, _⟩ := right
  obtain ⟨states, rfl, rfl⟩ := begun
  cases operation with
  | delete remote =>
      obtain ⟨answer, leftAfter, rightAfter, ran, otherRan, after⟩ :=
        (PassState.agree_call (agree.delete remote.reference)).run states
      simp only [applyOperation, applyDelete, ran, otherRan]
      cases answer with
      | error source => exact ⟨after, rfl, rfl⟩
      | ok done => exact ⟨after.noted _, rfl, rfl⟩
  | create desired =>
      simp only [applyOperation, applyCreate]
      cases schema.blocker? held desired with
      | some blocker => exact ⟨states, rfl, rfl⟩
      | none =>
          obtain ⟨answer, leftAfter, rightAfter, ran, otherRan, after⟩ :=
            (PassState.agree_call (agree.create collection desired.createPayload)).run states
          simp only [ran, otherRan]
          cases answer with
          | error source => exact ⟨after, rfl, rfl⟩
          | ok created => exact ⟨after.noted _, rfl, rfl⟩
  | update pair =>
      obtain ⟨answer, leftAfter, rightAfter, ran, otherRan, after⟩ :=
        (agree_applyChanges agree schema pair.remote pair.changes).run states
      simp only [applyOperation, applyUpdate, ran, otherRan]
      cases answer with
      | error error => exact ⟨after, rfl, rfl⟩
      | ok sent =>
          obtain ⟨changes, reread⟩ := sent
          cases reread with
          | error error => exact ⟨after, rfl, rfl⟩
          | ok object => exact ⟨after, rfl, rfl⟩

theorem agree_applyOperations (agree : first.CallsAgree related second) (schema : Schema)
    (collection : Collection) (set : OperationSet) :
    Agree (PassState.Related related) (schema.applyOperations first collection set)
      (schema.applyOperations second collection set) := by
  intro left right begun
  have folded : ∀ (operations : List Operation) {left : Progress σ} {right : Progress τ},
      Progress.Related related left right →
        Progress.Related related (operations.foldl (schema.applyOperation first collection) left)
          (operations.foldl (schema.applyOperation second collection) right) := by
    intro operations
    induction operations with
    | nil => exact fun begun => begun
    | cons operation rest ih =>
        exact fun begun => ih (agree_applyOperation agree schema collection operation begun)
  have fresh : Progress.Related related ⟨left, [], .empty⟩ ⟨right, [], .empty⟩ := ⟨begun, rfl, rfl⟩
  have run := folded set.operations fresh
  exact ⟨run.outcome, run.state⟩

end Schema

namespace PassRequest

structure TopLevel.Related (related : σ → τ → Prop) (left : TopLevel σ) (right : TopLevel τ) :
    Prop where
  state : PassState.Related related left.state right.state
  report : left.report = right.report
  waiter : left.waiter = right.waiter
  reached : left.reached = right.reached

private theorem agree_applyTop (agree : first.CallsAgree related second) (request : PassRequest)
    (action : ResourceAction) (waiter : Option EventWaiter) (report : PassReport)
    {left : PassState σ} {right : PassState τ} (begun : PassState.Related related left right) :
    TopLevel.Related related (request.applyTop first action waiter report left)
      (request.applyTop second action waiter report right) := by
  cases action with
  | create payload =>
      obtain ⟨answer, leftAfter, rightAfter, ran, otherRan, after⟩ :=
        (PassState.agree_call (agree.create request.homeCollection payload)).run begun
      simp only [applyTop, createTop, ran, otherRan]
      cases answer with
      | error source => exact ⟨after, rfl, rfl, rfl⟩
      | ok created => exact ⟨after.noted _, rfl, rfl, rfl⟩
  | update remote changes =>
      obtain ⟨answer, leftAfter, rightAfter, ran, otherRan, after⟩ :=
        (Schema.agree_applyChanges agree request.schema remote changes).run begun
      simp only [applyTop, updateTop, ran, otherRan]
      cases answer with
      | error error => exact ⟨after, rfl, rfl, rfl⟩
      | ok outcome => exact ⟨after, rfl, rfl, rfl⟩

private theorem agree_applyCollections (agree : first.CallsAgree related second) (parent : ResourceRef)
    (collections : List CollectionPlan) (report : PassReport) :
    Agree (PassState.Related related) (applyCollections first parent collections report)
      (applyCollections second parent collections report) := by
  induction collections generalizing report with
  | nil => exact fun _ _ begun => ⟨rfl, begun⟩
  | cons planned rest ih =>
      intro left right begun
      obtain ⟨outcome, leftAfter, rightAfter, ran, otherRan, after⟩ :=
        (Schema.agree_applyOperations agree planned.schema (.under parent planned.schema.kind)
          planned.operations).run begun
      simp only [applyCollections, ran, otherRan]
      exact ih (report.absorb outcome) _ _ after

/-! ## Waiting and the end -/

private theorem agree_awaitCompletion (agree : first.ReadsAgree related second) (mode : WaitMode)
    (waiter : EventWaiter) (budget : Budget) :
    Agree (PassState.Related related) (awaitCompletion first mode waiter budget)
      (awaitCompletion second mode waiter budget) := by
  rintro ⟨left, log, clock⟩ ⟨right, _, _⟩ ⟨begun, rfl, rfl⟩
  cases mode with
  | block =>
      have now : Timed.Related (Watch.Related related) ⟨clock, waiter, left⟩ ⟨clock, waiter, right⟩ :=
        ⟨rfl, rfl, begun⟩
      obtain ⟨answer, leftAfter, rightAfter, ran, otherRan, after⟩ :=
        (EventWaiter.agree_awaitNextFinished agree budget).run now
      simp only [awaitCompletion, awaitBlocking, ran, otherRan, after.clock]
      cases answer with
      | error error => exact ⟨rfl, after.state.state, rfl, rfl⟩
      | ok outcome =>
          cases outcome with
          | completed record => exact ⟨rfl, after.state.state, rfl, rfl⟩
          | failed record => exact ⟨rfl, after.state.state, rfl, rfl⟩
  | noWait =>
      have now : Watch.Related related ⟨waiter, left⟩ ⟨waiter, right⟩ := ⟨rfl, begun⟩
      obtain ⟨answer, leftAfter, rightAfter, ran, otherRan, after⟩ :=
        (EventWaiter.agree_pollOnce agree.toPagesAgree).run now
      simp only [awaitCompletion, awaitOnce, ran, otherRan]
      cases answer with
      | error error => exact ⟨rfl, after.state, rfl, rfl⟩
      | ok found =>
          cases found with
          | none => exact ⟨rfl, after.state, rfl, rfl⟩
          | some record => exact ⟨rfl, after.state, rfl, rfl⟩

theorem agree_awaitStep (agree : first.ReadsAgree related second) (request : PassRequest)
    (waiter : Option EventWaiter) (mutated : Bool) (budget : Budget) (report : PassReport) :
    Agree (PassState.Related related) (request.awaitStep first waiter mutated budget report)
      (request.awaitStep second waiter mutated budget report) := by
  intro left right begun
  unfold awaitStep
  cases waiter with
  | none => exact ⟨rfl, begun⟩
  | some waiter =>
      cases (mutated || request.awaitAction.isSome) with
      | false => exact ⟨rfl, begun⟩
      | true =>
          obtain ⟨answer, leftAfter, rightAfter, ran, otherRan, after⟩ :=
            (agree_awaitCompletion agree request.wait waiter budget).run begun
          simp only [if_true, ran, otherRan]
          exact ⟨trivial, after⟩

private theorem agree_finish (agree : first.LooksAgree related second) (reference : ResourceRef)
    (report : PassReport) :
    Agree (PassState.Related related) (finish first reference report)
      (finish second reference report) := by
  intro left right begun
  obtain ⟨answer, leftAfter, rightAfter, ran, otherRan, after⟩ :=
    (Schema.agree_refetch agree reference).run begun
  simp only [finish, ran, otherRan]
  cases answer with
  | error error => exact ⟨rfl, after⟩
  | ok object => exact ⟨rfl, after⟩

/-! ## Whole passes -/

private theorem agree_carryOut (agree : first.CallsAgree related second) (request : PassRequest)
    (plan : Plan) (waiter : Option EventWaiter) (budget : Budget) :
    Agree (PassState.Related related) (request.carryOut first plan waiter budget)
      (request.carryOut second plan waiter budget) := by
  intro left right begun
  have tops := agree_applyTop agree request plan.action waiter (.start plan.label) begun
  simp only [carryOut, tops.reached, tops.report, tops.waiter]
  cases (request.applyTop second plan.action waiter (.start plan.label) right).reached with
  | none => exact ⟨rfl, tops.state⟩
  | some reached =>
      obtain ⟨object, mutated⟩ := reached
      dsimp only
      obtain ⟨report, leftAfter, rightAfter, ran, otherRan, after⟩ :=
        (agree_applyCollections agree object.reference plan.collections
          (request.applyTop second plan.action waiter (.start plan.label) right).report).run tops.state
      simp only [ran, otherRan]
      obtain ⟨waited, leftLast, rightLast, ended, otherEnded, last⟩ :=
        (agree_awaitStep agree.toReadsAgree request
          (request.applyTop second plan.action waiter (.start plan.label) right).waiter mutated budget
          report).run after
      simp only [ended, otherEnded]
      by_cases late : waited.completion = .timedOut
      · simp only [late, if_true]
        exact ⟨trivial, last⟩
      · simp only [late, if_false]
        exact agree_finish agree.toLooksAgree object.reference waited _ _ last

/-- A pass cannot tell agreeing stores apart. -/
theorem agree_converge (agree : first.CallsAgree related second) (request : PassRequest)
    (intervals : WaitIntervals) :
    Agree (PassState.Related related) (request.converge first intervals)
      (request.converge second intervals) := by
  rintro ⟨left, log, clock⟩ ⟨right, _, _⟩ ⟨begun, rfl, rfl⟩
  rw [converge_eq, converge_eq]
  obtain ⟨answer, leftAfter, rightAfter, ran, otherRan, after⟩ :=
    (agree_prepare agree.toPagesAgree request intervals).run begun
  simp only [ran, otherRan]
  cases answer with
  | error error => exact ⟨rfl, after, rfl, rfl⟩
  | ok prepared =>
      obtain ⟨plan, waiter⟩ := prepared
      have now : PassState.Related related ⟨leftAfter, log, clock⟩ ⟨rightAfter, log, clock⟩ :=
        ⟨after, rfl, rfl⟩
      obtain ⟨report, leftLast, rightLast, done, otherDone, last⟩ :=
        (agree_carryOut agree request plan waiter (.starting clock request.timeout)).run now
      simp only [done, otherDone]
      exact ⟨trivial, last⟩

/-- A pass keeps whatever every call of its store keeps. -/
theorem kept_of_converge {store : RemoteStore σ} {holds : σ → Prop}
    (kept : store.CallsAgree (Kept holds) store) {request : PassRequest} {intervals : WaitIntervals}
    {state after : PassState σ} {answer : Except PassError PassReport}
    (ran : request.converge store intervals state = (answer, after)) (start : holds state.store) :
    holds after.store := by
  have related := (agree_converge kept request intervals state state ⟨⟨rfl, start⟩, rfl, rfl⟩).2
  rw [ran] at related
  exact related.store.2

end PassRequest

end DesiredState
