import DesiredState.Pass.Apply
import DesiredState.Pass.Plan
import DesiredState.Wait.Waiter

/-!
# Convergence passes

A pass reads what is there, finds out what to do, does it, waits for the remote side to finish,
and reads the result. Whatever can fail before the first write fails the pass and leaves
everything as it was; after that, failures are collected in the report beside what was done.
-/

set_option autoImplicit false

namespace DesiredState

namespace PassRequest

variable {σ : Type}

/-! ## Before the first write -/

def awaited? (request : PassRequest) (plan : Plan) : Option String :=
  request.awaitAction.or plan.defaultAction?

/-- The log entries to watch for: those of the top-level object, once it has a number. -/
def awaitedFilter (plan : Plan) (action : String) : EventFilter :=
  match plan.action with
  | .create _ => ⟨plan.schema.kind, none, action⟩
  | .update remote _ => ⟨plan.schema.kind, some remote.id, action⟩

/-- Start watching the log before anything is written, so that the event of the write is new
to the waiter. -/
def startWaiter (store : RemoteStore σ) (request : PassRequest) (intervals : WaitIntervals)
    (plan : Plan) (state : σ) : Except PassError (Option EventWaiter) × σ :=
  match request.awaited? plan with
  | none => (.ok none, state)
  | some action =>
      match EventWaiter.start store (awaitedFilter plan action) intervals state with
      | (.ok waiter, state) => (.ok (some waiter), state)
      | (.error error, state) => (.error error, state)

/-! ## The top-level object -/

/-- Where a pass stands when the top-level object is dealt with. -/
structure TopLevel (σ : Type) where
  state : PassState σ
  report : PassReport
  waiter : Option EventWaiter
  /-- The object, and whether it was written; nothing if it could not be created. -/
  reached : Option (RemoteObject × Bool)

def homeCollection (request : PassRequest) : Collection :=
  ⟨request.schema.kind, request.target.parent?⟩

def createTop (store : RemoteStore σ) (request : PassRequest) (payload : Attributes)
    (waiter : Option EventWaiter) (report : PassReport) (state : PassState σ) : TopLevel σ :=
  let kind := request.schema.kind
  match state.call (store.create request.homeCollection payload) with
  | (.ok created, state) =>
      let address := created.reference.text
      { state := state.noted ["create " ++ address]
        report :=
          { report with created := true, resource := address }.withApplied
            (.created kind created.reference)
        waiter := waiter.map (·.withEntityId created.id)
        reached := some (created, true) }
  | (.error source, state) =>
      { state := state
        report := report.withError (.operationFailed .create kind kind source)
        waiter := waiter
        reached := none }

def updateTop (store : RemoteStore σ) (request : PassRequest) (remote : RemoteObject)
    (changes : List FieldChange) (waiter : Option EventWaiter) (report : PassReport)
    (state : PassState σ) : TopLevel σ :=
  match request.schema.applyChanges store remote changes state with
  | (.error error, state) =>
      { state := state, report := report.withError error, waiter := waiter
        reached := some (remote, false) }
  | (.ok outcome, state) =>
      let (object, report) := match outcome.refetch with
        | .ok object => (object, report)
        | .error error => (remote, report.withError error)
      let mutated := !outcome.changes.isEmpty
      let report :=
        if mutated then
          report.withApplied
            (.updated (request.schema.identityOf object) object.reference outcome.changes)
        else report
      { state := state, report := report, waiter := waiter, reached := some (object, mutated) }

def applyTop (store : RemoteStore σ) (request : PassRequest) (action : ResourceAction)
    (waiter : Option EventWaiter) (report : PassReport) (state : PassState σ) : TopLevel σ :=
  match action with
  | .create payload => request.createTop store payload waiter report state
  | .update remote changes => request.updateTop store remote changes waiter report state

/-! ## The collections -/

/-- Run the operations of the collections under an object, one collection after the other. -/
def applyCollections (store : RemoteStore σ) (parent : ResourceRef) :
    List CollectionPlan → PassReport → PassState σ → PassReport × PassState σ
  | [], report, state => (report, state)
  | planned :: rest, report, state =>
      match planned.schema.applyOperations store (.under parent planned.schema.kind)
          planned.operations state with
      | (outcome, state) => applyCollections store parent rest (report.absorb outcome) state

/-! ## Waiting -/

def awaitBlocking (store : RemoteStore σ) (waiter : EventWaiter) (budget : Budget)
    (state : PassState σ) : (Completion × List PassError) × PassState σ :=
  match EventWaiter.awaitNextFinished store budget ⟨state.clock, ⟨waiter, state.store⟩⟩ with
  | (result, after) =>
      let state := { state with store := after.state.state, clock := after.clock }
      match result with
      | .ok (.completed record) => ((.completed record, []), state)
      | .ok (.failed record) =>
          ((.failed record, [.eventFailed record.id record.action]), state)
      | .error error => ((if error.isTimeout then .timedOut else .pending, [error]), state)

def awaitOnce (store : RemoteStore σ) (waiter : EventWaiter) (state : PassState σ) :
    (Completion × List PassError) × PassState σ :=
  match EventWaiter.pollOnce store ⟨waiter, state.store⟩ with
  | (result, after) =>
      let state := { state with store := after.state }
      match result with
      | .ok (some record) => ((.observed record, []), state)
      | .ok none => ((.pending, []), state)
      | .error error => ((.pending, [error]), state)

def awaitCompletion (store : RemoteStore σ) (mode : WaitMode) (waiter : EventWaiter)
    (budget : Budget) (state : PassState σ) : (Completion × List PassError) × PassState σ :=
  match mode with
  | .block => awaitBlocking store waiter budget state
  | .noWait => awaitOnce store waiter state

/-- Wait if something was written that sets off the event, or if the request names one. -/
def awaitStep (store : RemoteStore σ) (request : PassRequest) (waiter : Option EventWaiter)
    (mutated : Bool) (budget : Budget) (report : PassReport) (state : PassState σ) :
    PassReport × PassState σ :=
  match waiter with
  | none => (report, state)
  | some waiter =>
      if mutated || request.awaitAction.isSome then
        match awaitCompletion store request.wait waiter budget state with
        | ((completion, errors), state) =>
            ({ report with completion, errors := report.errors ++ errors }, state)
      else (report, state)

/-! ## The end -/

def finish (store : RemoteStore σ) (reference : ResourceRef) (report : PassReport)
    (state : PassState σ) : PassReport × PassState σ :=
  match Schema.refetch store reference state with
  | (.ok object, state) => ({ report with object := some object }, state)
  | (.error error, state) => (report.withError error, state)

/-- What follows the plan: write, wait and read again. A pass that could not create its object,
or that ran out of time, ends early. -/
def carryOut (store : RemoteStore σ) (request : PassRequest) (plan : Plan)
    (waiter : Option EventWaiter) (budget : Budget) (state : PassState σ) :
    PassReport × PassState σ :=
  let top := request.applyTop store plan.action waiter (.start plan.label) state
  match top.reached with
  | none => (top.report, top.state)
  | some (object, mutated) =>
      match applyCollections store object.reference plan.collections top.report top.state with
      | (report, state) =>
          match request.awaitStep store top.waiter mutated budget report state with
          | (report, state) =>
              if report.completion = .timedOut then (report, state)
              else finish store object.reference report state

def converge (store : RemoteStore σ) (request : PassRequest) (intervals : WaitIntervals)
    (state : PassState σ) : Except PassError PassReport × PassState σ :=
  let budget := Budget.starting state.clock request.timeout
  match request.plan store state.store with
  | (.error error, after) => (.error error, { state with store := after })
  | (.ok plan, after) =>
      match request.startWaiter store intervals plan after with
      | (.error error, after) => (.error error, { state with store := after })
      | (.ok waiter, after) =>
          match request.carryOut store plan waiter budget { state with store := after } with
          | (report, state) => (.ok report, state)

end PassRequest

end DesiredState
