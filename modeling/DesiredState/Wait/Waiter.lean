import DesiredState.Store
import DesiredState.Wait.Ledger
import DesiredState.Wait.Poll

/-!
# Waiting for events

A waiter watches the event log for one kind, one action and, once it is known, one object. It
starts from a ledger of what the log already holds, so that the first event it has not seen is
one that happened since.
-/

set_option autoImplicit false

namespace DesiredState

/-- How often to look, in milliseconds: at the event log, and at a single event. -/
structure WaitIntervals where
  event : Nat
  terminal : Nat
  deriving DecidableEq

def WaitIntervals.standard : WaitIntervals := ⟨1000, 500⟩

/-- How an awaited operation ended. -/
inductive TerminalOutcome where
  | completed (record : EventRecord)
  | failed (record : EventRecord)
  deriving DecidableEq

namespace TerminalOutcome

def ofRecord (record : EventRecord) : TerminalOutcome :=
  if record.status.isFailure then .failed record else .completed record

def record : TerminalOutcome → EventRecord
  | .completed record => record
  | .failed record => record

def isSuccess : TerminalOutcome → Bool
  | .completed _ => true
  | .failed _ => false

def toExcept : TerminalOutcome → Except PassError EventRecord
  | .completed record => .ok record
  | .failed record => .error (.eventFailed record.id record.action)

end TerminalOutcome

/-- What is watched, what was seen, and how often to look. -/
structure EventWaiter where
  filter : EventFilter
  ledger : EventLedger
  intervals : WaitIntervals
  deriving DecidableEq

/-- A waiter at work on the state of a store. -/
structure Watch (σ : Type) where
  waiter : EventWaiter
  state : σ

namespace EventWaiter

variable {σ : Type}

/-- A waiter for an entity. If its number is known, the current page of the log counts as seen;
otherwise nothing does. -/
def start (store : RemoteStore σ) (filter : EventFilter) (intervals : WaitIntervals)
    (state : σ) : Except PassError EventWaiter × σ :=
  match filter.entityId with
  | none => (.ok ⟨filter, .empty, intervals⟩, state)
  | some _ =>
      match store.listEvents filter state with
      | (.ok records, state) => (.ok ⟨filter, .seeded records, intervals⟩, state)
      | (.error error, state) => (.error (.store error), state)

def withEntityId (waiter : EventWaiter) (id : Nat) : EventWaiter :=
  { waiter with filter := { waiter.filter with entityId := some id } }

def firstUnseen? (waiter : EventWaiter) (page : List EventRecord) : Option EventRecord :=
  page.find? fun record => waiter.filter.accepts record && !waiter.ledger.hasSeen record.id

def saw (waiter : EventWaiter) (record : EventRecord) : EventWaiter :=
  { waiter with ledger := (waiter.ledger.merge record).2 }

/-- Look at the log once; the first event that is new counts as seen from then on. -/
def pollOnce (store : RemoteStore σ) (watch : Watch σ) :
    Except PassError (Option EventRecord) × Watch σ :=
  match store.listEvents watch.waiter.filter watch.state with
  | (.error error, state) => (.error (.store error), { watch with state })
  | (.ok page, state) =>
      match watch.waiter.firstUnseen? page with
      | none => (.ok none, { watch with state })
      | some record => (.ok (some record), ⟨watch.waiter.saw record, state⟩)

def awaitNext (store : RemoteStore σ) (budget : Budget) (now : Timed (Watch σ)) :
    Except PassError EventRecord × Timed (Watch σ) :=
  let waiter := now.state.waiter
  Probe.await waiter.intervals.event budget ("next " ++ waiter.filter.action ++ " event")
    (.instant (pollOnce store)) now

def readTerminal (store : RemoteStore σ) (id : Nat) (state : σ) :
    Except PassError (Option EventRecord) × σ :=
  match store.getEvent id state with
  | (.error error, state) => (.error (.store error), state)
  | (.ok found, state) => (.ok (found.filter (·.status.isTerminal)), state)

def terminalGoal (event : EventRecord) : String :=
  "event " ++ Nat.repr event.id ++ " (" ++ event.action ++ ") to finish"

def awaitTerminal (store : RemoteStore σ) (interval : Nat) (event : EventRecord)
    (budget : Budget) (now : Timed σ) : Except PassError TerminalOutcome × Timed σ :=
  match Probe.await interval budget (terminalGoal event)
      (.instant (readTerminal store event.id)) now with
  | (.ok record, after) => (.ok (.ofRecord record), after)
  | (.error error, after) => (.error error, after)

/-- Wait for an event that is new, and then for it to end, within one budget. -/
def awaitNextFinished (store : RemoteStore σ) (budget : Budget) (now : Timed (Watch σ)) :
    Except PassError TerminalOutcome × Timed (Watch σ) :=
  match awaitNext store budget now with
  | (.error error, after) => (.error error, after)
  | (.ok event, after) =>
      let waiter := after.state.waiter
      match awaitTerminal store waiter.intervals.terminal event budget
          ⟨after.clock, after.state.state⟩ with
      | (outcome, last) => (outcome, ⟨last.clock, ⟨waiter, last.state⟩⟩)

end EventWaiter

end DesiredState
