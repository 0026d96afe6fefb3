import DesiredState.Proofs.Store.Agreement
import DesiredState.Wait.Waiter

/-!
# Waits on a clock that the store sees

A store may answer by the time. A wait asks it at the time of its own clock, which is the wait as it is
if the store takes no notice. A dated store writes down when each of its calls came.
-/

set_option autoImplicit false

namespace DesiredState

variable {σ α : Type}

/-- A state together with the calls so far and their times, oldest first. -/
structure Dated (σ : Type) where
  state : σ
  journal : List (Nat × StoreCall)

namespace RemoteStore

def dateCall (clock : Nat) (call : StoreCall) (run : σ → α × σ) (dated : Dated σ) : α × Dated σ :=
  match run dated.state with
  | (answer, state) => (answer, ⟨state, dated.journal ++ [(clock, call)]⟩)

def dated (store : RemoteStore σ) (clock : Nat) : RemoteStore (Dated σ) where
  get reference := dateCall clock (.get reference) (store.get reference)
  list collection := dateCall clock (.list collection) (store.list collection)
  create collection payload := dateCall clock (.create collection payload) (store.create collection payload)
  update reference fields :=
    dateCall clock (.update reference fields.keys) (store.update reference fields)
  delete reference := dateCall clock (.delete reference) (store.delete reference)
  listEvents filter := dateCall clock (.listEvents filter) (store.listEvents filter)
  getEvent id := dateCall clock (.getEvent id) (store.getEvent id)

def Undated (state : σ) (dated : Dated σ) : Prop := dated.state = state

private theorem agree_dateCall (clock : Nat) (call : StoreCall) (run : σ → α × σ) :
    Agree Undated run (dateCall clock call run) := by
  rintro _ dated rfl
  exact ⟨rfl, rfl⟩

/-- Dates change nothing about a store. -/
theorem readsAgree_dated (store : RemoteStore σ) (clock : Nat) :
    ReadsAgree Undated store (store.dated clock) where
  get reference := agree_dateCall clock _ (store.get reference)
  list collection := agree_dateCall clock _ (store.list collection)
  listEvents filter := agree_dateCall clock _ (store.listEvents filter)
  getEvent id := agree_dateCall clock _ (store.getEvent id)

end RemoteStore

namespace Probe

/-- A look at the time of the clock, that takes none. -/
def timely (look : Nat → σ → Except PassError (Option α) × σ) : Probe σ α := fun now =>
  instant (look now.clock) now

end Probe

namespace EventWaiter

variable (store : Nat → RemoteStore σ)

def awaitNextAt (budget : Budget) (now : Timed (Watch σ)) :
    Except PassError EventRecord × Timed (Watch σ) :=
  let waiter := now.state.waiter
  Probe.await waiter.intervals.event budget ("next " ++ waiter.filter.action ++ " event")
    (.timely fun clock => pollOnce (store clock)) now

def awaitTerminalAt (interval : Nat) (event : EventRecord) (budget : Budget) (now : Timed σ) :
    Except PassError TerminalOutcome × Timed σ :=
  match Probe.await interval budget (terminalGoal event)
      (.timely fun clock => readTerminal (store clock) event.id) now with
  | (.ok record, after) => (.ok (.ofRecord record), after)
  | (.error error, after) => (.error error, after)

def awaitNextFinishedAt (budget : Budget) (now : Timed (Watch σ)) :
    Except PassError TerminalOutcome × Timed (Watch σ) :=
  match awaitNextAt store budget now with
  | (.error error, after) => (.error error, after)
  | (.ok event, after) =>
      let waiter := after.state.waiter
      match awaitTerminalAt store waiter.intervals.terminal event budget
          ⟨after.clock, after.state.state⟩ with
      | (outcome, last) => (outcome, ⟨last.clock, ⟨waiter, last.state⟩⟩)

/-- On a store that takes no notice of the time this is the wait itself. -/
theorem awaitNextFinishedAt_const (store : RemoteStore σ) :
    awaitNextFinishedAt (fun _ => store) = awaitNextFinished store := rfl

end EventWaiter

end DesiredState
