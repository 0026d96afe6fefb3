import DesiredState.Store

/-!
# Stores with faults

A store around another one that makes chosen calls go wrong. A fault waits for one sort of
call; it lets some of them pass, then strikes a number of times. What a strike does depends on
the fault: the call fails, before or after it was really made, or its answer is changed.
-/

set_option autoImplicit false

namespace DesiredState

/-- The sorts of calls that a fault can wait for. The last three change answers. -/
inductive FaultPoint where
  | get
  | list
  | create
  | update
  | delete
  | listEvents
  | getEvent
  | hiddenObject
  | eventPage
  /-- An event that was found has another status, or is kept back. -/
  | eventStatus
  deriving DecidableEq

/-- What a fault does. -/
inductive FaultEffect where
  /-- Fail; `afterCall` says whether the call is made first. -/
  | fail (error : StoreError) (afterCall : Bool)
  | hide
  /-- Answer a page with every event there is, in the order of the log. -/
  | everything
  | status (status : EventStatus)
  deriving DecidableEq

/-- A fault: how many calls it still lets pass, and how often it still strikes. -/
structure Fault where
  point : FaultPoint
  skip : Nat
  times : Nat
  effect : FaultEffect
  deriving DecidableEq

namespace Fault

/-- What happens at a call: the effect of the first fault that strikes, and the faults as they
are afterwards. Each fault that waits for the call is looked at: one that lets calls pass lets
one fewer pass; of the others the first strikes. -/
def strike (point : FaultPoint) : List Fault → Option FaultEffect × List Fault
  | [] => (none, [])
  | fault :: rest =>
      if fault.point ≠ point then
        match strike point rest with
        | (effect, rest) => (effect, fault :: rest)
      else if 0 < fault.skip then
        match strike point rest with
        | (effect, rest) => (effect, { fault with skip := fault.skip - 1 } :: rest)
      else if 0 < fault.times then
        (some fault.effect, { fault with times := fault.times - 1 } :: passed point rest)
      else
        match strike point rest with
        | (effect, rest) => (effect, fault :: rest)
where
  /-- The faults after a call at which an earlier one struck. -/
  passed (point : FaultPoint) (faults : List Fault) : List Fault :=
    faults.map fun fault =>
      if fault.point = point then { fault with skip := fault.skip - 1 } else fault

end Fault

/-- The state of a store, and the faults that are still to come. -/
structure Faulty (σ : Type) where
  state : σ
  faults : List Fault

namespace Faulty

variable {σ : Type}

def struck (point : FaultPoint) (faulty : Faulty σ) : Option FaultEffect × Faulty σ :=
  match Fault.strike point faulty.faults with
  | (effect, faults) => (effect, { faulty with faults })

def inner {α : Type} (call : σ → Except StoreError α × σ) (faulty : Faulty σ) :
    Except StoreError α × Faulty σ :=
  match call faulty.state with
  | (answer, state) => (answer, { faulty with state })

def guarded {α : Type} (point : FaultPoint) (call : σ → Except StoreError α × σ)
    (faulty : Faulty σ) : Except StoreError α × Faulty σ :=
  match faulty.struck point with
  | (some (.fail error false), faulty) => (.error error, faulty)
  | (some (.fail error true), faulty) =>
      match faulty.inner call with
      | (.ok _, faulty) => (.error error, faulty)
      | (.error own, faulty) => (.error own, faulty)
  | (_, faulty) => faulty.inner call

def get (call : σ → Except StoreError (Option RemoteObject) × σ) (faulty : Faulty σ) :
    Except StoreError (Option RemoteObject) × Faulty σ :=
  match faulty.struck .hiddenObject with
  | (none, faulty) => faulty.guarded .get call
  | (some _, faulty) =>
      match faulty.guarded .get call with
      | (.ok _, faulty) => (.ok none, faulty)
      | (.error error, faulty) => (.error error, faulty)

def listEvents (everything : σ → List EventRecord)
    (call : σ → Except StoreError (List EventRecord) × σ) (faulty : Faulty σ) :
    Except StoreError (List EventRecord) × Faulty σ :=
  match faulty.struck .eventPage with
  | (none, faulty) => faulty.guarded .listEvents call
  | (some .everything, faulty) => (.ok (everything faulty.state), faulty)
  | (some _, faulty) => (.ok [], faulty)

def getEvent (call : σ → Except StoreError (Option EventRecord) × σ) (faulty : Faulty σ) :
    Except StoreError (Option EventRecord) × Faulty σ :=
  match faulty.struck .eventStatus with
  | (none, faulty) => faulty.guarded .getEvent call
  | (some effect, faulty) =>
      match faulty.guarded .getEvent call, effect with
      | (.ok (some record), faulty), .status status =>
          (.ok (some { record with status }), faulty)
      | (.ok _, faulty), _ => (.ok none, faulty)
      | (.error error, faulty), _ => (.error error, faulty)

end Faulty

def RemoteStore.faulty {σ : Type} (store : RemoteStore σ) (everything : σ → List EventRecord) :
    RemoteStore (Faulty σ) where
  get reference := Faulty.get (store.get reference)
  list collection := Faulty.guarded .list (store.list collection)
  create collection payload := Faulty.guarded .create (store.create collection payload)
  update reference fields := Faulty.guarded .update (store.update reference fields)
  delete reference := Faulty.guarded .delete (store.delete reference)
  listEvents filter := Faulty.listEvents everything (store.listEvents filter)
  getEvent id := Faulty.getEvent (store.getEvent id)

end DesiredState
