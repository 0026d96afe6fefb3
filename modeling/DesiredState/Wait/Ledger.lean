import DesiredState.Event

/-!
# Ledgers

A ledger holds the numbers of the events that were seen, each once.
-/

set_option autoImplicit false

namespace DesiredState

/-- The numbers of the events that were seen. -/
structure EventLedger where
  seen : List Nat
  deriving DecidableEq

namespace EventLedger

def empty : EventLedger := ⟨[]⟩

def hasSeen (ledger : EventLedger) (id : Nat) : Bool := ledger.seen.contains id

def merge (ledger : EventLedger) (record : EventRecord) : Bool × EventLedger :=
  if ledger.hasSeen record.id then (false, ledger) else (true, ⟨record.id :: ledger.seen⟩)

def seed (ledger : EventLedger) (records : List EventRecord) : EventLedger :=
  records.foldl (fun ledger record => (ledger.merge record).2) ledger

def seeded (records : List EventRecord) : EventLedger := empty.seed records

def size (ledger : EventLedger) : Nat := ledger.seen.length

def isEmpty (ledger : EventLedger) : Bool := ledger.seen.isEmpty

end EventLedger

end DesiredState
