import DesiredState.Store
import DesiredState.Store.State

/-!
# Writes

A write is the part of an exchange with a store that asks for a change. On the state of a store
in memory each write has one effect on the objects, whatever it does to the events.
-/

set_option autoImplicit false

namespace DesiredState

/-- A write as it is sent to a store. -/
inductive Write where
  | create (collection : Collection) (payload : Attributes)
  | update (reference : ResourceRef) (fields : Attributes)
  | delete (reference : ResourceRef)
  deriving DecidableEq

namespace Write

def call : Write → StoreCall
  | .create collection payload => .create collection payload
  | .update reference fields => .update reference fields.keys
  | .delete reference => .delete reference

end Write

namespace Exchange

/-- The write that was asked for, if the exchange is one. -/
def write? : Exchange → Option Write
  | .create collection payload _ => some (.create collection payload)
  | .update reference fields _ => some (.update reference fields)
  | .delete reference _ => some (.delete reference)
  | .get _ _ | .list _ _ | .listEvents _ _ | .getEvent _ _ => none

/-- What a journal keeps of the exchange. -/
def call : Exchange → StoreCall
  | .get reference _ => .get reference
  | .list collection _ => .list collection
  | .create collection payload _ => .create collection payload
  | .update reference fields _ => .update reference fields.keys
  | .delete reference _ => .delete reference
  | .listEvents filter _ => .listEvents filter
  | .getEvent id _ => .getEvent id

/-- Whether the exchange is a write that the store accepted. -/
def isAccepted : Exchange → Bool
  | .create _ _ (.ok _) | .update _ _ (.ok _) | .delete _ (.ok _) => true
  | .create _ _ (.error _) | .update _ _ (.error _) | .delete _ (.error _) => false
  | .get _ _ | .list _ _ | .listEvents _ _ | .getEvent _ _ => false

def isRefused : Exchange → Bool
  | .create _ _ (.error _) | .update _ _ (.error _) | .delete _ (.error _) => true
  | .create _ _ (.ok _) | .update _ _ (.ok _) | .delete _ (.ok _) => false
  | .get _ _ | .list _ _ | .listEvents _ _ | .getEvent _ _ => false

end Exchange

def writesOf (exchanges : List Exchange) : List Write := exchanges.filterMap Exchange.write?

def acceptedWritesOf (exchanges : List Exchange) : List Write :=
  writesOf (exchanges.filter Exchange.isAccepted)

theorem filter_isMutation_calls (exchanges : List Exchange) :
    (exchanges.map Exchange.call).filter StoreCall.isMutation = (writesOf exchanges).map Write.call := by
  induction exchanges with
  | nil => rfl
  | cons exchange rest ih =>
      rw [List.map_cons]
      cases exchange with
      | get _ _ | list _ _ | listEvents _ _ | getEvent _ _ => exact ih
      | create _ _ _ | update _ _ _ | delete _ _ => exact congrArg (List.cons _) ih

namespace StoreState

/-- The state after an accepted write, without its event. -/
def performed (state : StoreState) : Write → StoreState
  | .create collection payload => state.insertObject collection payload
  | .update reference fields => state.setFields reference fields
  | .delete reference => state.removeTree reference

/-- The state after some accepted writes, without their events. -/
def performedAll (state : StoreState) (writes : List Write) : StoreState :=
  writes.foldl performed state

end StoreState

end DesiredState
