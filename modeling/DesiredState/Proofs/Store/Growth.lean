import DesiredState.Proofs.Store.EventLog
import DesiredState.Proofs.Store.History

/-!
# How a log grows

Whatever is done to a store in memory, its log keeps every event it holds, apart from the status. It grows
at its end, by one event for each write that is accepted and for each event that is placed there, under
the next number. Objects may be placed anywhere.
-/

set_option autoImplicit false

namespace DesiredState

/-- A record apart from its status. -/
def EventRecord.heading (record : EventRecord) : EventRecord := { record with status := .scheduled }

theorem EventRecord.map_id_heading (records : List EventRecord) :
    (records.map EventRecord.heading).map (·.id) = records.map (·.id) := by
  rw [List.map_map]
  rfl

namespace StoreState

/-- The log apart from the statuses. -/
def headings (state : StoreState) : List EventRecord := state.records.map EventRecord.heading

private theorem headings_reviseEvent (state : StoreState) (id : Nat) {change : StoredEvent → StoredEvent}
    (kept : ∀ event, (change event).record.heading = event.record.heading) :
    (state.reviseEvent id change).headings = state.headings := by
  simp only [headings, records, List.map_map]
  exact map_modifyEvent kept id state.events

private theorem headings_appendEvent (state : StoreState) (entityType : String) (entityId : Nat)
    (action : String) (status : EventStatus) (pending : List EventStatus) (now : Timestamp) :
    (state.appendEvent entityType entityId action status pending now).headings =
      state.headings ++ [(state.nextRecord entityType entityId action status now).heading] := by
  simp [headings, records, appendEvent]

theorem headings_written (state : StoreState) (write : Write) (now : Timestamp) :
    (state.written write now).headings =
      state.headings ++ [(state.eventOf write .finished now).heading] := by
  rw [headings, records, events_written, List.map_append, List.map_append]
  rfl

theorem nextEventId_written (state : StoreState) (write : Write) (now : Timestamp) :
    (state.written write now).nextEventId = state.nextEventId + 1 := by
  cases write with
  | create collection payload => rfl
  | update reference fields => rfl
  | delete reference => rfl

/-- What one step makes of a log: as many events as are filed, none or one, come to its end. -/
inductive Filed (before : StoreState) : Nat → StoreState → Prop where
  | nothing {after : StoreState} (headings : after.headings = before.headings)
      (counter : after.nextEventId = before.nextEventId) : Filed before 0 after
  | event {after : StoreState} (record : EventRecord) (number : record.id = before.nextEventId + 1)
      (headings : after.headings = before.headings ++ [record.heading])
      (counter : after.nextEventId = before.nextEventId + 1) : Filed before 1 after

end StoreState

private theorem StoredEvent.heading_advanced (event : StoredEvent) :
    event.advanced.record.heading = event.record.heading := by
  unfold StoredEvent.advanced
  cases event.pending with
  | nil => rfl
  | cons next rest => rfl

namespace MemoryStore

open StoreState

/-- A write is carried out or leaves nothing but a line in the journal. -/
theorem sent_eq (store : MemoryStore) (write : Write) :
    store.sent write = if store.accepts write = true then store.written write else store.noted write.call := by
  cases write with
  | create collection payload =>
      rcases create_cases store collection payload with ⟨error, ran⟩ | ⟨_, ran⟩
      · simp only [sent, accepts, ran]
        rfl
      · simp only [sent, accepts, ran]
        rfl
  | update reference fields =>
      rcases update_cases store reference fields with ⟨error, ran⟩ | ⟨_, _, ran⟩
      · simp only [sent, accepts, ran]
        rfl
      · simp only [sent, accepts, ran]
        rfl
  | delete reference =>
      rcases delete_cases store reference with ⟨error, ran⟩ | ⟨_, ran⟩
      · simp only [sent, accepts, ran]
        rfl
      · simp only [sent, accepts, ran]
        rfl

theorem allows_of_accepts {store : MemoryStore} {write : Write} (accepted : store.accepts write = true) :
    store.state.Allows write := by
  cases write with
  | create collection payload =>
      rcases create_cases store collection payload with ⟨error, ran⟩ | ⟨parentHeld, _⟩
      · rw [accepts, ran] at accepted
        cases accepted
      · exact parentHeld
  | update reference fields =>
      rcases update_cases store reference fields with ⟨error, ran⟩ | ⟨object, found, _⟩
      · rw [accepts, ran] at accepted
        cases accepted
      · exact Option.isSome_of_eq_some found
  | delete reference =>
      rcases delete_cases store reference with ⟨error, ran⟩ | ⟨held, _⟩
      · rw [accepts, ran] at accepted
        cases accepted
      · exact held

private theorem filed_sent (store : MemoryStore) (write : Write) :
    store.state.Filed (store.accepts write).toNat (store.sent write).state := by
  rw [sent_eq]
  cases store.accepts write with
  | false => exact .nothing rfl rfl
  | true => exact .event _ rfl (headings_written _ _ _) (nextEventId_written _ _ _)

private theorem filed_getEvent (store : MemoryStore) (id : Nat) :
    store.state.Filed 0 (getEvent id store).2.state := by
  cases found : store.state.findEvent? id with
  | none =>
      rw [getEvent_of_none found]
      exact .nothing rfl rfl
  | some event =>
      rw [getEvent_of_some found]
      exact .nothing (headings_reviseEvent store.state id StoredEvent.heading_advanced) rfl

end MemoryStore

namespace StoreAction

/-- The write that an action is, if it is one. -/
def write? : StoreAction → Option Write
  | .create collection payload => some (.create collection payload)
  | .update reference fields => some (.update reference fields)
  | .delete reference => some (.delete reference)
  | .get _ | .list _ | .listEvents _ | .getEvent _ => none
  | .seed _ _ | .seedEvent _ _ _ _ | .scriptEvent _ _ => none
  | .failing _ | .clearFailures | .clearJournal => none

/-- Whether an action is a write that the store accepts. -/
def isAcceptedBy (store : MemoryStore) (action : StoreAction) : Bool := action.write?.any store.accepts

/-- Whether an action places an event in the log. -/
def placesEvent : StoreAction → Bool
  | .seedEvent _ _ _ _ => true
  | .get _ | .list _ | .create _ _ | .update _ _ | .delete _ | .listEvents _ | .getEvent _ => false
  | .seed _ _ | .scriptEvent _ _ | .failing _ | .clearFailures | .clearJournal => false

theorem filed_perform (store : MemoryStore) (action : StoreAction) :
    store.state.Filed ((action.isAcceptedBy store).toNat + action.placesEvent.toNat)
      (action.perform store).state := by
  cases action with
  | create collection payload => exact store.filed_sent (.create collection payload)
  | update reference fields => exact store.filed_sent (.update reference fields)
  | delete reference => exact store.filed_sent (.delete reference)
  | getEvent id => exact store.filed_getEvent id
  | seedEvent entityType entityId action status =>
      exact .event _ rfl (store.state.headings_appendEvent entityType entityId action status [] _) rfl
  | scriptEvent id statuses =>
      exact .nothing (store.state.headings_reviseEvent id fun _ => rfl) rfl
  | get _ | list _ | listEvents _ => exact .nothing rfl rfl
  | seed _ _ | failing _ | clearFailures | clearJournal => exact .nothing rfl rfl

end StoreAction

namespace StoreState

variable {before after : StoreState} {count : Nat}

/-- The events of a log have distinct numbers within the counter. -/
structure LogNumbered (state : StoreState) : Prop where
  distinct : (state.records.map (·.id)).Nodup
  bounded : ∀ record ∈ state.records, record.id ≤ state.nextEventId

private theorem logNumbered_iff {state : StoreState} : state.LogNumbered ↔
    (state.headings.map (·.id)).Nodup ∧ ∀ id ∈ state.headings.map (·.id), id ≤ state.nextEventId := by
  rw [headings, EventRecord.map_id_heading, List.forall_mem_map]
  constructor
  · intro numbered
    exact ⟨numbered.distinct, numbered.bounded⟩
  · rintro ⟨distinct, bounded⟩
    exact ⟨distinct, bounded⟩

namespace Filed

theorem headings_extend (filed : before.Filed count after) : before.headings <+: after.headings := by
  cases filed with
  | nothing headings counter => exact ⟨[], by rw [List.append_nil, headings]⟩
  | event record number headings counter => exact ⟨[record.heading], headings.symm⟩

theorem nextEventId_le (filed : before.Filed count after) : before.nextEventId ≤ after.nextEventId := by
  cases filed with
  | nothing headings counter => exact Nat.le_of_eq counter.symm
  | event record number headings counter => rw [counter]; exact Nat.le_succ _

private theorem length_events (filed : before.Filed count after) :
    after.events.length = before.events.length + count := by
  have lengths : ∀ state : StoreState, state.headings.length = state.events.length := by
    intro state
    simp [StoreState.headings, records]
  rw [← lengths, ← lengths]
  cases filed with
  | nothing headings counter => rw [headings, Nat.add_zero]
  | event record number headings counter => rw [headings, List.length_append, List.length_singleton]

theorem logNumbered (filed : before.Filed count after) (numbered : before.LogNumbered) :
    after.LogNumbered := by
  rw [logNumbered_iff] at numbered ⊢
  obtain ⟨distinct, bounded⟩ := numbered
  cases filed with
  | nothing headings counter =>
      rw [headings, counter]
      exact ⟨distinct, bounded⟩
  | event record number headings counter =>
      have next : (after.headings).map (·.id) = before.headings.map (·.id) ++ [before.nextEventId + 1] := by
        rw [headings, List.map_append, ← number]
        rfl
      rw [next, counter]
      refine ⟨pairwise_append_next (fun _ _ => Nat.ne_of_lt) distinct bounded (Nat.lt_succ_self _), ?_⟩
      intro id member
      rcases List.mem_append.mp member with old | new
      · exact Nat.le_succ_of_le (bounded id old)
      · exact Nat.le_of_eq (List.mem_singleton.mp new)

end Filed

end StoreState

namespace MemoryStore

/-- The number of writes of a history that the store accepts when their turn comes. -/
def acceptedAmong (store : MemoryStore) : List StoreAction → Nat
  | [] => 0
  | action :: rest => (action.isAcceptedBy store).toNat + (action.perform store).acceptedAmong rest

/-- Along a history a log keeps what it holds, apart from the statuses, and grows by the accepted writes
and the events that are placed in it. -/
theorem log_performAll (store : MemoryStore) (actions : List StoreAction) :
    store.state.headings <+: (store.performAll actions).state.headings ∧
      (store.performAll actions).state.events.length =
        store.state.events.length + store.acceptedAmong actions + actions.countP StoreAction.placesEvent := by
  induction actions generalizing store with
  | nil => exact ⟨List.prefix_rfl, rfl⟩
  | cons action rest ih =>
      obtain ⟨later, length⟩ := ih (action.perform store)
      have filed := action.filed_perform store
      refine ⟨filed.headings_extend.trans later, ?_⟩
      have first := filed.length_events
      have placed : (action :: rest).countP StoreAction.placesEvent =
          rest.countP StoreAction.placesEvent + action.placesEvent.toNat := by
        rw [List.countP_cons]
        cases action.placesEvent <;> rfl
      rw [first] at length
      rw [acceptedAmong, placed]
      exact length.trans (by omega)

end MemoryStore

end DesiredState
