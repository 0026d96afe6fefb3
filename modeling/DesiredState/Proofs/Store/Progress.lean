import DesiredState.Proofs.Store.Growth

/-!
# How the event of a write proceeds

The event of an accepted write starts out unfinished if the store has a latency, and is found finished
from the read on whose number is the latency. Only reads of that event count. Pages show the status that
the last read found, so no call contradicts an earlier one, and what is finished stays finished.
-/

set_option autoImplicit false

namespace DesiredState

namespace StoreState

/-- The status that the event of a write has after some reads of it. -/
def statusAfter (latency reads : Nat) : EventStatus :=
  if latency ≤ reads then .finished else .started

private theorem statusAfter_eq_finished_iff {latency reads : Nat} :
    statusAfter latency reads = .finished ↔ latency ≤ reads := by
  unfold statusAfter
  split
  · simp [*]
  · simp [*]

private theorem firstStatus_eq (latency : Nat) : firstStatus latency = statusAfter latency 0 := by
  simp only [firstStatus, statusAfter, Nat.le_zero]

private theorem length_laterStatuses (latency : Nat) : (laterStatuses latency).length = latency := by
  unfold laterStatuses
  split
  · simp [*]
  · rw [List.length_append, List.length_replicate, List.length_singleton]
    omega

/-- The statuses in the queue are those after one read, after two, and so on. -/
theorem getElem_laterStatuses {latency reads : Nat} (inQueue : reads < (laterStatuses latency).length) :
    (laterStatuses latency)[reads] = statusAfter latency (reads + 1) := by
  have fewer : reads < latency := length_laterStatuses latency ▸ inQueue
  have queue : laterStatuses latency = List.replicate (latency - 1) .started ++ [.finished] :=
    if_neg (Nat.ne_zero_of_lt fewer)
  simp only [queue, List.getElem_append, List.length_replicate, List.getElem_replicate,
    List.getElem_singleton, statusAfter, dite_eq_ite]
  by_cases last : latency ≤ reads + 1
  · rw [if_pos last, if_neg (by omega)]
  · rw [if_neg last, if_pos (by omega)]

/-- The event of a write as it is stored after some reads of it. -/
def eventAfter (event : EventRecord) (latency reads : Nat) : StoredEvent :=
  ⟨{ event with status := statusAfter latency reads }, (laterStatuses latency).drop reads⟩

private theorem advanced_eventAfter (event : EventRecord) (latency reads : Nat) :
    (eventAfter event latency reads).advanced = eventAfter event latency (reads + 1) := by
  by_cases inQueue : reads < (laterStatuses latency).length
  · have queue := List.drop_eq_getElem_cons inQueue
    rw [getElem_laterStatuses inQueue] at queue
    simp only [StoredEvent.advanced, eventAfter, queue]
  · -- A queue that has run dry leaves the event as it is.
    have drained : ∀ {count}, reads ≤ count → (laterStatuses latency).drop count = [] := fun atLeast =>
      List.drop_eq_nil_of_le (Nat.le_trans (Nat.le_of_not_lt inQueue) atLeast)
    have finished : statusAfter latency reads = statusAfter latency (reads + 1) := by
      rw [length_laterStatuses] at inQueue
      rw [statusAfter_eq_finished_iff.mpr (Nat.le_of_not_lt inQueue),
        statusAfter_eq_finished_iff.mpr (by omega)]
    simp only [StoredEvent.advanced, eventAfter, drained (Nat.le_refl reads), drained (Nat.le_succ reads),
      finished]

/-- The event of a write as it is filed. -/
def filedEvent (state : StoreState) (write : Write) (now : Timestamp) : EventRecord :=
  state.eventOf write (firstStatus state.eventLatency.toNat) now

private theorem findEvent?_filedEvent {state : StoreState} (numbered : state.LogNumbered) (write : Write)
    (now : Timestamp) :
    (state.written write now).findEvent? (state.filedEvent write now).id =
      some (eventAfter (state.filedEvent write now) state.eventLatency.toNat 0) := by
  simp only [eventAfter, ← firstStatus_eq]
  exact findEvent?_written numbered.bounded write now

/-- The records of a log with distinct numbers are found under them. -/
theorem eq_record_of_findEvent? {state : StoreState} (distinct : (state.records.map (·.id)).Nodup)
    {id : Nat} {event : StoredEvent} (found : state.findEvent? id = some event) {record : EventRecord}
    (member : record ∈ state.records) (numbered : record.id = id) : record = event.record := by
  have sameNumber : event.record.id = id := by simpa using List.find?_some found
  exact List.inj_on_of_nodup_map distinct member (mem_records_of_findEvent? found)
    (numbered.trans sameNumber.symm)

end StoreState

namespace StoreAction

open StoreState

/-- Whether an action replaces the statuses that an event will have. -/
def scriptsEvent (id : Nat) : StoreAction → Bool
  | .scriptEvent other _ => other == id
  | .get _ | .list _ | .create _ _ | .update _ _ | .delete _ | .listEvents _ | .getEvent _ => false
  | .seed _ _ | .seedEvent _ _ _ _ | .failing _ | .clearFailures | .clearJournal => false

/-- Whether an action reads an event. -/
def readsEvent (id : Nat) : StoreAction → Bool
  | .getEvent other => other == id
  | .get _ | .list _ | .create _ _ | .update _ _ | .delete _ | .listEvents _ => false
  | .seed _ _ | .seedEvent _ _ _ _ | .scriptEvent _ _ => false
  | .failing _ | .clearFailures | .clearJournal => false

/-- What an action of a store makes known of the status of an event: a read does, and so does a page
that the event is on. -/
inductive Reveals (store : MemoryStore) (id : Nat) : StoreAction → EventStatus → Prop where
  | read {record : EventRecord} (answer : (store.getEvent id).1 = .ok (some record)) :
      Reveals store id (.getEvent id) record.status
  | listed {filter : EventFilter} {page : List EventRecord} {record : EventRecord}
      (answer : (store.listEvents filter).1 = .ok page) (onPage : record ∈ page)
      (numbered : record.id = id) : Reveals store id (.listEvents filter) record.status

variable {store : MemoryStore} {action : StoreAction} {id : Nat} {event : StoredEvent}

private theorem findEvent?_sent (found : store.state.findEvent? id = some event) (write : Write) :
    (store.sent write).state.findEvent? id = some event := by
  rw [MemoryStore.sent_eq]
  split
  · exact findEvent?_of_append (store.state.events_written write store.clock.now) found
  · exact found

/-- An event is advanced by what reads it and otherwise left alone, unless it is scripted. -/
theorem findEvent?_perform (found : store.state.findEvent? id = some event)
    (unscripted : action.scriptsEvent id = false) :
    (action.perform store).state.findEvent? id =
      some (if action.readsEvent id then event.advanced else event) := by
  cases action with
  | create collection payload => exact findEvent?_sent found (.create collection payload)
  | update reference fields => exact findEvent?_sent found (.update reference fields)
  | delete reference => exact findEvent?_sent found (.delete reference)
  | getEvent other =>
      by_cases same : other = id
      · subst same
        simp only [perform, MemoryStore.getEvent_of_some found, readsEvent, beq_self_eq_true, if_true]
        exact findEvent?_advanceEvent found
      · have unread : readsEvent id (.getEvent other) = false := by simpa [readsEvent] using same
        rw [unread]
        cases answer : store.state.findEvent? other with
        | none =>
            simp only [perform, MemoryStore.getEvent_of_none answer]
            exact found
        | some read =>
            simp only [perform, MemoryStore.getEvent_of_some answer]
            exact (find?_modifyEvent_of_ne same StoredEvent.id_advanced store.state.events).trans found
  | seedEvent entityType entityId action status => exact findEvent?_of_append rfl found
  | scriptEvent other statuses =>
      have apart : other ≠ id := by simpa [scriptsEvent] using unscripted
      refine Eq.trans (find?_modifyEvent_of_ne apart ?_ store.state.events) found
      intro event
      rfl
  | get _ | list _ | listEvents _ => exact found
  | seed _ _ | failing _ | clearFailures | clearJournal => exact found

/-- What is made known of an event is the status that it then has. -/
theorem Reveals.status_eq {status : EventStatus} (revealed : action.Reveals store id status)
    (distinct : (store.state.records.map (·.id)).Nodup) (found : store.state.findEvent? id = some event) :
    status = (if action.readsEvent id then event.advanced else event).record.status := by
  cases revealed with
  | read answer =>
      rw [MemoryStore.getEvent_of_some found] at answer
      cases answer
      simp only [readsEvent, beq_self_eq_true, if_true]
  | listed answer onPage numbered =>
      cases answer
      rw [eq_record_of_findEvent? distinct found (page_subset _ _ onPage) numbered]
      rfl

private theorem eventLatency_perform (store : MemoryStore) (action : StoreAction) :
    (action.perform store).state.eventLatency = store.state.eventLatency := by
  have sent : ∀ write, (store.sent write).state.eventLatency = store.state.eventLatency := by
    intro write
    rw [MemoryStore.sent_eq]
    split
    · cases write <;> rfl
    · rfl
  cases action with
  | create collection payload => exact sent (.create collection payload)
  | update reference fields => exact sent (.update reference fields)
  | delete reference => exact sent (.delete reference)
  | getEvent id =>
      simp only [perform, MemoryStore.getEvent]
      split <;> rfl
  | get _ | list _ | listEvents _ => rfl
  | seed _ _ | seedEvent _ _ _ _ | scriptEvent _ _ => rfl
  | failing _ | clearFailures | clearJournal => rfl

private theorem perform_of_isAcceptedBy (accepted : action.isAcceptedBy store = true) :
    ∃ write, action.perform store = store.written write := by
  obtain ⟨write, isWrite, takes⟩ := (Option.any_eq_true _ _).mp accepted
  have sent : action.perform store = store.sent write := by
    cases action <;> cases isWrite <;> rfl
  exact ⟨write, by rw [sent, MemoryStore.sent_eq, if_pos takes]⟩

end StoreAction

namespace MemoryStore

open StoreState StoreAction

variable {store : MemoryStore} {id : Nat}

theorem logNumbered_performAll (numbered : store.state.LogNumbered) (actions : List StoreAction) :
    (store.performAll actions).state.LogNumbered := by
  induction actions generalizing store with
  | nil => exact numbered
  | cons action rest ih => exact ih ((action.filed_perform store).logNumbered numbered)

private theorem eventLatency_performAll (store : MemoryStore) (actions : List StoreAction) :
    (store.performAll actions).state.eventLatency = store.state.eventLatency := by
  induction actions generalizing store with
  | nil => rfl
  | cons action rest ih => exact (ih (action.perform store)).trans (action.eventLatency_perform store)

private theorem findEvent?_performAll {event : EventRecord} {latency reads : Nat} {later : List StoreAction}
    (unscripted : ∀ action ∈ later, action.scriptsEvent id = false)
    (found : store.state.findEvent? id = some (eventAfter event latency reads)) :
    (store.performAll later).state.findEvent? id =
      some (eventAfter event latency (reads + later.countP (readsEvent id))) := by
  induction later generalizing store reads with
  | nil => exact found
  | cons action rest ih =>
      obtain ⟨first, others⟩ := List.forall_mem_cons.mp unscripted
      have next := findEvent?_perform found first
      rw [advanced_eventAfter] at next
      rw [List.countP_cons, Nat.add_comm (rest.countP _), ← Nat.add_assoc]
      refine ih others (next.trans ?_)
      cases action.readsEvent id <;> rfl

/-- How an event proceeds that is found finished from the read on whose number is the latency, if its
statuses are not replaced. -/
structure Progresses (store : MemoryStore) (id latency : Nat) : Prop where
  onTime : ∀ (later : List StoreAction) (action : StoreAction) (status : EventStatus),
    (∀ other ∈ later, other.scriptsEvent id = false) →
    action.Reveals (store.performAll later) id status →
    status = statusAfter latency ((later ++ [action]).countP (readsEvent id))
  readable : ∀ later : List StoreAction, (∀ other ∈ later, other.scriptsEvent id = false) →
    ∃ status, (StoreAction.getEvent id).Reveals (store.performAll later) id status
  final : ∀ (later between : List StoreAction) (action next : StoreAction) (status : EventStatus),
    (∀ other ∈ later ++ action :: between, other.scriptsEvent id = false) →
    action.Reveals (store.performAll later) id .finished →
    next.Reveals (store.performAll (later ++ action :: between)) id status → status = .finished
  agreed : ∀ (later between : List StoreAction) (action next : StoreAction) (first second : EventStatus),
    (∀ other ∈ later ++ action :: between, other.scriptsEvent id = false) →
    (∀ other ∈ between ++ [next], other.readsEvent id = false) →
    action.Reveals (store.performAll later) id first →
    next.Reveals (store.performAll (later ++ action :: between)) id second → first = second

private theorem status_of_reveals {event : EventRecord} {latency : Nat} (numbered : store.state.LogNumbered)
    (found : store.state.findEvent? id = some (eventAfter event latency 0)) {later : List StoreAction}
    {action : StoreAction} {status : EventStatus}
    (unscripted : ∀ other ∈ later, other.scriptsEvent id = false)
    (revealed : action.Reveals (store.performAll later) id status) :
    status = statusAfter latency ((later ++ [action]).countP (readsEvent id)) := by
  have stored := findEvent?_performAll unscripted found
  have shown := revealed.status_eq (logNumbered_performAll numbered later).distinct stored
  rw [advanced_eventAfter, Nat.zero_add] at shown
  rw [shown, List.countP_append, List.countP_singleton]
  cases action.readsEvent id <;> rfl

private theorem progresses_of_findEvent? {event : EventRecord} {latency : Nat}
    (numbered : store.state.LogNumbered)
    (found : store.state.findEvent? id = some (eventAfter event latency 0)) :
    store.Progresses id latency where
  onTime := fun _ _ _ unscripted revealed => status_of_reveals numbered found unscripted revealed
  readable := by
    intro later unscripted
    have stored := findEvent?_performAll unscripted found
    exact ⟨_, .read (congrArg Prod.fst (getEvent_of_some stored))⟩
  final := by
    intro later between action next status unscripted first second
    have early := (List.forall_mem_append.mp unscripted).1
    have reached := statusAfter_eq_finished_iff.mp (status_of_reveals numbered found early first).symm
    rw [status_of_reveals numbered found unscripted second, statusAfter_eq_finished_iff]
    simp only [List.countP_append, List.countP_cons, List.countP_nil] at reached ⊢
    omega
  agreed := by
    intro later between action next first second unscripted unread firstShown secondShown
    have early := (List.forall_mem_append.mp unscripted).1
    have none : (between ++ [next]).countP (readsEvent id) = 0 :=
      List.countP_eq_zero.mpr fun other member => by simp [unread other member]
    have counted : ((later ++ action :: between) ++ [next]).countP (readsEvent id) =
        (later ++ [action]).countP (readsEvent id) + (between ++ [next]).countP (readsEvent id) := by
      simp only [List.countP_append, List.countP_cons, List.countP_nil]
      omega
    rw [status_of_reveals numbered found early firstShown,
      status_of_reveals numbered found unscripted secondShown, counted, none, Nat.add_zero]

/-- Whatever is done to a store in memory with a log in order, an accepted write files one event at the
end of the log. Whatever is done then, apart from replacing its statuses, the event is found finished from
the read on whose number is the latency and started before, by reads and on pages alike. -/
theorem mutation_event_progresses (store : MemoryStore) (numbered : store.state.LogNumbered)
    (earlier : List StoreAction) (write : StoreAction)
    (accepted : write.isAcceptedBy (store.performAll earlier) = true) :
    ∃ event : EventRecord,
      (write.perform (store.performAll earlier)).state.records =
        (store.performAll earlier).state.records ++ [event] ∧
      (write.perform (store.performAll earlier)).Progresses event.id
        store.state.eventLatency.toNat := by
  have before := logNumbered_performAll numbered earlier
  have after := (write.filed_perform (store.performAll earlier)).logNumbered before
  obtain ⟨done, performed⟩ := perform_of_isAcceptedBy accepted
  rw [performed] at after ⊢
  have found := findEvent?_filedEvent before done (store.performAll earlier).clock.now
  rw [← eventLatency_performAll store earlier]
  refine ⟨_, ?_, progresses_of_findEvent? after found⟩
  rw [records, written, events_written, List.map_append]
  rfl

/-- A read of the event of a new firewall, with a write, a page and reads of another event around it. -/
def firewallReads : List StoreAction :=
  [.getEvent 1, .getEvent 2, .create ⟨"lke_cluster", none⟩ ∅,
    .listEvents ⟨"firewall", none, "firewall_create"⟩, .getEvent 1]

/-- A store with a latency, after it made a cluster and a firewall. -/
def withFirewall : MemoryStore :=
  StoreAction.perform ((fresh 2 (.stopped .epoch)).performAll [.create ⟨"lke_cluster", none⟩ ∅])
    (.create ⟨"firewall", none⟩ ∅)

theorem mutation_event_progresses_firewallReads :
    ∃ cluster firewall : EventRecord, withFirewall.state.records = [cluster, firewall] ∧
      (StoreAction.getEvent firewall.id).Reveals withFirewall firewall.id .started ∧
      (∀ status, (StoreAction.listEvents ⟨"firewall", none, "firewall_create"⟩).Reveals
        (withFirewall.performAll (firewallReads.take 3)) firewall.id status → status = .started) ∧
      (StoreAction.getEvent firewall.id).Reveals (withFirewall.performAll firewallReads) firewall.id
        .finished := by
  have numbered : (fresh 2 (.stopped .epoch)).state.LogNumbered :=
    ⟨List.nodup_nil, fun _ member => absurd member List.not_mem_nil⟩
  obtain ⟨event, filed, progresses⟩ := mutation_event_progresses (fresh 2 (.stopped .epoch)) numbered
    [.create ⟨"lke_cluster", none⟩ ∅] (.create ⟨"firewall", none⟩ ∅) rfl
  have number : event.id = 2 := by
    have last := congrArg (fun records => (records.map (·.id)).getLast?) filed
    rw [List.map_append, List.map_singleton, List.getLast?_concat] at last
    exact (Option.some.inj last).symm
  rw [number] at progresses
  have readAfter : ∀ (later : List StoreAction), (∀ other ∈ later, other.scriptsEvent 2 = false) →
      (StoreAction.getEvent 2).Reveals (withFirewall.performAll later) 2
        (statusAfter 2 ((later ++ [StoreAction.getEvent 2]).countP (readsEvent 2))) := by
    intro later unscripted
    obtain ⟨status, revealed⟩ := progresses.readable later unscripted
    exact progresses.onTime later _ status unscripted revealed ▸ revealed
  refine ⟨_, event, filed, ?_, ?_, ?_⟩
  · rw [number]
    exact readAfter [] (by decide)
  · intro status revealed
    rw [number] at revealed
    exact progresses.onTime (firewallReads.take 3) _ status (by decide) revealed
  · rw [number]
    exact readAfter firewallReads (by decide)

end MemoryStore

end DesiredState
