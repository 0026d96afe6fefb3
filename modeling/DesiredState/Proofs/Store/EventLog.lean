import Mathlib.Data.List.Nodup
import DesiredState.Proofs.Store.Call

/-!
# The event log

A page shows the last of the matching events in the order of their dates. An event that is filed no
earlier than the others is the last one of its page, and the others of that page were already on the page
before. Events of other kinds that are filed later change neither.
-/

set_option autoImplicit false

namespace DesiredState

namespace EventRecord

theorem notAfter_iff {first second : EventRecord} : first.notAfter second = true ↔
    first.createdAt.rank < second.createdAt.rank ∨
      first.createdAt.rank = second.createdAt.rank ∧ first.id ≤ second.id := by
  simp [notAfter]

theorem notAfter_trans (first second third : EventRecord) (before : first.notAfter second = true)
    (after : second.notAfter third = true) : first.notAfter third = true := by
  rw [notAfter_iff] at before after ⊢
  omega

theorem notAfter_total (first second : EventRecord) :
    (first.notAfter second || second.notAfter first) = true := by
  rw [Bool.or_eq_true, notAfter_iff, notAfter_iff]
  omega

theorem id_eq_of_notAfter {first second : EventRecord} (before : first.notAfter second = true)
    (after : second.notAfter first = true) : first.id = second.id := by
  rw [notAfter_iff] at before after
  omega

/-- Records that are in order and stand behind all others stay last when the log is put in order. -/
theorem mergeSort_append_later {records later : List EventRecord}
    (distinct : ((records ++ later).map (·.id)).Nodup)
    (inOrder : later.Pairwise fun first second => first.notAfter second = true)
    (behind : ∀ record ∈ records, ∀ other ∈ later, record.notAfter other = true) :
    (records ++ later).mergeSort notAfter = records.mergeSort notAfter ++ later := by
  have sorted := List.pairwise_mergeSort notAfter_trans notAfter_total (records ++ later)
  have sortedBefore := List.pairwise_mergeSort notAfter_trans notAfter_total records
  have sortedThen : (records.mergeSort notAfter ++ later).Pairwise
      fun first second => first.notAfter second = true := by
    rw [List.pairwise_append]
    refine ⟨sortedBefore, inOrder, ?_⟩
    intro record member other isLater
    exact behind record (List.mem_mergeSort.mp member) other isLater
  have permuted : ((records ++ later).mergeSort notAfter).Perm (records.mergeSort notAfter ++ later) :=
    (List.mergeSort_perm _ _).trans ((List.mergeSort_perm records _).symm.append_right later)
  apply List.Perm.eq_of_pairwise ?_ sorted sortedThen permuted
  intro first second inSorted inThen before after
  have inFirst := List.mem_mergeSort.mp inSorted
  have inSecond := List.mem_mergeSort.mp (permuted.mem_iff.mpr inThen)
  exact List.inj_on_of_nodup_map distinct inFirst inSecond (id_eq_of_notAfter before after)

/-- A record that is numbered and dated after all others stays last when the log is put in order. -/
theorem mergeSort_append_newest {records : List EventRecord} {newest : EventRecord}
    (distinct : (records.map (·.id)).Nodup)
    (latest : ∀ record ∈ records,
      record.id < newest.id ∧ record.createdAt.rank ≤ newest.createdAt.rank) :
    (records ++ [newest]).mergeSort notAfter = records.mergeSort notAfter ++ [newest] := by
  apply mergeSort_append_later
  · rw [List.map_append, List.nodup_append]
    refine ⟨distinct, List.nodup_singleton _, ?_⟩
    intro id member other isNewest same
    obtain ⟨record, inRecords, rfl⟩ := List.mem_map.mp member
    rw [List.map_singleton, List.mem_singleton, ← same] at isNewest
    exact absurd isNewest (Nat.ne_of_lt (latest record inRecords).1)
  · exact List.pairwise_singleton _ _
  · intro record member other isNewest
    obtain ⟨numbered, dated⟩ := latest record member
    rw [List.mem_singleton.mp isNewest, notAfter_iff]
    omega

end EventRecord

namespace StoreState

variable {state before after : StoreState}

/-! ## Pages -/

/-- A matching event that is numbered and dated after all others ends the page, and what it does not
push off the page was there before. -/
theorem page_of_newest {filter : EventFilter} {newest : EventRecord}
    (filed : after.records.filter filter.accepts = before.records.filter filter.accepts ++ [newest])
    (distinct : (before.records.map (·.id)).Nodup)
    (latest : ∀ record ∈ before.records,
      record.id < newest.id ∧ record.createdAt.rank ≤ newest.createdAt.rank) :
    ∃ older, after.page filter = older ++ [newest] ∧ older ⊆ before.page filter := by
  have matchingLatest : ∀ record ∈ before.records.filter filter.accepts,
      record.id < newest.id ∧ record.createdAt.rank ≤ newest.createdAt.rank :=
    fun record member => latest record (List.mem_filter.mp member).1
  have sorted := EventRecord.mergeSort_append_newest
    (distinct.sublist (List.filter_sublist.map _)) matchingLatest
  rw [← filed] at sorted
  have length : ((before.records.filter filter.accepts).mergeSort EventRecord.notAfter).length =
      (before.records.filter filter.accepts).length := List.length_mergeSort _
  simp only [page, sorted, List.length_append, List.length_singleton]
  generalize (before.records.filter filter.accepts).mergeSort EventRecord.notAfter = matching
  refine ⟨matching.drop (matching.length + 1 - eventPageSize), ?_, ?_⟩
  · rw [List.drop_append_of_le_length]
    rw [eventPageSize]
    omega
  · apply List.drop_subset_drop_left
    omega

theorem page_subset (state : StoreState) (filter : EventFilter) :
    state.page filter ⊆ state.records := by
  intro record member
  have matching := List.mem_mergeSort.mp (List.mem_of_mem_drop member)
  exact (List.mem_filter.mp matching).1

/-! ## The event of a write -/

/-- The event under which an accepted write is filed. -/
def eventOf (state : StoreState) (write : Write) (status : EventStatus) (now : Timestamp) :
    EventRecord :=
  state.nextRecord (write.address state.nextId).kind (write.address state.nextId).id
    ((write.address state.nextId).kind ++ "_" ++ write.operation.text) status now

theorem events_written (state : StoreState) (write : Write) (now : Timestamp) :
    (state.written write now).events = state.events ++
      [⟨state.eventOf write (firstStatus state.eventLatency.toNat) now,
        laterStatuses state.eventLatency.toNat⟩] := by
  cases write with
  | create collection payload => rfl
  | update reference fields => rfl
  | delete reference => rfl

theorem findEvent?_written (bounded : ∀ record ∈ state.records, record.id ≤ state.nextEventId)
    (write : Write) (now : Timestamp) :
    (state.written write now).findEvent? (state.nextEventId + 1) =
      some ⟨state.eventOf write (firstStatus state.eventLatency.toNat) now,
        laterStatuses state.eventLatency.toNat⟩ := by
  have unfiled : state.events.find? (·.record.id == state.nextEventId + 1) = none := by
    rw [List.find?_eq_none]
    intro event member
    have numbered := bounded event.record (List.mem_map_of_mem member)
    simp only [beq_iff_eq]
    omega
  rw [findEvent?, events_written, List.find?_append, unfiled]
  simp [eventOf, nextRecord]

/-! ## Events of other kinds -/

theorem findEvent?_of_append {others : List StoredEvent} (isAfter : after.events = before.events ++ others)
    {id : Nat} {event : StoredEvent} (found : before.findEvent? id = some event) :
    after.findEvent? id = some event := by
  rw [findEvent?] at found
  rw [findEvent?, isAfter, List.find?_append, found]
  rfl

/-- Since some state, only events of other kinds were filed. -/
def FiledBeside (kind : String) (before after : StoreState) : Prop :=
  ∃ others, after.events = before.events ++ others ∧ ∀ event ∈ others, event.record.entityType ≠ kind

namespace FiledBeside

variable {kind : String}

theorem refl (kind : String) (state : StoreState) : FiledBeside kind state state :=
  ⟨[], (List.append_nil _).symm, by simp⟩

theorem trans {middle : StoreState} (first : FiledBeside kind before middle)
    (second : FiledBeside kind middle after) : FiledBeside kind before after := by
  obtain ⟨early, isMiddle, earlyOthers⟩ := first
  obtain ⟨late, isAfter, lateOthers⟩ := second
  refine ⟨early ++ late, by rw [isAfter, isMiddle, List.append_assoc], ?_⟩
  intro event member
  rcases List.mem_append.mp member with inEarly | inLate
  · exact earlyOthers event inEarly
  · exact lateOthers event inLate

theorem written (state : StoreState) (write : Write) (now : Timestamp)
    (foreign : (write.address state.nextId).kind ≠ kind) :
    FiledBeside kind state (state.written write now) := by
  refine ⟨_, state.events_written write now, ?_⟩
  intro event member
  rw [List.mem_singleton.mp member]
  exact foreign

theorem filter_records (beside : FiledBeside kind before after) {filter : EventFilter}
    (sameKind : filter.entityType = kind) :
    after.records.filter filter.accepts = before.records.filter filter.accepts := by
  obtain ⟨others, isAfter, foreign⟩ := beside
  have none : (others.map (·.record)).filter filter.accepts = [] := by
    rw [List.filter_eq_nil_iff]
    intro record member accepted
    obtain ⟨event, inOthers, rfl⟩ := List.mem_map.mp member
    simp only [EventFilter.accepts, Bool.and_eq_true, beq_iff_eq] at accepted
    exact foreign event inOthers (accepted.1.1.trans sameKind)
  rw [records, isAfter, List.map_append, List.filter_append, none, List.append_nil, records]

theorem findEvent? (beside : FiledBeside kind before after) {id : Nat} {event : StoredEvent}
    (found : before.findEvent? id = some event) : after.findEvent? id = some event := by
  obtain ⟨others, isAfter, _⟩ := beside
  exact findEvent?_of_append isAfter found

end FiledBeside

/-! ## Reading an event -/

private theorem find?_modifyEvent {id : Nat} {change : StoredEvent → StoredEvent}
    (sameId : ∀ event, (change event).record.id = event.record.id) (events : List StoredEvent) :
    (modifyEvent id change events).find? (·.record.id == id) =
      (events.find? (·.record.id == id)).map change := by
  induction events with
  | nil => rfl
  | cons event rest ih =>
      rw [modifyEvent]
      by_cases isNumbered : event.record.id = id
      · have stillNumbered : (change event).record.id = id := (sameId event).trans isNumbered
        simp [isNumbered, stillNumbered]
      · simp [isNumbered, ih]

theorem find?_modifyEvent_of_ne {id other : Nat} (apart : other ≠ id) {change : StoredEvent → StoredEvent}
    (sameId : ∀ event, (change event).record.id = event.record.id) (events : List StoredEvent) :
    (modifyEvent other change events).find? (·.record.id == id) =
      events.find? (·.record.id == id) := by
  induction events with
  | nil => rfl
  | cons event rest ih =>
      rw [modifyEvent]
      by_cases isOther : event.record.id = other
      · have stillOther : (change event).record.id = other := (sameId event).trans isOther
        simp [isOther, stillOther, apart]
      · rw [if_neg isOther, List.find?_cons, List.find?_cons, ih]

theorem findEvent?_advanceEvent {id : Nat} {event : StoredEvent}
    (found : state.findEvent? id = some event) :
    (state.advanceEvent id).findEvent? id = some event.advanced := by
  rw [findEvent?] at found
  rw [findEvent?, advanceEvent, find?_modifyEvent StoredEvent.id_advanced, found]
  rfl

theorem mem_records_of_findEvent? {id : Nat} {event : StoredEvent}
    (found : state.findEvent? id = some event) : event.record ∈ state.records :=
  List.mem_map_of_mem (List.mem_of_find?_eq_some found)

end StoreState

end DesiredState
