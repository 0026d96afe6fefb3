import DesiredState.Proofs.Store.Page

/-!
# The newest events

A page is the end of the matching events once they are put in the order of the log, whatever order the log
holds them in. It has as many of them as there are, up to the size of a page, each as the log has it now,
and every matching event that it leaves out stands before all that it shows. An event that is left out has
a page of matching events behind it, and a log that only grows leaves them there.
-/

set_option autoImplicit false

namespace DesiredState

private theorem EventRecord.before_of_notAfter {first second : EventRecord}
    (before : first.notAfter second = true) (apart : first.id ≠ second.id) : first.Before second := by
  rcases notAfter_iff.mp before with dated | ⟨sameDate, numbered⟩
  · exact .inl dated
  · exact .inr ⟨sameDate, Nat.lt_of_le_of_ne numbered apart⟩

namespace StoreState

variable {state before after : StoreState} {filter : EventFilter} {record : EventRecord}

private theorem length_matching (state : StoreState) (filter : EventFilter) :
    (state.matching filter).length = state.records.countP filter.accepts := by
  rw [matching, List.length_mergeSort, List.countP_eq_length_filter]

private theorem pairwise_before_matching (distinct : (state.records.map (·.id)).Nodup)
    (filter : EventFilter) :
    (state.matching filter).Pairwise EventRecord.Before :=
  ((notAfter_matching state filter).and (List.pairwise_map.mp (nodup_ids_matching distinct filter))).imp
    fun ⟨inOrder, apart⟩ => EventRecord.before_of_notAfter inOrder apart

private theorem findEvent?_of_mem_records (distinct : (state.records.map (·.id)).Nodup)
    (member : record ∈ state.records) :
    ∃ event, state.findEvent? record.id = some event ∧ event.record = record := by
  obtain ⟨stored, isStored, rfl⟩ := List.mem_map.mp member
  cases found : state.findEvent? stored.record.id with
  | none =>
      have missing := List.find?_eq_none.mp found stored isStored
      simp at missing
  | some event =>
      refine ⟨event, rfl, ?_⟩
      have sameId : event.record.id = stored.record.id := by simpa using List.find?_some found
      have inRecords : event.record ∈ state.records :=
        List.mem_map_of_mem (List.mem_of_find?_eq_some found)
      exact List.inj_on_of_nodup_map distinct inRecords member sameId

/-- The newest matching events of a log, in the order of their dates and as the log has them now. -/
structure NewestMatching (state : StoreState) (filter : EventFilter) (shown : List EventRecord) :
    Prop where
  inOrder : shown.Pairwise EventRecord.Before
  length : shown.length = min eventPageSize (state.records.countP filter.accepts)
  matching : ∀ record ∈ shown, filter.accepts record = true
  current : ∀ record ∈ shown, ∃ event, state.findEvent? record.id = some event ∧ event.record = record
  newest : ∀ record ∈ state.records, filter.accepts record = true → record ∉ shown →
    ∀ other ∈ shown, record.Before other

private theorem newestMatching_page (distinct : (state.records.map (·.id)).Nodup) (filter : EventFilter) :
    state.NewestMatching filter (state.page filter) := by
  have inOrder := pairwise_before_matching distinct filter
  have split := List.take_append_drop ((state.matching filter).length - eventPageSize)
    (state.matching filter)
  rw [← page_eq_drop] at split
  constructor
  · exact inOrder.sublist (List.drop_sublist _ _)
  · rw [page_eq_drop, List.length_drop, length_matching]
    omega
  · intro record member
    exact (mem_matching.mp (List.mem_of_mem_drop member)).2
  · intro record member
    exact findEvent?_of_mem_records distinct (page_subset state filter member)
  · intro record member accepted leftOut other onPage
    rw [← split] at inOrder
    have isMatching := mem_matching.mpr ⟨member, accepted⟩
    rw [← split] at isMatching
    rcases List.mem_append.mp isMatching with inFront | inPage
    · exact (List.pairwise_append.mp inOrder).2.2 record inFront other onPage
    · exact absurd inPage leftOut

/-- Whatever comes to a log, an event that its page leaves out stays out. -/
theorem heading_notMem_page_of_extended (extended : before.headings <+: after.headings)
    (distinct : (before.records.map (·.id)).Nodup) (member : record ∈ before.records)
    (accepted : filter.accepts record = true) (leftOut : record ∉ before.page filter) :
    record.heading ∉ (after.page filter).map EventRecord.heading := by
  intro shown
  obtain ⟨later, onPage, same⟩ := List.mem_map.mp shown
  have few : after.records.countP (fun other => !other.notAfter later && filter.accepts other) <
      eventPageSize := by
    rw [page_eq_drop] at onPage
    have fewer := EventRecord.countP_lt_of_mem_drop eventPageSize (notAfter_matching after filter) onPage
    rwa [countP_matching] at fewer
  apply leftOut
  rw [mem_page_iff distinct]
  refine ⟨member, accepted, ?_⟩
  rw [countP_headings] at few ⊢
  rw [← same]
  exact Nat.lt_of_le_of_lt extended.sublist.countP_le few

end StoreState

namespace MemoryStore

/-- A listing of the events that a filter accepts gives the newest of them in order. A listing of a log that
has grown since, whatever came to it and whatever became of the statuses, never has an event that this one
left out. -/
theorem listEvents_newest (store : MemoryStore) (filter : EventFilter)
    (distinct : (store.state.records.map (·.id)).Nodup) :
    ∃ shown, (store.listEvents filter).1 = .ok shown ∧ store.state.NewestMatching filter shown ∧
      ∀ record ∈ store.state.records, filter.accepts record = true → record ∉ shown →
        ∀ (later : MemoryStore) (newer : List EventRecord),
          store.state.headings <+: later.state.headings → (later.listEvents filter).1 = .ok newer →
            record.heading ∉ newer.map EventRecord.heading ∧
              ((later.state.records.map (·.id)).Nodup → record.id ∉ newer.map (·.id)) := by
  refine ⟨store.state.page filter, rfl, StoreState.newestMatching_page distinct filter, ?_⟩
  intro record member accepted leftOut later newer extended listed
  cases listed
  have staysOut := StoreState.heading_notMem_page_of_extended extended distinct member accepted leftOut
  refine ⟨staysOut, ?_⟩
  intro laterDistinct numbered
  obtain ⟨shown, onPage, same⟩ := List.mem_map.mp numbered
  apply staysOut
  -- The event that is shown under the number is the one that was left out, perhaps further along.
  rw [← StoreState.heading_eq_of_extended extended laterDistinct member (StoreState.page_subset _ _ onPage) same]
  exact List.mem_map_of_mem onPage

/-- A store whose log was filled backwards: the event with the number 1 is of the last day of a February and
the one with the number 28 of the first. -/
def backfilled : MemoryStore :=
  .ofState ⟨1, 28, 1, [], (List.finRange 28).map fun place =>
    ⟨⟨place.val + 1, "firewall", 1, "firewall_update", .finished,
      ⟨2024, 2, 28 - place.val, 0, 0, 0, 0, by simp [Calendar.daysInMonth, Calendar.isLeapYear]; omega⟩⟩, []⟩⟩
    (.stopped .epoch)

/-- The first day of that February is not on the page and is not on one later, after an older event was
filed and another one was read. -/
theorem listEvents_newest_backfilled :
    (backfilled.state.records.map (·.id)).Nodup ∧
      ∃ shown, (backfilled.listEvents ⟨"firewall", some 1, "firewall_update"⟩).1 = .ok shown ∧
        shown.length = 25 ∧ 28 ∉ shown.map (·.id) ∧
        ∀ newer, ((backfilled.performAll [.seedEvent "firewall" 1 "firewall_update" .failed,
            .getEvent 28]).listEvents ⟨"firewall", some 1, "firewall_update"⟩).1 = .ok newer →
          28 ∉ newer.map (·.id) := by
  have distinct : (backfilled.state.records.map (·.id)).Nodup := by decide
  refine ⟨distinct, ?_⟩
  obtain ⟨shown, listed, newest, later⟩ :=
    listEvents_newest backfilled ⟨"firewall", some 1, "firewall_update"⟩ distinct
  have first : ∃ record ∈ backfilled.state.records, record.id = 28 ∧
      EventFilter.accepts ⟨"firewall", some 1, "firewall_update"⟩ record = true ∧
        ¬ backfilled.state.records.countP (fun other => !other.notAfter record &&
          EventFilter.accepts ⟨"firewall", some 1, "firewall_update"⟩ other) < eventPageSize := by decide
  obtain ⟨record, member, number, accepted, behind⟩ := first
  have leftOut : record ∉ shown := by
    intro onPage
    cases listed
    exact behind ((StoreState.mem_page_iff distinct).mp onPage).2.2
  refine ⟨shown, listed, newest.length.trans (by decide), ?_, ?_⟩
  · rw [← number]
    exact (later record member accepted leftOut backfilled shown List.prefix_rfl listed).2 distinct
  · intro newer relisted
    rw [← number]
    exact (later record member accepted leftOut _ newer (log_performAll _ _).1 relisted).2 (by decide)

end MemoryStore

end DesiredState
