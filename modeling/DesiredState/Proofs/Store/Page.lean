import DesiredState.Proofs.Store.Growth

/-!
# Pages of a log that grows

A page holds the matching events that have fewer than a page of matching events behind them. So whatever
comes to a log, an event that it held before is on a page only if it was on one then. Events that come in
the order of the log end the page.
-/

set_option autoImplicit false

namespace DesiredState

namespace EventRecord

/-- A record stands before another one in the order of the log, by its date and then by its number. -/
def Before (first second : EventRecord) : Prop :=
  first.createdAt.rank < second.createdAt.rank ∨
    first.createdAt.rank = second.createdAt.rank ∧ first.id < second.id

instance (first second : EventRecord) : Decidable (first.Before second) :=
  inferInstanceAs (Decidable (_ ∨ _))

private theorem Before.notAfter {first second : EventRecord} (before : first.Before second) :
    first.notAfter second = true := by
  rw [notAfter_iff]
  rcases before with dated | ⟨sameDate, numbered⟩
  · exact .inl dated
  · exact .inr ⟨sameDate, Nat.le_of_lt numbered⟩

/-- Records come in the order of the log: each stands behind some older ones and behind the newer ones
before it. -/
structure InOrder (older newer : List EventRecord) : Prop where
  behind : ∀ old ∈ older, ∀ new ∈ newer, old.Before new
  inOrder : newer.Pairwise EventRecord.Before

private theorem inOrder_iff {older newer : List EventRecord} :
    InOrder older newer ↔
      (older.all fun old => newer.all fun new => decide (old.Before new)) = true ∧
        newer.Pairwise EventRecord.Before := by
  simp only [List.all_eq_true, decide_eq_true_eq]
  exact ⟨fun ⟨behind, inOrder⟩ => ⟨behind, inOrder⟩, fun ⟨behind, inOrder⟩ => ⟨behind, inOrder⟩⟩

instance (older newer : List EventRecord) : Decidable (InOrder older newer) :=
  decidable_of_iff _ inOrder_iff.symm

theorem InOrder.mono {older newer olderBefore newerBefore : List EventRecord}
    (inOrder : InOrder older newer) (sameOlder : olderBefore ⊆ older)
    (fewer : newerBefore.Sublist newer) : InOrder olderBefore newerBefore where
  behind old member new isNew := inOrder.behind old (sameOlder member) new (fewer.subset isNew)
  inOrder := inOrder.inOrder.sublist fewer

theorem inOrder_headings {older newer : List EventRecord} :
    InOrder (older.map EventRecord.heading) (newer.map EventRecord.heading) ↔ InOrder older newer := by
  constructor
  · rintro ⟨behind, inOrder⟩
    rw [List.pairwise_map] at inOrder
    refine ⟨?_, inOrder⟩
    intro old member new isNew
    exact behind old.heading (List.mem_map_of_mem member) new.heading (List.mem_map_of_mem isNew)
  · rintro ⟨behind, inOrder⟩
    constructor
    · intro old member new isNew
      obtain ⟨oldRecord, inOlder, rfl⟩ := List.mem_map.mp member
      obtain ⟨newRecord, inNewer, rfl⟩ := List.mem_map.mp isNew
      exact behind oldRecord inOlder newRecord inNewer
    · rw [List.pairwise_map]
      exact inOrder

/-- Later records have other numbers than earlier ones. -/
theorem notMem_take_of_drop {records : List EventRecord} (distinct : (records.map (·.id)).Nodup)
    {count : Nat} {record : EventRecord} (later : record ∈ records.drop count) :
    record.id ∉ (records.take count).map (·.id) := by
  have isLater : record.id ∈ (records.drop count).map (·.id) := List.mem_map_of_mem later
  rw [List.map_drop] at isLater
  rw [List.map_take]
  intro isEarlier
  exact List.disjoint_take_drop distinct (Nat.le_refl count) isEarlier isLater

/-- Of records in order, the last ones have fewer than so many behind them. -/
theorem countP_lt_of_mem_drop {records : List EventRecord} (size : Nat)
    (inOrder : records.Pairwise fun first second => first.notAfter second = true)
    {record : EventRecord} (member : record ∈ records.drop (records.length - size)) :
    records.countP (fun other => !other.notAfter record) < size := by
  have split := List.take_append_drop (records.length - size) records
  have length : (records.drop (records.length - size)).length ≤ size := by
    rw [List.length_drop]
    omega
  generalize records.take (records.length - size) = front at split
  generalize records.drop (records.length - size) = back at split length member
  rw [← split] at inOrder
  obtain ⟨_, _, across⟩ := List.pairwise_append.mp inOrder
  have counted : records.countP (fun other => !other.notAfter record) =
      front.countP (fun other => !other.notAfter record) +
        back.countP (fun other => !other.notAfter record) := by
    rw [← split, List.countP_append]
  have ahead : front.countP (fun other => !other.notAfter record) = 0 := by
    rw [List.countP_eq_zero]
    intro other inFront
    simp [across other inFront record member]
  have itself : back.countP (fun other => !other.notAfter record) ≠ back.length := by
    intro all
    have behind := List.countP_eq_length.mp all record member
    simp [notAfter] at behind
  have atMost := List.countP_le_length (p := fun other => !other.notAfter record) (l := back)
  omega

/-- Of records in order, the last ones are those that have fewer than so many behind them. -/
theorem mem_drop_iff_countP {records : List EventRecord} (size : Nat)
    (inOrder : records.Pairwise fun first second => first.notAfter second = true)
    (distinct : (records.map (·.id)).Nodup) {record : EventRecord} :
    record ∈ records.drop (records.length - size) ↔
      record ∈ records ∧ records.countP (fun other => !other.notAfter record) < size := by
  constructor
  · intro member
    exact ⟨List.mem_of_mem_drop member, countP_lt_of_mem_drop size inOrder member⟩
  · rintro ⟨member, fewer⟩
    have split := List.take_append_drop (records.length - size) records
    generalize isFront : records.take (records.length - size) = front at split
    generalize isBack : records.drop (records.length - size) = back at split ⊢
    rw [← split] at inOrder distinct member
    obtain ⟨_, _, across⟩ := List.pairwise_append.mp inOrder
    rcases List.mem_append.mp member with inFront | inBack
    · have behind : back.countP (fun other => !other.notAfter record) = back.length := by
        rw [List.countP_eq_length]
        intro other inBack
        rw [Bool.not_eq_true', Bool.eq_false_iff]
        intro before
        have same := id_eq_of_notAfter (across record inFront other inBack) before
        rw [List.map_append, List.nodup_append] at distinct
        exact distinct.2.2 _ (List.mem_map_of_mem inFront) _ (List.mem_map_of_mem inBack) same
      have counted : records.countP (fun other => !other.notAfter record) =
          front.countP (fun other => !other.notAfter record) + back.length := by
        rw [← split, List.countP_append, behind]
      have full : back.length = records.length - (records.length - size) := by
        rw [← isBack, List.length_drop]
      have someFront : 0 < front.length := List.length_pos_of_mem inFront
      rw [← isFront, List.length_take] at someFront
      omega
    · exact inBack

end EventRecord

namespace StoreState

variable {state before after : StoreState} {filter : EventFilter} {record : EventRecord}

/-- The matching events of a log in the order of their dates. -/
def matching (state : StoreState) (filter : EventFilter) : List EventRecord :=
  (state.records.filter filter.accepts).mergeSort EventRecord.notAfter

theorem page_eq_drop (state : StoreState) (filter : EventFilter) :
    state.page filter =
      (state.matching filter).drop ((state.matching filter).length - eventPageSize) := rfl

theorem mem_matching :
    record ∈ state.matching filter ↔ record ∈ state.records ∧ filter.accepts record = true := by
  rw [matching, List.mem_mergeSort, List.mem_filter]

theorem countP_matching (state : StoreState) (filter : EventFilter) (counts : EventRecord → Bool) :
    (state.matching filter).countP counts =
      state.records.countP fun other => counts other && filter.accepts other := by
  rw [matching, (List.mergeSort_perm _ _).countP_eq, List.countP_filter]

theorem notAfter_matching (state : StoreState) (filter : EventFilter) :
    (state.matching filter).Pairwise fun first second => first.notAfter second = true :=
  List.pairwise_mergeSort EventRecord.notAfter_trans EventRecord.notAfter_total _

theorem nodup_ids_matching (distinct : (state.records.map (·.id)).Nodup) (filter : EventFilter) :
    ((state.matching filter).map (·.id)).Nodup := by
  have permuted := List.mergeSort_perm (state.records.filter filter.accepts) EventRecord.notAfter
  exact (permuted.map (·.id)).nodup_iff.mpr (distinct.sublist (List.filter_sublist.map _))

theorem mem_page_iff (distinct : (state.records.map (·.id)).Nodup) :
    record ∈ state.page filter ↔ record ∈ state.records ∧ filter.accepts record = true ∧
      state.records.countP (fun other => !other.notAfter record && filter.accepts other) <
        eventPageSize := by
  rw [page_eq_drop, EventRecord.mem_drop_iff_countP eventPageSize (notAfter_matching state filter)
    (nodup_ids_matching distinct filter), mem_matching, countP_matching, and_assoc]

/-- What stands behind an event does not depend on the statuses, so it is counted in the headings. -/
theorem countP_headings (state : StoreState) (filter : EventFilter) (record : EventRecord) :
    state.records.countP (fun other => !other.notAfter record && filter.accepts other) =
      state.headings.countP fun other => !other.notAfter record.heading && filter.accepts other := by
  rw [headings, List.countP_map]
  rfl

/-- A log that was extended has its old events under their numbers. -/
theorem heading_eq_of_extended (extended : before.headings <+: after.headings)
    (distinct : (after.records.map (·.id)).Nodup) {old new : EventRecord} (isOld : old ∈ before.records)
    (isNew : new ∈ after.records) (same : new.id = old.id) : new.heading = old.heading := by
  have inAfter := extended.subset (List.mem_map_of_mem (f := EventRecord.heading) isOld)
  obtain ⟨later, isLater, sameHeading⟩ := List.mem_map.mp inAfter
  have sameId : later.heading.id = old.heading.id := by rw [sameHeading]
  have isNew : later = new := List.inj_on_of_nodup_map distinct isLater isNew (sameId.trans same.symm)
  rw [← isNew, sameHeading]

/-- An event that a log held before is on its page only if it was on one then. -/
theorem page_of_extended (extended : before.headings <+: after.headings)
    (distinct : (after.records.map (·.id)).Nodup) (onPage : record ∈ after.page filter)
    (old : record.id ∈ before.records.map (·.id)) :
    ∃ seen ∈ before.page filter, seen.id = record.id := by
  have distinctBefore : (before.records.map (·.id)).Nodup := by
    rw [← EventRecord.map_id_heading] at distinct ⊢
    exact distinct.sublist (extended.sublist.map _)
  obtain ⟨origin, originMember, same⟩ := List.mem_map.mp old
  obtain ⟨inRecords, accepted, fewer⟩ := (mem_page_iff distinct).mp onPage
  have sameHeadings := heading_eq_of_extended extended distinct originMember inRecords same.symm
  refine ⟨origin, (mem_page_iff distinctBefore).mpr ⟨originMember, ?_, ?_⟩, same⟩
  · have sameAnswer : filter.accepts record.heading = filter.accepts origin.heading := by rw [sameHeadings]
    exact sameAnswer.symm.trans accepted
  · rw [countP_headings] at fewer ⊢
    rw [← sameHeadings]
    exact Nat.lt_of_le_of_lt extended.sublist.countP_le fewer

/-- A page ends with as many of the events that came in order as it has room for. -/
theorem page_of_inOrder {older newer : List EventRecord} (records : state.records = older ++ newer)
    (distinct : (state.records.map (·.id)).Nodup) (inOrder : EventRecord.InOrder older newer) {count : Nat}
    (few : ((newer.filter filter.accepts).drop count).length ≤ eventPageSize) :
    ∃ front, state.page filter = front ++ (newer.filter filter.accepts).drop count ∧
      ∀ record ∈ front, record ∈ older ∨ record ∈ (newer.filter filter.accepts).take count := by
  have matchingDistinct : ((older.filter filter.accepts ++ newer.filter filter.accepts).map (·.id)).Nodup := by
    rw [← List.filter_append, ← records]
    exact distinct.sublist (List.filter_sublist.map _)
  have newerInOrder : (newer.filter filter.accepts).Pairwise
      fun first second => first.notAfter second = true :=
    (inOrder.inOrder.sublist List.filter_sublist).imp EventRecord.Before.notAfter
  have behind : ∀ old ∈ older.filter filter.accepts, ∀ new ∈ newer.filter filter.accepts,
      old.notAfter new = true := by
    intro old member new isNew
    exact (inOrder.behind old (List.mem_filter.mp member).1 new (List.mem_filter.mp isNew).1).notAfter
  have sorted := EventRecord.mergeSort_append_later matchingDistinct newerInOrder behind
  have members : ∀ record ∈ (older.filter filter.accepts).mergeSort EventRecord.notAfter,
      record ∈ older :=
    fun record member => (List.mem_filter.mp (List.mem_mergeSort.mp member)).1
  simp only [page, records, List.filter_append, sorted]
  generalize (older.filter filter.accepts).mergeSort EventRecord.notAfter = before at members ⊢
  generalize newer.filter filter.accepts = matching at few ⊢
  have split : before ++ matching = (before ++ matching.take count) ++ matching.drop count := by
    rw [List.append_assoc, List.take_append_drop]
  have room : (before ++ matching).length - eventPageSize ≤ (before ++ matching.take count).length := by
    have lengths := (congrArg List.length split).trans List.length_append
    omega
  refine ⟨(before ++ matching.take count).drop ((before ++ matching).length - eventPageSize), ?_, ?_⟩
  · rw [← List.drop_append_of_le_length room, ← split]
  · intro record member
    rcases List.mem_append.mp (List.mem_of_mem_drop member) with old | taken
    · exact .inl (members record old)
    · exact .inr taken

end StoreState

end DesiredState
