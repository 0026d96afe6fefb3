import Mathlib
import DesiredState.Proofs.Store.Page
import DesiredState.Proofs.Wait.Calls

/-!
# Following the log of a store in memory

A waiter that is bound to an object is looked at again and again while anything is done to the store. It
never returns an event that the log held when the waiter was made, also none that the page of that time
did not show. If events come to the log in its order, and no more than a page of matching ones pile up, it
returns each of them once, in that order, and nothing only when it has returned them all.
-/

set_option autoImplicit false

namespace DesiredState

/-- One step of a watch: the waiter looks, or something is done to the store. -/
inductive WatchStep where
  | poll
  | act (action : StoreAction)

def WatchStep.call : WatchStep → WaiterCall MemoryStore
  | .poll => .pollOnce
  | .act action => .meanwhile 0 (StoreAction.perform · action)

namespace Watch

open EventWaiter StoreState

variable (watch : Watch MemoryStore)

def after (steps : List WatchStep) : Watch MemoryStore :=
  (performAll MemoryStore.remote ⟨0, watch⟩ (steps.map WatchStep.call)).state

/-- The events that the looks return, in order. -/
def returned (steps : List WatchStep) : List EventRecord :=
  handedOut MemoryStore.remote ⟨0, watch⟩ (steps.map WatchStep.call)

/-- The matching events that have come to the log, as they are now. -/
def appended (steps : List WatchStep) : List EventRecord :=
  ((watch.after steps).state.state.records.drop watch.state.state.records.length).filter
    watch.waiter.filter.accepts

/-- Those of them that no look has returned. -/
def unreturned (steps : List WatchStep) : List EventRecord :=
  (watch.appended steps).filter fun record => !((watch.returned steps).map (·.id)).contains record.id

/-- Every event that has come to the log has a later date, or the same date and a higher number, than all
that were in the log before it. -/
def ComesInOrder (steps : List WatchStep) : Prop :=
  EventRecord.InOrder ((watch.after steps).state.state.records.take watch.state.state.records.length)
    ((watch.after steps).state.state.records.drop watch.state.state.records.length)

instance (steps : List WatchStep) : Decidable (watch.ComesInOrder steps) :=
  inferInstanceAs (Decidable (EventRecord.InOrder _ _))

variable {watch} {steps : List WatchStep}

/-! ## Steps -/

private theorem performAll_eq (watch : Watch MemoryStore) (steps : List WatchStep) :
    performAll MemoryStore.remote ⟨0, watch⟩ (steps.map WatchStep.call) = ⟨0, watch.after steps⟩ := by
  have still : ∀ watch : Watch MemoryStore,
      (performAll MemoryStore.remote ⟨0, watch⟩ (steps.map WatchStep.call)).clock = 0 := by
    induction steps with
    | nil => exact fun _ => rfl
    | cons step rest ih =>
        intro watch
        cases step with
        | poll => exact ih (pollOnce MemoryStore.remote watch).2
        | act action => exact ih { watch with state := action.perform watch.state }
  exact congrArg (Timed.mk · (watch.after steps)) (still watch)

private theorem after_append (first second : List WatchStep) :
    watch.after (first ++ second) = (watch.after first).after second := by
  rw [after, List.map_append, performAll_append, performAll_eq]
  rfl

private theorem returned_append (first second : List WatchStep) :
    watch.returned (first ++ second) = watch.returned first ++ (watch.after first).returned second := by
  rw [returned, List.map_append, handedOut_append, performAll_eq]
  rfl

/-- A look at a store in memory finds the first event of its page that is new. -/
theorem answer_pollOnce (watch : Watch MemoryStore) :
    (pollOnce MemoryStore.remote watch).1 =
      .ok (watch.waiter.firstUnseen? (watch.state.state.page watch.waiter.filter)) := by
  simp only [pollOnce, MemoryStore.remote, MemoryStore.listEvents]
  cases watch.waiter.firstUnseen? (watch.state.state.page watch.waiter.filter) with
  | none => rfl
  | some record => rfl

private theorem returned_poll (watch : Watch MemoryStore) :
    watch.returned [.poll] =
      (watch.waiter.firstUnseen? (watch.state.state.page watch.waiter.filter)).toList := by
  have answer := congrArg foundBy watch.answer_pollOnce
  change (foundBy (pollOnce MemoryStore.remote watch).1).toList ++ [] = _
  rw [answer, List.append_nil]
  cases watch.waiter.firstUnseen? (watch.state.state.page watch.waiter.filter) <;> rfl

private theorem filter_after (watch : Watch MemoryStore) (steps : List WatchStep) :
    (watch.after steps).waiter.filter = watch.waiter.filter := by
  have unbound : ∀ filter, filterAfter filter (steps.map WatchStep.call) = filter := by
    intro filter
    induction steps with
    | nil => rfl
    | cons step rest ih =>
        cases step with
        | poll => exact ih
        | act action => exact ih
  exact (filter_performAll _).trans (unbound _)

private theorem hasSeen_after (watch : Watch MemoryStore) (steps : List WatchStep) (id : Nat) :
    (watch.after steps).waiter.ledger.hasSeen id = true ↔
      id ∈ (watch.returned steps).map (·.id) ∨ watch.waiter.ledger.hasSeen id = true := by
  have seen := seen_performAll MemoryStore.remote ⟨0, watch⟩ (steps.map WatchStep.call)
  rw [EventLedger.hasSeen, after, seen, EventLedger.hasSeen, List.contains_eq_mem,
    List.contains_eq_mem, decide_eq_true_eq, decide_eq_true_eq, List.mem_append, List.mem_reverse]
  rfl

private theorem filed_step (watch : Watch MemoryStore) (step : WatchStep) :
    ∃ count, watch.state.state.Filed count (watch.after [step]).state.state := by
  cases step with
  | poll =>
      refine ⟨0, ?_⟩
      change watch.state.state.Filed 0 (pollOnce MemoryStore.remote watch).2.state.state
      rw [state_pollOnce]
      exact .nothing rfl rfl
  | act action => exact ⟨_, action.filed_perform watch.state⟩

/-- The log keeps what it held, and its events stay apart. -/
theorem log_after (watch : Watch MemoryStore) (steps : List WatchStep) :
    watch.state.state.headings <+: (watch.after steps).state.state.headings ∧
      (watch.state.state.LogNumbered → (watch.after steps).state.state.LogNumbered) := by
  induction steps generalizing watch with
  | nil => exact ⟨List.prefix_rfl, id⟩
  | cons step rest ih =>
      obtain ⟨count, filed⟩ := watch.filed_step step
      obtain ⟨extended, numbered⟩ := ih (watch.after [step])
      have split : watch.after (step :: rest) = (watch.after [step]).after rest :=
        after_append [step] rest
      rw [split]
      exact ⟨filed.headings_extend.trans extended, fun held => numbered (filed.logNumbered held)⟩

/-! ## Nothing from before -/

/-- The page that the log shows now counts as seen. -/
def Seeded (watch : Watch MemoryStore) : Prop :=
  watch.waiter.ledger = .seeded (watch.state.state.page watch.waiter.filter)

/-- A waiter that is made for an object it knows has seen the page of that moment. -/
theorem start_seeded (store : MemoryStore) (filter : EventFilter) (intervals : WaitIntervals)
    (entity : Nat) (known : filter.entityId = some entity) :
    ∃ watch : Watch MemoryStore,
      start MemoryStore.remote filter intervals store = (.ok watch.waiter, watch.state) ∧
      watch.waiter.filter = filter ∧ watch.state.state = store.state ∧ watch.Seeded := by
  refine ⟨⟨⟨filter, .seeded (store.state.page filter), intervals⟩, store.noted (.listEvents filter)⟩,
    ?_, rfl, rfl, rfl⟩
  simp only [start, known, MemoryStore.remote, MemoryStore.listEvents]

/-- An event that the log held at the beginning is on no page, or was seen then. -/
theorem seen_of_old (seeded : watch.Seeded) (numbered : watch.state.state.LogNumbered)
    {record : EventRecord}
    (onPage : record ∈ (watch.after steps).state.state.page watch.waiter.filter)
    (old : record.id ∈ watch.state.state.records.map (·.id)) :
    (watch.after steps).waiter.ledger.hasSeen record.id = true := by
  obtain ⟨extended, stillNumbered⟩ := watch.log_after steps
  rw [hasSeen_after, seeded, EventLedger.hasSeen_seeded]
  exact .inr (page_of_extended extended (stillNumbered numbered).distinct onPage old)

private theorem returned_new (seeded : watch.Seeded) (numbered : watch.state.state.LogNumbered)
    (steps : List WatchStep) :
    ∀ record ∈ watch.returned steps, ∀ old ∈ watch.state.state.records, old.id ≠ record.id := by
  induction steps using List.reverseRecOn with
  | nil =>
      intro record member
      cases member
  | append_singleton earlier step ih =>
      rw [returned_append]
      intro record member old inLog same
      rcases List.mem_append.mp member with before | last
      · exact ih record before old inLog same
      · cases step with
        | act action => cases last
        | poll =>
            rw [returned_poll, filter_after, Option.mem_toList] at last
            have onPage := List.mem_of_find?_eq_some last
            have isOld : record.id ∈ watch.state.state.records.map (·.id) :=
              same ▸ List.mem_map_of_mem inLog
            have seen := seen_of_old seeded numbered onPage isOld
            have fits := List.find?_some last
            rw [seen, Bool.not_true, Bool.and_false] at fits
            cases fits

/-! ## Everything since -/

theorem ComesInOrder.of_append {first second : List WatchStep}
    (inOrder : watch.ComesInOrder (first ++ second)) : watch.ComesInOrder first := by
  obtain ⟨extended, _⟩ := (watch.after first).log_after second
  rw [← after_append] at extended
  rw [ComesInOrder, ← EventRecord.inOrder_headings, List.map_take, List.map_drop] at inOrder ⊢
  exact inOrder.mono (extended.take _).subset (extended.drop _).sublist

private theorem appended_extend (watch : Watch MemoryStore) (first second : List WatchStep) :
    (watch.appended first).map EventRecord.heading <+:
      (watch.appended (first ++ second)).map EventRecord.heading := by
  obtain ⟨extended, _⟩ := (watch.after first).log_after second
  rw [← after_append] at extended
  have headings : ∀ steps, (watch.appended steps).map EventRecord.heading =
      ((watch.after steps).state.state.headings.drop watch.state.state.records.length).filter
        watch.waiter.filter.accepts := by
    intro steps
    rw [StoreState.headings, ← List.map_drop, List.filter_map]
    rfl
  rw [headings, headings]
  exact (extended.drop _).filter _

/-- What is returned is the beginning of what has come to the log. -/
def InStep (watch : Watch MemoryStore) (steps : List WatchStep) : Prop :=
  (watch.returned steps).map EventRecord.heading <+: (watch.appended steps).map EventRecord.heading

private theorem InStep.take_eq (inStep : watch.InStep steps) :
    ((watch.appended steps).take (watch.returned steps).length).map EventRecord.heading =
      (watch.returned steps).map EventRecord.heading := by
  have length := List.prefix_iff_eq_take.mp inStep
  rw [List.length_map] at length
  rw [List.map_take, ← length]

private theorem map_id_of_headings {first second : List EventRecord}
    (same : first.map EventRecord.heading = second.map EventRecord.heading) :
    first.map (·.id) = second.map (·.id) := by
  rw [← EventRecord.map_id_heading, same, EventRecord.map_id_heading]

private theorem appended_distinct (numbered : watch.state.state.LogNumbered) (steps : List WatchStep) :
    ((watch.appended steps).map (·.id)).Nodup :=
  ((watch.log_after steps).2 numbered).distinct.sublist
    ((List.filter_sublist.trans (List.drop_sublist _ _)).map _)

private theorem not_mem_returned_of_drop (inStep : watch.InStep steps)
    (numbered : watch.state.state.LogNumbered) {record : EventRecord}
    (rest : record ∈ (watch.appended steps).drop (watch.returned steps).length) :
    record.id ∉ (watch.returned steps).map (·.id) := by
  rw [← map_id_of_headings inStep.take_eq]
  exact EventRecord.notMem_take_of_drop (appended_distinct numbered steps) rest

private theorem unreturned_eq (inStep : watch.InStep steps) (numbered : watch.state.state.LogNumbered) :
    watch.unreturned steps = (watch.appended steps).drop (watch.returned steps).length := by
  have split := List.take_append_drop (watch.returned steps).length (watch.appended steps)
  rw [unreturned]
  conv_lhs => rw [← split]
  rw [List.filter_append, List.filter_eq_nil_iff.mpr, List.filter_eq_self.mpr, List.nil_append]
  · intro record member
    have fresh := not_mem_returned_of_drop inStep numbered member
    simpa using fresh
  · intro record member
    have taken : record.id ∈ (watch.returned steps).map (·.id) := by
      rw [← map_id_of_headings inStep.take_eq]
      exact List.mem_map_of_mem member
    simpa using taken

/-- The events of the beginning are the first ones of the log, under their numbers. -/
theorem ids_eq_take (watch : Watch MemoryStore) (steps : List WatchStep) :
    watch.state.state.records.map (·.id) =
      ((watch.after steps).state.state.records.take watch.state.state.records.length).map (·.id) := by
  have headings := List.prefix_iff_eq_take.mp (watch.log_after steps).1
  rw [StoreState.headings, StoreState.headings, List.length_map, ← List.map_take] at headings
  exact map_id_of_headings headings

private theorem appended_new (numbered : watch.state.state.LogNumbered) {record : EventRecord}
    (member : record ∈ watch.appended steps) :
    record.id ∉ watch.state.state.records.map (·.id) := by
  rw [ids_eq_take watch steps]
  have distinct := ((watch.log_after steps).2 numbered).distinct
  exact EventRecord.notMem_take_of_drop distinct (List.mem_filter.mp member).1

/-- What stands on a page before the events that no look has returned was seen. -/
theorem page_of_inStep (seeded : watch.Seeded) (numbered : watch.state.state.LogNumbered)
    (inOrder : watch.ComesInOrder steps) (inStep : watch.InStep steps)
    (few : (watch.unreturned steps).length ≤ eventPageSize) :
    ∃ front, (watch.after steps).state.state.page watch.waiter.filter = front ++ watch.unreturned steps ∧
      ∀ record ∈ front, (watch.after steps).waiter.ledger.hasSeen record.id = true := by
  have isRest := unreturned_eq inStep numbered
  rw [isRest] at few ⊢
  obtain ⟨front, isPage, origin⟩ := page_of_inOrder (List.take_append_drop _ _).symm
    ((watch.log_after steps).2 numbered).distinct inOrder few
  refine ⟨front, isPage, ?_⟩
  intro record member
  -- It was there when the waiter was made, or it came since and was returned.
  rcases origin record member with old | taken
  · have onPage : record ∈ (watch.after steps).state.state.page watch.waiter.filter :=
      isPage ▸ List.mem_append_left _ member
    exact seen_of_old seeded numbered onPage (ids_eq_take watch steps ▸ List.mem_map_of_mem old)
  · rw [hasSeen_after, ← map_id_of_headings inStep.take_eq]
    exact .inl (List.mem_map_of_mem taken)

private theorem unseen_of_unreturned (seeded : watch.Seeded) (numbered : watch.state.state.LogNumbered)
    (inStep : watch.InStep steps) {record : EventRecord} (member : record ∈ watch.unreturned steps) :
    (watch.after steps).waiter.ledger.hasSeen record.id = false := by
  rw [unreturned_eq inStep numbered] at member
  rw [Bool.eq_false_iff, ne_eq, hasSeen_after, seeded, EventLedger.hasSeen_seeded]
  rintro (returned | ⟨old, onPage, same⟩)
  · exact not_mem_returned_of_drop inStep numbered member returned
  · have inLog := watch.state.state.page_subset watch.waiter.filter onPage
    exact appended_new numbered (List.mem_of_mem_drop member) (same ▸ List.mem_map_of_mem inLog)

/-- A look returns the oldest of the events that none has returned. -/
theorem answer_of_inStep (seeded : watch.Seeded) (numbered : watch.state.state.LogNumbered)
    (inOrder : watch.ComesInOrder steps) (inStep : watch.InStep steps)
    (few : (watch.unreturned steps).length ≤ eventPageSize) :
    (watch.after steps).waiter.firstUnseen?
        ((watch.after steps).state.state.page (watch.after steps).waiter.filter) =
      (watch.unreturned steps).head? := by
  obtain ⟨front, isPage, seen⟩ := page_of_inStep seeded numbered inOrder inStep few
  have passedOver : front.find? (fun record => (watch.after steps).waiter.filter.accepts record &&
      !(watch.after steps).waiter.ledger.hasSeen record.id) = none := by
    rw [List.find?_eq_none]
    intro record member
    simp [seen record member]
  rw [filter_after] at passedOver ⊢
  rw [firstUnseen?, isPage, List.find?_append, filter_after, passedOver, Option.none_or]
  cases rest : watch.unreturned steps with
  | nil => rfl
  | cons record others =>
      have member : record ∈ watch.unreturned steps := rest ▸ List.mem_cons_self
      have unseen := unseen_of_unreturned seeded numbered inStep member
      have accepted := (List.mem_filter.mp (List.mem_filter.mp member).1).2
      rw [List.find?_cons_of_pos (by rw [accepted, unseen]; rfl), List.head?_cons]

/-- Whoever looks often enough misses nothing. -/
theorem inStep_of_backlog (seeded : watch.Seeded) (numbered : watch.state.state.LogNumbered)
    (steps : List WatchStep) (inOrder : watch.ComesInOrder steps)
    (backlog : ∀ earlier rest, steps = earlier ++ .poll :: rest →
      (watch.unreturned earlier).length ≤ eventPageSize) : watch.InStep steps := by
  -- From the end, since what a look answers depends on all that was returned before it.
  induction steps using List.reverseRecOn with
  | nil => exact List.nil_prefix
  | append_singleton earlier step ih =>
      have before : watch.InStep earlier := by
        apply ih inOrder.of_append
        rintro first rest rfl
        exact backlog first (rest ++ [step]) (by simp)
      cases step with
      | act action =>
          have same : watch.returned (earlier ++ [.act action]) = watch.returned earlier := by
            rw [returned_append]
            exact List.append_nil _
          rw [InStep, same]
          exact before.trans (watch.appended_extend earlier [.act action])
      | poll =>
          have few := backlog earlier [] rfl
          have answer := answer_of_inStep seeded numbered inOrder.of_append before few
          have same : watch.appended (earlier ++ [.poll]) = watch.appended earlier := by
            rw [appended, after_append]
            change ((pollOnce MemoryStore.remote (watch.after earlier)).2.state.state.records.drop _).filter
              _ = _
            rw [state_pollOnce]
            rfl
          -- The look takes the first of those that are left.
          rw [InStep, returned_append, returned_poll, answer, same, List.map_append,
            ← before.take_eq, unreturned_eq before numbered, ← List.map_append]
          conv_rhs =>
            rw [← List.take_append_drop (watch.returned earlier).length (watch.appended earlier)]
          apply List.IsPrefix.map
          rw [List.prefix_append_right_inj]
          cases (watch.appended earlier).drop (watch.returned earlier).length with
          | nil => exact List.nil_prefix
          | cons record others => exact ⟨others, rfl⟩

/-- A waiter that knows its object follows the log of a store in memory, whatever the log holds when it is
made and whatever is done to the store while it looks. It returns nothing that the log held before. What
comes in order, and never more than a page of it, is returned in that order. -/
theorem start_follows_log (store : MemoryStore) (filter : EventFilter) (intervals : WaitIntervals)
    (entity : Nat) (known : filter.entityId = some entity) (numbered : store.state.LogNumbered) :
    ∃ watch : Watch MemoryStore,
      start MemoryStore.remote filter intervals store = (.ok watch.waiter, watch.state) ∧
      watch.waiter.filter = filter ∧ watch.state.state = store.state ∧
      ∀ steps : List WatchStep,
        (∀ record ∈ watch.returned steps, ∀ old ∈ store.state.records, old.id ≠ record.id) ∧
        (watch.ComesInOrder steps →
          (∀ earlier rest, steps = earlier ++ .poll :: rest →
            (watch.unreturned earlier).length ≤ eventPageSize) →
          (watch.returned steps).map EventRecord.heading <+:
              (watch.appended steps).map EventRecord.heading ∧
            ∀ earlier rest, steps = earlier ++ .poll :: rest →
              (pollOnce MemoryStore.remote (watch.after earlier)).1 =
                .ok (watch.unreturned earlier).head?) := by
  obtain ⟨watch, isStart, keepsFilter, keepsState, seeded⟩ :=
    start_seeded store filter intervals entity known
  rw [← keepsState] at numbered ⊢
  refine ⟨watch, isStart, keepsFilter, rfl, fun steps => ⟨returned_new seeded numbered steps, ?_⟩⟩
  intro inOrder backlog
  refine ⟨inStep_of_backlog seeded numbered steps inOrder backlog, ?_⟩
  rintro earlier rest rfl
  have few := backlog earlier rest rfl
  have before : watch.InStep earlier := by
    apply inStep_of_backlog seeded numbered earlier inOrder.of_append
    rintro first others rfl
    exact backlog first (others ++ .poll :: rest) (by simp)
  rw [answer_pollOnce, answer_of_inStep seeded numbered inOrder.of_append before few]

/-- A store whose log holds an event of a firewall that is over. -/
def firewallStore : MemoryStore :=
  ((MemoryStore.fresh 0 (.stopped .epoch)).seedEvent "firewall" 1 "firewall_update" .finished).2

def firewallFilter : EventFilter := ⟨"firewall", some 1, "firewall_update"⟩

def firewallWatch : Watch MemoryStore :=
  ⟨⟨firewallFilter, .seeded (firewallStore.state.page firewallFilter), .standard⟩,
    firewallStore.noted (.listEvents firewallFilter)⟩

/-- Two events of the firewall and one of another come between the first two looks. -/
def firewallSteps : List WatchStep :=
  [.poll, .act (.seedEvent "firewall" 1 "firewall_update" .started),
    .act (.seedEvent "firewall" 2 "firewall_update" .started),
    .act (.seedEvent "firewall" 1 "firewall_update" .failed), .poll, .act (.getEvent 2), .poll, .poll]

theorem start_follows_log_firewall :
    firewallFilter.entityId = some 1 ∧ firewallStore.state.LogNumbered ∧
      firewallWatch.ComesInOrder firewallSteps ∧
      (∀ earlier rest, firewallSteps = earlier ++ .poll :: rest →
        (firewallWatch.unreturned earlier).length ≤ eventPageSize) ∧
      start MemoryStore.remote firewallFilter .standard firewallStore =
        (.ok firewallWatch.waiter, firewallWatch.state) ∧
      (firewallWatch.returned firewallSteps).map (·.id) = [2, 4] ∧
      (firewallWatch.returned firewallSteps).map EventRecord.heading <+:
        (firewallWatch.appended firewallSteps).map EventRecord.heading := by
  have numbered : firewallStore.state.LogNumbered := ⟨by decide, by decide⟩
  have inOrder : firewallWatch.ComesInOrder firewallSteps := by decide_cbv
  have few : ∀ count < firewallSteps.length,
      (firewallWatch.unreturned (firewallSteps.take count)).length ≤ eventPageSize := by
    decide_cbv
  have backlog : ∀ earlier rest, firewallSteps = earlier ++ .poll :: rest →
      (firewallWatch.unreturned earlier).length ≤ eventPageSize := by
    intro earlier rest split
    have isTake : firewallSteps.take earlier.length = earlier := by rw [split, List.take_left]
    have shorter : earlier.length < firewallSteps.length := by simp [split]
    exact isTake ▸ few earlier.length shorter
  obtain ⟨watch, isStart, -, -, follows⟩ :=
    start_follows_log firewallStore firewallFilter .standard 1 rfl numbered
  obtain rfl : watch = firewallWatch := by
    cases watch
    cases isStart
    rfl
  exact ⟨rfl, numbered, inOrder, backlog, isStart, by cbv, ((follows firewallSteps).2 inOrder backlog).1⟩

end Watch

end DesiredState
