import Mathlib.Data.List.Induction
import DesiredState.Proofs.Wait.Timing

/-!
# What a waiter hands out

A waiter is looked at and waited on in any order, bound to other objects in between, while time passes and
the store changes. Whatever the store answers, no event is handed out twice, none that the first page
held, and none that does not match. A look or a wait that finds nothing leaves the ledger alone.
-/

set_option autoImplicit false

namespace DesiredState

variable {σ : Type}

/-! ## One call -/

namespace EventWaiter

/-- What becomes of a waiter: it hands out a record that is new to it, and counts it as seen, or it finds
nothing and stays as it is. -/
inductive Hands (waiter : EventWaiter) : Option EventRecord → EventWaiter → Prop where
  | nothing : Hands waiter none waiter
  | record (record : EventRecord) (accepted : waiter.filter.accepts record = true)
      (unseen : waiter.ledger.hasSeen record.id = false) : Hands waiter (some record) (waiter.saw record)

theorem Hands.filter_eq {waiter after : EventWaiter} {found : Option EventRecord}
    (hands : waiter.Hands found after) : after.filter = waiter.filter := by
  cases hands with
  | nothing => rfl
  | record record accepted unseen => rfl

theorem Hands.intervals_eq {waiter after : EventWaiter} {found : Option EventRecord}
    (hands : waiter.Hands found after) : after.intervals = waiter.intervals := by
  cases hands with
  | nothing => rfl
  | record record accepted unseen => rfl

private theorem hands_firstUnseen? (waiter : EventWaiter) {page : List EventRecord} {record : EventRecord}
    (found : waiter.firstUnseen? page = some record) :
    waiter.Hands (some record) (waiter.saw record) := by
  have fits := List.find?_some found
  rw [Bool.and_eq_true, Bool.not_eq_true'] at fits
  exact .record record fits.1 fits.2

variable (store : RemoteStore σ)

/-- The record that a look found. A look that failed found none. -/
def foundBy (answer : Except PassError (Option EventRecord)) : Option EventRecord := answer.toOption.join

theorem hands_pollOnce (watch : Watch σ) :
    watch.waiter.Hands (foundBy (pollOnce store watch).1) (pollOnce store watch).2.waiter := by
  rw [pollOnce]
  rcases store.listEvents watch.waiter.filter watch.state with ⟨error | page, state⟩
  · exact .nothing
  · cases found : watch.waiter.firstUnseen? page with
    | none =>
        simp only [found]
        exact .nothing
    | some record =>
        simp only [found]
        exact watch.waiter.hands_firstUnseen? found

/-- A look leaves the store as the listing left it. -/
theorem state_pollOnce (watch : Watch σ) :
    (pollOnce store watch).2.state = (store.listEvents watch.waiter.filter watch.state).2 := by
  rw [pollOnce]
  rcases store.listEvents watch.waiter.filter watch.state with ⟨error | page, state⟩
  · rfl
  · cases found : watch.waiter.firstUnseen? page with
    | none => simp only [found]
    | some record => simp only [found]

private theorem hands_look {now after : Timed (Watch σ)} {answer : Except PassError (Option EventRecord)}
    (looked : Probe.instant (pollOnce store) now = (answer, after)) :
    now.state.waiter.Hands (foundBy answer) after.state.waiter := by
  have hands := hands_pollOnce store now.state
  rw [Probe.instant_eq] at looked
  obtain ⟨rfl, rfl⟩ := Prod.mk.inj looked
  exact hands

/-- A wait hands out what its last look found, and the looks before it found nothing. -/
theorem course_awaitNext (waiter : EventWaiter) (interval : Nat) (budget : Budget) (what : String) :
    Probe.Course interval budget what (.instant (pollOnce store))
      (fun now => now.state.waiter = waiter) (fun now => now.state.waiter = waiter)
      fun answer after => waiter.Hands answer.toOption after.state.waiter := by
  constructor
  · rintro now after rfl _ looked
    have hands := hands_look store looked
    change after.state.waiter = now.state.waiter
    generalize after.state.waiter = last at hands ⊢
    cases hands
    rfl
  · rintro now record after rfl _ looked
    exact hands_look store looked
  · rintro now error after rfl _ looked
    exact hands_look store looked
  · rintro now rfl _
    rfl
  · rintro now (rfl | rfl) _
    · exact .nothing
    · exact .nothing

theorem hands_awaitNext (budget : Budget) (now : Timed (Watch σ)) :
    now.state.waiter.Hands (awaitNext store budget now).1.toOption
      (awaitNext store budget now).2.state.waiter :=
  (course_awaitNext store now.state.waiter _ budget _).await_ends now rfl

/-- Waiting for an event to end does nothing more to the waiter. -/
theorem waiter_awaitNextFinished (budget : Budget) (now : Timed (Watch σ)) :
    (awaitNextFinished store budget now).2.state.waiter = (awaitNext store budget now).2.state.waiter := by
  rw [awaitNextFinished]
  rcases awaitNext store budget now with ⟨error | event, after⟩
  · rfl
  · rfl

end EventWaiter

/-! ## Calls in a row -/

/-- What is done with a waiter. Between two calls time passes, and the store may change in any way. -/
inductive WaiterCall (σ : Type) where
  | pollOnce
  | awaitNext (budget : Budget)
  | awaitNextFinished (budget : Budget)
  | bindEntity (id : Nat)
  | meanwhile (elapsed : Nat) (change : σ → σ)

namespace WaiterCall

open EventWaiter

variable (store : RemoteStore σ)

def perform (now : Timed (Watch σ)) : WaiterCall σ → Timed (Watch σ)
  | .pollOnce => ⟨now.clock, (EventWaiter.pollOnce store now.state).2⟩
  | .awaitNext budget => (EventWaiter.awaitNext store budget now).2
  | .awaitNextFinished budget => (EventWaiter.awaitNextFinished store budget now).2
  | .bindEntity id => { now with state := { now.state with waiter := now.state.waiter.withEntityId id } }
  | .meanwhile elapsed change =>
      ⟨now.clock + elapsed, { now.state with state := change now.state.state }⟩

/-- The record that a call hands out. A wait for an event to end takes the event like any other wait. -/
def found? (now : Timed (Watch σ)) : WaiterCall σ → Option EventRecord
  | .pollOnce => foundBy (EventWaiter.pollOnce store now.state).1
  | .awaitNext budget | .awaitNextFinished budget => (EventWaiter.awaitNext store budget now).1.toOption
  | .bindEntity _ | .meanwhile _ _ => none

/-- The filter in force after a call. -/
def refilter (filter : EventFilter) : WaiterCall σ → EventFilter
  | .bindEntity id => { filter with entityId := some id }
  | .pollOnce | .awaitNext _ | .awaitNextFinished _ | .meanwhile _ _ => filter

private theorem refilter_of_found? {now : Timed (Watch σ)} {call : WaiterCall σ} {record : EventRecord}
    (found : call.found? store now = some record) (filter : EventFilter) : call.refilter filter = filter := by
  cases call with
  | pollOnce | awaitNext _ | awaitNextFinished _ => rfl
  | bindEntity _ | meanwhile _ _ => cases found

private theorem hands_perform (now : Timed (Watch σ)) (call : WaiterCall σ) :
    ({ now.state.waiter with filter := call.refilter now.state.waiter.filter } : EventWaiter).Hands
      (call.found? store now) (call.perform store now).state.waiter := by
  cases call with
  | pollOnce => exact hands_pollOnce store now.state
  | awaitNext budget => exact hands_awaitNext store budget now
  | awaitNextFinished budget =>
      rw [perform, waiter_awaitNextFinished]
      exact hands_awaitNext store budget now
  | bindEntity id => exact .nothing
  | meanwhile elapsed change => exact .nothing

end WaiterCall

namespace EventWaiter

variable (store : RemoteStore σ)

def performAll (now : Timed (Watch σ)) (calls : List (WaiterCall σ)) : Timed (Watch σ) :=
  calls.foldl (WaiterCall.perform store) now

/-- The records that some calls hand out, in order. -/
def handedOut (now : Timed (Watch σ)) : List (WaiterCall σ) → List EventRecord
  | [] => []
  | call :: rest => (call.found? store now).toList ++ handedOut (call.perform store now) rest

/-- The filter in force after some calls: the one of the beginning, with the last number it was bound to. -/
def filterAfter (filter : EventFilter) (calls : List (WaiterCall σ)) : EventFilter :=
  calls.foldl WaiterCall.refilter filter

variable {store} {now : Timed (Watch σ)}

theorem performAll_append (first second : List (WaiterCall σ)) :
    performAll store now (first ++ second) = performAll store (performAll store now first) second :=
  List.foldl_append

theorem handedOut_append (first second : List (WaiterCall σ)) :
    handedOut store now (first ++ second) =
      handedOut store now first ++ handedOut store (performAll store now first) second := by
  induction first generalizing now with
  | nil => rfl
  | cons call rest ih =>
      rw [List.cons_append, handedOut, handedOut, ih, List.append_assoc]
      rfl

theorem filter_performAll (calls : List (WaiterCall σ)) :
    (performAll store now calls).state.waiter.filter = filterAfter now.state.waiter.filter calls := by
  induction calls generalizing now with
  | nil => rfl
  | cons call rest ih =>
      have first : (call.perform store now).state.waiter.filter =
          call.refilter now.state.waiter.filter := (call.hands_perform store now).filter_eq
      exact ih.trans (by rw [first]; rfl)

/-- A ledger holds what it held and what was handed out since, the latest first. -/
theorem seen_performAll (store : RemoteStore σ) (now : Timed (Watch σ)) (calls : List (WaiterCall σ)) :
    (performAll store now calls).state.waiter.ledger.seen =
      ((handedOut store now calls).map (·.id)).reverse ++ now.state.waiter.ledger.seen := by
  induction calls generalizing now with
  | nil => rfl
  | cons call rest ih =>
      have hands := call.hands_perform store now
      have later := ih (call.perform store now)
      rw [handedOut]
      refine later.trans ?_
      generalize call.found? store now = found at hands ⊢
      generalize (call.perform store now).state.waiter = after at hands ⊢
      cases hands with
      | nothing => rfl
      | record record accepted unseen =>
          simp [saw, EventLedger.merge, unseen]

/-- What is handed out has numbers of its own, that the ledger did not hold before. -/
theorem handedOut_fresh (store : RemoteStore σ) (now : Timed (Watch σ)) (calls : List (WaiterCall σ)) :
    ((handedOut store now calls).map (·.id)).Nodup ∧
      ∀ record ∈ handedOut store now calls, now.state.waiter.ledger.hasSeen record.id = false := by
  -- From the end, where the ledger is known to hold all that was handed out before.
  induction calls using List.reverseRecOn with
  | nil => exact ⟨List.nodup_nil, by simp [handedOut]⟩
  | append_singleton earlier call ih =>
      obtain ⟨distinct, fresh⟩ := ih
      have hands := call.hands_perform store (performAll store now earlier)
      have seen := seen_performAll store now earlier
      have onlyCall : handedOut store (performAll store now earlier) [call] =
          (call.found? store (performAll store now earlier)).toList := by
        rw [handedOut, handedOut, List.append_nil]
      rw [handedOut_append, onlyCall]
      generalize call.found? store (performAll store now earlier) = found at hands ⊢
      generalize (call.perform store (performAll store now earlier)).state.waiter = after at hands
      cases hands with
      | nothing =>
          rw [Option.toList_none, List.append_nil]
          exact ⟨distinct, fresh⟩
      | record record accepted unseen =>
          have isNew : (performAll store now earlier).state.waiter.ledger.hasSeen record.id = false := unseen
          rw [EventLedger.hasSeen, seen] at isNew
          simp only [List.contains_eq_mem, List.mem_append, List.mem_reverse, decide_eq_false_iff_not,
            not_or] at isNew
          rw [Option.toList_some, List.map_append, List.nodup_append]
          refine ⟨⟨distinct, List.nodup_singleton _, ?_⟩, ?_⟩
          · intro id member other isRecord same
            rw [List.map_singleton, List.mem_singleton] at isRecord
            exact isNew.1 (isRecord ▸ same ▸ member)
          · intro other member
            rcases List.mem_append.mp member with before | last
            · exact fresh other before
            · rw [List.mem_singleton.mp last, EventLedger.hasSeen]
              simpa using isNew.2

private theorem start_cases {filter : EventFilter} {intervals : WaitIntervals} {initial state : σ}
    {waiter : EventWaiter} (started : start store filter intervals initial = (.ok waiter, state)) :
    waiter.filter = filter ∧ ∀ entity page after, filter.entityId = some entity →
      store.listEvents filter initial = (.ok page, after) → waiter.ledger = .seeded page := by
  rw [start] at started
  cases bound : filter.entityId with
  | none =>
      rw [bound] at started
      cases started
      refine ⟨rfl, ?_⟩
      intro entity page after known
      cases known
  | some id =>
      rw [bound] at started
      rcases fetched : store.listEvents filter initial with ⟨error | records, after⟩
      · rw [fetched] at started
        cases started
      · rw [fetched] at started
        cases started
        refine ⟨rfl, ?_⟩
        intro entity page after' known same
        cases same
        rfl

/-- Two waits never hand out the same event, whatever the store answers, and none hands out an event of the
first page, which was seen before. Each call hands out a matching record that counts as seen from then on,
or leaves the ledger alone. -/
theorem handedOut_distinct (store : RemoteStore σ) (filter : EventFilter) (intervals : WaitIntervals)
    (initial state : σ) (waiter : EventWaiter) (clock : Nat) (calls : List (WaiterCall σ))
    (started : start store filter intervals initial = (.ok waiter, state)) :
    let begun : Timed (Watch σ) := ⟨clock, ⟨waiter, state⟩⟩
    ((handedOut store begun calls).map (·.id)).Nodup ∧
    (∀ entity page after, filter.entityId = some entity →
      store.listEvents filter initial = (.ok page, after) →
        ∀ record ∈ handedOut store begun calls, ∀ old ∈ page, old.id ≠ record.id) ∧
    ∀ earlier call rest, calls = earlier ++ call :: rest →
      let now := performAll store begun earlier
      let ledger := (call.perform store now).state.waiter.ledger
      match call.found? store now with
      | some record => (filterAfter filter earlier).accepts record = true ∧
          ledger.seen = record.id :: now.state.waiter.ledger.seen
      | none => ledger = now.state.waiter.ledger := by
  intro begun
  obtain ⟨sameFilter, seeded⟩ := start_cases started
  obtain ⟨distinct, fresh⟩ := handedOut_fresh store begun calls
  refine ⟨distinct, ?_, ?_⟩
  · intro entity page after known fetched record member old inPage same
    have unseen : waiter.ledger.hasSeen record.id = false := fresh record member
    rw [seeded entity page after known fetched, Bool.eq_false_iff, ne_eq,
      EventLedger.hasSeen_seeded] at unseen
    exact unseen ⟨old, inPage, same⟩
  · intro earlier call rest _ now ledger
    have inForce : now.state.waiter.filter = filterAfter filter earlier := by
      rw [filter_performAll, ← sameFilter]
    have hands := call.hands_perform store now
    simp only [ledger]
    cases found : call.found? store now with
    | none =>
        rw [found] at hands
        generalize (call.perform store now).state.waiter = last at hands ⊢
        cases hands
        rfl
    | some record =>
        rw [found, WaiterCall.refilter_of_found? store found, inForce] at hands
        generalize (call.perform store now).state.waiter = last at hands ⊢
        cases hands with
        | record record accepted unseen =>
            have isNew : now.state.waiter.ledger.hasSeen record.id = false := unseen
            refine ⟨accepted, ?_⟩
            simp [saw, EventLedger.merge, isNew]

/-- A store that answers as it likes: a fetch fails, pages repeat what they showed, show other objects and
change the status of what they showed. Its state is the number of fetches. -/
def restlessStore : RemoteStore Nat where
  get _ fetches := (.ok none, fetches)
  list _ fetches := (.ok [], fetches)
  create _ _ fetches := (.error (.transport "closed"), fetches)
  update _ _ fetches := (.error (.transport "closed"), fetches)
  delete _ fetches := (.error (.transport "closed"), fetches)
  getEvent _ fetches := (.ok none, fetches)
  listEvents _ fetches :=
    let event (id entityId : Nat) (status : EventStatus) : EventRecord :=
      ⟨id, "firewall", entityId, "firewall_update", status, .epoch⟩
    match fetches with
    | 0 => (.ok [event 5 1 .started], 1)
    | 1 => (.error (.transport "closed"), 2)
    | 2 => (.ok [event 8 2 .started, event 5 1 .finished, event 7 1 .started, event 7 1 .failed], 3)
    | _ => (.ok [event 7 1 .finished, event 8 2 .finished, event 6 1 .started], fetches + 1)

/-- Two looks, of which the first fails, a wait, another object, and a wait that is out of time. -/
def restlessCalls : List (WaiterCall Nat) :=
  [.pollOnce, .pollOnce, .meanwhile 10 id, .awaitNext (.starting 10 100), .bindEntity 2,
    .awaitNextFinished (.starting 0 10), .pollOnce]

theorem handedOut_distinct_restlessCalls :
    ∃ waiter, start restlessStore ⟨"firewall", some 1, "firewall_update"⟩ .standard 0 = (.ok waiter, 1) ∧
      (handedOut restlessStore ⟨0, ⟨waiter, 1⟩⟩ restlessCalls).map (·.id) = [7, 6, 8] ∧
      ((handedOut restlessStore ⟨0, ⟨waiter, 1⟩⟩ restlessCalls).map (·.id)).Nodup := by
  refine ⟨_, rfl, by decide, ?_⟩
  exact (handedOut_distinct restlessStore ⟨"firewall", some 1, "firewall_update"⟩ .standard 0 1 _ 0
    restlessCalls rfl).1

end EventWaiter

end DesiredState
