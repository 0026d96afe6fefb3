import DesiredState.Proofs.Store.Document
import DesiredState.Proofs.Store.Issuing
import DesiredState.Proofs.Wait.Timing

/-!
# Stores opened from a document

A document has the counters of a store beside its objects and events, and any counters are accepted. Where
they are ahead of both, a store that is opened from it gives no address and no event number twice: a created
object can be read at its address for as long as it is there, and a waiter takes the event of every later
write for a new one. Where they are not, some calls give an address or a number a second time.
-/

set_option autoImplicit false

namespace DesiredState

open EventWaiter (start pollOnce)

/-- A store that keeps what it holds in a store in memory, and answers as that one does. Only where it has
something to save can it fail on its own. -/
structure RemoteStore.BackedBy {σ : Type} (store : RemoteStore σ) (memory : σ → MemoryStore) : Prop where
  moves : ∀ (call : RemoteCall) (state : σ),
    memory (call.perform store state).2 = (call.perform MemoryStore.remote (memory state)).2
  answers : ∀ (call : RemoteCall) (state : σ), (call.perform store state).1.isAccepted = true ∨
      (call.perform MemoryStore.remote (memory state)).1.savesState = false →
    (call.perform store state).1 = (call.perform MemoryStore.remote (memory state)).1

private theorem MemoryStore.backedBy_remote : remote.BackedBy id where
  moves := fun _ _ => rfl
  answers := fun _ _ _ => rfl

private theorem Exchange.isAccepted_failed (exchange : Exchange) (error : StoreError) :
    (exchange.failed error).isAccepted = false := by
  cases exchange <;> rfl

private theorem DocumentStore.backedBy_remote : remote.BackedBy DocumentStore.memory := by
  constructor
  · intro call store
    rw [perform_remote, afterExchange]
    split
    · split <;> rfl
    · rfl
  · intro call store answered
    rw [perform_remote, afterExchange] at answered ⊢
    split
    · rename_i saves
      rw [if_pos saves] at answered
      cases saved : StateDocument.save store.disk store.home store.name
          (call.perform MemoryStore.remote store.memory).2.state with
      | mk result disk =>
          rw [saved] at answered
          cases result with
          | ok done => rfl
          | error error =>
              rcases answered with accepted | looked
              · rw [Exchange.isAccepted_failed] at accepted
                cases accepted
              · rw [saves] at looked
                cases looked
    · rfl

/-! ## Waiters -/

/-- A waiter that was made on the way from some state of a store, was bound to an object and looked at the
log any number of times, and has come to another state meanwhile. -/
inductive Watching {σ : Type} (store : RemoteStore σ) (origin : σ) : EventWaiter → σ → Prop where
  | made (calls : List RemoteCall) (filter : EventFilter) (intervals : WaitIntervals) {waiter : EventWaiter}
      {state : σ} (starts : start store filter intervals (RemoteCall.performAll store origin calls).2 =
        (.ok waiter, state)) : Watching store origin waiter state
  | bound {waiter : EventWaiter} {state : σ} (watching : Watching store origin waiter state) (id : Nat) :
      Watching store origin (waiter.withEntityId id) state
  | looked {waiter : EventWaiter} {state : σ} (watching : Watching store origin waiter state) :
      Watching store origin (pollOnce store ⟨waiter, state⟩).2.waiter
        (pollOnce store ⟨waiter, state⟩).2.state
  | called {waiter : EventWaiter} {state : σ} (watching : Watching store origin waiter state)
      (call : RemoteCall) : Watching store origin waiter (call.perform store state).2

/-- A waiter has seen no event that is yet to come. -/
structure EventWaiter.UpTo (waiter : EventWaiter) (state : StoreState) : Prop where
  numbered : state.LogNumbered
  seen_le : ∀ id, waiter.ledger.hasSeen id = true → id ≤ state.nextEventId

variable {σ : Type} {store : RemoteStore σ} {memory : σ → MemoryStore} {origin : σ}

namespace RemoteStore.BackedBy

private theorem performAll (backed : store.BackedBy memory) (state : σ) (calls : List RemoteCall) :
    memory (RemoteCall.performAll store state calls).2 =
      (RemoteCall.performAll MemoryStore.remote (memory state) calls).2 := by
  induction calls generalizing state with
  | nil => rfl
  | cons call rest ih =>
      rw [RemoteCall.performAll, ih, backed.moves]
      rfl

private theorem create (backed : store.BackedBy memory) {collection : Collection} {payload : Attributes}
    {object : RemoteObject} {before after : σ}
    (created : (RemoteCall.create collection payload).perform store before =
      (.create collection payload (.ok object), after)) :
    (RemoteCall.create collection payload).perform MemoryStore.remote (memory before) =
      (.create collection payload (.ok object), memory after) := by
  have answered := backed.answers (.create collection payload) before (.inl (by rw [created]; rfl))
  have moved := backed.moves (.create collection payload) before
  rw [created] at answered moved
  exact Prod.ext answered.symm moved.symm

private theorem listEvents (backed : store.BackedBy memory) (filter : EventFilter) (state : σ) :
    ∃ after, store.listEvents filter state = (.ok ((memory state).state.page filter), after) ∧
      (memory after).state = (memory state).state := by
  have answered := backed.answers (.listEvents filter) state (.inr rfl)
  have moved := backed.moves (.listEvents filter) state
  rw [RemoteCall.perform] at answered moved
  cases listed : store.listEvents filter state with
  | mk answer after =>
      rw [listed] at answered moved
      cases answered
      refine ⟨after, rfl, ?_⟩
      change memory after = _ at moved
      rw [moved]
      rfl

private theorem upTo (backed : store.BackedBy memory) (numbered : (memory origin).state.LogNumbered)
    {waiter : EventWaiter} {state : σ} (watching : Watching store origin waiter state) :
    waiter.UpTo (memory state).state := by
  induction watching with
  | @made calls filter intervals waiter state starts =>
      have reached : (memory (RemoteCall.performAll store origin calls).2).state.LogNumbered := by
        rw [backed.performAll, MemoryStore.performAll_eq_actions]
        exact MemoryStore.logNumbered_performAll numbered _
      rw [EventWaiter.start] at starts
      cases bound : filter.entityId with
      | none =>
          rw [bound] at starts
          cases starts
          exact ⟨reached, nofun⟩
      | some entity =>
          obtain ⟨after, listed, same⟩ :=
            backed.listEvents filter (RemoteCall.performAll store origin calls).2
          rw [bound] at starts
          simp only [listed] at starts
          cases starts
          refine ⟨same ▸ reached, fun id seen => ?_⟩
          obtain ⟨record, onPage, rfl⟩ := (EventLedger.hasSeen_seeded _ id).mp seen
          rw [same]
          exact reached.bounded record (StoreState.page_subset _ _ onPage)
  | bound watching id ih => exact ⟨ih.numbered, ih.seen_le⟩
  | @looked waiter state watching ih =>
      obtain ⟨after, listed, same⟩ := backed.listEvents waiter.filter state
      rw [pollOnce]
      simp only [listed]
      cases found : waiter.firstUnseen? ((memory state).state.page waiter.filter) with
      | none => exact ⟨same ▸ ih.numbered, same ▸ ih.seen_le⟩
      | some record =>
          have onPage := List.mem_of_find?_eq_some found
          refine ⟨same ▸ ih.numbered, fun id seen => ?_⟩
          rw [same]
          rcases (EventLedger.hasSeen_merge _ record id).mp seen with before | rfl
          · exact ih.seen_le id before
          · exact ih.numbered.bounded record (StoreState.page_subset _ _ onPage)
  | @called waiter state watching call ih =>
      rw [backed.moves, RemoteCall.perform_memory]
      have filed := call.action.filed_perform (memory state)
      exact ⟨filed.logNumbered ih.numbered, fun id seen =>
        Nat.le_trans (ih.seen_le id seen) filed.nextEventId_le⟩

end RemoteStore.BackedBy

/-! ## Fresh addresses and numbers -/

/-- Whatever calls a store gets, no two of its objects have one address and no two of its events one
number. A create gives an address that no object has, and what is found there later is what later writes
have left of the created object. The event of a write is new to every waiter that was made before. -/
structure StaysFresh (store : RemoteStore σ) (memory : σ → MemoryStore) (origin : σ) : Prop where
  distinct : ∀ calls : List RemoteCall,
    ((memory (RemoteCall.performAll store origin calls).2).state.objects.map (·.reference)).Nodup ∧
      ((memory (RemoteCall.performAll store origin calls).2).state.records.map (·.id)).Nodup
  created : ∀ (earlier : List RemoteCall) (collection : Collection) (payload : Attributes)
      (object : RemoteObject) (after : σ),
    (RemoteCall.create collection payload).perform store (RemoteCall.performAll store origin earlier).2 =
        (.create collection payload (.ok object), after) →
      (memory (RemoteCall.performAll store origin earlier).2).state.holds object.reference = false ∧
      ∀ later : List RemoteCall,
        ((RemoteCall.get object.reference).perform store (RemoteCall.performAll store after later).2).1 =
          .get object.reference (.ok (object.leftByAll? (acceptedWritesOf
            (RemoteCall.performAll MemoryStore.remote (memory after) later).1)))
  announced : ∀ (waiter : EventWaiter) (state : σ) (call : RemoteCall),
    Watching store origin waiter state → (call.perform store state).1.isAccepted = true →
      ∃ event, (memory (call.perform store state).2).state.records =
          (memory state).state.records ++ [event] ∧
        waiter.ledger.hasSeen event.id = false

private theorem RemoteStore.BackedBy.staysFresh (backed : store.BackedBy memory)
    (references : ((memory origin).state.objects.map (·.reference)).Nodup)
    (eventIds : ((memory origin).state.records.map (·.id)).Nodup)
    (lead : (memory origin).state.CountersLead) : StaysFresh store memory origin where
  distinct := by
    intro calls
    rw [backed.performAll]
    refine ⟨(MemoryStore.issued_performAll (StoreState.issued_self references) lead calls).distinct, ?_⟩
    rw [MemoryStore.performAll_eq_actions]
    exact (MemoryStore.logNumbered_performAll ⟨eventIds, lead.bounded⟩ _).distinct
  created := by
    intro earlier collection payload object after created
    have issued := MemoryStore.issued_performAll (StoreState.issued_self references) lead earlier
    rw [← backed.performAll] at issued
    generalize (RemoteCall.performAll store origin earlier).2 = before at issued created ⊢
    obtain ⟨allowed, rfl, isAfter⟩ := MemoryStore.create_of_perform (backed.create created)
    have free := issued.not_holds_next lead allowed
    refine ⟨free, fun later => ?_⟩
    have answered := backed.answers (.get ((memory before).state.nextObject collection payload).reference)
      (RemoteCall.performAll store after later).2 (.inr rfl)
    rw [answered, backed.performAll, isAfter]
    exact congrArg (fun found => Exchange.get _ (.ok found))
      (MemoryStore.find?_after_create payload free later)
  announced := by
    intro waiter state call watching accepted
    have upTo := backed.upTo ⟨eventIds, lead.bounded⟩ watching
    have answered := backed.answers call state (.inl accepted)
    rw [answered] at accepted
    obtain ⟨event, records, next⟩ := MemoryStore.records_of_isAccepted accepted
    rw [backed.moves]
    refine ⟨event, records, ?_⟩
    apply Bool.eq_false_iff.mpr
    intro seen
    have bounded := upTo.seen_le event.id seen
    omega

private theorem RemoteStore.BackedBy.staysFresh_iff (backed : store.BackedBy memory)
    (unhindered : (memory origin).failures = [])
    (references : ((memory origin).state.objects.map (·.reference)).Nodup)
    (eventIds : ((memory origin).state.records.map (·.id)).Nodup) :
    StaysFresh store memory origin ↔ (memory origin).state.CountersLead := by
  constructor
  · intro fresh
    apply MemoryStore.countersLead_of_distinct unhindered
    intro calls
    rw [← backed.performAll]
    exact fresh.distinct calls
  · exact backed.staysFresh references eventIds

namespace StoreState

/-- Whether a store that is opened from a state stays fresh is a matter of its counters: they must be ahead
of the objects where creates can come to their addresses, and of the events. It is enough that no number is
above its counter. -/
theorem opened_staysFresh_iff (state : StoreState)
    (references : (state.objects.map (·.reference)).Nodup) (eventIds : (state.records.map (·.id)).Nodup) :
    (∀ clock, StaysFresh MemoryStore.remote id (.ofState state clock) ↔ state.CountersLead) ∧
    (∀ disk home name clock, StateDocument.load disk home name = .ok state →
      ∃ opened, DocumentStore.openAt disk home name clock = .ok opened ∧
        (StaysFresh DocumentStore.remote DocumentStore.memory opened ↔ state.CountersLead)) ∧
    ((∀ object ∈ state.objects, object.id ≤ state.nextId) →
      (∀ record ∈ state.records, record.id ≤ state.nextEventId) → state.CountersLead) := by
  refine ⟨fun clock => ?_, fun disk home name clock loads => ?_, countersLead_of_le⟩
  · exact MemoryStore.backedBy_remote.staysFresh_iff rfl references eventIds
  · refine ⟨⟨home, name, .ofState state clock, disk⟩, ?_, ?_⟩
    · unfold DocumentStore.openAt
      rw [loads]
    · exact DocumentStore.backedBy_remote.staysFresh_iff rfl references eventIds

/-- A node pool with a number above the counter. No create can come to its address, since its cluster is
not there and never will be. -/
def orphanedPool : StoreState :=
  ⟨5, 1, 0, [⟨.child (.top "lke_cluster" 2) "lke_node_pool" 9, ∅⟩, ⟨.top "firewall" 5, ∅⟩],
    [⟨⟨1, "firewall", 5, "firewall_create", .finished, .epoch⟩, []⟩]⟩

private theorem countersLead_orphanedPool : orphanedPool.CountersLead := by
  refine ⟨fun reference unissued => ?_, by decide⟩
  apply Bool.eq_false_iff.mpr
  intro held
  have places : reference = .child (.top "lke_cluster" 2) "lke_node_pool" 9 ∨
      reference = .top "firewall" 5 := by
    simpa [orphanedPool] using holds_iff.mp held
  rcases places with rfl | rfl
  · cases unissued with
    | inHeld parentHeld kind above => cases parentHeld
    | inUnissued parentUnissued kind above => exact absurd parentUnissued.nextId_lt (by decide)
  · exact absurd unissued.nextId_lt (by decide)

theorem opened_staysFresh_iff_orphanedPool :
    (orphanedPool.objects.map (·.reference)).Nodup ∧ (orphanedPool.records.map (·.id)).Nodup ∧
      StaysFresh MemoryStore.remote id (.ofState orphanedPool (.stopped .epoch)) ∧
      (∃ disk opened, DocumentStore.openAt disk [] "default" (.stopped .epoch) = .ok opened ∧
        StaysFresh DocumentStore.remote DocumentStore.memory opened) ∧
      StoreState.CountersLead { orphanedPool with nextId := 9 } := by
  have references : (orphanedPool.objects.map (·.reference)).Nodup := by decide
  have eventIds : (orphanedPool.records.map (·.id)).Nodup := by decide
  obtain ⟨inMemory, onDisk, _⟩ := opened_staysFresh_iff orphanedPool references eventIds
  obtain ⟨_, _, enough⟩ := opened_staysFresh_iff { orphanedPool with nextId := 9 } references eventIds
  refine ⟨references, eventIds, (inMemory _).mpr countersLead_orphanedPool, ?_, ?_⟩
  · have saved : (StateDocument.save .empty [] "default" orphanedPool).1.isOk = true := by decide
    have readsBack : orphanedPool.ReadsBack := ⟨by decide, by decide⟩
    have loads := StateDocument.load_of_text (StateDocument.find?_save saved)
      (StateDocument.ofText?_of_readsBack readsBack)
    obtain ⟨opened, opens, fresh⟩ := onDisk _ [] "default" (.stopped .epoch) loads
    exact ⟨_, opened, opens, fresh.mpr countersLead_orphanedPool⟩
  · exact enough (by decide) (by decide)

/-- A document without counters counts from the start, whatever objects it holds, and the first create can
come to the address of one of them. -/
theorem opened_not_always_fresh :
    ¬∀ (document : Value) (state : StoreState), StoreState.ofValue? document = some state →
      (state.objects.map (·.reference)).Nodup → (state.records.map (·.id)).Nodup →
      ∀ clock, StaysFresh MemoryStore.remote id (.ofState state clock) := by
  intro fresh
  have firewall := fresh (.object [("objects", .list [RemoteObject.toValue ⟨.top "firewall" 1, ∅⟩])])
    ⟨0, 0, 0, [⟨.top "firewall" 1, ∅⟩], []⟩ rfl (by decide) (by decide) (.stopped .epoch)
  exact absurd (firewall.distinct [.create ⟨"firewall", none⟩ ∅]).1 (by decide)

end StoreState

end DesiredState
