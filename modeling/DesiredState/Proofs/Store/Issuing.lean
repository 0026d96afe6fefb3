import DesiredState.Proofs.Store.Progress
import DesiredState.Proofs.Store.Reopen

/-!
# Numbers to come

A store gives its numbers from counters that came with its state. The addresses that creates can still
come to are those above the counter, below an object that is there or that can come to be there. As long
as none of them is taken and no event has a number above the counter of events, no call gives an address
or a number a second time, and what is found at an address is what writes have left of the one object that
ever was there. Otherwise some calls give an address or a number twice.
-/

set_option autoImplicit false

namespace DesiredState

namespace StoreState

/-- The addresses that creates can still come to. -/
inductive Unissued (state : StoreState) : ResourceRef → Prop where
  | outermost (kind : String) {id : Nat} (above : state.nextId < id) : Unissued state (.top kind id)
  | inHeld {parent : ResourceRef} (held : state.holds parent = true) (kind : String) {id : Nat}
      (above : state.nextId < id) : Unissued state (.child parent kind id)
  | inUnissued {parent : ResourceRef} (unissued : Unissued state parent) (kind : String) {id : Nat}
      (above : parent.id < id) : Unissued state (.child parent kind id)

/-- The counters are ahead of what is there: of the objects where creates can come to their addresses,
and of the events everywhere. -/
structure CountersLead (state : StoreState) : Prop where
  free : ∀ reference, state.Unissued reference → state.holds reference = false
  bounded : ∀ record ∈ state.records, record.id ≤ state.nextEventId

variable {origin state : StoreState}

theorem Unissued.nextId_lt {reference : ResourceRef} (unissued : state.Unissued reference) :
    state.nextId < reference.id := by
  induction unissued with
  | outermost kind above => exact above
  | inHeld held kind above => exact above
  | inUnissued unissued kind above ih => exact Nat.lt_trans ih above

theorem countersLead_of_le (id_le : ∀ object ∈ state.objects, object.id ≤ state.nextId)
    (eventId_le : ∀ record ∈ state.records, record.id ≤ state.nextEventId) : state.CountersLead := by
  refine ⟨fun reference unissued => ?_, eventId_le⟩
  apply Bool.eq_false_iff.mpr
  intro held
  obtain ⟨object, member, isThere⟩ := List.mem_map.mp (holds_iff.mp held)
  have bounded := id_le object member
  rw [RemoteObject.id, isThere] at bounded
  exact absurd unissued.nextId_lt (Nat.not_lt_of_le bounded)

/-! ## What is issued -/

/-- A state that calls have made of another one. No two objects have one address, and each address was
taken before or has been issued since. -/
structure Issued (origin state : StoreState) : Prop where
  distinct : (state.objects.map (·.reference)).Nodup
  nextId_le : origin.nextId ≤ state.nextId
  taken : ∀ reference, state.holds reference = true →
    origin.holds reference = true ∨ origin.Unissued reference ∧ reference.id ≤ state.nextId

theorem issued_self (distinct : (origin.objects.map (·.reference)).Nodup) : origin.Issued origin where
  distinct := distinct
  nextId_le := Nat.le_refl _
  taken := fun _ held => .inl held

theorem Issued.congr {after : StoreState} (issued : origin.Issued state) (same : after.SameObjects state) :
    origin.Issued after := by
  constructor
  · rw [same.objects]
    exact issued.distinct
  · rw [same.nextId]
    exact issued.nextId_le
  · intro reference held
    rw [same.holds] at held
    rw [same.nextId]
    exact issued.taken reference held

private theorem references_insertObject (state : StoreState) (collection : Collection)
    (attributes : Attributes) :
    (state.insertObject collection attributes).objects.map (·.reference) =
      state.objects.map (·.reference) ++ [.under collection.parent collection.kind (state.nextId + 1)] := by
  rw [insertObject, List.map_append, List.map_singleton, nextObject, reference_newObject]

/-- A create comes to one of the addresses that were to come. -/
theorem Issued.unissued_under (issued : origin.Issued state) {collection : Collection}
    (allowed : state.missingParent? collection = none) :
    origin.Unissued (.under collection.parent collection.kind (state.nextId + 1)) := by
  have above := Nat.lt_succ_of_le issued.nextId_le
  cases belongs : collection.parent with
  | none => exact .outermost collection.kind above
  | some parent =>
      rcases issued.taken parent (missingParent?_eq_none allowed belongs) with before | ⟨unissued, id_le⟩
      · exact .inHeld before collection.kind above
      · exact .inUnissued unissued collection.kind (Nat.lt_succ_of_le id_le)

/-- Where the counters were ahead, the address of a create is free. -/
theorem Issued.not_holds_next (issued : origin.Issued state) (lead : origin.CountersLead)
    {collection : Collection} (allowed : state.missingParent? collection = none) :
    state.holds (.under collection.parent collection.kind (state.nextId + 1)) = false := by
  apply Bool.eq_false_iff.mpr
  intro held
  rcases issued.taken _ held with before | ⟨_, id_le⟩
  · rw [lead.free _ (issued.unissued_under allowed)] at before
    cases before
  · rw [ResourceRef.id_under] at id_le
    omega

private theorem find?_insertObject {collection : Collection} (attributes : Attributes)
    (free : state.holds (.under collection.parent collection.kind (state.nextId + 1)) = false) :
    (state.insertObject collection attributes).find? (state.nextObject collection attributes).reference =
      some (state.nextObject collection attributes) := by
  rw [StoreState.holds, Option.isSome_eq_false_iff, Option.isNone_iff_eq_none] at free
  change state.find? (state.nextObject collection attributes).reference = none at free
  rw [StoreState.find?] at free ⊢
  rw [insertObject, List.find?_append, free, List.find?_singleton, beq_self_eq_true]
  rfl

private theorem Issued.performed (issued : origin.Issued state) (lead : origin.CountersLead) {write : Write}
    (allowed : state.Allows write) : origin.Issued (state.performed write) := by
  cases write with
  | create collection payload =>
      have free := issued.not_holds_next lead allowed
      rw [Bool.eq_false_iff, ne_eq, holds_iff] at free
      constructor
      · rw [StoreState.performed, references_insertObject]
        exact List.nodup_append.mpr ⟨issued.distinct, List.nodup_singleton _, fun old before new isNext =>
          fun same => free (List.mem_singleton.mp isNext ▸ same ▸ before)⟩
      · exact Nat.le_succ_of_le issued.nextId_le
      · intro reference held
        rw [StoreState.performed, holds_iff, references_insertObject, List.mem_append,
          List.mem_singleton] at held
        rcases held with old | rfl
        · rcases issued.taken reference (holds_iff.mpr old) with before | ⟨unissued, id_le⟩
          · exact .inl before
          · exact .inr ⟨unissued, Nat.le_succ_of_le id_le⟩
        · refine .inr ⟨issued.unissued_under allowed, ?_⟩
          rw [ResourceRef.id_under]
          exact Nat.le_refl _
  | update reference fields =>
      constructor
      · rw [StoreState.performed, references_setFields]
        exact issued.distinct
      · exact issued.nextId_le
      · intro other held
        rw [StoreState.performed, holds_iff, references_setFields, ← holds_iff] at held
        exact issued.taken other held
  | delete removed =>
      constructor
      · exact issued.distinct.sublist (List.filter_sublist.map _)
      · exact issued.nextId_le
      · intro other held
        obtain ⟨object, member, isThere⟩ := List.mem_map.mp (holds_iff.mp held)
        have inState := List.mem_map_of_mem (f := (·.reference)) (List.mem_filter.mp member).1
        rw [isThere] at inState
        exact issued.taken other (holds_iff.mpr inState)

end StoreState

/-! ## What writes leave of an object -/

namespace RemoteObject

open StoreState

/-- What a write leaves of an object. -/
def leftBy? (object : RemoteObject) : Write → Option RemoteObject
  | .create _ _ => some object
  | .update target fields => some (if target = object.reference then withFields fields object else object)
  | .delete removed => if (Write.delete removed).spares object.reference then some object else none

/-- What some writes leave of an object, one after the other. -/
def leftByAll? (object : RemoteObject) (writes : List Write) : Option RemoteObject :=
  writes.foldlM leftBy? object

end RemoteObject

namespace StoreState

variable {state : StoreState} {reference : ResourceRef}

private theorem find?_filter_reference (keep : ResourceRef → Bool) (reference : ResourceRef)
    (objects : List RemoteObject) :
    (objects.filter fun object => keep object.reference).find? (·.reference == reference) =
      if keep reference then objects.find? (·.reference == reference) else none := by
  induction objects with
  | nil => simp
  | cons head rest ih =>
      rw [List.filter_cons, List.find?_cons]
      by_cases same : head.reference = reference
      · subst same
        cases kept : keep head.reference with
        | false => simpa [kept] using ih
        | true => simp
      · rw [beq_false_of_ne same]
        cases keep head.reference with
        | false => exact ih
        | true => simpa [same] using ih

/-- A look-up at an address that has been passed finds what the write leaves of the object there. -/
theorem find?_performed (passed : reference.id ≤ state.nextId) (write : Write) :
    (state.performed write).find? reference = (state.find? reference).bind (·.leftBy? write) := by
  cases write with
  | create collection payload =>
      have apart : (state.nextObject collection payload).reference ≠ reference := by
        rintro rfl
        rw [nextObject, reference_newObject, ResourceRef.id_under] at passed
        omega
      rw [StoreState.performed, StoreState.find?, insertObject, List.find?_append,
        List.find?_singleton, beq_false_of_ne apart]
      simp [StoreState.find?, RemoteObject.leftBy?]
  | update target fields =>
      rw [StoreState.performed, find?_setFields]
      cases found : state.find? reference with
      | none => simp
      | some object =>
          rw [Option.bind_some, RemoteObject.leftBy?, (mem_of_find? found).2]
          by_cases same : reference = target
          · rw [if_pos same, if_pos same.symm]
            rfl
          · rw [if_neg same, if_neg (Ne.symm same)]
  | delete removed =>
      have kept := find?_filter_reference (Write.delete removed).spares reference state.objects
      refine Eq.trans kept ?_
      change (if _ then state.find? reference else none) = _
      cases found : state.find? reference with
      | none => exact ite_self none
      | some object => rw [Option.bind_some, RemoteObject.leftBy?, (mem_of_find? found).2]

private theorem find?_performedAll (passed : reference.id ≤ state.nextId) (writes : List Write) :
    (state.performedAll writes).find? reference = (state.find? reference).bind (·.leftByAll? writes) := by
  induction writes generalizing state with
  | nil => exact (Option.bind_fun_some _).symm
  | cons write rest ih =>
      rw [performedAll_cons, ih (Nat.le_trans passed (nextId_le_performed state write)),
        find?_performed passed, Option.bind_assoc]
      rfl

end StoreState

/-! ## Runs of calls -/

namespace RemoteCall

private theorem performAll_append {σ : Type} (store : RemoteStore σ) (state : σ)
    (first second : List RemoteCall) :
    performAll store state (first ++ second) =
      ((performAll store state first).1 ++ (performAll store (performAll store state first).2 second).1,
        (performAll store (performAll store state first).2 second).2) := by
  induction first generalizing state with
  | nil => rfl
  | cons call rest ih =>
      rw [List.cons_append, performAll, ih]
      rfl

end RemoteCall

namespace MemoryStore

open StoreState

/-- A call is no accepted write and leaves the objects as they were, or it is an accepted write. -/
theorem perform_cases (store : MemoryStore) (call : RemoteCall) :
    ((call.perform remote store).1.isAccepted = false ∧
      (call.perform remote store).2.state.SameObjects store.state) ∨
    ∃ write, (call.perform remote store).1.isAccepted = true ∧
      acceptedWritesOf [(call.perform remote store).1] = [write] ∧
      store.state.Allows write ∧ (call.perform remote store).2 = store.written write := by
  cases call with
  | get reference => exact .inl ⟨rfl, .refl _⟩
  | list collection => exact .inl ⟨rfl, .refl _⟩
  | listEvents filter => exact .inl ⟨rfl, .refl _⟩
  | getEvent id => exact .inl ⟨rfl, store.sameObjects_getEvent id⟩
  | create collection payload =>
      rcases store.create_cases collection payload with ⟨error, ran⟩ | ⟨allowed, ran⟩
      · simp only [RemoteCall.perform, remote, ran]
        exact .inl ⟨rfl, .refl _⟩
      · simp only [RemoteCall.perform, remote, ran]
        exact .inr ⟨.create collection payload, rfl, rfl, allowed, rfl⟩
  | update reference fields =>
      rcases store.update_cases reference fields with ⟨error, ran⟩ | ⟨object, found, ran⟩
      · simp only [RemoteCall.perform, remote, ran]
        exact .inl ⟨rfl, .refl _⟩
      · simp only [RemoteCall.perform, remote, ran]
        exact .inr ⟨.update reference fields, rfl, rfl, Option.isSome_of_eq_some found, rfl⟩
  | delete reference =>
      rcases store.delete_cases reference with ⟨error, ran⟩ | ⟨held, ran⟩
      · simp only [RemoteCall.perform, remote, ran]
        exact .inl ⟨rfl, .refl _⟩
      · simp only [RemoteCall.perform, remote, ran]
        exact .inr ⟨.delete reference, rfl, rfl, held, rfl⟩

theorem create_of_perform {store after : MemoryStore} {collection : Collection} {payload : Attributes}
    {object : RemoteObject} (ran : (RemoteCall.create collection payload).perform remote store =
      (.create collection payload (.ok object), after)) :
    store.state.missingParent? collection = none ∧ object = store.state.nextObject collection payload ∧
      after = store.written (.create collection payload) := by
  rcases store.create_cases collection payload with ⟨error, refused⟩ | ⟨allowed, created⟩
  · simp only [RemoteCall.perform, remote, refused] at ran
    cases ran
  · simp only [RemoteCall.perform, remote, created] at ran
    cases ran
    exact ⟨allowed, rfl, rfl⟩

private theorem acceptedWritesOf_of_not_isAccepted {exchange : Exchange}
    (refused : exchange.isAccepted = false) :
    acceptedWritesOf [exchange] = [] := by
  simp [acceptedWritesOf, writesOf, refused]

private theorem sameObjects_perform (store : MemoryStore) (call : RemoteCall) :
    (call.perform remote store).2.state.SameObjects
      (store.state.performedAll (acceptedWritesOf [(call.perform remote store).1])) := by
  rcases store.perform_cases call with ⟨refused, same⟩ | ⟨write, _, isWrite, _, ran⟩
  · rw [acceptedWritesOf_of_not_isAccepted refused]
    exact same
  · rw [isWrite, ran]
    exact ⟨rfl, rfl⟩

/-- After some calls the objects are those that the accepted writes make of the first ones. -/
theorem sameObjects_performAll (store : MemoryStore) (calls : List RemoteCall) :
    (RemoteCall.performAll remote store calls).2.state.SameObjects
      (store.state.performedAll (acceptedWritesOf (RemoteCall.performAll remote store calls).1)) := by
  induction calls generalizing store with
  | nil => exact .refl _
  | cons call rest ih =>
      have first := store.sameObjects_perform call
      rw [RemoteCall.performAll, ← List.singleton_append, acceptedWritesOf_append, performedAll_append]
      exact (ih (call.perform remote store).2).trans (first.performedAll _)

/-- What is found at the address of a created object is what later writes have left of it. -/
theorem find?_after_create {store : MemoryStore} {collection : Collection} (payload : Attributes)
    (free : store.state.holds (.under collection.parent collection.kind (store.state.nextId + 1)) = false)
    (later : List RemoteCall) :
    (RemoteCall.performAll remote (store.written (.create collection payload)) later).2.state.find?
        (store.state.nextObject collection payload).reference =
      (store.state.nextObject collection payload).leftByAll? (acceptedWritesOf
        (RemoteCall.performAll remote (store.written (.create collection payload)) later).1) := by
  have found : (store.written (.create collection payload)).state.find?
      (store.state.nextObject collection payload).reference =
        some (store.state.nextObject collection payload) := find?_insertObject payload free
  have passed : (store.state.nextObject collection payload).reference.id ≤
      (store.written (.create collection payload)).state.nextId := by
    rw [nextObject, reference_newObject, ResourceRef.id_under]
    exact Nat.le_refl _
  rw [((store.written (.create collection payload)).sameObjects_performAll later).find?,
    find?_performedAll passed, found, Option.bind_some]

/-- An accepted write files one event, under the next number. -/
theorem records_of_isAccepted {store : MemoryStore} {call : RemoteCall}
    (accepted : (call.perform remote store).1.isAccepted = true) :
    ∃ event, (call.perform remote store).2.state.records = store.state.records ++ [event] ∧
      event.id = store.state.nextEventId + 1 := by
  rcases store.perform_cases call with ⟨refused, _⟩ | ⟨write, _, _, _, ran⟩
  · rw [accepted] at refused
    cases refused
  · have events := store.state.events_written write store.clock.now
    rw [ran]
    exact ⟨_, (congrArg (List.map StoredEvent.record) events).trans List.map_append, rfl⟩

variable {origin : StoreState} {store : MemoryStore}

private theorem issued_perform (issued : origin.Issued store.state) (lead : origin.CountersLead)
    (call : RemoteCall) :
    origin.Issued (call.perform remote store).2.state := by
  rcases store.perform_cases call with ⟨_, same⟩ | ⟨write, _, _, allowed, ran⟩
  · exact issued.congr same
  · rw [ran]
    exact (issued.performed lead allowed).congr ⟨rfl, rfl⟩

theorem issued_performAll (issued : origin.Issued store.state) (lead : origin.CountersLead)
    (calls : List RemoteCall) : origin.Issued (RemoteCall.performAll remote store calls).2.state := by
  induction calls generalizing store with
  | nil => exact issued
  | cons call rest ih => exact ih (issued_perform issued lead call)

theorem performAll_eq_actions (store : MemoryStore) (calls : List RemoteCall) :
    (RemoteCall.performAll remote store calls).2 = store.performAll (calls.map RemoteCall.action) := by
  induction calls generalizing store with
  | nil => rfl
  | cons call rest ih =>
      rw [RemoteCall.performAll, ih, RemoteCall.perform_memory]
      rfl

/-! ## What calls can lead to -/

/-- The stores that creates lead to from one that has no rules for refusing them. -/
inductive Grown (start : MemoryStore) : MemoryStore → Prop where
  | start : Grown start start
  | create {store : MemoryStore} (grown : Grown start store) (collection : Collection) (payload : Attributes)
      (allowed : store.state.missingParent? collection = none) :
      Grown start (store.written (.create collection payload))

variable {start : MemoryStore}

private theorem Grown.reached (unhindered : start.failures = []) (grown : start.Grown store) :
    store.failures = [] ∧ ∃ calls, (RemoteCall.performAll remote start calls).2 = store := by
  induction grown with
  | start => exact ⟨unhindered, [], rfl⟩
  | @create store _ collection payload allowed ih =>
      obtain ⟨stillUnhindered, calls, isStore⟩ := ih
      refine ⟨stillUnhindered, calls ++ [.create collection payload], ?_⟩
      have accepted : store.accepts (.create collection payload) = true := by
        rw [accepts, isOk_create, injected?, stillUnhindered, allowed]
        rfl
      have ran := store.sent_eq (.create collection payload)
      rw [if_pos accepted] at ran
      rw [RemoteCall.performAll_append, isStore]
      exact ran

private theorem Grown.keeps (grown : start.Grown store) :
    start.state.objects <+: store.state.objects ∧ start.state.headings <+: store.state.headings := by
  induction grown with
  | start => exact ⟨List.prefix_rfl, List.prefix_rfl⟩
  | create grown collection payload allowed ih =>
      refine ⟨ih.1.trans (List.prefix_append _ _), ih.2.trans ?_⟩
      rw [written, headings_written]
      exact List.prefix_append _ _

theorem Grown.trans {middle : MemoryStore} (first : start.Grown middle) (second : middle.Grown store) :
    start.Grown store := by
  induction second with
  | start => exact first
  | create _ collection payload allowed ih => exact .create ih collection payload allowed

/-- Creates can bring both counters forward as far as one likes. -/
theorem exists_grown (store : MemoryStore) (steps : Nat) : ∃ after, store.Grown after ∧
    after.state.nextId = store.state.nextId + steps ∧
    after.state.nextEventId = store.state.nextEventId + steps := by
  induction steps with
  | zero => exact ⟨store, .start, rfl, rfl⟩
  | succ steps ih =>
      obtain ⟨after, grown, ids, eventIds⟩ := ih
      refine ⟨_, .create grown ⟨"", none⟩ ∅ rfl, congrArg (· + 1) ids, ?_⟩
      exact (nextEventId_written after.state _ _).trans (congrArg (· + 1) eventIds)

private theorem Grown.holds (grown : start.Grown store) {reference : ResourceRef}
    (held : start.state.holds reference = true) : store.state.holds reference = true := by
  rw [holds_iff] at held ⊢
  exact (grown.keeps.1.map _).subset held

/-- Under an address that is there, or under none, creates can come to every number above the counter. -/
theorem exists_grown_under (store : MemoryStore) {parent : Option ResourceRef}
    (held : ∀ owner ∈ parent, store.state.holds owner = true) (kind : String) {id : Nat}
    (above : store.state.nextId < id) : ∃ after, store.Grown after ∧
      after.state.missingParent? ⟨kind, parent⟩ = none ∧ after.state.nextId + 1 = id := by
  obtain ⟨after, grown, ids, _⟩ := store.exists_grown (id - (store.state.nextId + 1))
  refine ⟨after, grown, ?_, by omega⟩
  cases parent with
  | none => rfl
  | some owner =>
      have stillHeld := grown.holds (held owner rfl)
      simp only [missingParent?, stillHeld, if_true]

/-- Creates can come to every address that was to come. -/
theorem exists_grown_to {reference : ResourceRef} (unissued : start.state.Unissued reference) :
    ∃ store, start.Grown store ∧ ∃ collection, store.state.missingParent? collection = none ∧
      .under collection.parent collection.kind (store.state.nextId + 1) = reference := by
  induction unissued with
  | outermost kind above =>
      have unowned : ∀ owner ∈ (none : Option ResourceRef), start.state.holds owner = true := nofun
      obtain ⟨store, grown, allowed, rfl⟩ := start.exists_grown_under unowned kind above
      exact ⟨store, grown, ⟨kind, none⟩, allowed, rfl⟩
  | @inHeld parent held kind id above =>
      have owned : ∀ owner ∈ some parent, start.state.holds owner = true := by
        rintro _ ⟨⟩
        exact held
      obtain ⟨store, grown, allowed, rfl⟩ := start.exists_grown_under owned kind above
      exact ⟨store, grown, .under parent kind, allowed, rfl⟩
  | @inUnissued parent unissued kind id above ih =>
      -- The parent is made first, and has the number of the counter then.
      obtain ⟨store, grown, collection, allowed, rfl⟩ := ih
      rw [ResourceRef.id_under] at above
      have made := Grown.create grown collection ∅ allowed
      have owned : ∀ owner ∈ some (ResourceRef.under collection.parent collection.kind
          (store.state.nextId + 1)), (store.written (.create collection ∅)).state.holds owner = true := by
        rintro _ ⟨⟩
        rw [holds_iff]
        change _ ∈ (store.state.insertObject collection ∅).objects.map _
        rw [references_insertObject]
        exact List.mem_append_right _ (List.mem_singleton_self _)
      obtain ⟨after, further, stillAllowed, rfl⟩ :=
        exists_grown_under (store.written (.create collection ∅)) owned kind above
      exact ⟨after, made.trans further, .under _ kind, stillAllowed, rfl⟩

/-- If no calls give an address or the number of an event twice, the counters are ahead. -/
theorem countersLead_of_distinct (unhindered : start.failures = [])
    (distinct : ∀ calls,
      ((RemoteCall.performAll remote start calls).2.state.objects.map (·.reference)).Nodup ∧
        ((RemoteCall.performAll remote start calls).2.state.records.map (·.id)).Nodup) :
    start.state.CountersLead := by
  have distinctGrown : ∀ store, start.Grown store →
      (store.state.objects.map (·.reference)).Nodup ∧ (store.state.headings.map (·.id)).Nodup := by
    intro store grown
    obtain ⟨_, calls, rfl⟩ := grown.reached unhindered
    rw [headings, EventRecord.map_id_heading]
    exact distinct calls
  constructor
  · intro reference unissued
    apply Bool.eq_false_iff.mpr
    intro held
    obtain ⟨store, grown, collection, allowed, rfl⟩ := exists_grown_to unissued
    have references := (distinctGrown _ (grown.create collection ∅ allowed)).1
    change ((store.state.insertObject collection ∅).objects.map (·.reference)).Nodup at references
    rw [references_insertObject, List.nodup_append] at references
    exact references.2.2 _ (holds_iff.mp (grown.holds held)) _ (List.mem_singleton_self _) rfl
  · intro record member
    by_contra above
    obtain ⟨store, grown, _, eventIds⟩ := start.exists_grown (record.id - (start.state.nextEventId + 1))
    have numbers := (distinctGrown _ (grown.create ⟨"", none⟩ ∅ rfl)).2
    rw [written, headings_written, List.map_append, List.nodup_append] at numbers
    have filed : record.heading ∈ store.state.headings :=
      grown.keeps.2.subset (List.mem_map_of_mem member)
    have next : store.state.nextEventId + 1 = record.id := by omega
    exact numbers.2.2 record.heading.id (List.mem_map_of_mem filed) _ (List.mem_singleton_self _) next.symm

end MemoryStore

end DesiredState
