import DesiredState.Proofs.Store.Readback

/-!
# Closing and reopening a store

A store on disk can be closed and opened again at any time. As long as its document can be saved, nobody
who calls it notices: it answers like one store in memory that is never closed, and its document always
holds what is in memory.
-/

set_option autoImplicit false

namespace DesiredState

open StateDocument (load text path)

namespace Exchange

/-- The error of a document, if that is the answer. -/
def documentError? : Exchange → Option DocumentError
  | .get _ (.error (.backend (.document error))) => some error
  | .list _ (.error (.backend (.document error))) => some error
  | .create _ _ (.error (.backend (.document error))) => some error
  | .update _ _ (.error (.backend (.document error))) => some error
  | .delete _ (.error (.backend (.document error))) => some error
  | .listEvents _ (.error (.backend (.document error))) => some error
  | .getEvent _ (.error (.backend (.document error))) => some error
  | _ => none

private theorem documentError?_failed (exchange : Exchange) (error : DocumentError) :
    (exchange.failed (.backend (.document error))).documentError? = some error := by
  cases exchange <;> rfl

end Exchange

namespace RemoteCall

variable {σ : Type}

/-- What some calls are answered, one after the other, and the state behind them. -/
def performAll (store : RemoteStore σ) (state : σ) : List RemoteCall → List Exchange × σ
  | [] => ([], state)
  | call :: rest =>
      let later := performAll store (call.perform store state).2 rest
      ((call.perform store state).1 :: later.1, later.2)

end RemoteCall

/-- What is done with a store on disk: it is called, or it is closed and opened again. -/
inductive SessionStep where
  | call (call : RemoteCall)
  | reopen

namespace SessionStep

def call? : SessionStep → Option RemoteCall
  | .call request => some request
  | .reopen => none

end SessionStep

/-- What comes of a session: the exchanges, and the store behind them unless it could not be opened
again. -/
structure SessionResult where
  exchanges : List Exchange
  store : Except DocumentError DocumentStore

/-- The calls of a session. -/
def callsOf (steps : List SessionStep) : List RemoteCall := steps.filterMap SessionStep.call?

namespace DocumentStore

-- Irreducible, so that the equations of `session` are found without running the reader of documents.
/-- The store as it is after it was closed and opened again. The clock goes on. -/
@[irreducible]
def reopened (store : DocumentStore) : Except DocumentError DocumentStore :=
  openAt store.disk store.home store.name store.memory.clock

/-- A session with a store on disk. It is over when the store cannot be opened again. -/
def session (store : DocumentStore) : List SessionStep → SessionResult
  | [] => ⟨[], .ok store⟩
  | .call request :: rest =>
      let later := (request.perform remote store).2.session rest
      ⟨(request.perform remote store).1 :: later.exchanges, later.store⟩
  | .reopen :: rest =>
      match store.reopened with
      | .ok store => store.session rest
      | .error error => ⟨[], .error error⟩

/-- A session that goes on has the exchanges that it had before. -/
theorem exchanges_session_append (store : DocumentStore) (earlier later : List SessionStep) :
    (store.session earlier).exchanges <+: (store.session (earlier ++ later)).exchanges := by
  induction earlier generalizing store with
  | nil => exact List.nil_prefix
  | cons step rest ih =>
      rw [List.cons_append]
      cases step with
      | call request =>
          rw [session, session]
          exact List.cons_prefix_cons.mpr ⟨rfl, ih _⟩
      | reopen =>
          rw [session, session]
          cases store.reopened with
          | error error => exact List.nil_prefix
          | ok opened => exact ih opened

end DocumentStore

/-! ## Calls -/

namespace MemoryStore

/-- The journal has no part in what a call answers and does. -/
theorem perform_of_lookedAt {store other : MemoryStore} (same : store.LookedAt other) (call : RemoteCall) :
    (call.perform remote other).1 = (call.perform remote store).1 ∧
      (call.perform remote store).2.LookedAt (call.perform remote other).2 := by
  obtain ⟨journal, rfl⟩ := same
  cases call with
  | get reference => exact ⟨rfl, _, rfl⟩
  | list collection => exact ⟨rfl, _, rfl⟩
  | listEvents filter => exact ⟨rfl, _, rfl⟩
  | create collection payload =>
      simp only [RemoteCall.perform, remote, create, noted, injected?]
      cases store.failures.find? fun failure => failure.applies .create collection.kind payload with
      | some failure => exact ⟨rfl, _, rfl⟩
      | none =>
          cases store.state.missingParent? collection with
          | some parent => exact ⟨rfl, _, rfl⟩
          | none => exact ⟨rfl, _, rfl⟩
  | update reference fields =>
      simp only [RemoteCall.perform, remote, update, noted, injected?]
      cases store.state.find? reference with
      | none => exact ⟨rfl, _, rfl⟩
      | some object =>
          dsimp only
          cases store.failures.find? fun failure => failure.applies .update reference.kind object.attributes with
          | some failure => exact ⟨rfl, _, rfl⟩
          | none => exact ⟨rfl, _, rfl⟩
  | delete reference =>
      simp only [RemoteCall.perform, remote, delete, noted, injected?]
      cases store.state.find? reference with
      | none => exact ⟨rfl, _, rfl⟩
      | some object =>
          dsimp only
          cases store.failures.find? fun failure => failure.applies .delete reference.kind object.attributes with
          | some failure => exact ⟨rfl, _, rfl⟩
          | none => exact ⟨rfl, _, rfl⟩
  | getEvent id =>
      simp only [RemoteCall.perform, remote, getEvent, noted]
      cases store.state.findEvent? id with
      | none => exact ⟨rfl, _, rfl⟩
      | some event => exact ⟨rfl, _, rfl⟩

private theorem failures_sent (store : MemoryStore) (write : Write) :
    (store.sent write).failures = store.failures := by
  rcases store.sent_cases write with refused | ⟨_, accepted⟩
  · rw [refused]
    rfl
  · rw [accepted]
    rfl

/-- No call changes the rules for refusing writes. -/
theorem failures_perform (store : MemoryStore) (call : RemoteCall) :
    (call.perform remote store).2.failures = store.failures := by
  rw [RemoteCall.perform_memory]
  cases call with
  | get reference => rfl
  | list collection => rfl
  | listEvents filter => rfl
  | create collection payload => exact store.failures_sent (.create collection payload)
  | update reference fields => exact store.failures_sent (.update reference fields)
  | delete reference => exact store.failures_sent (.delete reference)
  | getEvent id =>
      rw [RemoteCall.action, StoreAction.perform, getEvent]
      split <;> rfl

end MemoryStore

namespace DocumentStore

/-- A call that is not answered with an error of the document is answered as the memory answers it, and if
it saves then the document holds what the memory holds behind it. -/
theorem perform_of_not_documentError {store : DocumentStore} {request : RemoteCall}
    (fine : (request.perform remote store).1.documentError? = none) :
    ∃ disk, request.perform remote store =
        ((request.perform MemoryStore.remote store.memory).1,
          { store with memory := (request.perform MemoryStore.remote store.memory).2, disk }) ∧
      ((request.perform MemoryStore.remote store.memory).1.savesState = true →
        disk.find? store.documentPath =
          some (.file (text (request.perform MemoryStore.remote store.memory).2.state))) ∧
      ((request.perform MemoryStore.remote store.memory).1.savesState = false → disk = store.disk) := by
  rw [perform_remote] at fine ⊢
  generalize request.perform MemoryStore.remote store.memory = ran at fine ⊢
  obtain ⟨exchange, memory⟩ := ran
  dsimp only at fine ⊢
  cases saves : exchange.savesState with
  | false =>
      rw [afterExchange_of_not_savesState saves]
      exact ⟨store.disk, rfl, fun saved => absurd saved Bool.false_ne_true, fun _ => rfl⟩
  | true =>
      rw [afterExchange, if_pos saves] at fine ⊢
      cases saved : StateDocument.save store.disk store.home store.name memory.state with
      | mk result disk =>
          rw [saved] at fine
          cases result with
          | error error =>
              rw [exchange.documentError?_failed] at fine
              cases fine
          | ok done =>
              have found := StateDocument.find?_save (congrArg (Except.isOk ∘ Prod.fst) saved)
              rw [saved] at found
              exact ⟨disk, rfl, fun _ => found, fun unsaved => absurd unsaved.symm Bool.false_ne_true⟩

private theorem reopened_of_load {store : DocumentStore} {state : StoreState}
    (loads : load store.disk store.home store.name = .ok state) :
    store.reopened = .ok { store with memory := .ofState state store.memory.clock } := by
  unfold reopened openAt
  rw [loads]

/-- A store on disk and a store in memory are in step: they hold the same, apart from their journals, and
so does the document. -/
structure InStep (home : Path) (name : String) (store : DocumentStore) (memory : MemoryStore) : Prop where
  home_eq : store.home = home
  name_eq : store.name = name
  same : memory.LookedAt store.memory
  loads : load store.disk home name = .ok memory.state
  unhindered : memory.failures = []
  readsBack : memory.state.ReadsBack

variable {home : Path} {name : String} {store : DocumentStore} {memory : MemoryStore}

/-- A call keeps the two stores in step, and both answer the same. -/
theorem InStep.perform (inStep : InStep home name store memory) {request : RemoteCall}
    (callSame : request.ReadsBack) {calls : Nat} (room : memory.state.HasRoom (calls + 1))
    (fine : (request.perform remote store).1.documentError? = none) :
    (request.perform remote store).1 = (request.perform MemoryStore.remote memory).1 ∧
      InStep home name (request.perform remote store).2 (request.perform MemoryStore.remote memory).2 ∧
      ((request.perform MemoryStore.remote memory).1.savesState = true ∨
          store.disk.read? (path home name) = some (text memory.state) →
        (request.perform remote store).2.disk.read? (path home name) =
          some (text (request.perform MemoryStore.remote memory).2.state)) := by
  obtain ⟨rfl, rfl, same, loads, unhindered, readsBack⟩ := inStep
  obtain ⟨answer, looked⟩ := MemoryStore.perform_of_lookedAt same request
  obtain ⟨stillReadsBack, _⟩ := MemoryStore.readsBack_perform readsBack callSame room
  obtain ⟨disk, performed, saved, unsaved⟩ := perform_of_not_documentError fine
  have state : (request.perform MemoryStore.remote store.memory).2.state =
      (request.perform MemoryStore.remote memory).2.state := by
    obtain ⟨journal, same⟩ := looked
    rw [same]
  have stillUnhindered := (memory.failures_perform request).trans unhindered
  rw [state, answer] at saved
  rw [answer] at unsaved
  rw [performed, answer]
  cases saves : (request.perform MemoryStore.remote memory).1.savesState with
  | true =>
      have found := saved saves
      have stillLoads := StateDocument.load_of_text found (StateDocument.ofText?_of_readsBack stillReadsBack)
      exact ⟨rfl, ⟨rfl, rfl, looked, stillLoads, stillUnhindered, stillReadsBack⟩,
        fun _ => Disk.read?_eq_some.mpr found⟩
  | false =>
      cases unsaved saves
      obtain ⟨noted, idle⟩ := MemoryStore.perform_of_not_savesState saves
      have unchanged : (request.perform MemoryStore.remote memory).2.state = memory.state := by
        rw [idle]
        rfl
      rw [← unchanged] at loads
      refine ⟨rfl, ⟨rfl, rfl, looked, loads, stillUnhindered, stillReadsBack⟩, ?_⟩
      rw [unchanged]
      exact fun held => held.resolve_left Bool.false_ne_true

/-- A store that is closed and opened again is in step as before. -/
theorem InStep.reopened (inStep : InStep home name store memory) : ∃ opened,
    store.reopened = .ok opened ∧ InStep home name opened memory ∧ opened.disk = store.disk := by
  obtain ⟨rfl, rfl, ⟨journal, same⟩, loads, unhindered, readsBack⟩ := inStep
  have clock : store.memory.clock = memory.clock := by rw [same]
  have fresh : MemoryStore.ofState memory.state memory.clock = { memory with journal := [] } :=
    congrArg (MemoryStore.mk memory.state [] · memory.clock) unhindered.symm
  refine ⟨_, reopened_of_load loads, ⟨rfl, rfl, ⟨[], ?_⟩, loads, unhindered, readsBack⟩, rfl⟩
  rw [clock]
  exact fresh

/-- A session keeps the two stores in step, and all its calls are answered the same. -/
theorem InStep.session {steps : List SessionStep} (inStep : InStep home name store memory)
    (callsSame : ∀ request ∈ callsOf steps, request.ReadsBack)
    (room : memory.state.HasRoom (callsOf steps).length)
    (fine : ∀ exchange ∈ (store.session steps).exchanges, exchange.documentError? = none) :
    ∃ last, store.session steps =
        ⟨(RemoteCall.performAll MemoryStore.remote memory (callsOf steps)).1, .ok last⟩ ∧
      InStep home name last (RemoteCall.performAll MemoryStore.remote memory (callsOf steps)).2 ∧
      ((∃ exchange ∈ (RemoteCall.performAll MemoryStore.remote memory (callsOf steps)).1,
          exchange.savesState = true) ∨ store.disk.read? (path home name) = some (text memory.state) →
        last.disk.read? (path home name) =
          some (text (RemoteCall.performAll MemoryStore.remote memory (callsOf steps)).2.state)) := by
  -- A reopening changes the store on disk and not the memory beside it, so both vary along the steps.
  induction steps generalizing store memory with
  | nil =>
      refine ⟨store, rfl, inStep, fun either => either.resolve_left ?_⟩
      exact fun ⟨_, member, _⟩ => List.not_mem_nil member
  | cons step rest ih =>
      cases step with
      | call request =>
          obtain ⟨callSame, laterSame⟩ := List.forall_mem_cons.mp callsSame
          obtain ⟨firstFine, laterFine⟩ := List.forall_mem_cons.mp fine
          obtain ⟨answer, stillInStep, held⟩ := inStep.perform callSame room firstFine
          obtain ⟨_, stillRoom⟩ := MemoryStore.readsBack_perform inStep.readsBack callSame room
          obtain ⟨last, isSession, lastInStep, heldLast⟩ := ih stillInStep laterSame stillRoom laterFine
          refine ⟨last, ?_, lastInStep, fun either => heldLast ?_⟩
          · rw [DocumentStore.session, isSession, answer]
            rfl
          · rcases either with ⟨exchange, member, saves⟩ | before
            · rcases List.mem_cons.mp member with rfl | later
              · exact .inr (held (.inl saves))
              · exact .inl ⟨exchange, later, saves⟩
            · exact .inr (held (.inr before))
      | reopen =>
          obtain ⟨opened, opens, stillInStep, sameDisk⟩ := inStep.reopened
          rw [DocumentStore.session, opens] at fine ⊢
          rw [← sameDisk]
          exact ih stillInStep callsSame room fine

/-- Closing and opening a store again cannot be observed. At every moment of a session all calls were
answered as one store in memory answers them, and the document, once something was saved, holds what
the memory holds. -/
theorem reopening_unobservable {disk : Disk} {clock : Clock} {opened : DocumentStore}
    (opens : openAt disk home name clock = .ok opened)
    (loadedSame : ∀ object ∈ opened.memory.state.objects, object.attributes.ReadsBack)
    {steps : List SessionStep} (callsSame : ∀ request ∈ callsOf steps, request.ReadsBack)
    (room : opened.memory.state.HasRoom (callsOf steps).length)
    (fine : ∀ exchange ∈ (opened.session steps).exchanges, exchange.documentError? = none) :
    ∃ loaded, load disk home name = .ok loaded ∧ ∀ earlier, earlier <+: steps → ∃ last,
      opened.session earlier =
          ⟨(RemoteCall.performAll MemoryStore.remote (.ofState loaded clock) (callsOf earlier)).1, .ok last⟩ ∧
        last.memory.state =
          (RemoteCall.performAll MemoryStore.remote (.ofState loaded clock) (callsOf earlier)).2.state ∧
        load last.disk home name = .ok last.memory.state ∧
        ((∃ exchange ∈ (opened.session earlier).exchanges, exchange.savesState = true) →
          last.disk.read? (path home name) = some (text last.memory.state)) := by
  unfold openAt at opens
  split at opens
  · rename_i loaded loads
    cases opens
    have legible := StateDocument.legible_of_load loads
    have readsBack : loaded.ReadsBack := ⟨legible.encodable, loadedSame⟩
    have inStep : InStep home name ⟨home, name, .ofState loaded clock, disk⟩ (.ofState loaded clock) :=
      ⟨rfl, rfl, .refl _, loads, rfl, readsBack⟩
    refine ⟨loaded, loads, ?_⟩
    -- Every moment is the end of a shorter session, which meets the same conditions.
    rintro earlier ⟨later, rfl⟩
    have split : callsOf (earlier ++ later) = callsOf earlier ++ callsOf later := List.filterMap_append
    rw [split] at callsSame room
    rw [List.length_append] at room
    obtain ⟨last, isSession, ⟨_, _, ⟨journal, same⟩, stillLoads, _, _⟩, held⟩ := inStep.session
      (fun request member => callsSame request (List.mem_append_left _ member))
      (room.mono (Nat.le_add_right _ _))
      (fun exchange member => fine exchange ((exchanges_session_append _ earlier later).subset member))
    have state : last.memory.state =
        (RemoteCall.performAll MemoryStore.remote (.ofState loaded clock) (callsOf earlier)).2.state := by
      rw [same]
    refine ⟨last, isSession, state, ?_, ?_⟩
    · rw [state]
      exact stillLoads
    · rw [isSession, state]
      exact fun saved => held (.inl saved)
  · cases opens

def labelledCreation : RemoteCall := .create ⟨"firewall", none⟩ (.ofList [("label", .string "edge")])

/-- A firewall is created and the store is closed and opened again before its event is read. -/
theorem reopening_unobservable_labelledCreation :
    openAt .empty [] "default" (.stopped .epoch) = .ok (freshStore "default") ∧
      (freshStore "default").memory.state.HasRoom 2 ∧ labelledCreation.ReadsBack ∧
      ∃ last, (freshStore "default").session [.call labelledCreation, .reopen, .call (.getEvent 1)] =
          ⟨(RemoteCall.performAll MemoryStore.remote (.ofState .empty (.stopped .epoch))
            [labelledCreation, .getEvent 1]).1, .ok last⟩ ∧
        last.disk.read? (path [] "default") = some (text last.memory.state) := by
  have opens : openAt .empty [] "default" (.stopped .epoch) = .ok (freshStore "default") := rfl
  have room : (freshStore "default").memory.state.HasRoom 2 := ⟨by decide, by decide⟩
  have callSame : labelledCreation.ReadsBack := by
    rintro write isWrite
    cases isWrite
    exact ⟨by decide, nofun⟩
  have empty : ∀ object ∈ (freshStore "default").memory.state.objects, object.attributes.ReadsBack := nofun
  have created : (labelledCreation.perform remote (freshStore "default")).1.documentError? = none := by decide
  have oneSame : ∀ request ∈ callsOf [.call labelledCreation], request.ReadsBack :=
    List.forall_mem_singleton.mpr callSame
  have loads : load (labelledCreation.perform remote (freshStore "default")).2.disk [] "default" =
      .ok (labelledCreation.perform remote (freshStore "default")).2.memory.state := by
    obtain ⟨_, _, answered⟩ := reopening_unobservable opens empty oneSame (room.mono (by decide))
      (List.forall_mem_singleton.mpr created)
    obtain ⟨last, isSession, _, loads, _⟩ := answered _ List.prefix_rfl
    rw [session, session] at isSession
    cases congrArg SessionResult.store isSession
    exact loads
  have fine : ∀ exchange ∈ ((freshStore "default").session
      [.call labelledCreation, .reopen, .call (.getEvent 1)]).exchanges, exchange.documentError? = none := by
    rw [session, session, reopened_of_load loads]
    refine List.forall_mem_cons.mpr ⟨created, List.forall_mem_singleton.mpr ?_⟩
    decide
  have bothSame : ∀ request ∈ callsOf [.call labelledCreation, .reopen, .call (.getEvent 1)],
      request.ReadsBack :=
    List.forall_mem_cons.mpr ⟨callSame, List.forall_mem_singleton.mpr nofun⟩
  have saves : ∃ exchange ∈ ((freshStore "default").session
      [.call labelledCreation, .reopen, .call (.getEvent 1)]).exchanges, exchange.savesState = true := by
    rw [session]
    exact ⟨_, List.mem_cons_self, by decide⟩
  obtain ⟨loaded, isLoaded, answered⟩ := reopening_unobservable opens empty bothSame room fine
  have isEmpty : loaded = .empty := (Except.ok.inj isLoaded).symm
  subst isEmpty
  obtain ⟨last, isSession, _, _, held⟩ := answered _ List.prefix_rfl
  exact ⟨opens, room, callSame, last, isSession, held saves⟩

end DocumentStore

end DesiredState
