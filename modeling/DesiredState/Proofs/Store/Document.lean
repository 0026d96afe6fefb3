import DesiredState.Proofs.Store.RemoteCall
import DesiredState.Proofs.Store.Saving

/-!
# The document of a store

Whatever is done with a store on disk, whichever steps of the disk go wrong and wherever it breaks
off, its document is what it was at first or the text of the state after the last save that succeeded.
-/

set_option autoImplicit false

namespace DesiredState

namespace StateDocument

/-- What is loaded is what is found at the path of the document. -/
theorem load_eq (disk : Disk) (home : Path) (name : String) :
    load disk home name =
      match disk.find? (path home name) with
      | none => .ok .empty
      | some (.directory _) => .error (.io (pathText "~" name))
      | some (.file text) =>
          match ofText? text with
          | some state => .ok state
          | none => .error (.malformed (pathText "~" name)) := by
  cases found : disk.find? (path home name) with
  | none => simp [load, Disk.contains, found]
  | some node =>
      cases node with
      | directory entries => simp [load, Disk.contains, Disk.read?, found]
      | file text =>
          simp only [load, Disk.contains, Disk.read?, found]
          rfl

theorem load_congr {before after : Disk} {home : Path} {name : String}
    (same : after.find? (path home name) = before.find? (path home name)) :
    load after home name = load before home name := by
  rw [load_eq, load_eq, same]

theorem load_of_text {disk : Disk} {home : Path} {name : String} {state : StoreState}
    (found : disk.find? (path home name) = some (.file (text state))) {read : StoreState}
    (legible : ofText? (text state) = some read) : load disk home name = .ok read := by
  rw [load_eq, found]
  simp only [legible]

end StateDocument

/-- What is done with a store on disk: a call, a save by itself, or something that is done to its
memory alone. -/
inductive HandleAction where
  | call (call : RemoteCall)
  | save
  | prepare (action : StoreAction)

namespace DocumentStore

def documentPath (store : DocumentStore) : Path := StateDocument.path store.home store.name

/-- What is found at the path of the document. -/
def document? (store : DocumentStore) : Option Node := store.disk.find? store.documentPath

/-- The way to the document does not lead back up, or its directory is there. -/
def Anchored (store : DocumentStore) : Prop := store.disk.Anchored store.documentPath.parent

/-- An empty store under a name, on an empty disk. -/
def freshStore (name : String) : DocumentStore := ⟨[], name, .ofState .empty (.stopped .epoch), .empty⟩

theorem anchored_of_down {store : DocumentStore} (down : ".." ∉ store.documentPath.parent) :
    store.Anchored := fun up => absurd up down

end DocumentStore

namespace HandleAction

open StateDocument (saveStages text)

def perform (store : DocumentStore) : HandleAction → DocumentStore
  | .call request => (request.perform DocumentStore.remote store).2
  | .save => store.save.2
  | .prepare action => { store with memory := action.perform store.memory }

/-- The state that is saved, if that is tried and succeeds. -/
def savedState? (store : DocumentStore) : HandleAction → Option StoreState
  | .call request =>
      match request.perform DocumentStore.remote store with
      | (exchange, after) => if exchange.savesState then some after.memory.state else none
  | .save => if store.save.1.isOk then some store.memory.state else none
  | .prepare _ => none

/-- The disk before an action and after each of its steps. -/
def moments (store : DocumentStore) : HandleAction → List Disk
  | .call request =>
      match request.perform MemoryStore.remote store.memory with
      | (exchange, memory) =>
          if exchange.savesState then
            store.disk :: saveStages store.disk store.home store.name memory.state
          else [store.disk]
  | .save => store.disk :: saveStages store.disk store.home store.name store.memory.state
  | .prepare _ => [store.disk]

/-- What one action does to the document. -/
structure Step (store : DocumentStore) (action : HandleAction) : Prop where
  samePath : (action.perform store).documentPath = store.documentPath
  anchored : (action.perform store).Anchored
  last : (action.moments store).getLast? = some (action.perform store).disk
  untouched : ∀ moment ∈ (action.moments store).dropLast,
    moment.find? store.documentPath = store.document?
  document : (action.perform store).document? =
    match action.savedState? store with
    | some state => some (.file (text state))
    | none => store.document?

/-- The disk before a save and after each of its steps. -/
theorem moments_save {disk : Disk} {home : Path} {name : String}
    (anchored : disk.Anchored (StateDocument.path home name).parent) (state : StoreState) :
    (disk :: saveStages disk home name state).getLast? = some (StateDocument.save disk home name state).2 ∧
      ∀ moment ∈ (disk :: saveStages disk home name state).dropLast,
        moment.find? (StateDocument.path home name) = disk.find? (StateDocument.path home name) := by
  have last := StateDocument.getLast?_saveStages disk home name state
  have course := StateDocument.course_save anchored state
  cases stages : saveStages disk home name state with
  | nil =>
      rw [stages] at last
      cases last
  | cons first rest =>
      rw [stages] at last course
      refine ⟨by rw [List.getLast?_cons_cons, last], ?_⟩
      rw [List.dropLast_cons_of_ne_nil (List.cons_ne_nil first rest)]
      intro moment member
      rcases List.mem_cons.mp member with rfl | later
      · rfl
      · exact course.untouched moment later

private theorem anchored_save {disk : Disk} {home : Path} {name : String} {state : StoreState}
    (anchored : disk.Anchored (StateDocument.path home name).parent) :
    (StateDocument.save disk home name state).2.Anchored (StateDocument.path home name).parent :=
  (StateDocument.course_save anchored state).anchored _
    (List.mem_of_getLast? (StateDocument.getLast?_saveStages disk home name state))

theorem step {store : DocumentStore} (anchored : store.Anchored) (action : HandleAction) :
    Step store action := by
  cases action with
  | prepare action => exact ⟨rfl, anchored, rfl, by simp [moments], rfl⟩
  | save =>
      obtain ⟨last, untouched⟩ := moments_save anchored store.memory.state
      refine ⟨rfl, anchored_save anchored, last, untouched, ?_⟩
      refine (StateDocument.course_save anchored store.memory.state).found.trans ?_
      rw [savedState?]
      have result : store.save.1 =
          (StateDocument.save store.disk store.home store.name store.memory.state).1 := rfl
      rw [result]
      cases (StateDocument.save store.disk store.home store.name store.memory.state).1 <;> rfl
  | call request =>
      cases ran : request.perform MemoryStore.remote store.memory with
      | mk exchange memory =>
          have performed := store.perform_remote request
          rw [ran] at performed
          cases saves : exchange.savesState with
          | false =>
              rw [DocumentStore.afterExchange_of_not_savesState saves] at performed
              constructor
              · rw [perform, performed]
                rfl
              · rw [perform, performed]
                exact anchored
              · rw [moments, perform, ran, performed]
                simp only [saves]
                rfl
              · simp [moments, ran, saves]
              · rw [perform, savedState?, performed]
                simp only [saves]
                rfl
          | true =>
              obtain ⟨after, succeeded⟩ := DocumentStore.afterExchange_of_savesState saves store memory
              obtain ⟨last, untouched⟩ := moments_save anchored memory.state
              have isMoments : moments store (.call request) =
                  store.disk :: saveStages store.disk store.home store.name memory.state := by
                simp only [moments, ran, saves, if_true]
              constructor
              · rw [perform, performed, after]
                rfl
              · rw [perform, performed, after]
                exact anchored_save anchored
              · rw [perform, performed, after, isMoments]
                exact last
              · rw [isMoments]
                exact untouched
              · rw [perform, savedState?, performed, after]
                refine (StateDocument.course_save anchored memory.state).found.trans ?_
                simp only [succeeded, after]
                cases (StateDocument.save store.disk store.home store.name memory.state).1.isOk <;> rfl

end HandleAction

/-! ## Runs -/

namespace DocumentStore

open StateDocument (text)

def performAll (store : DocumentStore) (actions : List HandleAction) : DocumentStore :=
  actions.foldl HandleAction.perform store

/-- The states that the saves among some actions succeed in saving, oldest first. -/
def savedStates (store : DocumentStore) : List HandleAction → List StoreState
  | [] => []
  | action :: rest => (action.savedState? store).toList ++ (action.perform store).savedStates rest

/-- What is at the path of a document after some states were saved there. -/
def contentAfter (first : Option Node) (saved : List StoreState) : Option Node :=
  match saved.getLast? with
  | some state => some (.file (text state))
  | none => first

private theorem contentAfter_append (first : Option Node) (earlier later : List StoreState) :
    contentAfter first (earlier ++ later) = contentAfter (contentAfter first earlier) later := by
  rw [contentAfter, contentAfter, List.getLast?_append]
  cases later.getLast? with
  | none => rfl
  | some state => rfl

variable {store : DocumentStore}

private theorem performAll_concat (actions : List HandleAction) (next : HandleAction) :
    store.performAll (actions ++ [next]) = next.perform (store.performAll actions) :=
  List.foldl_append

/-- After a run there is at the path of the document what was there at first, or the text of the state
that was saved last. -/
theorem document?_performAll (anchored : store.Anchored) (actions : List HandleAction) :
    (store.performAll actions).documentPath = store.documentPath ∧ (store.performAll actions).Anchored ∧
      (store.performAll actions).document? = contentAfter store.document? (store.savedStates actions) := by
  induction actions generalizing store with
  | nil => exact ⟨rfl, anchored, rfl⟩
  | cons action rest ih =>
      have step := HandleAction.step anchored action
      obtain ⟨samePath, stillAnchored, content⟩ := ih step.anchored
      refine ⟨samePath.trans step.samePath, stillAnchored, content.trans ?_⟩
      rw [savedStates, contentAfter_append, step.document]
      cases action.savedState? store <;> rfl

/-- While an action is under way the document is what it was before, up to the last step. -/
theorem document_whole (anchored : store.Anchored) (actions : List HandleAction) (next : HandleAction) :
    (∀ moment ∈ (next.moments (store.performAll actions)).dropLast,
      moment.find? store.documentPath = contentAfter store.document? (store.savedStates actions)) ∧
    ∀ moment ∈ (next.moments (store.performAll actions)).getLast?,
      moment.find? store.documentPath =
        contentAfter store.document? (store.savedStates (actions ++ [next])) := by
  obtain ⟨samePath, stillAnchored, content⟩ := document?_performAll anchored actions
  have step := HandleAction.step stillAnchored next
  constructor
  · intro moment member
    rw [← content, ← samePath]
    exact step.untouched moment member
  · intro moment last
    obtain ⟨pathAfter, _, contentAfterwards⟩ := document?_performAll anchored (actions ++ [next])
    rw [step.last, Option.mem_some_iff] at last
    rw [← contentAfterwards, document?, pathAfter, performAll_concat, last]

end DocumentStore

end DesiredState
