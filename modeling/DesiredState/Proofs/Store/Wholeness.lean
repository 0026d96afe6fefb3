import DesiredState.Proofs.Store.Document
import DesiredState.Proofs.Store.Encoding

/-!
# A document is never torn

At every moment of a run the document of a store is what it was at first, or the whole text of the state
after the last save that succeeded. It can be loaded at every moment if it could be loaded at first and
the states that are saved are not nested deeper than a text may be.

All this is about disks without links (`Node`). Through a link from the place of the temporary file to the
document, every write of the one would be a write of the other.
-/

set_option autoImplicit false

namespace DesiredState

namespace DocumentStore

open StateDocument (load text)

variable {store : DocumentStore}

private theorem savedStates_append (first second : List HandleAction) :
    store.savedStates (first ++ second) =
      store.savedStates first ++ (store.performAll first).savedStates second := by
  induction first generalizing store with
  | nil => rfl
  | cons action rest ih =>
      rw [List.cons_append, savedStates, savedStates, ih, List.append_assoc]
      rfl

/-- What was there at first and what was saved can be loaded. -/
theorem load_of_contentAfter {disk : Disk} {saved : List StoreState}
    (found : disk.find? store.documentPath = contentAfter store.document? saved)
    (loaded : ∃ state, load store.disk store.home store.name = .ok state)
    (legible : ∀ state ∈ saved, state.Legible) : ∃ state, load disk store.home store.name = .ok state := by
  unfold contentAfter at found
  cases last : saved.getLast? with
  | none =>
      rw [last] at found
      exact StateDocument.load_congr found ▸ loaded
  | some state =>
      rw [last] at found
      obtain ⟨again, isRead⟩ := StateDocument.ofText?_of_legible (legible state (List.mem_of_getLast? last))
      exact ⟨again, StateDocument.load_of_text found isRead⟩

private theorem mem_dropLast_or_getLast? {α : Type} {items : List α} {item : α} (member : item ∈ items) :
    item ∈ items.dropLast ∨ item ∈ items.getLast? := by
  rcases List.eq_nil_or_concat' items with rfl | ⟨front, last, rfl⟩
  · cases member
  · rw [List.dropLast_concat, List.getLast?_concat]
    exact (List.mem_append.mp member).imp_right fun isLast => congrArg some (List.mem_singleton.mp isLast).symm

/-- At every moment of a run the document is whole: what it was at first or the text of a saved state, and
up to the last step of an action it is what it was before. So it can be loaded at every moment. -/
theorem document_never_torn (anchored : store.Anchored) (actions : List HandleAction) (next : HandleAction) :
    (∀ moment ∈ (next.moments (store.performAll actions)).dropLast,
      moment.find? store.documentPath = contentAfter store.document? (store.savedStates actions)) ∧
    (∀ moment ∈ (next.moments (store.performAll actions)).getLast?,
      moment.find? store.documentPath =
        contentAfter store.document? (store.savedStates (actions ++ [next]))) ∧
    ((∃ state, load store.disk store.home store.name = .ok state) →
      (∀ saved ∈ store.savedStates (actions ++ [next]), saved.Legible) →
      ∀ moment ∈ next.moments (store.performAll actions),
        ∃ state, load moment store.home store.name = .ok state) := by
  obtain ⟨during, afterwards⟩ := document_whole anchored actions next
  refine ⟨during, afterwards, fun loaded legible moment member => ?_⟩
  rcases mem_dropLast_or_getLast? member with early | last
  · refine load_of_contentAfter (during moment early) loaded fun saved earlier => legible saved ?_
    rw [savedStates_append]
    exact List.mem_append_left _ earlier
  · exact load_of_contentAfter (afterwards moment last) loaded legible

private theorem not_loaded_of_saved (anchored : store.Anchored) {action : HandleAction} {state : StoreState}
    (saved : action.savedState? store = some state) (unread : StateDocument.ofText? (text state) = none) :
    (load (action.perform store).disk store.home store.name).isOk = false := by
  have step := HandleAction.step anchored action
  have found : (action.perform store).disk.find? (StateDocument.path store.home store.name) =
      some (.file (text state)) := by
    have content := step.document
    rw [document?, step.samePath, saved] at content
    exact content
  rw [StateDocument.load_eq, found]
  simp only [unread]
  rfl

def creation (attributes : Attributes) : HandleAction := .call (.create ⟨"firewall", none⟩ attributes)

/-- Lists in lists, one more than the given number. -/
def nested : Nat → Value
  | 0 => .list []
  | depth + 1 => .list [nested depth]

/-- Attributes that are nested one level deeper than can be read. -/
def deepAttributes : Attributes := .ofList [("tags", nested 123)]

/-- An empty store on an empty disk that breaks off the fifth step, which is the write of the second save. -/
def interruptedStore : DocumentStore :=
  { freshStore "default" with
    disk := { Disk.empty with mishap := fun step => if step = 4 then .torn 10 else .none } }

/-- Two creations of a firewall, of which the second cannot be saved. A part of its text is left in the
temporary file, and the document is loaded all the same. -/
theorem document_never_torn_creations :
    let interrupted := (creation ∅).moments (interruptedStore.performAll [creation ∅])
    let unsaved := text (interruptedStore.performAll [creation ∅, creation ∅]).memory.state
    interruptedStore.Anchored ∧
      (∀ saved ∈ interruptedStore.savedStates [creation ∅, creation ∅], saved.Legible) ∧
      (creation ∅).savedState? (interruptedStore.performAll [creation ∅]) = none ∧
      interrupted.map (·.read? (StateDocument.temporaryPath interruptedStore.documentPath)) =
        [none, none, some (String.ofList (unsaved.toList.take 10))] ∧
      (∀ moment ∈ interrupted, moment.find? interruptedStore.documentPath =
        contentAfter none (interruptedStore.savedStates [creation ∅])) ∧
      ∀ moment ∈ interrupted, ∃ state, load moment [] "default" = .ok state := by
  intro interrupted unsaved
  have anchored : interruptedStore.Anchored := anchored_of_down (by decide)
  have legible : ∀ saved ∈ interruptedStore.savedStates [creation ∅, creation ∅], saved.Legible := by
    decide
  have notSaved : (creation ∅).savedState? (interruptedStore.performAll [creation ∅]) = none := rfl
  obtain ⟨during, afterwards, loads⟩ := document_never_torn anchored [creation ∅] (creation ∅)
  refine ⟨anchored, legible, notSaved, ?_, fun moment member => ?_, loads ⟨.empty, rfl⟩ legible⟩
  · rfl
  · rcases mem_dropLast_or_getLast? member with early | last
    · exact during moment early
    · have nothingSaved : (interruptedStore.performAll [creation ∅]).savedStates [creation ∅] = [] := by
        rw [savedStates, notSaved]
        rfl
      have afterSave := afterwards moment last
      rwa [savedStates_append, nothingSaved, List.append_nil] at afterSave

/-- A name that leads back up through the place of the document makes a directory there, and attributes
that are nested too deep make a document that cannot be read. -/
theorem document_not_always_loaded :
    ((load Disk.empty [] "default.json/../default").isOk = true ∧
      (load ((creation ∅).perform (freshStore "default.json/../default")).disk []
        "default.json/../default").isOk = false) ∧
    (load Disk.empty [] "default").isOk = true ∧
      (load ((creation deepAttributes).perform (freshStore "default")).disk []
        "default").isOk = false := by
  refine ⟨⟨rfl, rfl⟩, rfl, ?_⟩
  have anchored : (freshStore "default").Anchored := anchored_of_down (by decide)
  have saved : (creation deepAttributes).savedState? (freshStore "default") =
      some ((creation deepAttributes).perform (freshStore "default")).memory.state := rfl
  refine not_loaded_of_saved anchored saved ?_
  rw [StateDocument.ofText?_eq, ← Option.isNone_iff_eq_none]
  decide +kernel

end DocumentStore

end DesiredState
