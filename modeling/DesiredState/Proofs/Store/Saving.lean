import DesiredState.Proofs.Disk.File
import DesiredState.Store.Document

/-!
# Saving a document

A document and its temporary file stand side by side in one directory. Of all the steps of a save
only the renaming changes what is found at the path of the document, and it changes it all at once,
whatever becomes of the other steps. So a save that fails or breaks off leaves the document as it was.
-/

set_option autoImplicit false

namespace DesiredState

namespace StateDocument

/-! ## Names -/

private theorem splitOn_append {separator : Char} {ending : List Char} (unsplit : separator ∉ ending)
    (text : List Char) :
    ∃ front last, (text ++ ending).splitOn separator = front ++ [last ++ ending] := by
  induction text with
  | nil => exact ⟨[], [], List.splitOn_eq_singleton unsplit⟩
  | cons first rest ih =>
      obtain ⟨front, last, split⟩ := ih
      rw [List.cons_append, List.splitOn_cons_eq_if_modifyHead, split]
      split
      · exact ⟨[] :: front, last, rfl⟩
      · cases front with
        | nil => exact ⟨[], first :: last, rfl⟩
        | cons head more => exact ⟨(first :: head) :: more, last, rfl⟩

private theorem isStep_of_length {name : String} (long : 3 ≤ name.toList.length) : Path.IsStep name := by
  constructor
  · rw [Path.stays, Bool.or_eq_false_iff, beq_eq_false_iff_ne, beq_eq_false_iff_ne]
    constructor <;> rintro rfl <;> simp at long
  · rintro rfl
    simp at long

/-- A document and its temporary file have different names in one directory. -/
structure Placed (document directory : Path) (file temporary : String) : Prop where
  document_eq : document = directory ++ [file]
  parent_eq : document.parent = directory
  temporary_eq : temporaryPath document = directory ++ [temporary]
  step : Path.IsStep file
  temporaryStep : Path.IsStep temporary ∨ temporary = ".."
  different : temporary ≠ file

private theorem temporaryName_cases {file : String} (long : 5 ≤ file.toList.length) :
    (Path.IsStep (temporaryName file) ∨ temporaryName file = "..") ∧ temporaryName file ≠ file := by
  rw [temporaryName]
  by_cases extension : file = ".json"
  · subst extension
    exact ⟨.inl (isStep_of_length (by decide)), by decide⟩
  · rw [if_neg (by simpa using extension)]
    by_cases point : file = "..json"
    · subst point
      exact ⟨.inr rfl, by decide⟩
    · rw [if_neg (by simpa using point)]
      have longer : (file ++ ".tmp").toList.length = file.toList.length + 4 := by simp
      refine ⟨.inl (isStep_of_length (by omega)), fun same => ?_⟩
      rw [same] at longer
      omega

private theorem placed_append {directory : Path} {file : String} (long : 5 ≤ file.toList.length) :
    Placed (directory ++ [file]) directory file (temporaryName file) where
  document_eq := rfl
  parent_eq := by
    have leaves := (isStep_of_length (Nat.le_trans (by decide) long)).leaves
    rw [Path.parent, List.reverse_append, List.reverse_singleton, List.singleton_append,
      List.dropWhile_cons, leaves, if_neg Bool.false_ne_true, List.tail_cons, List.reverse_reverse]
  temporary_eq := by
    rw [temporaryPath, List.dropLast_concat, List.getLast?_concat]
    rfl
  step := isStep_of_length (Nat.le_trans (by decide) long)
  temporaryStep := (temporaryName_cases long).1
  different := (temporaryName_cases long).2

/-- Whatever the name of a state is, its document has a name of its own in a directory. -/
theorem placed_path (home : Path) (name : String) :
    ∃ directory file temporary, Placed (path home name) directory file temporary := by
  obtain ⟨front, last, split⟩ := splitOn_append (show '/' ∉ ".json".toList by decide) name.toList
  have names : Path.names (name ++ ".json") =
      front.map String.ofList ++ [String.ofList (last ++ ".json".toList)] := by
    rw [Path.names, String.toList_append, split, List.map_append]
    rfl
  have long : 5 ≤ (String.ofList (last ++ ".json".toList)).toList.length := by simp
  rw [path, Path.locate, names]
  split
  · exact ⟨_, _, _, placed_append long⟩
  · rw [← List.append_assoc]
    exact ⟨_, _, _, placed_append long⟩

/-! ## The steps of a save -/

/-- The disk after each step of a save that is made, oldest first. -/
def saveStages (disk : Disk) (home : Path) (name : String) (state : StoreState) : List Disk :=
  let path := path home name
  let temporary := temporaryPath path
  match disk.makeDirectory path.parent with
  | (false, made) => [made]
  | (true, made) =>
      match made.write temporary (text state) with
      | (false, written) => [made, written]
      | (true, written) =>
          match written.rename temporary path with
          | (true, renamed) => [made, written, renamed]
          | (false, renamed) => [made, written, renamed, (renamed.remove temporary).2]

theorem getLast?_saveStages (disk : Disk) (home : Path) (name : String) (state : StoreState) :
    (saveStages disk home name state).getLast? = some (save disk home name state).2 := by
  rw [saveStages, save]
  cases disk.makeDirectory (path home name).parent with
  | mk succeeded made =>
      cases succeeded with
      | false => rfl
      | true =>
          dsimp only
          cases made.write (temporaryPath (path home name)) (text state) with
          | mk succeeded written =>
              cases succeeded with
              | false => rfl
              | true =>
                  dsimp only
                  cases written.rename (temporaryPath (path home name)) (path home name) with
                  | mk succeeded renamed => cases succeeded <;> rfl

private theorem isStep_of_write {document directory : Path} {file temporary text : String}
    (placed : Placed document directory file temporary) {made written : Disk}
    (writing : made.write (directory ++ [temporary]) text = (true, written)) : Path.IsStep temporary := by
  refine placed.temporaryStep.resolve_right ?_
  rintro rfl
  have failed := made.write_up directory text
  rw [writing] at failed
  cases failed

/-- A temporary file that was written and put in the place of its document is found there. -/
theorem find?_swapped {document directory : Path} {file temporary text : String}
    (placed : Placed document directory file temporary) {made written renamed : Disk}
    (writing : made.write (directory ++ [temporary]) text = (true, written))
    (swapping : written.rename (directory ++ [temporary]) (directory ++ [file]) = (true, renamed)) :
    Disk.SameDirectories written renamed ∧ renamed.find? (directory ++ [file]) = some (.file text) := by
  have step := isStep_of_write placed writing
  have read := Disk.read?_write step (congrArg Prod.fst writing)
  rw [writing] at read
  have swapped := Disk.find?_rename placed.step step (congrArg Prod.fst swapping) read
  rwa [swapping] at swapped

/-- After a save that succeeded the text of the state is at the path of the document. -/
theorem find?_save {disk : Disk} {home : Path} {name : String} {state : StoreState}
    (succeeded : (save disk home name state).1.isOk = true) :
    (save disk home name state).2.find? (path home name) = some (.file (text state)) := by
  obtain ⟨directory, file, temporary, placed⟩ := placed_path home name
  rw [save, placed.temporary_eq, placed.parent_eq, placed.document_eq] at succeeded ⊢
  cases making : disk.makeDirectory directory with
  | mk made afterMaking =>
      cases made with
      | false =>
          rw [making] at succeeded
          cases succeeded
      | true =>
          rw [making] at succeeded
          dsimp only at succeeded ⊢
          cases writing : afterMaking.write (directory ++ [temporary]) (text state) with
          | mk written afterWriting =>
              cases written with
              | false =>
                  rw [writing] at succeeded
                  cases succeeded
              | true =>
                  rw [writing] at succeeded
                  dsimp only at succeeded ⊢
                  cases swapping : afterWriting.rename (directory ++ [temporary]) (directory ++ [file]) with
                  | mk renamed afterRenaming =>
                      cases renamed with
                      | false =>
                          rw [swapping] at succeeded
                          cases succeeded
                      | true => exact (find?_swapped placed writing swapping).2

/-- What a save does to its document, given the disks after its steps, its result and the disk that
it leaves behind. -/
structure Course (document : Path) (state : StoreState) (before : Disk) (stages : List Disk)
    (result : Except DocumentError Unit) (after : Disk) : Prop where
  untouched : ∀ stage ∈ stages.dropLast, stage.find? document = before.find? document
  found : after.find? document =
    if result.isOk then some (.file (text state)) else before.find? document
  anchored : ∀ stage ∈ stages, stage.Anchored document.parent

theorem course_save {disk : Disk} {home : Path} {name : String}
    (anchored : disk.Anchored (path home name).parent) (state : StoreState) :
    Course (path home name) state disk (saveStages disk home name state)
      (save disk home name state).1 (save disk home name state).2 := by
  obtain ⟨directory, file, temporary, placed⟩ := placed_path home name
  have isParent := placed.parent_eq
  rw [saveStages, save, placed.temporary_eq, placed.parent_eq, placed.document_eq]
  rw [placed.parent_eq] at anchored
  rw [placed.document_eq] at isParent
  have madeFinds := Disk.find?_makeDirectory placed.step anchored
  have madeAnchored := Disk.anchored_makeDirectory anchored
  cases making : disk.makeDirectory directory with
  | mk succeeded made =>
      rw [making] at madeFinds madeAnchored
      cases succeeded with
      | false => exact ⟨by simp, madeFinds, by simpa [isParent] using madeAnchored⟩
      | true =>
          dsimp only at madeFinds madeAnchored ⊢
          have wrote := made.changedAtMost_write directory placed.temporaryStep (text state)
          have writtenFinds := (wrote.find?_sibling placed.step placed.different).trans madeFinds
          have writtenAnchored := wrote.sameDirectories.anchored madeAnchored
          cases writing : made.write (directory ++ [temporary]) (text state) with
          | mk succeeded written =>
              rw [writing] at writtenFinds writtenAnchored
              cases succeeded with
              | false =>
                  exact ⟨by simpa using madeFinds, writtenFinds,
                    by simpa [isParent] using ⟨madeAnchored, writtenAnchored⟩⟩
              | true =>
                  dsimp only at writtenFinds writtenAnchored ⊢
                  cases swapping : written.rename (directory ++ [temporary]) (directory ++ [file]) with
                  | mk succeeded renamed =>
                      cases succeeded with
                      | true =>
                          obtain ⟨same, found⟩ := find?_swapped placed writing swapping
                          have renamedAnchored := same.anchored writtenAnchored
                          exact ⟨by simpa using ⟨madeFinds, writtenFinds⟩, found,
                            by simpa [isParent] using ⟨madeAnchored, writtenAnchored, renamedAnchored⟩⟩
                      | false =>
                          have same := Disk.root_rename_of_failed (congrArg Prod.fst swapping)
                          rw [swapping] at same
                          have renamedFinds := (Disk.find?_of_root same _).trans writtenFinds
                          have renamedAnchored := (Disk.SameDirectories.of_root same).anchored writtenAnchored
                          have removed := renamed.changedAtMost_remove directory (isStep_of_write placed writing)
                          have removedFinds := (removed.find?_sibling placed.step placed.different).trans renamedFinds
                          have removedAnchored := removed.sameDirectories.anchored renamedAnchored
                          exact ⟨by simpa using ⟨madeFinds, writtenFinds, renamedFinds⟩, removedFinds,
                            by simpa [isParent] using
                              ⟨madeAnchored, writtenAnchored, renamedAnchored, removedAnchored⟩⟩

end StateDocument

end DesiredState
