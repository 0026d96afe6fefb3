import DesiredState.Proofs.Disk.Walk

/-!
# Writing, renaming and removing files

What each step does to the file that it is about, and that the files beside it are found as before,
whether the step succeeds, is refused or stops half way.
-/

set_option autoImplicit false

namespace DesiredState

namespace Disk

variable {disk before after : Disk}

private theorem LeafChanged.of_root {place : Path} {middle : Disk} (changed : LeafChanged place before middle)
    (same : after.root = middle.root) : LeafChanged place before after := by
  have found : ∀ other, after.nodeAt? other = middle.nodeAt? other := fun other =>
    congrArg (Node.find? other) same
  constructor
  · exact changed.wasLeaf
  · exact (SameDirectories.of_root same place).trans changed.isLeaf
  · intro other rest isPlace proper
    exact (SameDirectories.of_root same other).trans (changed.above other rest isPlace proper)
  · intro other notBelow notAbove
    exact (found other).trans (changed.beside other notBelow notAbove)

/-- At most the file with a name in a directory changed. -/
def ChangedAtMost (directory : Path) (name : String) (before after : Disk) : Prop :=
  after.root = before.root ∨
    ∃ front, before.walk? [] directory = some front ∧ LeafChanged (front ++ [name]) before after

namespace ChangedAtMost

variable {directory : Path} {name other : String}

theorem sameDirectories (changed : ChangedAtMost directory name before after) :
    SameDirectories before after := by
  rcases changed with same | ⟨front, _, changed⟩
  · exact .of_root same
  · exact changed.sameDirectories

theorem find?_sibling (changed : ChangedAtMost directory other before after) (step : Path.IsStep name)
    (different : other ≠ name) : after.find? (directory ++ [name]) = before.find? (directory ++ [name]) := by
  rcases changed with same | ⟨front, walked, changed⟩
  · exact find?_of_root same _
  · exact changed.find?_sibling step walked different

end ChangedAtMost

private theorem filePlace?_of_root (same : after.root = before.root) (path : Path) :
    after.filePlace? path = before.filePlace? path := by
  rw [filePlace?, filePlace?, (SameDirectories.of_root same).resolve?]
  cases before.resolve? path with
  | none => rfl
  | some place => simp only [SameDirectories.of_root same place]

theorem read?_eq_some {path : Path} {text : String} : disk.read? path = some text ↔
    disk.find? path = some (.file text) := by
  unfold read?
  split
  · rename_i found
    rw [found]
    simp
  · rename_i notFile
    constructor
    · exact fun isRead => by cases isRead
    · exact fun found => (notFile text found).elim

/-- What a write does to the disk: nothing, or it puts a text at the place of the file. -/
theorem write_cases (disk : Disk) (path : Path) (text : String) :
    (disk.write path text).1 = false ∧ (disk.write path text).2.root = disk.root ∨
      ∃ place content, disk.filePlace? path = some place ∧
        (disk.write path text).2.root = (disk.put place (.file content)).root ∧
        ((disk.write path text).1 = true → content = text) := by
  unfold write
  split
  rename_i mishap counted counting
  have same := root_of_nextStep counting
  rw [← filePlace?_of_root same path]
  split
  · rename_i place found
    exact .inr ⟨place, text, found, by simp only [put, same], fun _ => rfl⟩
  · rename_i place kept found
    exact .inr ⟨place, String.ofList (text.toList.take kept), found, by simp only [put, same],
      fun succeeded => absurd succeeded Bool.false_ne_true⟩
  · exact .inl ⟨rfl, same⟩

theorem changedAtMost_write (disk : Disk) (directory : Path) {name : String} (step : Path.IsStep name ∨ name = "..")
    (text : String) : ChangedAtMost directory name disk (disk.write (directory ++ [name]) text).2 := by
  rcases write_cases disk (directory ++ [name]) text with ⟨_, same⟩ | ⟨place, content, found, written, _⟩
  · exact .inl same
  · rcases step with step | rfl
    · obtain ⟨resolved, leaf⟩ := filePlace?_eq_some found
      obtain ⟨front, walked, isDir, rfl⟩ := resolve?_snoc step resolved
      exact .inr ⟨front, walked, (leafChanged_put isDir leaf content).of_root written⟩
    · rw [filePlace?_up] at found
      cases found

theorem write_up (disk : Disk) (directory : Path) (text : String) : (disk.write (directory ++ [".."]) text).1 = false := by
  rcases write_cases disk (directory ++ [".."]) text with ⟨failed, _⟩ | ⟨place, _, found, _⟩
  · exact failed
  · rw [filePlace?_up] at found
    cases found

/-- A written file can be read back. -/
theorem read?_write {directory : Path} {name text : String} (step : Path.IsStep name)
    (succeeded : (disk.write (directory ++ [name]) text).1 = true) :
    (disk.write (directory ++ [name]) text).2.read? (directory ++ [name]) = some text := by
  rcases write_cases disk (directory ++ [name]) text with ⟨failed, _⟩ | ⟨place, content, found, written, whole⟩
  · rw [failed] at succeeded
    cases succeeded
  · cases whole succeeded
    have same := (disk.changedAtMost_write directory (.inl step) text).sameDirectories
    obtain ⟨resolved, _⟩ := filePlace?_eq_some found
    obtain ⟨front, _, isDir, rfl⟩ := resolve?_snoc step resolved
    obtain ⟨entries, atFront⟩ := isDirectory_iff.mp isDir
    have placed := Node.find?_put_self (.file text) name atFront []
    rw [List.append_nil] at placed
    rw [read?_eq_some, find?, same.resolve?, resolved, Option.bind_some, nodeAt?, written]
    exact placed

private theorem rename_cases (disk : Disk) (source target : Path) :
    (disk.rename source target).1 = false ∧ (disk.rename source target).2.root = disk.root ∨
      (disk.rename source target).1 = true ∧
      ∃ old text new, disk.resolve? source = some old ∧ disk.read? source = some text ∧
        disk.filePlace? target = some new ∧
        (disk.rename source target).2.root = ((disk.drop old).put new (.file text)).root := by
  have counted : disk.nextStep.2.root = disk.root := rfl
  have found := find?_of_root counted
  have resolved := (SameDirectories.of_root counted).resolve?
  have placed := filePlace?_of_root counted
  unfold rename
  split
  · rename_i counted counting
    rw [counting] at found resolved placed
    have same : counted.root = disk.root := root_of_nextStep counting
    split
    · rename_i old text new isOld isText isNew
      refine .inr ⟨rfl, old, text, new, (resolved source).symm.trans isOld, ?_, (placed target).symm.trans isNew, ?_⟩
      · rw [read?_eq_some] at isText ⊢
        exact (found source).symm.trans isText
      · simp only [put, drop, same]
    · exact .inl ⟨rfl, same⟩
  · rename_i counted _ counting
    exact .inl ⟨rfl, root_of_nextStep counting⟩

theorem root_rename_of_failed {source target : Path} (failed : (disk.rename source target).1 = false) :
    (disk.rename source target).2.root = disk.root := by
  rcases rename_cases disk source target with ⟨_, same⟩ | ⟨succeeded, _⟩
  · exact same
  · rw [failed] at succeeded
    cases succeeded

private theorem isDirectory_of_read? {path place : Path} {text : String}
    (resolved : disk.resolve? path = some place)
    (read : disk.read? path = some text) : disk.isDirectory place = false := by
  rw [read?_eq_some, find?, resolved, Option.bind_some] at read
  rw [isDirectory, read]
  rfl

/-- A renamed file is found under its new name, beside the old one, with what it held. -/
theorem find?_rename {directory : Path} {name other text : String} (step : Path.IsStep name)
    (otherStep : Path.IsStep other)
    (succeeded : (disk.rename (directory ++ [other]) (directory ++ [name])).1 = true)
    (read : disk.read? (directory ++ [other]) = some text) :
    SameDirectories disk (disk.rename (directory ++ [other]) (directory ++ [name])).2 ∧
      (disk.rename (directory ++ [other]) (directory ++ [name])).2.find? (directory ++ [name]) =
        some (.file text) := by
  rcases rename_cases disk (directory ++ [other]) (directory ++ [name]) with
    ⟨failed, _⟩ | ⟨_, old, content, new, isOld, readAgain, isNew, renamed⟩
  · rw [failed] at succeeded
    cases succeeded
  · cases read.symm.trans readAgain
    have oldLeaf := isDirectory_of_read? isOld read
    obtain ⟨resolved, newLeaf⟩ := filePlace?_eq_some isNew
    obtain ⟨front, walked, isDir, rfl⟩ := resolve?_snoc step resolved
    obtain ⟨_, walkedAgain, _, rfl⟩ := resolve?_snoc otherStep isOld
    cases walked.symm.trans walkedAgain
    have dropped := (leafChanged_drop isDir oldLeaf).sameDirectories
    have stillDir := (dropped front).trans isDir
    have put := (leafChanged_put stillDir ((dropped _).trans newLeaf) text).of_root renamed
    have same := dropped.trans put.sameDirectories
    refine ⟨same, ?_⟩
    obtain ⟨entries, atFront⟩ := isDirectory_iff.mp stillDir
    have placed := Node.find?_put_self (.file text) name atFront []
    rw [List.append_nil] at placed
    rw [find?, same.resolve?, resolved, Option.bind_some, nodeAt?, renamed]
    exact placed

theorem changedAtMost_remove (disk : Disk) (directory : Path) {name : String} (step : Path.IsStep name) :
    ChangedAtMost directory name disk (disk.remove (directory ++ [name])).2 := by
  have counted : disk.nextStep.2.root = disk.root := rfl
  have found := find?_of_root counted (directory ++ [name])
  have resolved := (SameDirectories.of_root counted).resolve? (directory ++ [name])
  unfold remove
  split
  · rename_i counted counting
    rw [counting] at found resolved
    have same : counted.root = disk.root := root_of_nextStep counting
    split
    · rename_i place text isPlace isText
      have read : disk.read? (directory ++ [name]) = some text := by
        rw [read?_eq_some] at isText ⊢
        exact found.symm.trans isText
      have wasPlace := resolved.symm.trans isPlace
      obtain ⟨front, walked, isDir, rfl⟩ := resolve?_snoc step wasPlace
      refine .inr ⟨front, walked, (leafChanged_drop isDir (isDirectory_of_read? wasPlace read)).of_root ?_⟩
      simp only [drop, same]
    · exact .inl same
  · rename_i counted _ counting
    exact .inl (root_of_nextStep counting)

end Disk

end DesiredState
