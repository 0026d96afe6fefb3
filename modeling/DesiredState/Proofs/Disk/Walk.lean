import DesiredState.Proofs.Disk.Tree

/-!
# Following paths on a disk

A path leads where it led as long as the same places are directories. That is so when only a leaf
changes, a place that is no directory before or after. Making the directories on the way to a document
changes nothing about the document, unless the way leads back up through what is not there yet.
-/

set_option autoImplicit false

namespace DesiredState

namespace Path

/-- A name that leads one step down. -/
structure IsStep (name : String) : Prop where
  leaves : stays name = false
  descends : name ≠ ".."

end Path

namespace Disk

variable {disk before after : Disk}

theorem isDirectory_iff {place : Path} : disk.isDirectory place = true ↔
    ∃ entries, disk.nodeAt? place = some (.directory entries) := by
  unfold isDirectory
  cases disk.nodeAt? place with
  | none => simp
  | some node => cases node <;> simp [Node.isDirectory]

private theorem isDirectory_of_append {front rest : Path}
    (directory : disk.isDirectory (front ++ rest) = true) :
    disk.isDirectory front = true := by
  obtain ⟨entries, found⟩ := isDirectory_iff.mp directory
  rw [nodeAt?, Node.find?_append, Option.bind_eq_some_iff] at found
  obtain ⟨node, atFront, deeper⟩ := found
  cases rest with
  | nil =>
      cases deeper
      exact isDirectory_iff.mpr ⟨entries, atFront⟩
  | cons name more =>
      obtain ⟨inside, _, rfl, _, _⟩ := Node.find?_cons_eq_some deeper
      exact isDirectory_iff.mpr ⟨inside, atFront⟩

private theorem isDirectory_dropLast {place : Path} (directory : disk.isDirectory place = true) :
    disk.isDirectory place.dropLast = true := by
  rcases List.eq_nil_or_concat' place with rfl | ⟨front, name, rfl⟩
  · exact directory
  · rw [List.dropLast_concat]
    exact isDirectory_of_append directory

/-- Below what is no directory there is nothing, or a file and nothing else. -/
theorem not_isDirectory_append {place : Path} (leaf : disk.isDirectory place = false) (rest : Path) :
    disk.isDirectory (place ++ rest) = false := by
  rw [Bool.eq_false_iff] at leaf ⊢
  exact fun directory => leaf (isDirectory_of_append directory)

/-! ## Following a path -/

/-- The same places are directories. -/
def SameDirectories (before after : Disk) : Prop :=
  ∀ place, after.isDirectory place = before.isDirectory place

namespace SameDirectories

theorem of_root (same : after.root = before.root) : SameDirectories before after := by
  intro place
  rw [isDirectory, isDirectory, nodeAt?, nodeAt?, same]

theorem trans {last : Disk} (first : SameDirectories before after) (second : SameDirectories after last) :
    SameDirectories before last := fun place => (second place).trans (first place)

private theorem walk? (same : SameDirectories before after) (place path : Path) :
    after.walk? place path = before.walk? place path := by
  induction path generalizing place with
  | nil => rfl
  | cons name rest ih =>
      rw [Disk.walk?, Disk.walk?, same place]
      simp only [ih]

theorem resolve? (same : SameDirectories before after) (path : Path) :
    after.resolve? path = before.resolve? path := by
  rw [Disk.resolve?, Disk.resolve?, same.walk?]

end SameDirectories

theorem find?_of_root (same : after.root = before.root) (path : Path) : after.find? path = before.find? path := by
  rw [find?, find?, (SameDirectories.of_root same).resolve?]
  cases before.resolve? path with
  | none => rfl
  | some place => exact congrArg (Node.find? place) same

private theorem walk?_append (place first second : Path) :
    disk.walk? place (first ++ second) = (disk.walk? place first).bind (disk.walk? · second) := by
  induction first generalizing place with
  | nil => rfl
  | cons name rest ih =>
      rw [List.cons_append, walk?, walk?]
      simp only [ih]
      split
      · rfl
      · split
        · rfl
        · split
          · rfl
          · split <;> rfl

/-- A file stands in the directory that its path leads to. -/
theorem resolve?_snoc {directory place : Path} {name : String} (step : Path.IsStep name)
    (resolved : disk.resolve? (directory ++ [name]) = some place) :
    ∃ front, disk.walk? [] directory = some front ∧ disk.isDirectory front = true ∧
      place = front ++ [name] := by
  rw [resolve?, walk?_append] at resolved
  split at resolved
  · rw [Option.bind_eq_some_iff] at resolved
    obtain ⟨front, walked, last⟩ := resolved
    rw [walk?, step.leaves, beq_false_of_ne step.descends] at last
    cases isDir : disk.isDirectory front with
    | false =>
        rw [isDir] at last
        cases last
    | true =>
        rw [isDir] at last
        cases named : isName name with
        | false =>
            rw [named] at last
            cases last
        | true =>
            rw [named] at last
            cases last
            exact ⟨front, walked, isDir, rfl⟩
  · cases resolved

/-- A path that ends by leading back up leads to a directory or nowhere. -/
theorem filePlace?_up (directory : Path) : disk.filePlace? (directory ++ [".."]) = none := by
  cases resolved : disk.resolve? (directory ++ [".."]) with
  | none => simp only [filePlace?, resolved]
  | some place =>
      have isDir : disk.isDirectory place = true := by
        rw [resolve?, walk?_append] at resolved
        split at resolved
        · rw [Option.bind_eq_some_iff] at resolved
          obtain ⟨front, _, last⟩ := resolved
          cases isDir : disk.isDirectory front with
          | false =>
              rw [walk?, isDir] at last
              cases last
          | true =>
              rw [walk?, isDir] at last
              cases last
              exact isDirectory_dropLast isDir
        · cases resolved
      simp only [filePlace?, resolved, isDir, if_true]

theorem filePlace?_eq_some {path place : Path} (found : disk.filePlace? path = some place) :
    disk.resolve? path = some place ∧ disk.isDirectory place = false := by
  unfold filePlace? at found
  cases resolved : disk.resolve? path with
  | none =>
      rw [resolved] at found
      cases found
  | some other =>
      rw [resolved] at found
      cases isDir : disk.isDirectory other with
      | true => simp [isDir] at found
      | false =>
          simp only [isDir, Bool.false_eq_true, if_false, Option.some.injEq] at found
          subst found
          exact ⟨rfl, isDir⟩

/-! ## Changing a leaf -/

/-- Only the leaf at a place changed: it is no directory, before or after, and no other place
became a directory or ceased to be one. -/
structure LeafChanged (place : Path) (before after : Disk) : Prop where
  wasLeaf : before.isDirectory place = false
  isLeaf : after.isDirectory place = false
  above : ∀ other rest, other ++ rest = place → rest ≠ [] →
    after.isDirectory other = before.isDirectory other
  beside : ∀ other, ¬ place <+: other → ¬ other <+: place → after.nodeAt? other = before.nodeAt? other

theorem LeafChanged.sameDirectories {place : Path} (changed : LeafChanged place before after) :
    SameDirectories before after := by
  intro other
  by_cases below : place <+: other
  · obtain ⟨rest, rfl⟩ := below
    rw [not_isDirectory_append changed.wasLeaf, not_isDirectory_append changed.isLeaf]
  · by_cases above : other <+: place
    · obtain ⟨rest, isPlace⟩ := above
      have proper : rest ≠ [] := by
        rintro rfl
        rw [List.append_nil] at isPlace
        exact below (isPlace ▸ List.prefix_rfl)
      exact changed.above other rest isPlace proper
    · rw [isDirectory, isDirectory, changed.beside other below above]

/-- A file beside the leaf is found as before. -/
theorem LeafChanged.find?_sibling {front directory : Path} {name other : String}
    (changed : LeafChanged (front ++ [other]) before after) (step : Path.IsStep name)
    (walked : before.walk? [] directory = some front) (different : other ≠ name) :
    after.find? (directory ++ [name]) = before.find? (directory ++ [name]) := by
  rw [find?, find?, changed.sameDirectories.resolve?]
  cases resolved : before.resolve? (directory ++ [name]) with
  | none => rfl
  | some place =>
      obtain ⟨sameFront, walkedAgain, _, rfl⟩ := resolve?_snoc step resolved
      cases walked.symm.trans walkedAgain
      apply changed.beside
      · intro below
        rw [List.prefix_append_right_inj, List.cons_prefix_cons] at below
        exact different below.1
      · intro above
        rw [List.prefix_append_right_inj, List.cons_prefix_cons] at above
        exact different above.1.symm

theorem leafChanged_put {front : Path} {name : String} (directory : disk.isDirectory front = true)
    (leaf : disk.isDirectory (front ++ [name]) = false) (text : String) :
    LeafChanged (front ++ [name]) disk (disk.put (front ++ [name]) (.file text)) := by
  obtain ⟨entries, found⟩ := isDirectory_iff.mp directory
  constructor
  · exact leaf
  · have placed := Node.find?_put_self (.file text) name found []
    rw [List.append_nil] at placed
    rw [isDirectory, nodeAt?, put, placed]
    rfl
  · intro other rest isPlace proper
    obtain ⟨more, last, rfl⟩ := (List.eq_nil_or_concat' rest).resolve_left proper
    rw [← List.append_assoc] at isPlace
    obtain ⟨rfl, sameName⟩ := List.append_inj' isPlace rfl
    cases sameName
    have above := isDirectory_of_append directory
    obtain ⟨inside, atOther⟩ := isDirectory_iff.mp above
    rw [above, isDirectory, nodeAt?, put, List.append_assoc, Node.find?_put_above atOther, Option.any_some,
      Node.isDirectory_put]
    simp [Node.isDirectory]
  · intro other notBelow notAbove
    exact Node.find?_put_beside notBelow notAbove

theorem leafChanged_drop {front : Path} {name : String} (directory : disk.isDirectory front = true)
    (leaf : disk.isDirectory (front ++ [name]) = false) :
    LeafChanged (front ++ [name]) disk (disk.drop (front ++ [name])) := by
  obtain ⟨entries, found⟩ := isDirectory_iff.mp directory
  constructor
  · exact leaf
  · have dropped := Node.find?_drop_self name found []
    rw [List.append_nil] at dropped
    rw [isDirectory, nodeAt?, drop, dropped]
    rfl
  · intro other rest isPlace proper
    obtain ⟨more, last, rfl⟩ := (List.eq_nil_or_concat' rest).resolve_left proper
    rw [← List.append_assoc] at isPlace
    obtain ⟨rfl, sameName⟩ := List.append_inj' isPlace rfl
    cases sameName
    have above := isDirectory_of_append directory
    obtain ⟨inside, atOther⟩ := isDirectory_iff.mp above
    rw [above, isDirectory, nodeAt?, drop, List.append_assoc, Node.find?_drop_above (by simp) atOther,
      Option.any_some, Node.isDirectory_drop]
    rfl
  · intro other notBelow notAbove
    exact Node.find?_drop_beside notBelow notAbove

/-! ## Making directories -/

/-- Where a path leads to a directory there is nothing to make. -/
theorem makeAlong_of_walk? {place target path : Path} (walked : disk.walk? place path = some target)
    (directory : disk.isDirectory target = true) : disk.makeAlong place path = (true, disk) := by
  induction path generalizing place with
  | nil => rfl
  | cons name rest ih =>
      rw [walk?] at walked
      rw [makeAlong]
      cases isDir : disk.isDirectory place with
      | false =>
          rw [isDir] at walked
          cases walked
      | true =>
          rw [isDir, Bool.not_true, if_neg Bool.false_ne_true] at walked
          cases stays : Path.stays name with
          | true =>
              rw [stays, if_pos rfl] at walked
              exact ih walked
          | false =>
              rw [stays, if_neg Bool.false_ne_true] at walked
              rw [if_neg Bool.false_ne_true]
              cases up : name == ".." with
              | true =>
                  rw [up, if_pos rfl] at walked
                  exact ih walked
              | false =>
                  rw [up, if_neg Bool.false_ne_true] at walked
                  rw [if_neg Bool.false_ne_true]
                  cases named : isName name with
                  | false =>
                      rw [named] at walked
                      cases walked
                  | true =>
                      rw [named, if_pos rfl] at walked
                      have next : disk.isDirectory (place ++ [name]) = true := by
                        cases rest with
                        | nil =>
                            cases walked
                            exact directory
                        | cons following more =>
                            rw [walk?] at walked
                            cases isDir : disk.isDirectory (place ++ [name]) with
                            | true => rfl
                            | false =>
                                rw [isDir] at walked
                                cases walked
                      obtain ⟨entries, found⟩ := isDirectory_iff.mp next
                      rw [Bool.not_true, if_neg Bool.false_ne_true, found]
                      exact ih walked

/-- The place that a path without a step back up leads to, seen from another one. -/
def descent (path : Path) : Path := path.filter fun name => !Path.stays name

/-- Making directories along a path puts nothing below its end. -/
theorem nodeAt?_makeAlong {place path below : Path} (down : ".." ∉ path) (proper : below ≠ [])
    (absent : disk.nodeAt? (place ++ descent path ++ below) = none) :
    (disk.makeAlong place path).2.nodeAt? (place ++ descent path ++ below) = none := by
  induction path generalizing disk place with
  | nil => exact absent
  | cons name rest ih =>
      obtain ⟨notUp, restDown⟩ := not_or.mp (mt List.mem_cons.mpr down)
      rw [makeAlong]
      cases stays : Path.stays name with
      | true =>
          have same : descent (name :: rest) = descent rest := by simp [descent, stays]
          rw [same] at absent ⊢
          rw [if_pos rfl]
          exact ih restDown absent
      | false =>
          have deeper : place ++ descent (name :: rest) = place ++ [name] ++ descent rest := by
            simp [descent, stays]
          rw [deeper] at absent ⊢
          rw [if_neg Bool.false_ne_true, if_neg (by simpa using Ne.symm notUp)]
          split
          · exact absent
          · split
            · exact ih restDown absent
            · exact absent
            · apply ih restDown
              rw [List.append_assoc, nodeAt?, put]
              rcases Node.find?_put_below (.directory []) (place ++ [name]) (descent rest ++ below) disk.root with placed | blocked
              · rw [placed]
                cases split : descent rest ++ below with
                | nil => exact absurd (List.append_eq_nil_iff.mp split).2 proper
                | cons next more => rfl
              · exact blocked

private theorem walk?_descent {place target path : Path} (down : ".." ∉ path)
    (walked : disk.walk? place path = some target) : target = place ++ descent path := by
  induction path generalizing place with
  | nil =>
      cases walked
      simp [descent]
  | cons name rest ih =>
      obtain ⟨notUp, restDown⟩ := not_or.mp (mt List.mem_cons.mpr down)
      rw [walk?] at walked
      split at walked
      · cases walked
      · cases stays : Path.stays name with
        | true =>
            rw [stays, if_pos rfl] at walked
            rw [ih restDown walked]
            simp [descent, stays]
        | false =>
            rw [stays, if_neg Bool.false_ne_true, if_neg (by simpa using Ne.symm notUp)] at walked
            split at walked
            · rw [ih restDown walked]
              simp [descent, stays]
            · cases walked

/-- The way to a directory does not lead back up, or the directory is there. Otherwise making the
directories on the way can bring to light what the path did not lead to before. -/
def Anchored (disk : Disk) (directory : Path) : Prop :=
  ".." ∈ directory → (disk.find? directory).any Node.isDirectory = true

private theorem find?_any_isDirectory {path : Path} : (disk.find? path).any Node.isDirectory = true ↔
    path.isUsable = true ∧ ∃ place, disk.walk? [] path = some place ∧ disk.isDirectory place = true := by
  rw [find?, resolve?]
  by_cases usable : path.isUsable = true
  · rw [if_pos usable]
    cases disk.walk? [] path with
    | none => simp
    | some place => simp [isDirectory, usable]
  · rw [if_neg usable]
    simp [usable]

theorem SameDirectories.anchored {directory : Path} (same : SameDirectories before after)
    (anchored : before.Anchored directory) : after.Anchored directory := by
  intro up
  have there := anchored up
  rw [find?_any_isDirectory] at there ⊢
  obtain ⟨usable, place, walked, isDir⟩ := there
  exact ⟨usable, place, (same.walk? [] directory).trans walked, (same place).trans isDir⟩

theorem root_of_nextStep {mishap : Mishap} {counted : Disk} (counting : disk.nextStep = (mishap, counted)) :
    counted.root = disk.root := (congrArg (root ∘ Prod.snd) counting).symm

private theorem root_makeDirectory_of_exists {directory : Path}
    (there : (disk.find? directory).any Node.isDirectory = true) :
    (disk.makeDirectory directory).2.root = disk.root := by
  obtain ⟨usable, place, walked, isDir⟩ := find?_any_isDirectory.mp there
  have same : SameDirectories disk disk.nextStep.2 := .of_root rfl
  have idle := makeAlong_of_walk? ((same.walk? [] directory).trans walked) ((same place).trans isDir)
  unfold makeDirectory
  split
  · rename_i counted counting
    rw [counting] at idle
    rw [if_pos usable, idle]
    exact root_of_nextStep counting
  · rename_i counted _ counting
    exact root_of_nextStep counting

private theorem nodeAt?_below_leaf {place rest : Path} (leaf : disk.isDirectory place = false)
    (below : rest ≠ []) :
    disk.nodeAt? (place ++ rest) = none := by
  rw [isDirectory, nodeAt?] at leaf
  rw [nodeAt?, Node.find?_append]
  cases found : disk.root.find? place with
  | none => rfl
  | some node =>
      cases node with
      | directory entries =>
          rw [found] at leaf
          cases leaf
      | file text =>
          cases rest with
          | nil => exact absurd rfl below
          | cons name more => rfl

/-- A path without a step back up is followed wherever its end is a directory and its names are in
order. -/
theorem walk?_of_isDirectory {place target path : Path} (down : ".." ∉ path)
    (walked : after.walk? place path = some target) (directory : before.isDirectory target = true) :
    before.walk? place path = some target := by
  have isTarget := walk?_descent down walked
  induction path generalizing place with
  | nil => exact walked
  | cons name rest ih =>
      obtain ⟨notUp, restDown⟩ := not_or.mp (mt List.mem_cons.mpr down)
      have atPlace : before.isDirectory place = true := isDirectory_of_append (isTarget ▸ directory)
      rw [walk?] at walked ⊢
      rw [atPlace, Bool.not_true, if_neg Bool.false_ne_true]
      split at walked
      · cases walked
      · split at walked
        · rename_i stays
          rw [if_pos stays]
          exact ih restDown walked (walk?_descent restDown walked)
        · rename_i leaves
          rw [if_neg leaves]
          rw [if_neg (by simpa using Ne.symm notUp)] at walked ⊢
          split at walked
          · rename_i named
            rw [if_pos named]
            exact ih restDown walked (walk?_descent restDown walked)
          · cases walked

/-- Making the directory of a document does not change what is found at its path. -/
theorem find?_makeDirectory {directory : Path} {name : String} (step : Path.IsStep name)
    (anchored : disk.Anchored directory) :
    (disk.makeDirectory directory).2.find? (directory ++ [name]) = disk.find? (directory ++ [name]) := by
  by_cases there : (disk.find? directory).any Node.isDirectory = true
  · exact find?_of_root (root_makeDirectory_of_exists there) _
  · rw [makeDirectory]
    split
    · rename_i counted counting
      have same : SameDirectories disk counted := .of_root (root_of_nextStep counting)
      split
      · rename_i usable
        have down : ".." ∉ directory := mt anchored there
        have missing : ∀ place, disk.walk? [] directory = some place → disk.isDirectory place = false := by
          intro place walked
          rw [Bool.eq_false_iff]
          exact fun isDir => there (find?_any_isDirectory.mpr ⟨usable, place, walked, isDir⟩)
        have before : disk.find? (directory ++ [name]) = none := by
          rw [find?, Option.bind_eq_none_iff]
          intro place resolved
          obtain ⟨front, walked, isDir, rfl⟩ := resolve?_snoc step resolved
          rw [missing front walked] at isDir
          cases isDir
        rw [before, find?, Option.bind_eq_none_iff]
        intro place resolved
        obtain ⟨front, walked, _, rfl⟩ := resolve?_snoc step resolved
        have leaf : disk.isDirectory front = false := by
          rw [Bool.eq_false_iff]
          intro isDir
          have walkedBefore := walk?_of_isDirectory down walked isDir
          rw [missing front walkedBefore] at isDir
          cases isDir
        have absent : counted.nodeAt? (front ++ [name]) = none :=
          nodeAt?_below_leaf ((same front).trans leaf) (List.cons_ne_nil name [])
        cases walk?_descent down walked
        exact nodeAt?_makeAlong down (List.cons_ne_nil name []) absent
      · exact find?_of_root (root_of_nextStep counting) _
    · rename_i counted _ counting
      exact find?_of_root (root_of_nextStep counting) _

theorem anchored_makeDirectory {directory : Path} (anchored : disk.Anchored directory) :
    (disk.makeDirectory directory).2.Anchored directory := by
  intro up
  have there := anchored up
  rw [find?_of_root (root_makeDirectory_of_exists there)]
  exact there

end Disk

end DesiredState
