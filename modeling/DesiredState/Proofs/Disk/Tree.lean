import DesiredState.Disk
import Mathlib.Data.List.Basic

/-!
# Trees of directories and files

Putting or dropping something changes what is found at its place and below. What stands above keeps
standing, with the change inside, and all other places are as they were.
-/

set_option autoImplicit false

namespace DesiredState

namespace Node

variable {new node child : Node}

private theorem lookup_removed (name other : String) (entries : List (String × Node)) :
    (entries.filter (·.1 != name)).lookup other = if other = name then none else entries.lookup other := by
  induction entries with
  | nil => simp
  | cons entry rest ih =>
      obtain ⟨key, value⟩ := entry
      rw [List.filter_cons]
      by_cases same : key = name
      · subst same
        rw [if_neg (by simp), ih, List.lookup_cons]
        by_cases sought : other = key
        · rw [if_pos sought, if_pos sought]
        · rw [if_neg sought, if_neg sought, beq_false_of_ne sought]
      · rw [if_pos (by simpa using same), List.lookup_cons, List.lookup_cons, ih]
        by_cases sought : other = key
        · subst sought
          simp only [beq_self_eq_true, if_neg same]
        · rw [beq_false_of_ne sought]

private theorem lookup_replaced (name other : String) (child : Node) (entries : List (String × Node)) :
    ((name, child) :: entries.filter (·.1 != name)).lookup other =
      if other = name then some child else entries.lookup other := by
  rw [List.lookup_cons, lookup_removed]
  by_cases same : other = name
  · subst same
    simp only [beq_self_eq_true, if_true]
  · rw [if_neg same, if_neg same, beq_false_of_ne same]

theorem find?_append (front rest : Path) (node : Node) :
    node.find? (front ++ rest) = (node.find? front).bind (find? rest) := by
  induction front generalizing node with
  | nil => rfl
  | cons name front ih =>
      cases node with
      | file text => rfl
      | directory entries =>
          rw [List.cons_append, find?, find?]
          cases entries.lookup name with
          | none => rfl
          | some child => exact ih child

theorem find?_cons_eq_some {name : String} {rest : Path} (found : node.find? (name :: rest) = some child) :
    ∃ entries next, node = .directory entries ∧ entries.lookup name = some next ∧
      next.find? rest = some child := by
  cases node with
  | file text => cases found
  | directory entries =>
      unfold find? at found
      cases next : entries.lookup name with
      | none =>
          rw [next] at found
          cases found
      | some node =>
          rw [next] at found
          exact ⟨entries, node, rfl, next, found⟩

/-! ## Putting -/

theorem isDirectory_put (new : Node) (place : Path) (node : Node) :
    (put new place node).isDirectory = (if place = [] then new else node).isDirectory := by
  cases place with
  | nil => rfl
  | cons name rest => cases node <;> rfl

/-- What stood above the place still does, with the change made inside it. -/
theorem find?_put_above {front rest : Path} (found : node.find? front = some child) :
    (put new (front ++ rest) node).find? front = some (put new rest child) := by
  induction front generalizing node with
  | nil =>
      cases found
      rfl
  | cons name front ih =>
      obtain ⟨entries, next, rfl, looked, deeper⟩ := find?_cons_eq_some found
      rw [List.cons_append, put, find?, lookup_replaced, if_pos rfl, looked]
      exact ih deeper

theorem find?_put_beside {place path : Path} (notBelow : ¬ place <+: path) (notAbove : ¬ path <+: place) :
    (put new place node).find? path = node.find? path := by
  induction place generalizing path node with
  | nil => exact absurd List.nil_prefix notBelow
  | cons name rest ih =>
      cases path with
      | nil => exact absurd List.nil_prefix notAbove
      | cons other more =>
          cases node with
          | file text => rfl
          | directory entries =>
              rw [put, find?, find?, lookup_replaced]
              by_cases same : other = name
              · subst same
                rw [List.cons_prefix_cons] at notBelow notAbove
                have unchanged : (put new rest ((entries.lookup other).getD (.directory []))).find? more =
                    ((entries.lookup other).getD (.directory [])).find? more := ih
                  (fun below => notBelow ⟨rfl, below⟩) (fun above => notAbove ⟨rfl, above⟩)
                rw [if_pos rfl]
                refine unchanged.trans ?_
                cases entries.lookup other with
                | some child => rfl
                | none =>
                    cases more with
                    | nil => exact absurd ⟨rfl, List.nil_prefix⟩ notAbove
                    | cons next deeper => rfl
              · rw [if_neg same]

/-- At the place and below it there is the new node, unless something was in the way. -/
theorem find?_put_below (new : Node) (place : Path) (rest : Path) (node : Node) :
    (put new place node).find? (place ++ rest) = new.find? rest ∨
      (put new place node).find? (place ++ rest) = none := by
  induction place generalizing node with
  | nil => exact .inl rfl
  | cons name front ih =>
      cases node with
      | file text => exact .inr rfl
      | directory entries =>
          rw [List.cons_append, put, find?, lookup_replaced, if_pos rfl]
          exact ih _

theorem find?_put_self (new : Node) {front : Path} (name : String) {entries : List (String × Node)}
    (found : node.find? front = some (.directory entries)) (rest : Path) :
    (put new (front ++ [name]) node).find? (front ++ [name] ++ rest) = new.find? rest := by
  rw [List.append_assoc, find?_append front, find?_put_above found, Option.bind_some, put,
    List.singleton_append, find?, lookup_replaced, if_pos rfl, put]

/-! ## Dropping -/

theorem isDirectory_drop (place : Path) (node : Node) : (drop place node).isDirectory = node.isDirectory := by
  cases node with
  | file text => cases place <;> rfl
  | directory entries =>
      cases place with
      | nil => rfl
      | cons name rest =>
          cases rest with
          | nil => rfl
          | cons next more =>
              rw [drop]
              · cases entries.lookup name <;> rfl
              · exact nofun

private theorem drop_cons {name : String} {rest : Path} (below : rest ≠ []) (entries : List (String × Node)) :
    drop (name :: rest) (.directory entries) =
      match entries.lookup name with
      | some child => .directory ((name, drop rest child) :: entries.filter (·.1 != name))
      | none => .directory entries := by
  rw [drop.eq_def]
  cases rest with
  | nil => exact absurd rfl below
  | cons next more => rfl

theorem find?_drop_above {front rest : Path} (below : rest ≠ []) (found : node.find? front = some child) :
    (drop (front ++ rest) node).find? front = some (drop rest child) := by
  induction front generalizing node with
  | nil =>
      cases found
      rfl
  | cons name front ih =>
      obtain ⟨entries, next, rfl, looked, deeper⟩ := find?_cons_eq_some found
      rw [List.cons_append, drop_cons (by simp [below]), looked]
      dsimp only
      rw [find?, lookup_replaced, if_pos rfl]
      exact ih deeper

theorem find?_drop_beside {place path : Path} (notBelow : ¬ place <+: path) (notAbove : ¬ path <+: place) :
    (drop place node).find? path = node.find? path := by
  induction place generalizing path node with
  | nil => exact absurd List.nil_prefix notBelow
  | cons name rest ih =>
      cases path with
      | nil => exact absurd List.nil_prefix notAbove
      | cons other more =>
          cases node with
          | file text => rfl
          | directory entries =>
              rw [List.cons_prefix_cons] at notBelow notAbove
              cases rest with
              | nil =>
                  have apart : other ≠ name := by
                    rintro rfl
                    exact notBelow ⟨rfl, List.nil_prefix⟩
                  rw [drop, find?, find?, lookup_removed, if_neg apart]
              | cons next deeper =>
                  rw [drop_cons (List.cons_ne_nil next deeper)]
                  cases looked : entries.lookup name with
                  | none => rfl
                  | some child =>
                      dsimp only
                      rw [find?, find?, lookup_replaced]
                      by_cases same : other = name
                      · subst same
                        rw [if_pos rfl, looked]
                        exact ih (fun below => notBelow ⟨rfl, below⟩) (fun above => notAbove ⟨rfl, above⟩)
                      · rw [if_neg same]

theorem find?_drop_self {front : Path} (name : String) {entries : List (String × Node)}
    (found : node.find? front = some (.directory entries)) (rest : Path) :
    (drop (front ++ [name]) node).find? (front ++ [name] ++ rest) = none := by
  rw [List.append_assoc, find?_append front, find?_drop_above (List.cons_ne_nil name []) found,
    Option.bind_some, drop, List.singleton_append, find?, lookup_removed, if_pos rfl]

end Node

end DesiredState
