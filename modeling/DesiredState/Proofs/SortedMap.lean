import DesiredState.SortedMap

/-!
# Look-ups in maps

What each operation on a map does to the value found at a key. Two maps with the same value at
every key are equal, so that maps built in different ways can be compared key by key.
-/

set_option autoImplicit false

namespace DesiredState

namespace Entries

variable {α : Type}

@[simp] theorem find?_nil (key : String) : find? key ([] : List (String × α)) = none := rfl

theorem find?_cons (key : String) (entry : String × α) (rest : List (String × α)) :
    find? key (entry :: rest) = if entry.1 = key then some entry.2 else find? key rest := rfl

theorem find?_insert (key other : String) (value : α) (entries : List (String × α)) :
    find? other (insert key value entries) =
      if key = other then some value else find? other entries := by
  induction entries with
  | nil => rfl
  | cons head rest ih =>
      obtain ⟨k, v⟩ := head
      simp only [insert]
      split
      · rfl
      · split
        · rename_i after
          rw [find?_cons, ih, find?_cons]
          by_cases same : key = other
          · subst same
            have different : k ≠ key := fun equal => String.lt_irrefl key (equal ▸ after)
            simp [different]
          · simp [same]
        · rename_i notBefore notAfter
          have same : key = k :=
            String.le_antisymm (String.not_lt.mp notAfter) (String.not_lt.mp notBefore)
          subst same
          by_cases found : key = other <;> simp [find?_cons, found]

theorem mem_of_find? {key : String} {value : α} {entries : List (String × α)}
    (found : find? key entries = some value) : (key, value) ∈ entries := by
  induction entries with
  | nil => simp at found
  | cons head rest ih =>
      obtain ⟨k, v⟩ := head
      rw [find?_cons] at found
      split at found
      · rename_i same
        cases same
        cases found
        exact List.mem_cons_self
      · exact List.mem_cons_of_mem _ (ih found)

theorem find?_eq_none_iff {key : String} {entries : List (String × α)} :
    find? key entries = none ↔ key ∉ entries.map (·.1) := by
  induction entries with
  | nil => simp
  | cons head rest ih =>
      rw [find?_cons]
      by_cases same : head.1 = key
      · simp [same]
      · simp [same, ih, Ne.symm same]

/-- A key does not occur again behind its place in an ascending list. -/
theorem Ascending.find?_tail {head : String × α} {rest : List (String × α)}
    (ascending : Ascending (head :: rest)) : find? head.1 rest = none := by
  rw [find?_eq_none_iff]
  intro member
  obtain ⟨entry, inside, equal⟩ := List.mem_map.mp member
  have above := (List.pairwise_cons.mp ascending).1 entry inside
  rw [equal] at above
  exact String.lt_irrefl _ above

/-- What is there under a key is found if no key is there twice. -/
theorem find?_of_mem {entries : List (String × α)} (distinct : (entries.map (·.1)).Nodup) {key : String}
    {value : α} (member : (key, value) ∈ entries) : find? key entries = some value := by
  induction entries with
  | nil => cases member
  | cons head rest ih =>
      rw [List.map_cons, List.nodup_cons] at distinct
      rw [find?_cons]
      rcases List.mem_cons.mp member with rfl | inRest
      · exact if_pos rfl
      · have different : head.1 ≠ key := fun same => distinct.1 (same ▸ List.mem_map_of_mem inRest)
        rw [if_neg different]
        exact ih distinct.2 inRest

theorem Ascending.nodup_keys {entries : List (String × α)} (ascending : Ascending entries) :
    (entries.map (·.1)).Nodup := by
  rw [List.Nodup, List.pairwise_map]
  refine List.Pairwise.imp ?_ ascending
  intro earlier later before same
  rw [same] at before
  exact String.lt_irrefl _ before

theorem Ascending.find?_of_mem {key : String} {value : α} {entries : List (String × α)}
    (ascending : Ascending entries) (member : (key, value) ∈ entries) :
    find? key entries = some value :=
  Entries.find?_of_mem ascending.nodup_keys member

private theorem Ascending.mem_iff_find? {key : String} {value : α} {entries : List (String × α)}
    (ascending : Ascending entries) :
    (key, value) ∈ entries ↔ find? key entries = some value :=
  ⟨ascending.find?_of_mem, mem_of_find?⟩

/-- An ascending list is determined by what is found at each key. -/
theorem Ascending.eq_of_find? {left right : List (String × α)} (leftAscending : Ascending left)
    (rightAscending : Ascending right) (same : ∀ key, find? key left = find? key right) :
    left = right := by
  have members : ∀ entry, entry ∈ left ↔ entry ∈ right := by
    intro entry
    obtain ⟨key, value⟩ := entry
    rw [leftAscending.mem_iff_find?, rightAscending.mem_iff_find?, same]
  have distinct : ∀ {entries : List (String × α)}, Ascending entries → entries.Nodup :=
    fun ascending => List.Pairwise.of_map Prod.fst (fun _ _ apart same => apart (congrArg Prod.fst same))
      ascending.nodup_keys
  have permuted : left.Perm right :=
    (List.perm_ext_iff_of_nodup (distinct leftAscending) (distinct rightAscending)).mpr members
  exact permuted.eq_of_pairwise
    (fun _ _ _ _ before after => absurd (String.lt_trans before after) (String.lt_irrefl _))
    leftAscending rightAscending

theorem Ascending.keys_pairwise {entries : List (String × α)} (ascending : Ascending entries) :
    (entries.map (·.1)).Pairwise (· < ·) :=
  List.pairwise_map.mpr ascending

/-- The same keys have one ascending order. -/
theorem keys_eq_of_perm {left right : List String} (permuted : left.Perm right)
    (leftAscending : left.Pairwise (· < ·)) (rightAscending : right.Pairwise (· < ·)) : left = right := by
  refine permuted.eq_of_pairwise ?_ leftAscending rightAscending
  intro _ _ _ _ before after
  exact absurd (String.lt_trans before after) (String.lt_irrefl _)

private theorem Ascending.find?_filter {entries : List (String × α)} (ascending : Ascending entries)
    (keep : String → α → Bool) (key : String) :
    find? key (entries.filter fun entry => keep entry.1 entry.2) =
      (find? key entries).filter (keep key) := by
  induction entries with
  | nil => rfl
  | cons head rest ih =>
      have inRest := ih ascending.of_cons
      rw [List.filter_cons, find?_cons]
      by_cases same : head.1 = key
      · subst same
        have absent := ascending.find?_tail
        by_cases kept : keep head.1 head.2
        · simp [kept, find?_cons, Option.filter]
        · simp [kept, inRest, absent, Option.filter]
      · by_cases kept : keep head.1 head.2 <;> simp [kept, find?_cons, same, inRest]

private theorem find?_foldl_insert {entries : List (String × α)} (ascending : Ascending entries)
    (done : List (String × α)) (key : String) :
    find? key (entries.foldl (fun done entry => insert entry.1 entry.2 done) done) =
      (find? key entries).or (find? key done) := by
  induction entries generalizing done with
  | nil => rfl
  | cons head rest ih =>
      rw [List.foldl_cons, ih ascending.of_cons, find?_insert, find?_cons]
      by_cases same : head.1 = key
      · subst same
        simp [ascending.find?_tail]
      · simp [same]

private theorem insert_perm {key : String} (value : α) {entries : List (String × α)}
    (absent : key ∉ entries.map (·.1)) : (insert key value entries).Perm ((key, value) :: entries) := by
  induction entries with
  | nil => exact .refl _
  | cons head rest ih =>
      obtain ⟨k, v⟩ := head
      simp only [List.map_cons, List.mem_cons, not_or] at absent
      obtain ⟨different, absentRest⟩ := absent
      simp only [insert]
      split
      · exact .refl _
      · split
        · exact ((ih absentRest).cons _).trans (.swap _ _ _)
        · rename_i notBefore notAfter
          exact absurd (String.le_antisymm (String.not_lt.mp notAfter) (String.not_lt.mp notBefore))
            different

end Entries

namespace SortedMap

variable {α : Type}

@[simp] theorem find?_empty (key : String) : (∅ : SortedMap α).find? key = none := rfl

theorem mem_entries_iff {map : SortedMap α} {key : String} {value : α} :
    (key, value) ∈ map.entries ↔ map.find? key = some value :=
  map.ascending.mem_iff_find?

/-- Maps with the same value at every key are equal. -/
theorem ext_find? {left right : SortedMap α}
    (same : ∀ key, left.find? key = right.find? key) : left = right := by
  cases left with
  | mk leftEntries leftAscending =>
      cases right with
      | mk rightEntries rightAscending =>
          have equal : leftEntries = rightEntries :=
            leftAscending.eq_of_find? rightAscending same
          subst equal
          rfl

theorem find?_insert (map : SortedMap α) (key other : String) (value : α) :
    (map.insert key value).find? other = if key = other then some value else map.find? other :=
  Entries.find?_insert key other value map.entries

theorem find?_filter (map : SortedMap α) (keep : String → α → Bool) (key : String) :
    (map.filter keep).find? key = (map.find? key).filter (keep key) :=
  map.ascending.find?_filter keep key

theorem mem_keys_iff {map : SortedMap α} {key : String} :
    key ∈ map.keys ↔ ∃ value, map.find? key = some value := by
  rw [← Option.ne_none_iff_exists', find?, ne_eq, Entries.find?_eq_none_iff, Classical.not_not]
  rfl

/-- Which values are found under some keys says what the part of a map at these keys is. -/
theorem filter_keys_congr {left right : SortedMap α} {keep : String → Bool}
    (same : ∀ key, keep key = true → left.find? key = right.find? key) :
    (left.filter fun key _ => keep key) = right.filter fun key _ => keep key := by
  refine ext_find? fun key => ?_
  rw [find?_filter, find?_filter]
  cases kept : keep key with
  | true => rw [same key kept]
  | false => cases left.find? key <;> cases right.find? key <;> rfl

private theorem entries_insertAll (map : SortedMap α) (entries : List (String × α)) :
    (map.insertAll entries).entries =
      entries.foldl (fun done entry => Entries.insert entry.1 entry.2 done) map.entries := by
  induction entries generalizing map with
  | nil => rfl
  | cons head rest ih => exact ih (map.insert head.1 head.2)

theorem find?_insertAll (map : SortedMap α) {entries : List (String × α)}
    (ascending : Entries.Ascending entries) (key : String) :
    (map.insertAll entries).find? key = (Entries.find? key entries).or (map.find? key) := by
  rw [find?, entries_insertAll]
  exact Entries.find?_foldl_insert ascending map.entries key

theorem entries_insertAll_empty {entries : List (String × α)}
    (ascending : Entries.Ascending entries) :
    ((∅ : SortedMap α).insertAll entries).entries = entries := by
  refine ((∅ : SortedMap α).insertAll entries).ascending.eq_of_find? ascending fun key => ?_
  have found := find?_insertAll (∅ : SortedMap α) ascending key
  rwa [find?_empty, Option.or_none] at found

/-- Entries with new and distinct keys are all kept. -/
theorem entries_insertAll_perm (map : SortedMap α) {entries : List (String × α)}
    (distinct : ((map.entries ++ entries).map (·.1)).Nodup) :
    (map.insertAll entries).entries.Perm (map.entries ++ entries) := by
  induction entries generalizing map with
  | nil => simp [insertAll]
  | cons head rest ih =>
      have moved : (map.entries ++ head :: rest).Perm (head :: map.entries ++ rest) := List.perm_middle
      have distinctMoved := (moved.map (·.1)).nodup_iff.mp distinct
      have absent : head.1 ∉ map.entries.map (·.1) := by
        intro member
        exact (List.nodup_cons.mp distinctMoved).1 (by simp_all)
      have inserted : (map.insert head.1 head.2).entries.Perm (head :: map.entries) :=
        Entries.insert_perm head.2 absent
      have grown := inserted.append_right rest
      exact (ih (map.insert head.1 head.2) ((grown.map (·.1)).nodup_iff.mpr distinctMoved)).trans
        (grown.trans moved.symm)

end SortedMap

end DesiredState
