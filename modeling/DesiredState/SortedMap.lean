/-!
# Maps in key order

A finite map from text keys, kept as the list of its entries in strictly ascending order of
the keys. Strings are ordered by their characters' code points, which is the order of their
UTF-8 bytes. Two maps are equal exactly when they hold the same entries.
-/

set_option autoImplicit false

namespace DesiredState

/-! ## Entry lists -/

namespace Entries

variable {α : Type}

def find? (key : String) : List (String × α) → Option α
  | [] => none
  | (k, value) :: rest => if k = key then some value else find? key rest

/-- Put a value at its key's place in an ascending list, replacing the entry that is there. -/
def insert (key : String) (value : α) : List (String × α) → List (String × α)
  | [] => [(key, value)]
  | (k, v) :: rest =>
      if key < k then (key, value) :: (k, v) :: rest
      else if k < key then (k, v) :: insert key value rest
      else (key, value) :: rest

/-- The entries in ascending order of keys; of several entries with one key the last counts. -/
def sorted (entries : List (String × α)) : List (String × α) :=
  entries.foldl (fun done entry => insert entry.1 entry.2 done) []

def Ascending (entries : List (String × α)) : Prop :=
  entries.Pairwise fun earlier later => earlier.1 < later.1

theorem mem_insert {key : String} {value : α} {entries : List (String × α)}
    {entry : String × α} (member : entry ∈ insert key value entries) :
    entry = (key, value) ∨ entry ∈ entries := by
  induction entries with
  | nil => simpa [insert] using member
  | cons head rest ih =>
      obtain ⟨k, v⟩ := head
      simp only [insert] at member
      split at member
      · simpa using member
      · split at member
        · rcases List.mem_cons.mp member with rfl | inRest
          · simp
          · rcases ih inRest with found | found
            · exact .inl found
            · exact .inr (List.mem_cons_of_mem _ found)
        · rcases List.mem_cons.mp member with rfl | inRest
          · exact .inl rfl
          · exact .inr (List.mem_cons_of_mem _ inRest)

theorem Ascending.insert {key : String} {value : α} {entries : List (String × α)}
    (ascending : Ascending entries) : Ascending (Entries.insert key value entries) := by
  induction entries with
  | nil => simp [Entries.insert, Ascending]
  | cons head rest ih =>
      obtain ⟨k, v⟩ := head
      obtain ⟨below, restAscending⟩ := List.pairwise_cons.mp ascending
      simp only [Entries.insert]
      split
      · rename_i before
        refine List.pairwise_cons.mpr ⟨fun entry member => ?_, ascending⟩
        rcases List.mem_cons.mp member with rfl | inRest
        · exact before
        · exact String.lt_trans before (below entry inRest)
      · split
        · rename_i notBefore after
          refine List.pairwise_cons.mpr ⟨fun entry member => ?_, ih restAscending⟩
          rcases mem_insert member with rfl | inRest
          · exact after
          · exact below entry inRest
        · rename_i notBefore notAfter
          have same : key = k :=
            String.le_antisymm (String.not_lt.mp notAfter) (String.not_lt.mp notBefore)
          subst same
          exact List.pairwise_cons.mpr ⟨below, restAscending⟩

theorem ascending_foldl_insert (entries : List (String × α)) {done : List (String × α)}
    (ascending : Ascending done) :
    Ascending (entries.foldl (fun done entry => Entries.insert entry.1 entry.2 done) done) := by
  induction entries generalizing done with
  | nil => exact ascending
  | cons head rest ih => exact ih ascending.insert

theorem ascending_sorted (entries : List (String × α)) : Ascending (sorted entries) :=
  ascending_foldl_insert entries List.Pairwise.nil

end Entries

/-! ## Maps -/

/-- A map from text keys, as its entries in ascending order. -/
structure SortedMap (α : Type) where
  entries : List (String × α)
  ascending : Entries.Ascending entries

namespace SortedMap

variable {α : Type}

instance [DecidableEq α] : DecidableEq (SortedMap α) := fun a b =>
  if same : a.entries = b.entries then
    .isTrue (by cases a; cases b; cases same; rfl)
  else
    .isFalse fun equal => same (congrArg entries equal)

def empty : SortedMap α := ⟨[], List.Pairwise.nil⟩

instance : EmptyCollection (SortedMap α) := ⟨empty⟩

instance : Inhabited (SortedMap α) := ⟨empty⟩

def ofList (entries : List (String × α)) : SortedMap α :=
  ⟨Entries.sorted entries, Entries.ascending_sorted entries⟩

def find? (map : SortedMap α) (key : String) : Option α := Entries.find? key map.entries

def contains (map : SortedMap α) (key : String) : Bool := (map.find? key).isSome

def insert (map : SortedMap α) (key : String) (value : α) : SortedMap α :=
  ⟨Entries.insert key value map.entries, map.ascending.insert⟩

def insertAll (map : SortedMap α) (entries : List (String × α)) : SortedMap α :=
  entries.foldl (fun done entry => done.insert entry.1 entry.2) map

def filter (map : SortedMap α) (keep : String → α → Bool) : SortedMap α :=
  ⟨map.entries.filter fun entry => keep entry.1 entry.2, map.ascending.filter _⟩

def keys (map : SortedMap α) : List String := map.entries.map (·.1)

def isEmpty (map : SortedMap α) : Bool := map.entries.isEmpty

end SortedMap

end DesiredState
