import DesiredState.Codec.Record
import DesiredState.Proofs.Json.Written
import DesiredState.Proofs.SortedMap
import Mathlib.Data.List.Forall2

/-!
# Reading records that were written

A record is read component by component from the draft of its written form, and its components are
found in what is read, in whatever order they come.
-/

set_option autoImplicit false

namespace DesiredState

open Json

/-! ## Lists of results -/

theorem mapM_eq_some_iff {α β : Type} {read : α → Option β} {inputs : List α} {results : List β} :
    inputs.mapM read = some results ↔ List.Forall₂ (fun input result => read input = some result) inputs results := by
  induction inputs generalizing results with
  | nil =>
      rw [List.mapM_nil, List.forall₂_nil_left_iff]
      exact ⟨fun same => (Option.some.inj same).symm, fun same => congrArg some same.symm⟩
  | cons input rest ih =>
      rw [List.mapM_cons, List.forall₂_cons_left_iff]
      constructor
      · intro all
        obtain ⟨first, isFirst, all⟩ := Option.bind_eq_some_iff.mp all
        obtain ⟨later, areLater, all⟩ := Option.bind_eq_some_iff.mp all
        cases all
        exact ⟨first, later, isFirst, ih.mp areLater, rfl⟩
      · rintro ⟨first, later, isFirst, areLater, rfl⟩
        rw [isFirst, ih.mpr areLater]
        rfl

theorem isSome_mapM {α β : Type} {read : α → Option β} {inputs : List α}
    (each : ∀ input ∈ inputs, (read input).isSome = true) : (inputs.mapM read).isSome = true := by
  induction inputs with
  | nil => rfl
  | cons input rest ih =>
      obtain ⟨first, isFirst⟩ := Option.isSome_iff_exists.mp (each input List.mem_cons_self)
      obtain ⟨later, areLater⟩ := Option.isSome_iff_exists.mp
        (ih fun other member => each other (List.mem_cons_of_mem input member))
      rw [List.mapM_cons, isFirst, areLater]
      rfl

theorem mem_of_mapM {α β : Type} {read : α → Option β} {inputs : List α} {results : List β}
    (all : inputs.mapM read = some results) {result : β} (member : result ∈ results) :
    ∃ input ∈ inputs, read input = some result := by
  rw [mapM_eq_some_iff] at all
  induction all with
  | nil => cases member
  | cons first _ ih =>
      rcases List.mem_cons.mp member with rfl | later
      · exact ⟨_, List.mem_cons_self, first⟩
      · obtain ⟨input, inside, isRead⟩ := ih later
        exact ⟨input, List.mem_cons_of_mem _ inside, isRead⟩

theorem exists_of_mapM {α β : Type} {read : α → Option β} {inputs : List α} {results : List β}
    (all : inputs.mapM read = some results) {input : α} (member : input ∈ inputs) :
    ∃ result ∈ results, read input = some result := by
  rw [mapM_eq_some_iff] at all
  induction all with
  | nil => cases member
  | cons first _ ih =>
      rcases List.mem_cons.mp member with rfl | later
      · exact ⟨_, List.mem_cons_self, first⟩
      · obtain ⟨result, inside, isRead⟩ := ih later
        exact ⟨result, List.mem_cons_of_mem _ inside, isRead⟩

theorem Entries.find?_sorted {α : Type} {entries : List (String × α)} (distinct : (entries.map (·.1)).Nodup)
    (key : String) : find? key (sorted entries) = find? key entries := by
  have inserted : ∀ done : List (String × α),
      find? key (entries.foldl (fun done entry => insert entry.1 entry.2 done) done) =
        (find? key entries).or (find? key done) := by
    induction entries with
    | nil => exact fun done => rfl
    | cons head rest ih =>
        intro done
        rw [List.map_cons, List.nodup_cons] at distinct
        rw [List.foldl_cons, ih distinct.2, find?_insert, find?_cons]
        by_cases same : head.1 = key
        · rw [if_pos same, if_pos same, find?_eq_none_iff.mpr (same ▸ distinct.1)]
          rfl
        · rw [if_neg same, if_neg same]
  rw [sorted, inserted, find?_nil, Option.or_none]

/-- The entries of a map are in order already. -/
theorem SortedMap.ofList_entries {α : Type} (map : SortedMap α) : ofList map.entries = map :=
  ext_find? fun key => Entries.find?_sorted map.ascending.nodup_keys key

namespace Json

namespace Draft

variable {depth : Nat}

theorem valueAs?_whole (draft : Draft) : valueAs? depth .whole draft = valueTo? depth draft := by
  cases depth <;> cases draft <;> rfl

theorem valueAs?_string (shape : Shape) (text : String) :
    valueAs? depth shape (Value.string text).draft = some (.string text) := by
  cases depth <;> cases shape <;> rfl

/-- A number of 64 bits is read as it is, whoever looks at it. -/
theorem valueAs?_ofNat (shape : Shape) {number : Nat} (fits : number < Number.wordLimit) :
    valueAs? depth shape (Value.ofNat number).draft = some (.ofNat number) := by
  have fitsWord : Number.fitsWord number = true := by
    rw [Number.fitsWord, Bool.and_eq_true, decide_eq_true_iff, decide_eq_true_iff]
    omega
  rw [Value.ofNat, Value.draft, Number.reread?_integer fitsWord]
  cases depth <;> cases shape <;> rfl

/-- An object is read back, in order, if the value of each of its fields is. -/
theorem valueTo?_object {fields : List (String × Value)}
    (same : ∀ field ∈ fields, valueTo? depth field.2.draft = some field.2) :
    valueTo? (depth + 1) (Value.object fields).draft = some (.object (Entries.sorted fields)) := by
  rw [Value.draft, valueTo?]
  refine Option.bind_eq_some_iff.mpr ⟨fields, mapM_eq_some_iff.mpr ?_, rfl⟩
  rw [Value.draftFields_eq, List.forall₂_map_left_iff]
  refine List.forall₂_same.mpr fun field member => ?_
  dsimp only
  rw [same field member]
  rfl

theorem valueAs?_items {each : Shape} {items results : List Value}
    (read : List.Forall₂ (fun item result => valueAs? depth each item.draft = some result) items results) :
    valueAs? (depth + 1) (.items each) (Value.list items).draft = some (.list results) := by
  have all : (items.map Value.draft).mapM (valueAs? depth each) = some results :=
    mapM_eq_some_iff.mpr (List.forall₂_map_left_iff.mpr read)
  rw [Value.draft, Value.draftItems_eq, valueAs?, all]
  rfl

/-- A field that a record has a component for, and the same field with what is read of it. -/
def ReadAs (depth : Nat) (components : List (String × Shape)) (field result : String × Value) : Prop :=
  field.1 = result.1 ∧ ∃ shape, components.lookup field.1 = some shape ∧
    valueAs? depth shape field.2.draft = some result.2

variable {components : List (String × Shape)} {fields results : List (String × Value)}

private theorem componentFields?_draft (distinct : (fields.map (·.1)).Nodup)
    (read : List.Forall₂ (ReadAs depth components) fields results) :
    ∃ known, componentFields? components (Value.draftFields fields) = some known ∧
      List.Forall₂ (fun component result =>
        valueAs? depth component.2.1 component.2.2 = some result.2 ∧ component.1 = result.1) known results := by
  have known : ∃ known : List (String × Shape × Draft),
      (fields.map fun field => (field.1, field.2.draft)).filterMap (fun entry =>
        (components.lookup entry.1).map fun shape => (entry.1, shape, entry.2)) = known ∧
      known.map (·.1) = fields.map (·.1) ∧
      List.Forall₂ (fun component result =>
        valueAs? depth component.2.1 component.2.2 = some result.2 ∧ component.1 = result.1) known results := by
    clear distinct
    induction read with
    | nil => exact ⟨[], rfl, rfl, .nil⟩
    | @cons field result _ _ first _ ih =>
        obtain ⟨sameKey, shape, isShape, isRead⟩ := first
        obtain ⟨known, isKnown, keys, each⟩ := ih
        refine ⟨(field.1, shape, field.2.draft) :: known, ?_, congrArg _ keys, .cons ⟨isRead, sameKey⟩ each⟩
        rw [List.map_cons, List.filterMap_cons, isShape, isKnown]
        rfl
  obtain ⟨known, isKnown, keys, each⟩ := known
  refine ⟨known, Option.bind_eq_some_iff.mpr ⟨fields.map fun field => (field.1, field.2.draft), ?_, ?_⟩, each⟩
  · rw [mapM_eq_some_iff, Value.draftFields_eq, List.forall₂_map_left_iff, List.forall₂_map_right_iff]
    exact List.forall₂_same.mpr fun _ _ => rfl
  · subst isKnown
    exact if_pos (keys ▸ distinct)

/-- A record is read from what was written of it, if each of its components is. -/
theorem valueAs?_record (distinct : (fields.map (·.1)).Nodup)
    (read : List.Forall₂ (ReadAs depth components) fields results) :
    valueAs? (depth + 1) (.record components) (Value.object fields).draft =
      some (.object (Entries.sorted results)) := by
  obtain ⟨known, isKnown, each⟩ := componentFields?_draft distinct read
  rw [Value.draft, valueAs?]
  refine Option.bind_eq_some_iff.mpr ⟨known, isKnown, Option.bind_eq_some_iff.mpr ⟨results, ?_, rfl⟩⟩
  refine mapM_eq_some_iff.mpr (each.imp fun component result same => ?_)
  obtain ⟨isRead, sameKey⟩ := same
  dsimp only
  rw [isRead, sameKey]
  rfl

end Draft

end Json

/-! ## Components -/

namespace Value

variable {α : Type} {fields : List (String × Value)}

theorem nat?_ofNat (number : Nat) : (ofNat number).nat? = some number := rfl

theorem required?_sorted (distinct : (fields.map (·.1)).Nodup) (name : String) (read : Value → Option α) :
    required? (Entries.sorted fields) name read = required? fields name read := by
  rw [required?, Entries.find?_sorted distinct, required?]

theorem defaulted?_sorted (distinct : (fields.map (·.1)).Nodup) (name : String) (default : α)
    (read : Value → Option α) :
    defaulted? (Entries.sorted fields) name default read = defaulted? fields name default read := by
  rw [defaulted?, Entries.find?_sorted distinct, defaulted?]

end Value

end DesiredState
