import DesiredState.Codec.Resource
import DesiredState.Proofs.Json.Nesting

/-!
# Resources written and read

A reference is read back from its written form if its numbers have 64 bits and it is not nested deeper
than a text may be. The attributes of an object are read back as far as the text of their values is.
-/

set_option autoImplicit false

namespace DesiredState

open Json

namespace ResourceRef

/-- The number of objects that a reference passes through. -/
def levels : ResourceRef → Nat
  | .top _ _ => 1
  | .child parent _ _ => parent.levels + 1

/-- All numbers of a reference have 64 bits. -/
def FitsWord : ResourceRef → Prop
  | .top _ id => id < Number.wordLimit
  | .child parent _ id => id < Number.wordLimit ∧ parent.FitsWord

instance decidableFitsWord : (reference : ResourceRef) → Decidable reference.FitsWord
  | .top _ id => inferInstanceAs (Decidable (id < Number.wordLimit))
  | .child parent _ id =>
      have := parent.decidableFitsWord
      inferInstanceAs (Decidable (id < Number.wordLimit ∧ parent.FitsWord))

theorem parentOfFields?_eq (fields : List (String × Value)) :
    parentOfFields? fields = Value.defaulted? fields "parent" none (Value.nullable? ofValue?) := by
  induction fields with
  | nil => rfl
  | cons field rest ih =>
      obtain ⟨key, value⟩ := field
      rw [parentOfFields?.eq_def, Value.defaulted?, Entries.find?_cons]
      dsimp only
      by_cases same : key = "parent"
      · rw [if_pos same, if_pos same]
        cases value
        case null => rfl
        all_goals
          simp only [Value.nullable?]
          generalize ofValue? _ = read
          cases read <;> rfl
      · rw [if_neg same, if_neg same, ih, Value.defaulted?]

variable {kind : String} {id : Nat}

private theorem ofValue?_top :
    ofValue? (.object (Entries.sorted [("kind", .string kind), ("id", .ofNat id)])) =
    some (.top kind id) := by
  have noParent : parentOfFields? (Entries.sorted [("kind", .string kind), ("id", .ofNat id)]) = some none := by
    rw [parentOfFields?_eq, Value.defaulted?_sorted (by simp)]
    rfl
  rw [ofValue?, Value.required?_sorted (by simp), Value.required?_sorted (by simp), noParent]
  rfl

theorem nullable?_ofValue? {value : Value} {parent : ResourceRef} (read : ofValue? value = some parent) :
    Value.nullable? ofValue? value = some (some parent) := by
  cases value with
  | null => cases read
  | object fields => exact congrArg (Option.map some) read
  | list items => exact congrArg (Option.map some) read
  | bool value => cases read
  | number value => cases read
  | string text => cases read

private theorem ofValue?_child {value : Value} {parent : ResourceRef} (read : ofValue? value = some parent) :
    ofValue? (.object (Entries.sorted [("kind", .string kind), ("id", .ofNat id), ("parent", value)])) =
      some (.child parent kind id) := by
  have isParent : parentOfFields?
      (Entries.sorted [("kind", .string kind), ("id", .ofNat id), ("parent", value)]) = some (some parent) := by
    rw [parentOfFields?_eq, Value.defaulted?_sorted (by simp)]
    exact nullable?_ofValue? read
  rw [ofValue?, Value.required?_sorted (by simp), Value.required?_sorted (by simp), isParent]
  rfl

/-- A reference is read back from what was written of it. -/
theorem valueAs?_toValue (reference : ResourceRef) (fits : reference.FitsWord) {depth levels : Nat}
    (shallow : reference.levels ≤ depth) (looked : reference.levels ≤ levels) :
    ∃ value, Draft.valueAs? depth (shapeTo levels) reference.toValue.draft = some value ∧
      ofValue? value = some reference := by
  induction reference generalizing depth levels with
  | top kind id =>
      obtain ⟨depth, rfl⟩ : ∃ less, depth = less + 1 := Nat.exists_eq_add_one.mpr shallow
      obtain ⟨levels, rfl⟩ : ∃ less, levels = less + 1 := Nat.exists_eq_add_one.mpr looked
      refine ⟨_, Draft.valueAs?_record (by simp) ?_, ofValue?_top⟩
      exact .cons ⟨rfl, .whole, rfl, Draft.valueAs?_string _ kind⟩
        (.cons ⟨rfl, .whole, rfl, Draft.valueAs?_ofNat _ fits⟩ .nil)
  | child parent kind id ih =>
      rw [ResourceRef.levels] at shallow looked
      obtain ⟨depth, rfl⟩ : ∃ less, depth = less + 1 := ⟨depth - 1, by omega⟩
      obtain ⟨levels, rfl⟩ : ∃ less, levels = less + 1 := ⟨levels - 1, by omega⟩
      obtain ⟨value, isValue, isParent⟩ := ih fits.2 (Nat.le_of_succ_le_succ shallow) (Nat.le_of_succ_le_succ looked)
      refine ⟨_, Draft.valueAs?_record (by simp) ?_, ofValue?_child isParent⟩
      exact .cons ⟨rfl, .whole, rfl, Draft.valueAs?_string _ kind⟩
        (.cons ⟨rfl, .whole, rfl, Draft.valueAs?_ofNat _ fits.1⟩
          (.cons ⟨rfl, shapeTo levels, rfl, isValue⟩ .nil))

end ResourceRef

namespace RemoteObject

/-- The object with its attributes as they come out of their text, in which lists and objects may be
nested to the given depth. -/
def reread? (depth : Nat) (object : RemoteObject) : Option RemoteObject :=
  ((Draft.valueTo? depth (Value.ofAttributes object.attributes).draft).bind Value.attributes?).map
    fun attributes => { object with attributes }

private theorem attributes?_of_valueTo? {depth : Nat} {attributes : Attributes} {value : Value}
    (read : Draft.valueTo? depth (Value.ofAttributes attributes).draft = some value) :
    ∃ again, value.attributes? = some again := by
  cases depth with
  | zero => cases read
  | succ depth =>
      rw [Value.ofAttributes, Value.draft, Draft.valueTo?] at read
      obtain ⟨fields, _, isObject⟩ := Option.bind_eq_some_iff.mp read
      cases isObject
      exact ⟨_, rfl⟩

theorem isSome_reread? {object : RemoteObject} {depth : Nat}
    (legible : (Value.ofAttributes object.attributes).Legible depth) : (object.reread? depth).isSome = true := by
  obtain ⟨value, isValue⟩ := Option.isSome_iff_exists.mp (Value.isSome_valueTo? _ legible)
  obtain ⟨attributes, areAttributes⟩ := attributes?_of_valueTo? isValue
  rw [reread?, isValue, Option.bind_some, areAttributes]
  rfl

/-- Attributes whose text is read as the same value are the same again. -/
theorem reread?_eq_self {object : RemoteObject} {depth : Nat}
    (same : Draft.valueTo? depth (Value.ofAttributes object.attributes).draft =
      some (Value.ofAttributes object.attributes)) : object.reread? depth = some object := by
  rw [reread?, same, Option.bind_some, Value.ofAttributes, Value.attributes?, SortedMap.ofList_entries]
  rfl

theorem valueAs?_toValue {object again : RemoteObject} (fits : object.reference.FitsWord) {depth : Nat}
    (shallow : object.reference.levels ≤ depth) (looked : object.reference.levels ≤ maxDepth)
    (reread : object.reread? depth = some again) :
    ∃ value, Draft.valueAs? (depth + 1) shape object.toValue.draft = some value ∧ ofValue? value = some again := by
  obtain ⟨attributes, isRead, rfl⟩ := Option.map_eq_some_iff.mp reread
  obtain ⟨entries, areEntries, isAttributes⟩ := Option.bind_eq_some_iff.mp isRead
  obtain ⟨reference, isReference, referenceRead⟩ := object.reference.valueAs?_toValue fits shallow looked
  have isRequired : Value.required? [("reference", reference), ("attributes", entries)] "reference"
      ResourceRef.ofValue? = some object.reference := referenceRead
  have isDefaulted : Value.defaulted? [("reference", reference), ("attributes", entries)] "attributes" ∅
      Value.attributes? = some attributes := isAttributes
  refine ⟨.object (Entries.sorted [("reference", reference), ("attributes", entries)]),
    Draft.valueAs?_record (by simp) ?_, ?_⟩
  · exact .cons ⟨rfl, ResourceRef.shape, rfl, isReference⟩
      (.cons ⟨rfl, .whole, rfl, (Draft.valueAs?_whole _).trans areEntries⟩ .nil)
  · rw [ofValue?, Value.components?, Option.bind_eq_bind, Option.bind_some, Value.required?_sorted (by simp),
      Value.defaulted?_sorted (by simp), isRequired, isDefaulted]
    rfl

end RemoteObject

end DesiredState
