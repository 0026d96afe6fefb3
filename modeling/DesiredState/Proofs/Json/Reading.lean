import DesiredState.Proofs.Json.Nesting

/-!
# What is read is legible

The numbers of a value that was read from a text have 64 bits or are doubles, and the value is nested no
deeper than the reader goes. So the text of what was read can be read again.
-/

set_option autoImplicit false

namespace DesiredState

open Json

private theorem Number.fitsWord_of_ofNumeral? {negative : Bool} {whole : List Char}
    {fraction : Option (List Char)}
    {exponent : Option Int} {number : Number} (read : ofNumeral? negative whole fraction exponent = some number) :
    number.FitsWord := by
  unfold ofNumeral? at read
  dsimp only at read
  generalize (if negative = true then -((withDigits 0 whole).1 : Int) else (withDigits 0 whole).1) = value at read
  split at read
  · rename_i short
    cases read
    simp only [Bool.and_eq_true] at short
    exact short.1.2
  · obtain ⟨double, _, rfl⟩ := Option.map_eq_some_iff.mp read
    trivial

theorem Entries.mem_of_mem_sorted {α : Type} {entries : List (String × α)} {entry : String × α}
    (member : entry ∈ sorted entries) : entry ∈ entries := by
  have inserted : ∀ done : List (String × α),
      entry ∈ entries.foldl (fun done entry => insert entry.1 entry.2 done) done → entry ∈ entries ∨ entry ∈ done := by
    clear member
    induction entries with
    | nil => exact fun done member => .inr member
    | cons head rest ih =>
        intro done member
        rcases ih _ member with later | earlier
        · exact .inl (List.mem_cons_of_mem head later)
        · rcases mem_insert earlier with rfl | before
          · exact .inl List.mem_cons_self
          · exact .inr before
  exact (inserted [] member).resolve_right List.not_mem_nil

namespace Json

namespace Draft

/-- Whatever is read of a draft is legible at the depth that it is read at. -/
def Sound (draft : Draft) : Prop :=
  ∀ depth shape value, valueAs? depth shape draft = some value → value.Legible depth

private theorem Sound.whole {draft : Draft} (sound : draft.Sound) {depth : Nat} {value : Value}
    (read : valueTo? depth draft = some value) : value.Legible depth :=
  sound depth .whole value (draft.valueAs?_whole.trans read)

/-! ## Drafts without parts -/

private theorem sound_null : Sound .null := by
  intro depth shape value read
  have isNull : value = .null := by cases depth <;> cases shape <;> cases read <;> rfl
  rw [isNull]
  exact ⟨by simp [Value.nesting], by simp [Value.numbers]⟩

private theorem sound_bool (truth : Bool) : Sound (.bool truth) := by
  intro depth shape value read
  have isBool : value = .bool truth := by cases depth <;> cases shape <;> cases read <;> rfl
  rw [isBool]
  exact ⟨by simp [Value.nesting], by simp [Value.numbers]⟩

private theorem sound_string (text : Option String) : Sound (.string text) := by
  intro depth shape value read
  have isText : text.map Value.string = some value := by cases depth <;> cases shape <;> exact read
  obtain ⟨text, _, rfl⟩ := Option.map_eq_some_iff.mp isText
  exact ⟨by simp [Value.nesting], by simp [Value.numbers]⟩

private theorem sound_number {number : Option Number} (fits : ∀ value ∈ number, value.FitsWord) :
    Sound (.number number) := by
  intro depth shape value read
  have isNumber : number.map Value.number = some value := by cases depth <;> cases shape <;> exact read
  obtain ⟨number, isSome, rfl⟩ := Option.map_eq_some_iff.mp isNumber
  exact Value.legible_number_iff.mpr (fits number isSome)

/-! ## Lists and objects -/

private theorem legible_of_valueTo?_list {items : List Draft} (each : ∀ item ∈ items, item.Sound)
    {depth : Nat}
    {value : Value} (read : valueTo? depth (.list items) = some value) : value.Legible depth := by
  cases depth with
  | zero => cases read
  | succ depth =>
      rw [valueTo?] at read
      obtain ⟨results, areRead, rfl⟩ := Option.map_eq_some_iff.mp read
      refine Value.legible_list_iff.mpr ⟨depth, rfl, fun result member => ?_⟩
      obtain ⟨item, inside, isRead⟩ := mem_of_mapM areRead member
      exact (each item inside).whole isRead

private theorem legible_of_valueTo?_object {fields : List (Option String × Draft)}
    (each : ∀ field ∈ fields, field.2.Sound) {depth : Nat} {value : Value}
    (read : valueTo? depth (.object fields) = some value) : value.Legible depth := by
  cases depth with
  | zero => cases read
  | succ depth =>
      rw [valueTo?] at read
      obtain ⟨results, areRead, isObject⟩ := Option.bind_eq_some_iff.mp read
      cases isObject
      refine Value.legible_object_iff.mpr ⟨depth, rfl, fun result member => ?_⟩
      obtain ⟨field, inside, isRead⟩ := mem_of_mapM areRead (Entries.mem_of_mem_sorted member)
      obtain ⟨_, _, isRead⟩ := Option.bind_eq_some_iff.mp isRead
      obtain ⟨_, isValue, isField⟩ := Option.bind_eq_some_iff.mp isRead
      cases isField
      exact (each field inside).whole isValue

private theorem sound_list {items : List Draft} (each : ∀ item ∈ items, item.Sound) :
    Sound (.list items) := by
  intro depth shape value read
  cases depth with
  | zero => cases shape <;> cases read
  | succ depth =>
      cases shape with
      | whole | name => exact legible_of_valueTo?_list each read
      | items shape =>
          obtain ⟨results, areRead, rfl⟩ := Option.map_eq_some_iff.mp read
          refine Value.legible_list_iff.mpr ⟨depth, rfl, fun result member => ?_⟩
          obtain ⟨item, inside, isRead⟩ := mem_of_mapM areRead member
          exact each item inside depth shape result isRead
      | record components =>
          rw [valueAs?] at read
          split at read
          · obtain ⟨results, areRead, isList⟩ := Option.bind_eq_some_iff.mp read
            cases isList
            refine Value.legible_list_iff.mpr ⟨depth, rfl, fun result member => ?_⟩
            obtain ⟨⟨component, item⟩, inside, isRead⟩ := mem_of_mapM areRead member
            exact each item (List.of_mem_zip inside).2 depth component.2 result isRead
          · cases read

/-- The components of a record that are looked at are fields of it. -/
theorem mem_of_componentFields? {components : List (String × Shape)} {fields : List (Option String × Draft)}
    {known : List (String × Shape × Draft)} (looked : componentFields? components fields = some known)
    {key : String} {shape : Shape} {item : Draft} (member : (key, shape, item) ∈ known) :
    ∃ field ∈ fields, field.2 = item := by
  obtain ⟨keyed, areKeyed, isKnown⟩ := Option.bind_eq_some_iff.mp looked
  dsimp only at isKnown
  split at isKnown
  · cases isKnown
    obtain ⟨entry, inside, found⟩ := List.mem_filterMap.mp member
    obtain ⟨_, _, same⟩ := Option.map_eq_some_iff.mp found
    cases same
    obtain ⟨field, inFields, isEntry⟩ := mem_of_mapM areKeyed inside
    obtain ⟨_, _, rfl⟩ := Option.map_eq_some_iff.mp isEntry
    exact ⟨field, inFields, rfl⟩
  · cases isKnown

private theorem sound_object {fields : List (Option String × Draft)}
    (each : ∀ field ∈ fields, field.2.Sound) :
    Sound (.object fields) := by
  intro depth shape value read
  cases depth with
  | zero => cases shape <;> cases read
  | succ depth =>
      cases shape with
      | whole | items shape => exact legible_of_valueTo?_object each read
      | name =>
          rw [valueAs?] at read
          split at read
          · exact legible_of_valueTo?_object each read
          · cases read
      | record components =>
          rw [valueAs?] at read
          obtain ⟨known, looked, allRead⟩ := Option.bind_eq_some_iff.mp read
          obtain ⟨results, areRead, isObject⟩ := Option.bind_eq_some_iff.mp allRead
          cases isObject
          refine Value.legible_object_iff.mpr ⟨depth, rfl, fun result member => ?_⟩
          obtain ⟨⟨key, shape, item⟩, inside, isRead⟩ := mem_of_mapM areRead (Entries.mem_of_mem_sorted member)
          obtain ⟨_, isValue, isResult⟩ := Option.bind_eq_some_iff.mp isRead
          cases isResult
          obtain ⟨field, inFields, rfl⟩ := mem_of_componentFields? looked inside
          exact each field inFields depth shape _ isValue

end Draft

/-! ## Texts -/

private theorem sound_of_readNumber? {text rest : List Char} {number : Option Number}
    (read : readNumber? text = some (number, rest)) : (Draft.number number).Sound := by
  have isNumeral : ∃ negative whole fraction exponent, number = Number.ofNumeral? negative whole fraction exponent := by
    unfold readNumber? at read
    dsimp only at read
    -- with a sign and without one
    split at read
    all_goals
      split at read
      · cases read
      · obtain ⟨⟨fraction, _⟩, _, read⟩ := Option.bind_eq_some_iff.mp read
        obtain ⟨⟨exponent, _⟩, _, read⟩ := Option.bind_eq_some_iff.mp read
        cases read
        exact ⟨_, _, fraction, exponent, rfl⟩
  obtain ⟨negative, whole, fraction, exponent, rfl⟩ := isNumeral
  exact Draft.sound_number fun value isValue => Number.fitsWord_of_ofNumeral? isValue

/-- Whatever is read with some fuel is sound. -/
structure SoundWith (fuel : Nat) : Prop where
  draft : ∀ {text draft rest}, readDraft? fuel text = some (draft, rest) → draft.Sound
  items : ∀ {text items rest}, readItems? fuel text = some (items, rest) → ∀ item ∈ items, Draft.Sound item
  fields : ∀ {text fields rest}, readFields? fuel text = some (fields, rest) →
    ∀ field ∈ fields, Draft.Sound field.2

namespace SoundWith

variable {fuel : Nat} {text rest : List Char}

private theorem draft_succ (sound : SoundWith fuel) {draft : Draft}
    (read : readDraft? (fuel + 1) text = some (draft, rest)) :
    draft.Sound := by
  unfold readDraft? at read
  split at read
  · cases read
    exact Draft.sound_null
  · cases read
    exact Draft.sound_bool true
  · cases read
    exact Draft.sound_bool false
  · split at read
    · cases read
      exact Draft.sound_string _
    · cases read
  · split at read
    · cases read
      exact Draft.sound_list (List.forall_mem_nil _)
    · split at read
      · rename_i isItems
        cases read
        exact Draft.sound_list (sound.items isItems)
      · cases read
  · split at read
    · cases read
      exact Draft.sound_object (List.forall_mem_nil _)
    · split at read
      · rename_i areFields
        cases read
        exact Draft.sound_object (sound.fields areFields)
      · cases read
  · split at read
    · rename_i isNumber
      cases read
      exact sound_of_readNumber? isNumber
    · cases read

private theorem items_succ (sound : SoundWith fuel) {items : List Draft}
    (read : readItems? (fuel + 1) text = some (items, rest)) : ∀ item ∈ items, Draft.Sound item := by
  unfold readItems? at read
  split at read
  · cases read
  · rename_i isItem
    have first := sound.draft isItem
    split at read
    · cases read
      exact List.forall_mem_singleton.mpr first
    · split at read
      · rename_i areItems
        cases read
        exact List.forall_mem_cons.mpr ⟨first, sound.items areItems⟩
      · cases read
    · cases read

private theorem fields_succ (sound : SoundWith fuel) {fields : List (Option String × Draft)}
    (read : readFields? (fuel + 1) text = some (fields, rest)) : ∀ field ∈ fields, Draft.Sound field.2 := by
  unfold readFields? at read
  split at read
  · split at read
    · cases read
    · split at read
      · split at read
        · cases read
        · rename_i isItem
          have first := sound.draft isItem
          split at read
          · cases read
            exact List.forall_mem_singleton.mpr first
          · split at read
            · rename_i areFields
              cases read
              exact List.forall_mem_cons.mpr ⟨first, sound.fields areFields⟩
            · cases read
          · cases read
      · cases read
  · cases read

end SoundWith

private theorem soundWith (fuel : Nat) : SoundWith fuel := by
  induction fuel with
  | zero =>
      constructor
      · intro text draft rest read
        cases read
      · intro text items rest read
        cases read
      · intro text fields rest read
        cases read
  | succ fuel ih =>
      constructor
      · exact ih.draft_succ
      · exact ih.items_succ
      · exact ih.fields_succ

private theorem Draft.sound_of_ofText? {text : String} {draft : Draft} (read : ofText? text = some draft) :
    draft.Sound := by
  unfold ofText? at read
  dsimp only at read
  split at read
  · rename_i whole rest isRead
    split at read
    · cases read
      exact (soundWith _).draft isRead
    · cases read
  · cases read

end Json

/-- What is read of a text is legible. -/
theorem Value.legible_of_ofJsonAs? {shape : Shape} {text : String} {value : Value}
    (read : ofJsonAs? shape text = some value) : value.Legible maxDepth := by
  obtain ⟨draft, isDraft, isValue⟩ := Option.bind_eq_some_iff.mp read
  exact Draft.sound_of_ofText? isDraft maxDepth shape value isValue

end DesiredState
