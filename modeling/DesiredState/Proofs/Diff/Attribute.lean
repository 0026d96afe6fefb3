import DesiredState.Diff

/-!
# Differences attribute by attribute

What becomes of a desired attribute depends on that attribute alone. Validation fails at the first one
that its field objects to; a difference fails at the first one that it refuses, and otherwise collects
the changes of all of them.
-/

set_option autoImplicit false

namespace DesiredState

theorem FieldSpec.check_eq (spec : FieldSpec) (resource : String) (value : Value) :
    spec.check resource value = match spec.objection? value with
      | none => .ok ()
      | some reason => .error (.invalidValue resource spec.name reason) := rfl

namespace Schema

variable {schema : Schema} {object : RemoteObject} {policy : MutabilityPolicy}

theorem name_of_field? {key : String} {spec : FieldSpec} (found : schema.field? key = some spec) :
    spec.name = key := by
  simpa using List.find?_some found

theorem mem_of_field? {key : String} {spec : FieldSpec} (found : schema.field? key = some spec) :
    spec ∈ schema.fields :=
  List.mem_of_find?_eq_some found

/-- The field that a desired attribute is for: the one of its name, unless the value is passed over. -/
def fieldFor? (schema : Schema) (key : String) (want : Value) : Option FieldSpec :=
  match schema.field? key with
  | none => none
  | some spec => if spec.passesOver want then none else some spec

theorem fieldFor?_of_unknown {key : String} (unknown : schema.field? key = none) (want : Value) :
    schema.fieldFor? key want = none := by
  simp [fieldFor?, unknown]

theorem fieldFor?_of_known {key : String} {spec : FieldSpec} (known : schema.field? key = some spec)
    (want : Value) :
    schema.fieldFor? key want = if spec.passesOver want then none else some spec := by
  simp [fieldFor?, known]

theorem fieldFor?_eq_some {key : String} {want : Value} {spec : FieldSpec} :
    schema.fieldFor? key want = some spec ↔
      schema.field? key = some spec ∧ spec.passesOver want = false := by
  cases found : schema.field? key with
  | none => simp [fieldFor?_of_unknown found]
  | some other =>
      rw [fieldFor?_of_known found]
      constructor
      · intro same
        split at same
        · cases same
        · rename_i notPassed
          cases same
          exact ⟨rfl, by simpa using notPassed⟩
      · rintro ⟨same, notPassed⟩
        cases same
        simp [notPassed]

/-- What the field of a desired attribute has against its value. -/
def objection? (schema : Schema) (key : String) (want : Value) : Option String :=
  (schema.fieldFor? key want).bind (·.objection? want)

/-- Whether a desired attribute is for a field that holds another value. -/
def differs (schema : Schema) (object : RemoteObject) (key : String) (want : Value) : Bool :=
  (schema.fieldFor? key want).isSome && !want.agrees (object.getD key)

/-- The error with which a difference refuses a desired attribute. -/
def refusal? (schema : Schema) (object : RemoteObject) (policy : MutabilityPolicy) (key : String)
    (want : Value) : Option PassError :=
  match schema.objection? key want with
  | some reason => some (.invalidValue object.reference.text key reason)
  | none =>
      if schema.differs object key want && !policy.allows key then
        some (.nonMutableField object.reference.text key)
      else none

/-- The change that a difference makes for a desired attribute. -/
def change? (schema : Schema) (object : RemoteObject) (key : String) (want : Value) :
    Option FieldChange :=
  if schema.differs object key want then some ⟨key, object.get? key, want⟩ else none

theorem differs_eq_true_iff {key : String} {want : Value} :
    schema.differs object key want = true ↔
      (∃ spec, schema.fieldFor? key want = some spec) ∧ want.agrees (object.getD key) = false := by
  simp [differs, Option.isSome_iff_exists]

theorem refusal?_eq_none_iff {key : String} {want : Value} :
    schema.refusal? object policy key want = none ↔ schema.objection? key want = none ∧
      (schema.differs object key want = true → policy.allows key = true) := by
  unfold refusal?
  cases schema.objection? key want with
  | none => simp
  | some reason => simp

theorem refusal?_eq_some_iff {key : String} {want : Value} {error : PassError} :
    schema.refusal? object policy key want = some error ↔
      (∃ reason, schema.objection? key want = some reason ∧
        error = .invalidValue object.reference.text key reason) ∨
      (schema.objection? key want = none ∧ schema.differs object key want = true ∧
        policy.allows key = false ∧ error = .nonMutableField object.reference.text key) := by
  unfold refusal?
  cases schema.objection? key want with
  | some reason =>
      constructor
      · intro same
        cases same
        exact .inl ⟨reason, rfl, rfl⟩
      · rintro (⟨_, same, rfl⟩ | ⟨absurd, _⟩)
        · cases same
          rfl
        · cases absurd
  | none =>
      cases schema.differs object key want with
      | false => simp
      | true => cases policy.allows key <;> simp [eq_comm (a := error)]

theorem change?_eq_some_iff {key : String} {want : Value} {change : FieldChange} :
    schema.change? object key want = some change ↔
      schema.differs object key want = true ∧ change = ⟨key, object.get? key, want⟩ := by
  unfold change?
  cases schema.differs object key want with
  | false => simp
  | true => simp [eq_comm]

/-! ## Validation -/

theorem validateEntries_cons (key : String) (want : Value) (rest : List (String × Value)) :
    schema.validateEntries ((key, want) :: rest) = match schema.objection? key want with
      | some reason => .error (.invalidValue schema.kind key reason)
      | none => schema.validateEntries rest := by
  rw [validateEntries, objection?]
  cases found : schema.field? key with
  | none => rw [fieldFor?_of_unknown found, Option.bind_none]
  | some spec =>
      rw [fieldFor?_of_known found]
      simp only [FieldSpec.check_eq, name_of_field? found]
      cases spec.passesOver want with
      | true => rfl
      | false => cases objects : spec.objection? want <;> simp [objects]

/-- The first of some desired attributes that its field objects to, with the objection. -/
def firstObjection? (schema : Schema) (entries : List (String × Value)) : Option (String × String) :=
  entries.findSome? fun entry => (schema.objection? entry.1 entry.2).map (entry.1, ·)

theorem validateEntries_eq (entries : List (String × Value)) :
    schema.validateEntries entries = match schema.firstObjection? entries with
      | some (key, reason) => .error (.invalidValue schema.kind key reason)
      | none => .ok () := by
  induction entries with
  | nil => rfl
  | cons head rest ih =>
      rw [validateEntries_cons, firstObjection?, List.findSome?_cons]
      cases schema.objection? head.1 head.2 with
      | none => exact ih
      | some reason => rfl

theorem validateEntries_eq_ok_iff {entries : List (String × Value)} :
    schema.validateEntries entries = .ok () ↔
      ∀ entry ∈ entries, schema.objection? entry.1 entry.2 = none := by
  have none := List.findSome?_eq_none_iff
    (l := entries) (p := fun entry => (schema.objection? entry.1 entry.2).map (entry.1, ·))
  simp only [Option.map_eq_none_iff] at none
  rw [validateEntries_eq, ← none, firstObjection?]
  cases entries.findSome? fun entry => (schema.objection? entry.1 entry.2).map (entry.1, ·) with
  | none => simp
  | some found => simp

/-! ## Differences -/

theorem diffEntries_cons (key : String) (want : Value) (rest : List (String × Value)) :
    schema.diffEntries object policy ((key, want) :: rest) =
      match schema.refusal? object policy key want with
      | some error => .error error
      | none => (schema.diffEntries object policy rest).map
          ((schema.change? object key want).toList ++ ·) := by
  have unchanged : schema.diffEntries object policy rest =
      (schema.diffEntries object policy rest).map ([] ++ ·) := by
    cases schema.diffEntries object policy rest <;> rfl
  rw [diffEntries, refusal?, change?, differs, objection?]
  cases found : schema.field? key with
  | none =>
      rw [fieldFor?_of_unknown found]
      exact unchanged
  | some spec =>
      rw [fieldFor?_of_known found]
      simp only [FieldSpec.check_eq, name_of_field? found]
      cases spec.passesOver want with
      | true => exact unchanged
      | false =>
          cases objects : spec.objection? want with
          | some reason => simp [objects]
          | none =>
              cases want.agrees (object.getD key) with
              | true => simpa [objects] using unchanged
              | false =>
                  cases policy.allows key with
                  | false => simp [objects]
                  | true => cases schema.diffEntries object policy rest <;> simp [objects, Except.map]

/-- The refusal of the first of some desired attributes that a difference refuses. -/
def firstRefusal? (schema : Schema) (object : RemoteObject) (policy : MutabilityPolicy)
    (entries : List (String × Value)) : Option PassError :=
  entries.findSome? fun entry => schema.refusal? object policy entry.1 entry.2

/-- The changes for some desired attributes, in their order. -/
def changesFor (schema : Schema) (object : RemoteObject) (entries : List (String × Value)) :
    List FieldChange :=
  entries.filterMap fun entry => schema.change? object entry.1 entry.2

private theorem firstRefusal?_cons (head : String × Value) (rest : List (String × Value)) :
    schema.firstRefusal? object policy (head :: rest) =
      (schema.refusal? object policy head.1 head.2).or (schema.firstRefusal? object policy rest) := by
  rw [firstRefusal?, List.findSome?_cons]
  cases schema.refusal? object policy head.1 head.2 <;> rfl

private theorem changesFor_cons (head : String × Value) (rest : List (String × Value)) :
    schema.changesFor object (head :: rest) =
      (schema.change? object head.1 head.2).toList ++ schema.changesFor object rest := by
  rw [changesFor, List.filterMap_cons]
  cases schema.change? object head.1 head.2 <;> rfl

/-- A difference fails with the first refusal, and otherwise has all changes. -/
theorem diffEntries_eq (entries : List (String × Value)) :
    schema.diffEntries object policy entries = match schema.firstRefusal? object policy entries with
      | some error => .error error
      | none => .ok (schema.changesFor object entries) := by
  induction entries with
  | nil => rfl
  | cons head rest ih =>
      rw [diffEntries_cons, ih, firstRefusal?_cons, changesFor_cons]
      cases schema.refusal? object policy head.1 head.2 with
      | some error => rfl
      | none => cases schema.firstRefusal? object policy rest <;> rfl

theorem diffEntries_eq_ok_iff {entries : List (String × Value)} {changes : List FieldChange} :
    schema.diffEntries object policy entries = .ok changes ↔
      (∀ entry ∈ entries, schema.refusal? object policy entry.1 entry.2 = none) ∧
        schema.changesFor object entries = changes := by
  rw [diffEntries_eq, ← List.findSome?_eq_none_iff, ← firstRefusal?]
  cases schema.firstRefusal? object policy entries with
  | none => simp
  | some error => simp

theorem diffEntries_eq_error_iff {entries : List (String × Value)} {error : PassError} :
    schema.diffEntries object policy entries = .error error ↔
      ∃ before entry after, entries = before ++ entry :: after ∧
        schema.refusal? object policy entry.1 entry.2 = some error ∧
        ∀ earlier ∈ before, schema.refusal? object policy earlier.1 earlier.2 = none := by
  refine Iff.trans ?_ List.findSome?_eq_some_iff
  rw [diffEntries_eq, ← firstRefusal?]
  cases schema.firstRefusal? object policy entries with
  | none => simp
  | some error => simp

theorem mem_changesFor {entries : List (String × Value)} {change : FieldChange} :
    change ∈ schema.changesFor object entries ↔
      ∃ entry ∈ entries, schema.change? object entry.1 entry.2 = some change :=
  List.mem_filterMap

theorem changesFor_sublist (entries : List (String × Value)) :
    ((schema.changesFor object entries).map fun change => (change.field, change.new)).Sublist
      entries := by
  induction entries with
  | nil => exact .slnil
  | cons head rest ih =>
      rw [changesFor_cons]
      cases made : schema.change? object head.1 head.2 with
      | none => exact ih.cons head
      | some change =>
          obtain ⟨_, rfl⟩ := change?_eq_some_iff.mp made
          exact ih.cons_cons head

end Schema

end DesiredState
