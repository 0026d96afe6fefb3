import Mathlib.Data.List.Basic
import Mathlib.Data.List.Perm.Subperm
import DesiredState.Proofs.Diff
import DesiredState.Schema.Catalog

/-!
# The least sufficient change

A difference fails exactly if a desired attribute is in its way: the value is of the wrong kind, or
differs where the policy allows no change. It then names the first such attribute. The changes of a
difference suffice, and none of them can be spared: an object that has got some of them needs exactly
the others.
-/

set_option autoImplicit false

namespace DesiredState

/-- The object with some changes written into its attributes. -/
def RemoteObject.changedBy (object : RemoteObject) (changes : List FieldChange) : RemoteObject :=
  { object with attributes := FieldChange.applyAll changes object.attributes }

/-- A value of another kind than that of the field. -/
def FieldSpec.Mismatches (spec : FieldSpec) (want : Value) : Prop :=
  want ≠ .null ∧ spec.kind.accepts want = false

private theorem FieldSpec.passesOver_eq_false_iff {spec : FieldSpec} {want : Value} :
    spec.passesOver want = false ↔ ¬ (want = .null ∧ spec.nullable = false) := by
  cases want <;> simp [passesOver, Value.isNull]

/-- The field of a value that is not passed over objects to its kind alone. -/
theorem FieldSpec.objection?_eq_some_iff {spec : FieldSpec} {want : Value}
    (notPassed : spec.passesOver want = false) {reason : String} :
    spec.objection? want = some reason ↔ spec.Mismatches want ∧
      reason = "expected " ++ spec.kind.name ++ ", got " ++ want.plain := by
  by_cases null : want = .null
  · subst null
    have clears : spec.nullable = true := by simpa [passesOver, Value.isNull] using notPassed
    simp [objection?, Value.isNull, clears, Mismatches]
  · have notNull : want.isNull = false := by
      cases isNull : want.isNull with
      | false => rfl
      | true => exact absurd (Value.eq_null_of_isNull isNull) null
    cases accepts : spec.kind.accepts want <;>
      simp [objection?, notNull, accepts, Mismatches, null, eq_comm]

namespace Schema

/-- A desired attribute that counts: the schema knows it, and it is not a null on a field that cannot be
cleared. -/
structure Asked (schema : Schema) (desired : Attributes) (key : String) (want : Value)
    (spec : FieldSpec) : Prop where
  wanted : desired.find? key = some want
  known : schema.field? key = some spec
  counts : ¬ (want = .null ∧ spec.nullable = false)

/-- A desired attribute is in the way of a difference. -/
def Blocked (schema : Schema) (object : RemoteObject) (policy : MutabilityPolicy) (desired : Attributes)
    (key : String) : Prop :=
  ∃ want spec, schema.Asked desired key want spec ∧
    (spec.Mismatches want ∨ want.agrees (object.getD key) = false ∧ policy.allows key = false)

/-- The error that tells what is wrong with a desired attribute. A value of the wrong kind comes before
a change that is not allowed. -/
inductive Blames (schema : Schema) (object : RemoteObject) (desired : Attributes) (key : String) :
    PassError → Prop where
  | mismatch {want : Value} {spec : FieldSpec} (asked : schema.Asked desired key want spec)
      (mismatches : spec.Mismatches want) :
      Blames schema object desired key (.invalidValue object.reference.text key
        ("expected " ++ spec.kind.name ++ ", got " ++ want.plain))
  | fixed (fits : ∀ want spec, schema.Asked desired key want spec → ¬ spec.Mismatches want) :
      Blames schema object desired key (.nonMutableField object.reference.text key)

/-- Changes that bring an object to the desired attributes, and of which none can be spared. -/
structure LeastChange (schema : Schema) (object : RemoteObject) (policy : MutabilityPolicy)
    (desired : Attributes) (changes : List FieldChange) : Prop where
  ordered : (changes.map (·.field)).Pairwise (· < ·)
  allowed : ∀ change ∈ changes, policy.allows change.field = true
  wanted : ∀ change ∈ changes, desired.find? change.field = some change.new
  known : ∀ change ∈ changes, schema.knows change.field = true
  sufficient : schema.diff (object.changedBy changes) desired policy = .ok []
  necessary : ∀ part, part.Sublist changes → part ≠ changes →
    schema.diff (object.changedBy part) desired policy = .ok (changes.filter (· ∉ part)) ∧
      changes.filter (· ∉ part) ≠ []

variable {schema : Schema} {object : RemoteObject} {policy : MutabilityPolicy} {desired : Attributes}

private theorem asked_iff {key : String} {want : Value} {spec : FieldSpec} :
    schema.Asked desired key want spec ↔
      desired.find? key = some want ∧ schema.fieldFor? key want = some spec := by
  rw [fieldFor?_eq_some, FieldSpec.passesOver_eq_false_iff]
  exact ⟨fun asked => ⟨asked.wanted, asked.known, asked.counts⟩,
    fun both => ⟨both.1, both.2.1, both.2.2⟩⟩

private theorem Asked.unique {key : String} {want other : Value} {spec second : FieldSpec}
    (asked : schema.Asked desired key want spec) (again : schema.Asked desired key other second) :
    want = other ∧ spec = second :=
  ⟨Option.some.inj (asked.wanted.symm.trans again.wanted),
    Option.some.inj (asked.known.symm.trans again.known)⟩

/-! ## Failure -/

private theorem objection?_of_asked {key : String} {want : Value} {spec : FieldSpec}
    (asked : schema.Asked desired key want spec) {reason : String} :
    schema.objection? key want = some reason ↔ spec.Mismatches want ∧
      reason = "expected " ++ spec.kind.name ++ ", got " ++ want.plain := by
  rw [objection?, (asked_iff.mp asked).2, Option.bind_some]
  exact FieldSpec.objection?_eq_some_iff (FieldSpec.passesOver_eq_false_iff.mpr asked.counts)

private theorem differs_of_asked {key : String} {want : Value} {spec : FieldSpec}
    (asked : schema.Asked desired key want spec) :
    schema.differs object key want = !want.agrees (object.getD key) := by
  rw [differs, (asked_iff.mp asked).2, Option.isSome_some, Bool.true_and]

private theorem exists_asked {key : String} {want : Value} (wanted : desired.find? key = some want)
    {error : PassError} (refused : schema.refusal? object policy key want = some error) :
    ∃ spec, schema.Asked desired key want spec := by
  cases field : schema.fieldFor? key want with
  | none => simp [refusal?, objection?, differs, field] at refused
  | some spec => exact ⟨spec, asked_iff.mpr ⟨wanted, field⟩⟩

/-- The attributes in the way are those that are refused. -/
theorem blocked_iff {key : String} :
    schema.Blocked object policy desired key ↔
      ∃ want error, desired.find? key = some want ∧
        schema.refusal? object policy key want = some error := by
  constructor
  · rintro ⟨want, spec, asked, mismatches | ⟨disagrees, fixed⟩⟩
    · have objects := (objection?_of_asked asked).mpr ⟨mismatches, rfl⟩
      exact ⟨want, _, asked.wanted, refusal?_eq_some_iff.mpr (.inl ⟨_, objects, rfl⟩)⟩
    · cases objects : schema.objection? key want with
      | some reason => exact ⟨want, _, asked.wanted, refusal?_eq_some_iff.mpr (.inl ⟨_, objects, rfl⟩)⟩
      | none =>
          have differs : schema.differs object key want = true := by
            simp [differs_of_asked asked, disagrees]
          exact ⟨want, _, asked.wanted, refusal?_eq_some_iff.mpr (.inr ⟨objects, differs, fixed, rfl⟩)⟩
  · rintro ⟨want, error, wanted, refused⟩
    obtain ⟨spec, asked⟩ := exists_asked wanted refused
    refine ⟨want, spec, asked, ?_⟩
    rcases refusal?_eq_some_iff.mp refused with ⟨reason, objects, _⟩ | ⟨_, differs, fixed, _⟩
    · exact .inl ((objection?_of_asked asked).mp objects).1
    · exact .inr ⟨by simpa [differs_of_asked asked] using differs, fixed⟩

private theorem blames_of_refusal? {key : String} {want : Value} (wanted : desired.find? key = some want)
    {error : PassError} (refused : schema.refusal? object policy key want = some error) :
    schema.Blames object desired key error := by
  obtain ⟨spec, asked⟩ := exists_asked wanted refused
  rcases refusal?_eq_some_iff.mp refused with ⟨reason, objects, rfl⟩ | ⟨unopposed, _, _, rfl⟩
  · obtain ⟨mismatches, rfl⟩ := (objection?_of_asked asked).mp objects
    exact .mismatch asked mismatches
  · refine .fixed fun other second again mismatches => ?_
    obtain ⟨rfl, rfl⟩ := asked.unique again
    rw [(objection?_of_asked asked).mpr ⟨mismatches, rfl⟩] at unopposed
    cases unopposed

private theorem diff_eq_error {error : PassError}
    (failed : schema.diff object desired policy = .error error) :
    ∃ key, schema.Blocked object policy desired key ∧
      (∀ other, schema.Blocked object policy desired other → key ≤ other) ∧
      schema.Blames object desired key error := by
  obtain ⟨before, ⟨key, want⟩, after, split, refused, unopposed⟩ := diffEntries_eq_error_iff.mp failed
  have wanted : desired.find? key = some want :=
    SortedMap.mem_entries_iff.mp (by simp [split])
  refine ⟨key, blocked_iff.mpr ⟨want, error, wanted, refused⟩, fun other blocked => ?_,
    blames_of_refusal? wanted refused⟩
  obtain ⟨value, otherError, otherWanted, otherRefused⟩ := blocked_iff.mp blocked
  have member : (other, value) ∈ before ++ (key, want) :: after :=
    split ▸ SortedMap.mem_entries_iff.mpr otherWanted
  rcases List.mem_append.mp member with early | late
  · rw [unopposed _ early] at otherRefused
    cases otherRefused
  · rcases List.mem_cons.mp late with same | behind
    · cases same
      exact String.le_refl key
    · have ascending : Entries.Ascending (before ++ (key, want) :: after) := split ▸ desired.ascending
      have above := List.pairwise_append.mp ascending
      exact String.not_lt.mp (String.lt_asymm ((List.pairwise_cons.mp above.2.1).1 _ behind))

private theorem not_blocked_of_diff {changes : List FieldChange}
    (accepted : schema.diff object desired policy = .ok changes) (key : String) :
    ¬ schema.Blocked object policy desired key := by
  intro blocked
  obtain ⟨want, error, wanted, refused⟩ := blocked_iff.mp blocked
  have unopposed := (diffEntries_eq_ok_iff.mp accepted).1 _ (SortedMap.mem_entries_iff.mpr wanted)
  rw [refused] at unopposed
  cases unopposed

private theorem diff_fails_iff : (∃ error, schema.diff object desired policy = .error error) ↔
    ∃ key, schema.Blocked object policy desired key := by
  constructor
  · rintro ⟨error, failed⟩
    obtain ⟨key, blocked, _⟩ := diff_eq_error failed
    exact ⟨key, blocked⟩
  · rintro ⟨key, blocked⟩
    cases result : schema.diff object desired policy with
    | error error => exact ⟨error, rfl⟩
    | ok changes => exact absurd blocked (not_blocked_of_diff result key)

/-! ## Success -/

private theorem change?_of_mem {entries : List (String × Value)} {change : FieldChange}
    (member : change ∈ schema.changesFor object entries) :
    schema.change? object change.field change.new = some change := by
  obtain ⟨entry, _, made⟩ := mem_changesFor.mp member
  obtain ⟨_, rfl⟩ := change?_eq_some_iff.mp made
  exact made

/-- A desired attribute asks the object that has got some changes for the same as before, unless its own
change is among them. -/
theorem change?_changedBy {changes part : List FieldChange}
    (accepted : schema.diff object desired policy = .ok changes) (sub : part.Sublist changes)
    {key : String} {want : Value} (wanted : desired.find? key = some want) :
    schema.change? (object.changedBy part) key want =
      (schema.change? object key want).filter (· ∉ part) := by
  have ascending : Entries.Ascending (part.map fun change => (change.field, change.new)) :=
    (sendable_of_diff accepted).ascending.sublist (sub.map _)
  obtain ⟨_, isChanges⟩ := diffEntries_eq_ok_iff.mp accepted
  by_cases touched : ∃ change ∈ part, change.field = key
  · obtain ⟨change, inPart, rfl⟩ := touched
    have inChanges := sub.subset inPart
    have same := Option.some.inj (wanted.symm.trans (desired_of_change accepted inChanges))
    have made := change?_of_mem (isChanges ▸ inChanges)
    have reads : (object.changedBy part).getD change.field = want := by
      rw [RemoteObject.getD, RemoteObject.get?, RemoteObject.changedBy,
        FieldChange.find?_applyAll_of_mem ascending _ inPart, Option.getD_some, same]
    rw [same, made, ← same, Option.filter_some_neg (by simpa using inPart), change?, differs, reads,
      Value.agrees_self]
    simp
  · have untouched : ∀ change ∈ part, change.field ≠ key :=
      fun change inPart same => touched ⟨change, inPart, same⟩
    have reads : (object.changedBy part).get? key = object.get? key :=
      FieldChange.find?_applyAll_of_not_mem ascending _ untouched
    have unchanged : schema.change? (object.changedBy part) key want = schema.change? object key want := by
      rw [change?, change?, differs, differs, RemoteObject.getD, RemoteObject.getD, reads]
    rw [unchanged]
    cases made : schema.change? object key want with
    | none => rfl
    | some change =>
        obtain ⟨_, rfl⟩ := change?_eq_some_iff.mp made
        have missing : (⟨key, object.get? key, want⟩ : FieldChange) ∉ part :=
          fun inPart => untouched _ inPart rfl
        exact (Option.filter_some_pos (by simpa using missing)).symm

/-- An object that has got some of the changes needs exactly the others. -/
theorem diff_changedBy {changes part : List FieldChange}
    (accepted : schema.diff object desired policy = .ok changes) (sub : part.Sublist changes) :
    schema.diff (object.changedBy part) desired policy = .ok (changes.filter (· ∉ part)) := by
  obtain ⟨unopposed, rfl⟩ := diffEntries_eq_ok_iff.mp accepted
  refine diffEntries_eq_ok_iff.mpr ⟨fun entry member => ?_, ?_⟩
  · obtain ⟨fine, allowed⟩ := refusal?_eq_none_iff.mp (unopposed entry member)
    refine refusal?_eq_none_iff.mpr ⟨fine, fun differs => allowed ?_⟩
    have made := change?_eq_some_iff.mpr ⟨differs, rfl⟩
    rw [change?_changedBy accepted sub (SortedMap.mem_entries_iff.mp member),
      Option.filter_eq_some_iff] at made
    exact (change?_eq_some_iff.mp made.1).1
  · rw [changesFor, changesFor, List.filter_filterMap]
    exact List.filterMap_congr fun entry member =>
      change?_changedBy accepted sub (SortedMap.mem_entries_iff.mp member)

private theorem ordered_of_diff {changes : List FieldChange}
    (accepted : schema.diff object desired policy = .ok changes) :
    (changes.map (·.field)).Pairwise (· < ·) := by
  have ascending := (sendable_of_diff accepted).ascending
  rw [Entries.Ascending, List.pairwise_map] at ascending
  exact List.pairwise_map.mpr ascending

/-- Some changes are left over if not all have been made. -/
theorem others_ne_nil {changes part : List FieldChange} (nodup : changes.Nodup)
    (sub : part.Sublist changes) (proper : part ≠ changes) : changes.filter (· ∉ part) ≠ [] := by
  intro nothing
  have inside : changes ⊆ part := by
    intro change member
    simpa using List.filter_eq_nil_iff.mp nothing change member
  exact proper (sub.eq_of_length_le (List.subperm_of_subset nodup inside).length_le)

private theorem leastChange_of_diff {changes : List FieldChange}
    (accepted : schema.diff object desired policy = .ok changes) :
    schema.LeastChange object policy desired changes where
  ordered := ordered_of_diff accepted
  allowed := fun _ member => (changeOf_of_mem accepted member).allowed
  wanted := fun _ member => desired_of_change accepted member
  known := by
    intro change member
    obtain ⟨spec, found, _⟩ := (changeOf_of_mem accepted member).known
    simp [knows, found]
  sufficient := diff_applyAll accepted rfl policy
  necessary := by
    intro part sub proper
    have nodup : changes.Nodup := by
      refine (List.pairwise_map.mp (ordered_of_diff accepted)).imp ?_
      intro earlier later before same
      exact String.lt_irrefl _ (same ▸ before)
    exact ⟨diff_changedBy accepted sub, others_ne_nil nodup sub proper⟩

/-- Attributes that the schema does not know make no difference. -/
theorem diff_congr {other : Attributes}
    (same : ∀ key, schema.knows key = true → other.find? key = desired.find? key) :
    schema.diff object other policy = schema.diff object desired policy := by
  refine walk_congr ?_ ?_ same
  · intro key want rest unknown
    rw [diffEntries, unknown]
  · intro head first second sameRest
    rw [diffEntries_cons, diffEntries_cons, sameRest]

/-- A difference is the least sufficient change. It fails exactly if a desired attribute is in its way,
and then names the first such attribute and what is wrong with it. Otherwise its changes are in order and
allowed, they suffice, and none can be spared. What the schema does not know plays no part. -/
theorem diff_is_least_change (schema : Schema) (object : RemoteObject) (desired : Attributes)
    (policy : MutabilityPolicy) :
    ((∃ error, schema.diff object desired policy = .error error) ↔
      ∃ key, schema.Blocked object policy desired key) ∧
    (∀ error, schema.diff object desired policy = .error error →
      ∃ key, schema.Blocked object policy desired key ∧
        (∀ other, schema.Blocked object policy desired other → key ≤ other) ∧
        schema.Blames object desired key error) ∧
    (∀ changes, schema.diff object desired policy = .ok changes →
      schema.LeastChange object policy desired changes) ∧
    (∀ other : Attributes, (∀ key, schema.knows key = true → other.find? key = desired.find? key) →
      schema.diff object other policy = schema.diff object desired policy) := by
  refine ⟨diff_fails_iff, fun error failed => ?_, fun changes accepted => ?_, fun other same => ?_⟩
  · exact diff_eq_error failed
  · exact leastChange_of_diff accepted
  · exact diff_congr same

/-- An instance, and a desire for another label and no group. -/
def regroupedInstance : RemoteObject × Attributes :=
  (⟨.top "instance" 7, ((∅ : Attributes).insert "label" (.string "a")).insert "group" (.string "web")⟩,
    (((∅ : Attributes).insert "label" (.string "b")).insert "group" .null).insert "rack" (.ofNat 4))

theorem diff_is_least_change_regroupedInstance :
    ∃ group label,
      Catalog.computeInstance.diff regroupedInstance.1 regroupedInstance.2
        Catalog.computeInstance.mutabilityPolicy = .ok [group, label] ∧
      group.new = .null ∧ label.new = .string "b" ∧
      Catalog.computeInstance.LeastChange regroupedInstance.1 Catalog.computeInstance.mutabilityPolicy
        regroupedInstance.2 [group, label] ∧
      ∃ key, Catalog.computeInstance.diff regroupedInstance.1 regroupedInstance.2 ⟨["label"]⟩ =
          .error (.nonMutableField "instance/7" "group") ∧
        Catalog.computeInstance.Blocked regroupedInstance.1 ⟨["label"]⟩ regroupedInstance.2 key ∧
        Catalog.computeInstance.Blames regroupedInstance.1 regroupedInstance.2 key
          (.nonMutableField "instance/7" "group") := by
  obtain ⟨_, _, least, _⟩ := diff_is_least_change Catalog.computeInstance regroupedInstance.1
    regroupedInstance.2 Catalog.computeInstance.mutabilityPolicy
  obtain ⟨_, first, _, _⟩ := diff_is_least_change Catalog.computeInstance regroupedInstance.1
    regroupedInstance.2 ⟨["label"]⟩
  obtain ⟨key, blocked, _, blames⟩ := first (.nonMutableField "instance/7" "group") rfl
  exact ⟨_, _, rfl, rfl, rfl, least _ rfl, key, rfl, blocked, blames⟩

end Schema

end DesiredState
