import DesiredState.Proofs.Matching

/-!
# Validation and differences

Validation and the difference from an object check the same attributes in the same order. Under a policy
that allows every field of the schema a difference fails exactly where validation fails, for the same
reason and whatever the object holds. The payload of an accepted entry is valid, so that a matching of
accepted entries never meets a value that does not suit its field.
-/

set_option autoImplicit false

namespace DesiredState

/-- The policy allows every field of the schema. -/
def MutabilityPolicy.AllowsAll (policy : MutabilityPolicy) (schema : Schema) : Prop :=
  ∀ spec ∈ schema.fields, policy.allows spec.name = true

namespace Schema

variable {schema : Schema} {object : RemoteObject} {policy : MutabilityPolicy} {desired : Attributes}

private theorem allows_of_differs (all : policy.AllowsAll schema) {key : String} {want : Value}
    (differs : schema.differs object key want = true) : policy.allows key = true := by
  obtain ⟨⟨spec, asked⟩, _⟩ := differs_eq_true_iff.mp differs
  have found := (fieldFor?_eq_some.mp asked).1
  exact name_of_field? found ▸ all spec (mem_of_field? found)

private theorem refusal?_of_allowsAll (all : policy.AllowsAll schema) (key : String) (want : Value) :
    schema.refusal? object policy key want =
      (schema.objection? key want).map (.invalidValue object.reference.text key ·) := by
  cases objects : schema.objection? key want with
  | some reason => simp [refusal?, objects]
  | none => exact refusal?_eq_none_iff.mpr ⟨objects, allows_of_differs all⟩

/-- Where every field may change, a difference fails with the first objection. -/
theorem diffEntries_of_allowsAll (all : policy.AllowsAll schema) (entries : List (String × Value)) :
    schema.diffEntries object policy entries = match schema.firstObjection? entries with
      | some (key, reason) => .error (.invalidValue object.reference.text key reason)
      | none => .ok (schema.changesFor object entries) := by
  have same : schema.firstRefusal? object policy entries = (schema.firstObjection? entries).map
      fun found => .invalidValue object.reference.text found.1 found.2 := by
    rw [firstRefusal?, firstObjection?, List.map_findSome?]
    congr 1
    funext entry
    rw [refusal?_of_allowsAll all, Function.comp_apply, Option.map_map]
    rfl
  rw [diffEntries_eq, same]
  cases schema.firstObjection? entries <;> rfl

/-- Validation and the difference from any object agree where every field may change. -/
theorem validate_or_diff (all : policy.AllowsAll schema) (desired : Attributes) :
    (schema.validate desired = .ok () ∧
      ∀ object, ∃ changes, schema.diff object desired policy = .ok changes) ∨
    ∃ key reason, schema.validate desired = .error (.invalidValue schema.kind key reason) ∧
      ∀ object, schema.diff object desired policy =
        .error (.invalidValue object.reference.text key reason) := by
  cases first : schema.firstObjection? desired.entries with
  | none =>
      refine .inl ⟨?_, fun object => ⟨schema.changesFor object desired.entries, ?_⟩⟩
      · rw [validate, validateEntries_eq, first]
      · rw [diff, diffEntries_of_allowsAll all, first]
  | some found =>
      refine .inr ⟨found.1, found.2, ?_, fun object => ?_⟩
      · rw [validate, validateEntries_eq, first]
      · rw [diff, diffEntries_of_allowsAll all, first]

/-! ## Accepted entries -/

/-- The difference of valid attributes can fail only at a field that may not change. -/
theorem diff_error_of_valid (valid : schema.validate desired = .ok ()) {error : PassError}
    (failed : schema.diff object desired policy = .error error) :
    ∃ key, error = .nonMutableField object.reference.text key := by
  obtain ⟨before, entry, after, split, refused, _⟩ := diffEntries_eq_error_iff.mp failed
  have unopposed := validateEntries_eq_ok_iff.mp valid entry (by simp [split])
  rcases refusal?_eq_some_iff.mp refused with ⟨reason, objects, _⟩ | ⟨_, _, _, same⟩
  · rw [unopposed] at objects
    cases objects
  · exact ⟨entry.1, same⟩

private theorem validate_payload {descriptor : Descriptor}
    (accepted : schema.descriptor desired = .ok descriptor) :
    schema.validate descriptor.payload = .ok () := by
  rw [(parts_of_descriptor accepted).2]
  exact validate_filter (validate_of_descriptor accepted) _

private theorem reconcile_error_of_descriptors {entries : List Attributes} {found : List Descriptor}
    (described : schema.descriptors entries = .ok found) {objects : List RemoteObject} {strict : Bool}
    {error : PassError} (failed : schema.reconcile objects found strict = .error error) :
    (∃ label candidates, error = .ambiguousMatch schema.kind label candidates) ∨
      ∃ resource key, error = .nonMutableField resource key := by
  obtain ⟨entry, member, ⟨_, candidates, same⟩ | ⟨object, _, differs⟩⟩ := matchEntries_error failed
  · exact .inl ⟨_, candidates, same⟩
  · obtain ⟨_, accepted⟩ := exists_entry_of_descriptors described member
    obtain ⟨key, same⟩ := diff_error_of_valid (validate_payload accepted) differs
    exact .inr ⟨_, key, same⟩

/-- Creating and updating accept the same desired attributes. Validation succeeds exactly if the
difference from every object does under a policy that allows every field, and otherwise all of these
differences fail at the same field for the same reason. Matching accepted entries therefore never finds
a value that does not suit its field. Where all that does not identify may change, as in every kind of
sub-resource of the catalog, it never fails without the strict flag. -/
theorem validate_agrees_with_diff (schema : Schema) (desired : Attributes) (policy : MutabilityPolicy)
    (all : policy.AllowsAll schema) :
    (schema.validate desired = .ok () ↔
      ∀ object, ∃ changes, schema.diff object desired policy = .ok changes) ∧
    (∀ error, schema.validate desired = .error error →
      ∃ key reason, error = .invalidValue schema.kind key reason ∧
        ∀ object, schema.diff object desired policy =
          .error (.invalidValue object.reference.text key reason)) ∧
    (∀ entries found, schema.descriptors entries = .ok found → ∀ objects,
      (∀ strict resource key reason, schema.reconcile objects found strict ≠
        .error (.invalidValue resource key reason)) ∧
      (schema.Adaptable → ∃ set, schema.reconcile objects found false = .ok set)) ∧
    (schema ∈ Catalog.all → ∀ parent ∈ Catalog.all, parent.hasChild schema.kind = true →
      schema.Adaptable) := by
  have agreement := validate_or_diff all desired
  refine ⟨⟨fun valid => ?_, fun total => ?_⟩, fun error invalid => ?_,
    fun entries found described objects => ⟨?_, ?_⟩, ?_⟩
  · rcases agreement with ⟨_, total⟩ | ⟨key, reason, invalid, _⟩
    · exact total
    · rw [valid] at invalid
      cases invalid
  · rcases agreement with ⟨valid, _⟩ | ⟨key, reason, _, failed⟩
    · exact valid
    · obtain ⟨changes, accepted⟩ := total ⟨.top schema.kind 0, ∅⟩
      rw [failed] at accepted
      cases accepted
  · rcases agreement with ⟨valid, _⟩ | ⟨key, reason, same, failed⟩
    · rw [valid] at invalid
      cases invalid
    · rw [same] at invalid
      cases invalid
      exact ⟨key, reason, rfl, failed⟩
  · intro strict resource key reason failed
    rcases reconcile_error_of_descriptors described failed with ⟨_, _, absurd⟩ | ⟨_, _, absurd⟩
    · cases absurd
    · cases absurd
  · exact fun adaptable => reconcile_total adaptable described objects
  · intro isCataloged parent member managed
    exact Catalog.adaptable member isCataloged managed

/-- A rule with a null that is passed over, one that clears its field, and a number for a text. -/
def misfitRule : Attributes :=
  (((∅ : Attributes).insert "action" .null).insert "ports" .null).insert "protocol" (.ofNat 6)

theorem validate_agrees_with_diff_misfitRule :
    (⟨Catalog.firewallRule.fields.map (·.name)⟩ : MutabilityPolicy).AllowsAll Catalog.firewallRule ∧
      Catalog.firewallRule.validate misfitRule =
        .error (.invalidValue "firewall_rule" "protocol" "expected string, got 6") ∧
      (∀ object, Catalog.firewallRule.diff object misfitRule
          ⟨Catalog.firewallRule.fields.map (·.name)⟩ =
        .error (.invalidValue object.reference.text "protocol" "expected string, got 6")) ∧
      Catalog.firewallRule.descriptors [(Catalog.wantedRule "ssh").identity] =
        .ok [Catalog.wantedRule "ssh"] ∧
      ∀ objects, ∃ set,
        Catalog.firewallRule.reconcile objects [Catalog.wantedRule "ssh"] false = .ok set := by
  have all : (⟨Catalog.firewallRule.fields.map (·.name)⟩ : MutabilityPolicy).AllowsAll
      Catalog.firewallRule := by
    unfold MutabilityPolicy.AllowsAll
    decide
  obtain ⟨_, sameError, matched, adaptable⟩ := validate_agrees_with_diff Catalog.firewallRule misfitRule
    ⟨Catalog.firewallRule.fields.map (·.name)⟩ all
  obtain ⟨key, reason, same, failed⟩ := sameError _ rfl
  cases same
  have managed := adaptable (by decide) Catalog.firewall (by decide) (by decide)
  exact ⟨all, rfl, failed, rfl, fun objects =>
    (matched [(Catalog.wantedRule "ssh").identity] _ rfl objects).2 managed⟩

end Schema

end DesiredState
