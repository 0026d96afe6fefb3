import Mathlib.Data.List.Nodup
import DesiredState.Proofs.Identity

/-!
# The labels of one sub-resource

A desired entry is labelled by its identity, an object by the identifying fields it reports. Where the entry
means the object, both labels show the values of the object. They are the same text unless the schema lists
the fields in another order than that of their names, or one of them is not reported.
-/

set_option autoImplicit false

namespace DesiredState

namespace Schema

variable {schema : Schema} {desired : Attributes} {descriptor : Descriptor} {object : RemoteObject}

/-- A label that shows a text for each of some fields. -/
def labelOf (schema : Schema) (names : List String) (text : String → String) : String :=
  schema.kind ++ "[" ++ ",".intercalate (names.map fun name => name ++ "=" ++ text name) ++ "]"

private theorem labelOf_congr {names : List String} {first second : String → String}
    (same : ∀ name ∈ names, first name = second name) :
    schema.labelOf names first = schema.labelOf names second := by
  have parts : (names.map fun name => name ++ "=" ++ first name) =
      names.map fun name => name ++ "=" ++ second name :=
    List.map_congr_left fun name member => by rw [same name member]
  rw [labelOf, parts, labelOf]

/-- Labels differ if the names of their first fields begin differently. -/
theorem labelOf_ne {first second : String} {c d : Char} {cs ds : List Char} {others rest : List String}
    {text shown : String → String} (isFirst : first.toList = c :: cs) (isSecond : second.toList = d :: ds)
    (different : c ≠ d) : schema.labelOf (first :: others) text ≠ schema.labelOf (second :: rest) shown := by
  intro same
  have letters := congrArg String.toList same
  cases others <;> cases rest <;> simp [labelOf, isFirst, isSecond, different] at letters

/-! ## The fields of an identity -/

/-- An identity lists each identifying field once. -/
theorem Regular.identity_keys_perm (regular : schema.Regular)
    (accepted : schema.descriptor desired = .ok descriptor) :
    (descriptor.identity.entries.map (·.1)).Perm (schema.identityFields.map (·.name)) := by
  have distinct : (schema.identityFields.map (·.name)).Nodup :=
    regular.names_nodup.sublist (List.filter_sublist.map _)
  refine (List.perm_ext_iff_of_nodup descriptor.identity.ascending.nodup_keys distinct).mpr fun name => ?_
  have found := find?_identity accepted name
  have listed : name ∈ descriptor.identity.entries.map (·.1) ↔ descriptor.identity.find? name ≠ none :=
    (not_iff_comm.mp Entries.find?_eq_none_iff.symm).symm
  rw [listed, found]
  simp

/-- A field that cannot be cleared has a value in every completed identity. -/
theorem ne_null_of_completeIdentity {specs : List FieldSpec} {identity complete : Attributes}
    (accepted : schema.completeIdentity identity specs = .ok complete) {spec : FieldSpec}
    (member : spec ∈ specs) (required : spec.nullable = false) :
    complete.find? spec.name ≠ some .null := by
  obtain ⟨value, given, notNull⟩ := (Option.any_eq_true _ _).mp
    (exists_completeIdentity_iff.mp ⟨complete, accepted⟩ spec member required)
  have kept : complete.find? spec.name = some value := by
    rw [find?_completeIdentity accepted, given, Option.getD_some, ite_self]
  rw [kept]
  rintro ⟨⟩
  cases notNull

/-- A field that cannot be cleared is reported by every object that an entry means. -/
theorem exists_report_of_means (byText : schema.IdentifiedByText)
    (accepted : schema.descriptor desired = .ok descriptor) (means : descriptor.matchesObject object = true)
    {spec : FieldSpec} (member : spec ∈ schema.identityFields) (required : spec.nullable = false) :
    ∃ value, object.get? spec.name = some value := by
  have notNull := ne_null_of_completeIdentity (parts_of_descriptor accepted).1 member required
  rw [find?_identity_of_means byText accepted means, if_pos (List.mem_map_of_mem member)] at notNull
  rw [← Option.ne_none_iff_exists']
  intro absent
  rw [RemoteObject.getD, absent] at notNull
  exact notNull rfl

/-! ## The two labels -/

/-- The label of an entry shows the values of the object that it means, a field that is not reported as
null, in the order of the names. -/
theorem identityLabel_of_means (byText : schema.IdentifiedByText)
    (accepted : schema.descriptor desired = .ok descriptor)
    (means : descriptor.matchesObject object = true) :
    schema.identityLabel descriptor =
      schema.labelOf (descriptor.identity.entries.map (·.1)) fun name => (object.getD name).plain := by
  have shown : ∀ entry ∈ descriptor.identity.entries, entry.2 = object.getD entry.1 := by
    intro entry member
    have found := SortedMap.mem_entries_iff.mp (show (entry.1, entry.2) ∈ _ from member)
    rw [find?_identity_of_means byText accepted means] at found
    split at found
    · exact (Option.some.inj found).symm
    · cases found
  have parts : (descriptor.identity.entries.map fun entry => entry.1 ++ "=" ++ entry.2.plain) =
      (descriptor.identity.entries.map (·.1)).map fun name => name ++ "=" ++ (object.getD name).plain := by
    rw [List.map_map]
    exact List.map_congr_left fun entry member => by rw [shown entry member]; rfl
  rw [identityLabel, labelOf, Descriptor.identityKey, ← parts]

/-- The label of an object shows the values that it reports, in the order of the schema. -/
theorem identityOf_eq (identified : schema.identityFields ≠ []) :
    schema.identityOf object =
      schema.labelOf (schema.identityFields.map (·.name)) fun name =>
        ((object.get? name).map Value.plain).getD "" := by
  unfold identityOf
  split
  · exact absurd ‹_› identified
  · rw [labelOf, List.map_map]
    rfl

/-- The labels are the same text if the schema lists the fields in the order of their names and none of
them may be missing. -/
theorem identityLabel_eq_identityOf_of_required (regular : schema.Regular) (byText : schema.IdentifiedByText)
    (identified : schema.identityFields ≠ [])
    (inOrder : (schema.identityFields.map (·.name)).Pairwise (· < ·))
    (required : ∀ spec ∈ schema.identityFields, spec.nullable = false)
    (accepted : schema.descriptor desired = .ok descriptor)
    (means : descriptor.matchesObject object = true) :
    schema.identityLabel descriptor = schema.identityOf object := by
  have names : descriptor.identity.entries.map (·.1) = schema.identityFields.map (·.name) :=
    Entries.keys_eq_of_perm (regular.identity_keys_perm accepted)
      descriptor.identity.ascending.keys_pairwise inOrder
  rw [identityLabel_of_means byText accepted means, identityOf_eq identified, names]
  refine labelOf_congr fun name member => ?_
  obtain ⟨spec, inIdentity, rfl⟩ := List.mem_map.mp member
  obtain ⟨value, reported⟩ :=
    exists_report_of_means byText accepted means inIdentity (required spec inIdentity)
  rw [RemoteObject.getD, reported]
  rfl

end Schema

namespace Catalog

variable {desired : Attributes} {descriptor : Descriptor} {object : RemoteObject}

/-- The identifying fields of most schemas are in order and cannot be cleared. -/
theorem identityFields_required {schema : Schema} (member : schema ∈ all)
    (other : schema ≠ instanceInterface) :
    (schema.identityFields.map (·.name)).Pairwise (· < ·) ∧
      ∀ spec ∈ schema.identityFields, spec.nullable = false := by
  have checked : ∀ schema ∈ all, schema ≠ instanceInterface →
      (schema.identityFields.map (·.name)).Pairwise (· < ·) ∧
        ∀ spec ∈ schema.identityFields, spec.nullable = false := by decide
  exact checked schema member other

/-- The schema of an interface lists its purpose before its label. -/
theorem identityLabel_ne_identityOf (accepted : instanceInterface.descriptor desired = .ok descriptor)
    (means : descriptor.matchesObject object = true) :
    instanceInterface.identityLabel descriptor ≠ instanceInterface.identityOf object := by
  have member : instanceInterface ∈ all := by decide
  have names : descriptor.identity.entries.map (·.1) = ["label", "purpose"] := by
    have listed := (regular member).identity_keys_perm accepted
    exact Entries.keys_eq_of_perm (listed.trans (List.Perm.swap "label" "purpose" []))
      descriptor.identity.ascending.keys_pairwise (by decide)
  rw [Schema.identityLabel_of_means (identifiedByText member) accepted means,
    Schema.identityOf_eq (by decide), names]
  exact Schema.labelOf_ne rfl rfl (by decide)

/-- The label of an entry shows the values of the object that it means in the order of the names, a field
that is not reported as null. That of the object shows them in the order of the schema, a field that is not
reported as nothing. The two are the same text for every schema but that of interfaces, and for that
never. -/
theorem labels_of_means {schema : Schema} (member : schema ∈ all) (identified : schema.identityFields ≠ [])
    (accepted : schema.descriptor desired = .ok descriptor)
    (means : descriptor.matchesObject object = true) :
    (∃ names : List String, names.Perm (schema.identityFields.map (·.name)) ∧ names.Pairwise (· < ·) ∧
        schema.identityLabel descriptor = schema.labelOf names fun name => (object.getD name).plain) ∧
      schema.identityOf object =
        schema.labelOf (schema.identityFields.map (·.name))
          (fun name => ((object.get? name).map Value.plain).getD "") ∧
      (schema.identityLabel descriptor = schema.identityOf object ↔ schema ≠ instanceInterface) := by
  have byText := identifiedByText member
  refine ⟨⟨_, (regular member).identity_keys_perm accepted,
    descriptor.identity.ascending.keys_pairwise,
    Schema.identityLabel_of_means byText accepted means⟩, Schema.identityOf_eq identified, ?_⟩
  constructor
  · rintro same rfl
    exact identityLabel_ne_identityOf accepted means same
  · intro other
    obtain ⟨inOrder, required⟩ := identityFields_required member other
    exact Schema.identityLabel_eq_identityOf_of_required (regular member) byText identified inOrder required
      accepted means

/-- A rule that is matched is reported under the label of its entry. -/
theorem labels_of_means_firewallRule :
    firewallRule.identityLabel ⟨.ofList [("label", .string "ssh")], ∅⟩ =
      firewallRule.identityOf
        ⟨.child (.top "firewall" 1) "firewall_rule" 2, .ofList [("label", .string "ssh")]⟩ := by
  have accepted : firewallRule.descriptor (.ofList [("label", .string "ssh")]) =
      .ok ⟨.ofList [("label", .string "ssh")], ∅⟩ := rfl
  have means : Descriptor.matchesObject ⟨.ofList [("label", .string "ssh")], ∅⟩
      ⟨.child (.top "firewall" 1) "firewall_rule" 2, .ofList [("label", .string "ssh")]⟩ = true := rfl
  exact (labels_of_means (by decide) (by decide) accepted means).2.2.mpr (by decide)

/-- An interface that is matched is reported under another label than that of its entry. -/
theorem labels_not_always_equal :
    ¬∀ schema ∈ all, schema.identityFields ≠ [] → ∀ (desired : Attributes) (descriptor : Descriptor),
      schema.descriptor desired = .ok descriptor → ∀ object : RemoteObject,
      descriptor.matchesObject object = true → schema.identityLabel descriptor = schema.identityOf object := by
  intro equal
  let attributes : Attributes := .ofList [("label", .string "eth0"), ("purpose", .string "public")]
  have same := equal instanceInterface (by decide) (by decide) attributes ⟨attributes, ∅⟩ rfl
    ⟨.child (.top "instance" 1) "instance_interface" 2, attributes⟩ rfl
  exact absurd same (by decide +kernel)

end Catalog

end DesiredState
