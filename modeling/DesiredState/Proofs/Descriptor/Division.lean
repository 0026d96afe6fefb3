import DesiredState.Proofs.Descriptor

/-!
# Entries without loss

An entry can be split exactly if what it gives to the fields of its schema is of their kinds or null, and
nothing that has to identify is missing. The two parts then share out the known fields: the identity has
all that identify, the payload the given ones of the others, each with the value that is desired. What the
schema does not know plays no part, not even in an error.
-/

set_option autoImplicit false

namespace DesiredState

/-- The values of a kind. -/
inductive Value.OfKind : FieldKind → Value → Prop where
  | string (text : String) : OfKind .string (.string text)
  | integer (number : Int) : OfKind .integer (.number (.integer number))
  | boolean (truth : Bool) : OfKind .boolean (.bool truth)
  | object (fields : List (String × Value)) : OfKind .object (.object fields)
  | list (items : List Value) : OfKind .list (.list items)

private theorem FieldKind.accepts_iff {kind : FieldKind} {value : Value} :
    kind.accepts value = true ↔ value.OfKind kind := by
  constructor
  · intro accepts
    unfold FieldKind.accepts at accepts
    split at accepts
    · exact .string _
    · exact .integer _
    · exact .boolean _
    · exact .object _
    · exact .list _
    · cases accepts
  · intro ofKind
    cases ofKind <;> rfl

namespace Schema

variable {schema : Schema} {desired : Attributes} {descriptor : Descriptor}

/-- An entry gives the fields of a schema what they can hold, and a value to those that have to identify. -/
structure Admits (schema : Schema) (desired : Attributes) : Prop where
  kinds : ∀ spec ∈ schema.fields, ∀ want, desired.find? spec.name = some want →
    want = .null ∨ want.OfKind spec.kind
  identified : ∀ spec ∈ schema.fields, spec.identity = true → spec.nullable = false →
    ∃ want, desired.find? spec.name = some want ∧ want ≠ .null

/-- The parts of a descriptor share out what an entry gives to the fields of a schema. -/
structure Divides (schema : Schema) (desired : Attributes) (descriptor : Descriptor) : Prop where
  identity_keys : ∀ key, key ∈ descriptor.identity.keys ↔
    ∃ spec ∈ schema.fields, spec.identity = true ∧ spec.name = key
  unset : ∀ spec ∈ schema.fields, spec.identity = true →
    (∀ want, desired.find? spec.name = some want → want = .null) →
    spec.nullable = true ∧ descriptor.identity.find? spec.name = some .null
  payload_keys : ∀ key, key ∈ descriptor.payload.keys ↔
    key ∈ desired.keys ∧ ∃ spec ∈ schema.fields, spec.identity = false ∧ spec.name = key
  disjoint : descriptor.identity.keys.Disjoint descriptor.payload.keys
  kept : ∀ spec ∈ schema.fields, ∀ want, desired.find? spec.name = some want →
    descriptor.get? spec.name = some want
  given : ∀ key want, descriptor.get? key = some want → want ≠ .null → desired.find? key = some want

/-! ## Which entries can be split -/

private theorem objection?_eq_none_iff {key : String} {want : Value} :
    schema.objection? key want = none ↔
      ∀ spec, schema.field? key = some spec → want = .null ∨ want.OfKind spec.kind := by
  rw [objection?]
  cases found : schema.field? key with
  | none => simp [fieldFor?_of_unknown found]
  | some spec =>
      rw [fieldFor?_of_known found]
      by_cases null : want = .null
      · -- A null is passed over or clears the field.
        subst null
        cases nullable : spec.nullable <;>
          simp [FieldSpec.passesOver, FieldSpec.objection?, Value.isNull, nullable]
      · have notNull : want.isNull = false :=
          Bool.eq_false_iff.mpr fun isNull => null (Value.eq_null_of_isNull isNull)
        simp [FieldSpec.passesOver, FieldSpec.objection?, notNull, null, FieldKind.accepts_iff]

private theorem validate_iff (names : (schema.fields.map (·.name)).Nodup) :
    schema.validate desired = .ok () ↔ ∀ spec ∈ schema.fields, ∀ want,
      desired.find? spec.name = some want → want = .null ∨ want.OfKind spec.kind := by
  rw [validate, validateEntries_eq_ok_iff]
  constructor
  · intro unopposed spec member want wanted
    have fits := unopposed _ (SortedMap.mem_entries_iff.mpr wanted)
    exact objection?_eq_none_iff.mp fits spec (field?_of_mem names member)
  · intro fits entry inEntry
    refine objection?_eq_none_iff.mpr fun spec found => ?_
    have wanted : desired.find? spec.name = some entry.2 :=
      name_of_field? found ▸ SortedMap.mem_entries_iff.mp inEntry
    exact fits spec (mem_of_field? found) entry.2 wanted

private theorem exists_descriptor_iff : (∃ descriptor, schema.descriptor desired = .ok descriptor) ↔
    schema.validate desired = .ok () ∧
      ∀ spec ∈ schema.identityFields, spec.nullable = false →
        ((desired.filter fun key _ => schema.identifies key).find? spec.name).any (!·.isNull) = true := by
  rw [← exists_completeIdentity_iff]
  constructor
  · rintro ⟨descriptor, accepted⟩
    exact ⟨validate_of_descriptor accepted, _, (parts_of_descriptor accepted).1⟩
  · rintro ⟨valid, identity, completed⟩
    simp only [Schema.descriptor, valid, completed]
    exact ⟨_, rfl⟩

/-- An identifying field has a value among the identifying attributes if the entry gives it one. -/
theorem any_identity_iff (names : (schema.fields.map (·.name)).Nodup) {spec : FieldSpec}
    (member : spec ∈ schema.identityFields) :
    ((desired.filter fun key _ => schema.identifies key).find? spec.name).any (!·.isNull) = true ↔
      ∃ want, desired.find? spec.name = some want ∧ want ≠ .null := by
  obtain ⟨inFields, identity⟩ := List.mem_filter.mp member
  have identifies : schema.identifies spec.name = true := (identifies_of_mem names inFields).trans identity
  have kept : (desired.filter fun key _ => schema.identifies key).find? spec.name =
      desired.find? spec.name := by
    rw [SortedMap.find?_filter, identifies]
    cases desired.find? spec.name <;> rfl
  rw [kept, Option.any_eq_true]
  refine exists_congr fun want => and_congr_right fun _ => ?_
  rw [Bool.not_eq_true', ← Bool.not_eq_true]
  refine not_congr ⟨Value.eq_null_of_isNull, ?_⟩
  rintro rfl
  rfl

private theorem admits_iff (names : (schema.fields.map (·.name)).Nodup) :
    (∃ descriptor, schema.descriptor desired = .ok descriptor) ↔ schema.Admits desired := by
  rw [exists_descriptor_iff, validate_iff names]
  constructor
  · rintro ⟨kinds, present⟩
    refine ⟨kinds, fun spec member identity required => ?_⟩
    have listed : spec ∈ schema.identityFields := List.mem_filter.mpr ⟨member, identity⟩
    exact (any_identity_iff names listed).mp (present spec listed required)
  · rintro ⟨kinds, identified⟩
    refine ⟨kinds, fun spec listed required => ?_⟩
    obtain ⟨member, identity⟩ := List.mem_filter.mp listed
    exact (any_identity_iff names listed).mpr (identified spec member identity required)

/-! ## What the parts have -/

private theorem mem_identity_keys_iff (accepted : schema.descriptor desired = .ok descriptor) {key : String} :
    key ∈ descriptor.identity.keys ↔ key ∈ schema.identityFields.map (·.name) := by
  rw [SortedMap.mem_keys_iff, find?_identity accepted]
  by_cases listed : key ∈ schema.identityFields.map (·.name)
  · simp [listed]
  · simp [listed]

private theorem mem_payload_keys_iff (accepted : schema.descriptor desired = .ok descriptor) {key : String} :
    key ∈ descriptor.payload.keys ↔
      key ∈ desired.keys ∧ schema.knows key = true ∧ schema.identifies key = false := by
  rw [SortedMap.mem_keys_iff, SortedMap.mem_keys_iff, (parts_of_descriptor accepted).2]
  simp only [SortedMap.find?_filter, Option.filter_eq_some_iff, Bool.and_eq_true, Bool.not_eq_true']
  constructor
  · rintro ⟨value, found, others⟩
    exact ⟨⟨value, found⟩, others⟩
  · rintro ⟨⟨value, found⟩, others⟩
    exact ⟨value, found, others⟩

private theorem knows_and_not_identifies_iff (names : (schema.fields.map (·.name)).Nodup) {key : String} :
    schema.knows key = true ∧ schema.identifies key = false ↔
      ∃ spec ∈ schema.fields, spec.identity = false ∧ spec.name = key := by
  constructor
  · rintro ⟨knows, apart⟩
    obtain ⟨spec, found⟩ := Option.isSome_iff_exists.mp knows
    refine ⟨spec, mem_of_field? found, ?_, name_of_field? found⟩
    simpa [identifies, found] using apart
  · rintro ⟨spec, member, other, rfl⟩
    exact ⟨by simp [knows, field?_of_mem names member], (identifies_of_mem names member).trans other⟩

private theorem divides_of_descriptor (names : (schema.fields.map (·.name)).Nodup)
    (accepted : schema.descriptor desired = .ok descriptor) : schema.Divides desired descriptor where
  identity_keys := by
    intro key
    simp only [mem_identity_keys_iff accepted, identityFields, List.mem_map, List.mem_filter, and_assoc]
  unset := by
    intro spec member identity unset
    have listed : spec ∈ schema.identityFields := List.mem_filter.mpr ⟨member, identity⟩
    refine ⟨?_, ?_⟩
    · -- A field that has to have a value was given one.
      by_contra required
      obtain ⟨want, wanted, value⟩ := ((admits_iff names).mp ⟨descriptor, accepted⟩).identified spec member
        identity (Bool.eq_false_iff.mpr required)
      exact value (unset want wanted)
    · rw [find?_identity accepted, if_pos (List.mem_map.mpr ⟨spec, listed, rfl⟩),
        identifies_of_mem names member, identity]
      cases wanted : desired.find? spec.name with
      | none => rfl
      | some want => rw [unset want wanted]; rfl
  payload_keys := by
    intro key
    rw [mem_payload_keys_iff accepted, knows_and_not_identifies_iff names]
  disjoint := by
    intro key inIdentity inPayload
    obtain ⟨want, found⟩ := SortedMap.mem_keys_iff.mp inIdentity
    have identifies := (splitOf_of_descriptor names accepted).identity.identifies key want found
    have apart := ((mem_payload_keys_iff accepted).mp inPayload).2.2
    rw [identifies] at apart
    cases apart
  kept := by
    intro spec member want wanted
    have split := splitOf_of_descriptor names accepted
    rcases split.identity_or_payload wanted (field?_of_mem names member) with inIdentity | inPayload
    · rw [Descriptor.get?, inIdentity, Option.some_or]
    · have apart := (split.payload_find? inPayload).2.2
      rw [Descriptor.get?, split.identity_of_not_identifies apart, inPayload, Option.none_or]
  given := by
    intro key want found value
    have split := splitOf_of_descriptor names accepted
    rcases Option.or_eq_some_iff.mp found with inIdentity | ⟨_, inPayload⟩
    · -- The identity has no value of its own but null.
      have identifies := split.identity.identifies key want inIdentity
      cases wanted : desired.find? key with
      | none =>
          rw [find?_identity accepted, if_pos (mem_identityFields_of_identifies identifies), wanted]
            at inIdentity
          cases inIdentity
          exact absurd rfl value
      | some other => rw [← inIdentity, split.identity.given key other wanted identifies]
    · exact (split.payload_find? inPayload).1

/-! ## What is not known -/

private theorem validate_congr {other : Attributes}
    (same : ∀ key, schema.knows key = true → other.find? key = desired.find? key) :
    schema.validate other = schema.validate desired := by
  refine walk_congr ?_ ?_ same
  · intro key want rest unknown
    rw [validateEntries, unknown]
  · intro head first second sameRest
    rw [validateEntries_cons, validateEntries_cons, sameRest]

private theorem descriptor_congr {other : Attributes}
    (same : ∀ key, schema.knows key = true → other.find? key = desired.find? key) :
    schema.descriptor other = schema.descriptor desired := by
  have identifying : (other.filter fun key _ => schema.identifies key) =
      desired.filter fun key _ => schema.identifies key := by
    refine SortedMap.filter_keys_congr fun key identifies => same key ?_
    obtain ⟨spec, found, _⟩ := field?_of_identifies identifies
    simp [knows, found]
  have others : (other.filter fun key _ => schema.knows key && !schema.identifies key) =
      desired.filter fun key _ => schema.knows key && !schema.identifies key :=
    SortedMap.filter_keys_congr fun key rest => same key (Bool.and_eq_true_iff.mp rest).1
  rw [Schema.descriptor, Schema.descriptor, validate_congr same, identifying, others]

/-- An entry is split without loss. Its parts exist exactly if it gives the fields what they can hold and
a value to those that have to identify, they share out what it gives to the fields, and what the schema
does not know changes neither them nor the error. -/
theorem descriptor_divides (schema : Schema) (names : (schema.fields.map (·.name)).Nodup)
    (desired : Attributes) :
    ((∃ descriptor, schema.descriptor desired = .ok descriptor) ↔ schema.Admits desired) ∧
    (∀ descriptor, schema.descriptor desired = .ok descriptor → schema.Divides desired descriptor) ∧
    (∀ other : Attributes, (∀ key, schema.knows key = true → other.find? key = desired.find? key) →
      schema.descriptor other = schema.descriptor desired) := by
  refine ⟨admits_iff names, fun descriptor accepted => ?_, fun other same => ?_⟩
  · exact divides_of_descriptor names accepted
  · exact descriptor_congr same

/-- An interface of an instance without a label, and with an attribute that interfaces do not have. -/
def unlabelledInterface : Attributes :=
  ((((∅ : Attributes).insert "purpose" (.string "vlan")).insert "label" .null).insert "primary"
    (.bool true)).insert "rack" (.ofNat 4)

theorem descriptor_divides_unlabelledInterface :
    ∃ descriptor, Catalog.instanceInterface.descriptor unlabelledInterface = .ok descriptor ∧
      Catalog.instanceInterface.Divides unlabelledInterface descriptor ∧
      descriptor.identity.keys = ["label", "purpose"] ∧ descriptor.payload.keys = ["primary"] ∧
      Catalog.instanceInterface.Admits unlabelledInterface ∧
      ¬ Catalog.instanceInterface.Admits ∅ := by
  obtain ⟨admits, divides, _⟩ := descriptor_divides Catalog.instanceInterface (by decide)
    unlabelledInterface
  have accepted : ∃ descriptor,
      Catalog.instanceInterface.descriptor unlabelledInterface = .ok descriptor := ⟨_, rfl⟩
  obtain ⟨unidentified, _⟩ := descriptor_divides Catalog.instanceInterface (by decide) ∅
  refine ⟨_, rfl, divides _ rfl, rfl, rfl, admits.mp accepted, fun absurd => ?_⟩
  obtain ⟨_, refused⟩ := unidentified.mpr absurd
  cases refused

end Schema

end DesiredState
