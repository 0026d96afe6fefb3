import DesiredState.Proofs.Descriptor
import DesiredState.Proofs.Store.Call

/-!
# What a create makes of a desired entry

An entry can leave a field without a value in three ways: by a null that clears it, by a null that
is passed over, and by leaving out a field of the identity that may be null. None of them gets into
the body of a create, and an object that lacks the field agrees with all of them. So an object
that a store makes of an entry is the one that is meant and needs no change.
-/

set_option autoImplicit false

namespace DesiredState

private theorem MemoryStore.create_eq_newObject {collection : Collection} {payload : Attributes}
    {store after : MemoryStore} {object : RemoteObject}
    (accepted : create collection payload store = (.ok object, after)) :
    object = StoreState.newObject collection (store.state.nextId + 1) payload := by
  rcases create_cases store collection payload with ⟨_, refused⟩ | ⟨_, carriedOut⟩
  · rw [refused] at accepted
    cases accepted
  · rw [carriedOut] at accepted
    cases accepted
    rfl

namespace Schema

/-- An entry is created by the same body whether it stands for itself or for a sub-resource, and
whatever object a store makes of that body is settled: it is the one that is meant, and neither the
payload nor the whole entry differs from it under any policy. -/
theorem created_from_entry_is_settled {schema : Schema} {desired : Attributes}
    {descriptor : Descriptor} (accepted : schema.descriptor desired = .ok descriptor) :
    descriptor.createPayload = schema.createBody desired ∧
      (schema.Regular → ∀ (collection : Collection) (store after : MemoryStore) (object : RemoteObject),
        MemoryStore.create collection descriptor.createPayload store = (.ok object, after) →
        descriptor.matchesObject object = true ∧
          ∀ policy : MutabilityPolicy, schema.diff object descriptor.payload policy = .ok [] ∧
            schema.diff object desired policy = .ok []) := by
  have sameBody := createPayload_eq_createBody accepted
  refine ⟨sameBody, fun regular collection store after object created => ?_⟩
  cases MemoryStore.create_eq_newObject created
  have met := regular.metBy_newObject (regular.splitOf accepted) collection (store.state.nextId + 1)
  refine ⟨met.meant, fun policy => ⟨?_, ?_⟩⟩
  · -- Where nothing is to be written, the policy is not asked.
    exact diff_applyAll met.settled rfl policy
  · rw [sameBody]
    exact regular.diff_newObject_createBody (validate_of_descriptor accepted) collection _ policy

/-- An interface with a null that clears its address, a null that is passed over, an attribute that
the schema does not know, and no label. -/
def sparseInterface : Attributes :=
  ((((∅ : Attributes).insert "ipam_address" .null).insert "primary" .null).insert "purpose"
    (.string "public")).insert "rack" (.ofNat 4)

theorem created_from_entry_is_settled_sparseInterface :
    ∃ descriptor, Catalog.instanceInterface.descriptor sparseInterface = .ok descriptor ∧
      descriptor.identity.find? "label" = some .null ∧
      descriptor.createPayload = Catalog.instanceInterface.createBody sparseInterface ∧
      descriptor.createPayload.entries = [("purpose", .string "public")] ∧
      Catalog.instanceInterface.Regular ∧
      ∃ store after object,
        MemoryStore.create (.under (.top "instance" 1) "instance_interface") descriptor.createPayload
          store = (.ok object, after) ∧
        object.reference = .child (.top "instance" 1) "instance_interface" 2 ∧
        descriptor.matchesObject object = true ∧
        ∀ policy : MutabilityPolicy,
          Catalog.instanceInterface.diff object descriptor.payload policy = .ok [] ∧
            Catalog.instanceInterface.diff object sparseInterface policy = .ok [] := by
  have accepted : Catalog.instanceInterface.descriptor sparseInterface = .ok
      ⟨((∅ : Attributes).insert "label" .null).insert "purpose" (.string "public"),
        ((∅ : Attributes).insert "ipam_address" .null).insert "primary" .null⟩ := by
    rfl
  have regular : Catalog.instanceInterface.Regular := Catalog.regular (by decide)
  obtain ⟨sameBody, settled⟩ := created_from_entry_is_settled accepted
  let store := MemoryStore.ofState ⟨1, 0, 0, [⟨.top "instance" 1, ∅⟩], []⟩ (.stopped .epoch)
  let collection := Collection.under (.top "instance" 1) "instance_interface"
  exact ⟨_, accepted, rfl, sameBody, rfl, regular, store, _, _, rfl, rfl,
    settled regular collection store _ _ rfl⟩

end Schema

end DesiredState
