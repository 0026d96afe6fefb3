import DesiredState.Proofs.Codec.Event
import DesiredState.Proofs.Json.Injective
import DesiredState.Proofs.Json.Parsed
import DesiredState.Proofs.Store.Loading
import DesiredState.Settings

/-!
# What is persisted survives

Every persisted thing is read back from its value as it was, whether the fields of the value stand in the
order in which they were written or in ascending order. A state is read back from its document if the
document is parsed back as a value, and different states never have the same document.
-/

set_option autoImplicit false

namespace DesiredState

open Entries

variable {order : List (String × Value) → List (String × Value)}

/-- The values of the attributes have the order already. -/
def Attributes.StandIn (order : List (String × Value) → List (String × Value)) (attributes : Attributes) : Prop :=
  ∀ entry ∈ attributes.entries, entry.2.arranged order = entry.2

/-! ## Resources -/

private theorem ResourceRef.ofValue?_arranged (keeps : KeepsFound order) (reference : ResourceRef) :
    ofValue? (reference.toValue.arranged order) = some reference := by
  induction reference with
  | top kind id =>
      simp [toValue, ofValue?, parentOfFields?_eq, Value.required?_arranged keeps, Value.defaulted?_arranged keeps,
        under]
  | child parent kind id ih =>
      simp [toValue, ofValue?, parentOfFields?_eq, Value.required?_arranged keeps, Value.defaulted?_arranged keeps,
        nullable?_ofValue? ih, under]

private theorem Collection.ofValue?_arranged (keeps : KeepsFound order) (collection : Collection) :
    ofValue? (collection.toValue.arranged order) = some collection := by
  obtain ⟨kind, parent⟩ := collection
  cases parent with
  | none => simp [toValue, ofValue?, Value.required?_arranged keeps, Value.defaulted?_arranged keeps]
  | some parent =>
      have isParent := ResourceRef.nullable?_ofValue? (parent.ofValue?_arranged keeps)
      simp [toValue, ofValue?, Value.required?_arranged keeps, Value.defaulted?_arranged keeps, isParent]

private theorem RemoteObject.ofValue?_arranged (keeps : KeepsFound order) {object : RemoteObject}
    (each : object.attributes.StandIn order) : ofValue? (object.toValue.arranged order) = some object := by
  simp [toValue, ofValue?, Value.required?_arranged keeps, Value.defaulted?_arranged keeps,
    object.reference.ofValue?_arranged keeps, Value.attributes?_arranged keeps each]

private theorem Descriptor.ofValue?_arranged (keeps : KeepsFound order) {descriptor : Descriptor}
    (identity : descriptor.identity.StandIn order) (payload : descriptor.payload.StandIn order) :
    ofValue? (descriptor.toValue.arranged order) = some descriptor := by
  simp [toValue, ofValue?, Value.required?_arranged keeps, Value.attributes?_arranged keeps identity,
    Value.attributes?_arranged keeps payload]

/-! ## Events -/

private theorem EventStatus.ofValue?_arranged (status : EventStatus) :
    ofValue? (status.toValue.arranged order) = some status := status.ofValue?_toValue

private theorem Timestamp.ofValue?_arranged (time : Timestamp) :
    ofValue? (time.toValue.arranged order) = some time :=
  time.ofValue?_toValue

private theorem EventRecord.ofValue?_arranged (keeps : KeepsFound order) (record : EventRecord) :
    ofValue? (record.toValue.arranged order) = some record := by
  simp [toValue, ofValue?, Value.required?_arranged keeps, EventStatus.ofValue?_arranged,
    Timestamp.ofValue?_arranged]

private theorem EventFilter.ofValue?_arranged (keeps : KeepsFound order) (filter : EventFilter) :
    ofValue? (filter.toValue.arranged order) = some filter := by
  obtain ⟨entityType, entityId, action⟩ := filter
  cases entityId with
  | none => simp [toValue, ofValue?, Value.required?_arranged keeps, Value.defaulted?_arranged keeps]
  | some id =>
      have isNumber : Value.nullable? Value.nat? ((Value.ofNat id).arranged order) = some (some id) := rfl
      simp [toValue, ofValue?, Value.required?_arranged keeps, Value.defaulted?_arranged keeps, isNumber]

private theorem StoredEvent.ofValue?_arranged (keeps : KeepsFound order) (event : StoredEvent) :
    ofValue? (event.toValue.arranged order) = some event := by
  obtain ⟨record, pending⟩ := event
  have isRecord := record.ofValue?_arranged keeps
  cases pending with
  | nil =>
      simp [toValue, ofValue?, Value.required?_arranged keeps, Value.defaulted?_arranged keeps, isRecord]
  | cons next rest =>
      have arePending : Value.items? EventStatus.ofValue?
          ((Value.list ((next :: rest).map EventStatus.toValue)).arranged order) = some (next :: rest) :=
        Value.items?_arranged fun status _ => status.ofValue?_arranged
      rw [List.map_cons] at arePending
      simp [toValue, ofValue?, Value.required?_arranged keeps, Value.defaulted?_arranged keeps, isRecord,
        arePending]

/-! ## Settings and states -/

private theorem Settings.ofValue?_arranged (keeps : KeepsFound order) (settings : Settings) :
    ofValue? (settings.toValue.arranged order) = some settings := by
  simp [toValue, ofValue?, Value.defaulted?_arranged keeps]

private theorem StoreState.ofValue?_arranged (keeps : KeepsFound order) {state : StoreState}
    (each : ∀ object ∈ state.objects, object.attributes.StandIn order) :
    ofValue? (state.toValue.arranged order) = some state := by
  have latency : word? ((Value.ofNat state.eventLatency.toNat).arranged order) = some state.eventLatency :=
    word?_toNat state.eventLatency
  have objects := Value.items?_arranged fun object member => RemoteObject.ofValue?_arranged keeps (each object member)
  have events := Value.items?_arranged fun event (_ : event ∈ state.events) => event.ofValue?_arranged keeps
  simp [toValue, ofValue?, Value.defaulted?_arranged keeps, latency, objects, events]

/-! ## What survives -/

/-- The fields of all objects in the attributes are in ascending order. -/
def Attributes.Ordered (attributes : Attributes) : Prop := (Value.ofAttributes attributes).Ordered

private theorem Attributes.standIn_id (attributes : Attributes) : attributes.StandIn id :=
  fun entry _ => entry.2.arranged_id

theorem Attributes.Ordered.standIn {attributes : Attributes} (ordered : attributes.Ordered) :
    attributes.StandIn sorted := by
  cases ordered with
  | object _ each => exact fun entry member => (each entry member).inOrder_eq

/-- Something is read back from its value, from the value with all fields in ascending order, and from the
text of the value, if that is parsed back. -/
structure Survives {α : Type} (toValue : α → Value) (ofValue? : Value → Option α) (item : α) : Prop where
  asWritten : ofValue? (toValue item) = some item
  inOrder : ofValue? (toValue item).inOrder = some item
  parsed : (toValue item).ParsesBack → (Value.ofJson? (toValue item).pretty).bind ofValue? = some item

private theorem Survives.of_arranged {α : Type} {toValue : α → Value} {ofValue? : Value → Option α} {item : α}
    (asWritten : ofValue? ((toValue item).arranged id) = some item)
    (inOrder : ofValue? ((toValue item).arranged sorted) = some item) : Survives toValue ofValue? item where
  asWritten := by rwa [Value.arranged_id] at asWritten
  inOrder := inOrder
  parsed := by
    intro parses
    rw [parses, Option.bind_some]
    exact inOrder

/-- Where no attributes are involved any order will do. -/
theorem Survives.of_any {α : Type} {toValue : α → Value} {ofValue? : Value → Option α} {item : α}
    (read : ∀ {order}, KeepsFound order → ofValue? ((toValue item).arranged order) = some item) :
    Survives toValue ofValue? item :=
  .of_arranged (read keepsFound_id) (read keepsFound_sorted)

namespace StoreState

variable {state : StoreState}

private theorem ofValue?_toValue (state : StoreState) : ofValue? state.toValue = some state := by
  have read := ofValue?_arranged keepsFound_id fun object (_ : object ∈ state.objects) =>
    object.attributes.standIn_id
  rwa [Value.arranged_id] at read

private theorem survives (ordered : ∀ object ∈ state.objects, object.attributes.Ordered) :
    Survives toValue ofValue? state :=
  .of_arranged (ofValue?_arranged keepsFound_id fun object _ => object.attributes.standIn_id)
    (ofValue?_arranged keepsFound_sorted fun object member => (ordered object member).standIn)

/-- The attributes are parsed back from the document of a state that is. -/
theorem readsBack_of_parsesBack (ordered : ∀ object ∈ state.objects, object.attributes.Ordered)
    (parses : state.toValue.ParsesBack) : state.ReadsBack where
  encodable := (legible_of_ofValue? (survives ordered).inOrder parses.legible).encodable
  attributes := by
    intro object member entry inside
    have document : state.toValue.ParsesAt (attributeDepth + 3) := Value.parsesBack_iff.mp parses
    have objects : (Value.list (state.objects.map RemoteObject.toValue)).ParsesAt (attributeDepth + 2) :=
      document.field "objects" (by simp) (by simp)
    have whole : object.toValue.ParsesAt (attributeDepth + 1) := objects.item (List.mem_map_of_mem member)
    have attributes : (Value.ofAttributes object.attributes).ParsesAt attributeDepth :=
      whole.field "attributes" (by simp) (by simp [Value.ofAttributes])
    have value := attributes.field entry.1 object.attributes.ascending.nodup_keys inside
    rw [Value.ParsesAt, Value.inOrder, (ordered object member).standIn entry inside] at value
    exact value

end StoreState

private theorem StateDocument.text_inj {left right : StoreState} (same : text left = text right) :
    left = right := by
  have sameValue : left.toValue = right.toValue := Value.pretty_inj same
  have read := left.ofValue?_toValue
  rw [sameValue, right.ofValue?_toValue] at read
  exact (Option.some.inj read).symm

/-- Whatever is persisted survives, with references nested at any depth and queues of any length, and a state
also in its document. No two states have the same document. -/
theorem persisted_survives :
    (∀ reference, Survives ResourceRef.toValue ResourceRef.ofValue? reference) ∧
    (∀ collection, Survives Collection.toValue Collection.ofValue? collection) ∧
    (∀ object : RemoteObject, object.attributes.Ordered →
      Survives RemoteObject.toValue RemoteObject.ofValue? object) ∧
    (∀ record, Survives EventRecord.toValue EventRecord.ofValue? record) ∧
    (∀ filter, Survives EventFilter.toValue EventFilter.ofValue? filter) ∧
    (∀ descriptor : Descriptor, descriptor.identity.Ordered → descriptor.payload.Ordered →
      Survives Descriptor.toValue Descriptor.ofValue? descriptor) ∧
    (∀ attributes : Attributes, attributes.Ordered →
      Survives Value.ofAttributes Value.attributes? attributes) ∧
    (∀ settings, Survives Settings.toValue Settings.ofValue? settings) ∧
    (∀ state : StoreState, (∀ object ∈ state.objects, object.attributes.Ordered) →
      Survives StoreState.toValue StoreState.ofValue? state ∧
        (state.toValue.ParsesBack → StateDocument.ofText? (StateDocument.text state) = some state)) ∧
    ∀ left right : StoreState, StateDocument.text left = StateDocument.text right → left = right := by
  refine ⟨?_, ?_, ?_, ?_, ?_, ?_, ?_, ?_, ?_, ?_⟩
  · exact fun reference => .of_any fun keeps => reference.ofValue?_arranged keeps
  · exact fun collection => .of_any fun keeps => collection.ofValue?_arranged keeps
  · exact fun object ordered =>
      .of_arranged (RemoteObject.ofValue?_arranged keepsFound_id object.attributes.standIn_id)
        (RemoteObject.ofValue?_arranged keepsFound_sorted ordered.standIn)
  · exact fun record => .of_any fun keeps => record.ofValue?_arranged keeps
  · exact fun filter => .of_any fun keeps => filter.ofValue?_arranged keeps
  · exact fun descriptor identity payload =>
      .of_arranged (Descriptor.ofValue?_arranged keepsFound_id (Attributes.standIn_id _) (Attributes.standIn_id _))
        (Descriptor.ofValue?_arranged keepsFound_sorted identity.standIn payload.standIn)
  · exact fun attributes ordered =>
      .of_arranged (Value.attributes?_arranged keepsFound_id attributes.standIn_id)
        (Value.attributes?_arranged keepsFound_sorted ordered.standIn)
  · exact fun settings => .of_any fun keeps => settings.ofValue?_arranged keeps
  · exact fun state ordered => ⟨StoreState.survives ordered, fun parses =>
      StateDocument.ofText?_of_readsBack (StoreState.readsBack_of_parsesBack ordered parses)⟩
  · exact fun _ _ same => StateDocument.text_inj same

/-- A node below a pool of a cluster, and two events, of which one is not finished. -/
def nestedState : StoreState :=
  ⟨5, 2, 3,
    [⟨.child (.child (.top "lke_cluster" 1) "lke_node_pool" 2) "node" 5,
      (∅ : Attributes).insert "labels" (.object [("a", .null), ("b", .list [.bool true])])⟩],
    [⟨⟨1, "lke_cluster", 1, "lke_cluster_create", .finished, .epoch⟩, []⟩,
      ⟨⟨2, "node", 5, "node_create", .started, .epoch⟩, [.started, .finished]⟩]⟩

theorem persisted_survives_nestedState :
    (∀ object ∈ nestedState.objects, Survives RemoteObject.toValue RemoteObject.ofValue? object ∧
      Survives Value.ofAttributes Value.attributes? object.attributes ∧
      Survives Descriptor.toValue Descriptor.ofValue? ⟨object.attributes, ∅⟩) ∧
    Survives StoreState.toValue StoreState.ofValue? nestedState ∧ nestedState.toValue.ParsesBack ∧
    StateDocument.ofText? (StateDocument.text nestedState) = some nestedState := by
  obtain ⟨_, _, objects, _, _, descriptors, attributes, _, states, _⟩ := persisted_survives
  have nothing : Attributes.Ordered ∅ := .object .nil nofun
  have ordered : ∀ object ∈ nestedState.objects, object.attributes.Ordered := by
    intro object member
    obtain rfl := List.mem_singleton.mp member
    refine .object (SortedMap.ascending _) fun field inside => ?_
    obtain rfl := List.mem_singleton.mp inside
    have apart : "a" < "b" := by decide
    refine .object (List.pairwise_pair.mpr apart) fun label inLabels => ?_
    rcases List.mem_pair.mp inLabels with rfl | rfl
    · exact .null
    · exact .list fun item inList => List.mem_singleton.mp inList ▸ .bool
  have parses : nestedState.toValue.ParsesBack := Value.parsesBack_iff.mpr (by decide +kernel)
  obtain ⟨survives, document⟩ := states nestedState ordered
  refine ⟨fun object member => ?_, survives, parses, document parses⟩
  have inOrder := ordered object member
  exact ⟨objects object inOrder, attributes _ inOrder, descriptors _ inOrder nothing⟩

end DesiredState
