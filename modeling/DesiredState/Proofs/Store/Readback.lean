import DesiredState.Proofs.Store.Allowed
import DesiredState.Proofs.Store.Loading

/-!
# States that stay readable

A state whose text is read as the same state stays one through every call of a store, as long as the
values that a call brings in are read back from their own text and the counters of the state have room
for another number.
-/

set_option autoImplicit false

namespace DesiredState

open Json

namespace Attributes

private theorem ReadsBack.insert {attributes : Attributes} (same : attributes.ReadsBack) {key : String}
    {value : Value} (isSame : Draft.valueTo? (StoreState.attributeDepth - 1) value.draft = some value) :
    Attributes.ReadsBack (attributes.insert key value) := by
  intro entry member
  rcases Entries.mem_insert member with rfl | before
  · exact isSame
  · exact same entry before

private theorem ReadsBack.insertAll {attributes fields : Attributes} (same : attributes.ReadsBack)
    (fieldsSame : fields.ReadsBack) : Attributes.ReadsBack (attributes.insertAll fields.entries) := by
  have inserted : ∀ (entries : List (String × Value)) (done : Attributes),
      (∀ entry ∈ entries, Draft.valueTo? (StoreState.attributeDepth - 1) entry.2.draft = some entry.2) →
      done.ReadsBack → Attributes.ReadsBack (done.insertAll entries) := by
    intro entries
    induction entries with
    | nil => exact fun done _ doneSame => doneSame
    | cons entry rest ih =>
        intro done each doneSame
        obtain ⟨first, later⟩ := List.forall_mem_cons.mp each
        exact ih _ later (doneSame.insert first)
  exact inserted fields.entries attributes fieldsSame same

end Attributes

private theorem ResourceRef.FitsWord.id_lt {reference : ResourceRef} (fits : reference.FitsWord) :
    reference.id < Number.wordLimit := by
  cases reference with
  | top kind id => exact fits
  | child parent kind id => exact fits.1

namespace Write

/-- The values that are written are read back from their text, and an object is not created so deep below
others that its reference is not. -/
def ReadsBack : Write → Prop
  | .create collection payload =>
      payload.ReadsBack ∧ ∀ parent ∈ collection.parent, parent.levels < StoreState.attributeDepth
  | .update _ fields => fields.ReadsBack
  | .delete _ => True

end Write

namespace StoreState

/-- Neither counter leaves 64 bits within a number of calls. -/
structure HasRoom (state : StoreState) (calls : Nat) : Prop where
  nextId : state.nextId + calls < Number.wordLimit
  nextEventId : state.nextEventId + calls < Number.wordLimit

theorem HasRoom.mono {state : StoreState} {calls fewer : Nat} (room : state.HasRoom calls) (least : fewer ≤ calls) :
    state.HasRoom fewer :=
  ⟨Nat.lt_of_le_of_lt (Nat.add_le_add_left least _) room.nextId,
    Nat.lt_of_le_of_lt (Nat.add_le_add_left least _) room.nextEventId⟩

private theorem mem_modifyFirst {reference : ResourceRef} {change : RemoteObject → RemoteObject}
    {objects : List RemoteObject} {object : RemoteObject} (member : object ∈ modifyFirst reference change objects) :
    ∃ before ∈ objects, object = before ∨ object = change before := by
  induction objects with
  | nil => cases member
  | cons head rest ih =>
      unfold modifyFirst at member
      split at member
      · rcases List.mem_cons.mp member with rfl | later
        · exact ⟨head, List.mem_cons_self, .inr rfl⟩
        · exact ⟨object, List.mem_cons_of_mem head later, .inl rfl⟩
      · rcases List.mem_cons.mp member with rfl | later
        · exact ⟨object, List.mem_cons_self, .inl rfl⟩
        · obtain ⟨before, inside, either⟩ := ih later
          exact ⟨before, List.mem_cons_of_mem head inside, either⟩

private theorem mem_modifyEvent {id : Nat} {change : StoredEvent → StoredEvent} {events : List StoredEvent}
    {event : StoredEvent} (member : event ∈ modifyEvent id change events) :
    ∃ before ∈ events, event = before ∨ event = change before := by
  induction events with
  | nil => cases member
  | cons head rest ih =>
      unfold modifyEvent at member
      split at member
      · rcases List.mem_cons.mp member with rfl | later
        · exact ⟨head, List.mem_cons_self, .inr rfl⟩
        · exact ⟨event, List.mem_cons_of_mem head later, .inl rfl⟩
      · rcases List.mem_cons.mp member with rfl | later
        · exact ⟨event, List.mem_cons_self, .inl rfl⟩
        · obtain ⟨before, inside, either⟩ := ih later
          exact ⟨before, List.mem_cons_of_mem head inside, either⟩

variable {state : StoreState} {write : Write}

private theorem Encodable.fitsWord_of_holds (encodable : state.Encodable) {reference : ResourceRef}
    (held : state.holds reference = true) : reference.FitsWord := by
  obtain ⟨object, member, rfl⟩ := List.mem_map.mp (holds_iff.mp held)
  exact (encodable.references object member).1

/-- The objects after a write are read back if those before it are. -/
theorem ReadsBack.objects_performed (same : state.ReadsBack) (allowed : state.Allows write)
    (writeSame : write.ReadsBack) (room : state.HasRoom 1) {object : RemoteObject}
    (member : object ∈ (state.performed write).objects) :
    (object.reference.FitsWord ∧ object.reference.levels ≤ attributeDepth) ∧ object.attributes.ReadsBack := by
  have unchanged : ∀ before ∈ state.objects, (before.reference.FitsWord ∧
      before.reference.levels ≤ attributeDepth) ∧ before.attributes.ReadsBack :=
    fun before inside => ⟨same.encodable.references before inside, same.attributes before inside⟩
  cases write with
  | create collection payload =>
      obtain ⟨payloadSame, shallow⟩ := writeSame
      rcases List.mem_append.mp member with before | new
      · exact unchanged object before
      · cases List.mem_singleton.mp new
        have held := allows_iff.mp allowed
        refine ⟨⟨?_, ?_⟩, ?_⟩
        · exact ResourceRef.fitsWord_under room.nextId fun parent isParent =>
            same.encodable.fitsWord_of_holds (held parent isParent)
        · exact ResourceRef.levels_under fun parent isParent => Nat.le_of_lt_succ (shallow parent isParent)
        · exact payloadSame.insert ((Draft.valueAs?_whole _).symm.trans (Draft.valueAs?_ofNat .whole room.nextId))
  | update reference fields =>
      obtain ⟨before, inside, rfl | rfl⟩ := mem_modifyFirst member
      · exact unchanged object inside
      · obtain ⟨bounded, attributesSame⟩ := unchanged before inside
        exact ⟨bounded, attributesSame.insertAll writeSame⟩
  | delete reference => exact unchanged object (List.mem_filter.mp member).1

private theorem nextId_written_le (state : StoreState) (write : Write) (now : Timestamp) :
    (state.written write now).nextId ≤ state.nextId + 1 := by
  cases write with
  | create collection payload => exact Nat.le_refl _
  | update reference fields => exact Nat.le_succ _
  | delete reference => exact Nat.le_succ _

private theorem address_fitsWord (encodable : state.Encodable) (allowed : state.Allows write)
    (room : state.HasRoom 1) :
    (write.address state.nextId).id < Number.wordLimit := by
  have held := allows_iff.mp allowed
  cases write with
  | create collection payload =>
      have fits : (ResourceRef.under collection.parent collection.kind (state.nextId + 1)).FitsWord :=
        ResourceRef.fitsWord_under room.nextId fun parent isParent =>
          encodable.fitsWord_of_holds (held parent isParent)
      exact fits.id_lt
  | update reference fields => exact (encodable.fitsWord_of_holds (held reference rfl)).id_lt
  | delete reference => exact (encodable.fitsWord_of_holds (held reference rfl)).id_lt

private theorem ReadsBack.written (same : state.ReadsBack) (allowed : state.Allows write)
    (writeSame : write.ReadsBack) (room : state.HasRoom 1) (now : Timestamp) :
    (state.written write now).ReadsBack := by
  have objects : ∀ object ∈ (state.performed write).objects, (object.reference.FitsWord ∧
      object.reference.levels ≤ attributeDepth) ∧ object.attributes.ReadsBack :=
    fun _ member => same.objects_performed allowed writeSame room member
  refine ⟨⟨?_, ?_, ?_, ?_⟩, ?_⟩
  · exact Nat.lt_of_le_of_lt (nextId_written_le state write now) room.nextId
  · rw [nextEventId_written]
    exact room.nextEventId
  · exact fun object member => (objects object member).1
  · intro event member
    rw [events_written, List.mem_append, List.mem_singleton] at member
    rcases member with before | rfl
    · exact same.encodable.records event before
    · exact ⟨room.nextEventId, address_fitsWord same.encodable allowed room⟩
  · exact fun object member => (objects object member).2

private theorem ReadsBack.advanceEvent (same : state.ReadsBack) (id : Nat) :
    (state.advanceEvent id).ReadsBack := by
  refine ⟨⟨same.encodable.nextId, same.encodable.nextEventId, same.encodable.references, ?_⟩, same.attributes⟩
  intro event member
  obtain ⟨before, inside, rfl | rfl⟩ := mem_modifyEvent member
  · exact same.encodable.records event inside
  · have fits := same.encodable.records before inside
    rw [StoredEvent.advanced]
    split <;> exact fits

end StoreState

/-! ## Calls -/

/-- The values that a call brings in are read back from their text. -/
def RemoteCall.ReadsBack (call : RemoteCall) : Prop := ∀ write ∈ call.action.write?, write.ReadsBack

namespace MemoryStore

variable {store : MemoryStore} {calls : Nat}

private theorem readsBack_sent (same : store.state.ReadsBack) {write : Write} (writeSame : write.ReadsBack)
    (room : store.state.HasRoom (calls + 1)) :
    (store.sent write).state.ReadsBack ∧ (store.sent write).state.HasRoom calls := by
  rcases store.sent_cases write with refused | ⟨allowed, accepted⟩
  · rw [refused]
    exact ⟨same, room.mono (Nat.le_succ calls)⟩
  · rw [accepted]
    refine ⟨same.written allowed writeSame (room.mono (Nat.le_add_left 1 calls)) store.clock.now, ?_, ?_⟩
    · have bounded := StoreState.nextId_written_le store.state write store.clock.now
      have limit := room.nextId
      rw [MemoryStore.written]
      dsimp only
      omega
    · have limit := room.nextEventId
      rw [MemoryStore.written]
      dsimp only
      rw [StoreState.nextEventId_written]
      omega

/-- A state that is read back still is after a call. -/
theorem readsBack_perform (same : store.state.ReadsBack) {call : RemoteCall} (callSame : call.ReadsBack)
    (room : store.state.HasRoom (calls + 1)) :
    (call.perform remote store).2.state.ReadsBack ∧ (call.perform remote store).2.state.HasRoom calls := by
  have rest := room.mono (Nat.le_succ calls)
  rw [RemoteCall.perform_memory]
  cases call with
  | get _ | list _ | listEvents _ => exact ⟨same, rest⟩
  | create collection payload => exact readsBack_sent same (callSame _ rfl) room
  | update reference fields => exact readsBack_sent same (callSame _ rfl) room
  | delete reference => exact readsBack_sent same (callSame _ rfl) room
  | getEvent id =>
      rw [RemoteCall.action, StoreAction.perform, getEvent]
      split
      · exact ⟨same, rest⟩
      · exact ⟨same.advanceEvent id, rest.nextId, rest.nextEventId⟩

end MemoryStore

end DesiredState
