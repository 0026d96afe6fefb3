import DesiredState.Proofs.Store.Atomicity
import DesiredState.Proofs.Store.Memory

/-!
# The number that an object reports

An object is numbered when it is created or placed in a store, and reports its number as an attribute,
whatever came with it under that key. An update sets the attribute like any other one. So an object
reports what the last accepted update sent for it, and its own number as long as none sent anything.
-/

set_option autoImplicit false

namespace DesiredState

/-- What a write sends as the number of the object at an address. -/
def Write.sentId? (reference : ResourceRef) : Write → Option Value
  | .create _ _ | .delete _ => none
  | .update target fields => if target = reference then fields.find? "id" else none

namespace StoreState

/-- Every object reports what was sent as its number, or else its number. Nothing was sent for an
address with a number that has not been given yet. -/
structure ReportsSent (state : StoreState) (sent : ResourceRef → Option Value) : Prop
    extends Numbered state where
  sent_le : ∀ reference, (sent reference).isSome = true → reference.id ≤ state.nextId
  reported : ∀ object ∈ state.objects,
    object.get? "id" = some ((sent object.reference).getD (.ofNat object.id))

variable {state : StoreState} {sent : ResourceRef → Option Value}

theorem ReportsSent.congr {after : StoreState} (reports : state.ReportsSent sent)
    (same : after.SameObjects state) : after.ReportsSent sent := by
  constructor
  · constructor
    · rw [same.objects]
      exact reports.ids_nodup
    · rw [same.objects, same.nextId]
      exact reports.id_le
  · rw [same.nextId]
    exact reports.sent_le
  · rw [same.objects]
    exact reports.reported

private theorem get?_newObject_id (collection : Collection) (id : Nat) (attributes : Attributes) :
    (newObject collection id attributes).get? "id" = some (.ofNat id) := by
  rw [RemoteObject.get?, newObject, SortedMap.find?_insert, if_pos rfl]

private theorem ReportsSent.insertObject (reports : state.ReportsSent sent) (collection : Collection)
    (attributes : Attributes) : (state.insertObject collection attributes).ReportsSent sent := by
  constructor
  · exact reports.toNumbered.performed (.create collection attributes)
  · exact fun reference isSent => Nat.le_succ_of_le (reports.sent_le reference isSent)
  · intro object member
    rcases List.mem_append.mp member with old | new
    · exact reports.reported object old
    · rw [List.mem_singleton.mp new]
      -- No update can have been for an address that is numbered only now.
      have unsent : sent (state.nextObject collection attributes).reference = none := by
        by_contra isSent
        have given := reports.sent_le _ (Option.isSome_iff_ne_none.mpr isSent)
        rw [nextObject, reference_newObject, ResourceRef.id_under] at given
        omega
      rw [unsent, nextObject, get?_newObject_id, id_newObject]
      rfl

private theorem ReportsSent.setFields (reports : state.ReportsSent sent) {target : ResourceRef}
    (held : state.holds target = true) (fields : Attributes) :
    (state.setFields target fields).ReportsSent fun reference =>
      ((Write.update target fields).sentId? reference).or (sent reference) := by
  constructor
  · exact reports.toNumbered.performed (.update target fields)
  · intro reference isSent
    by_cases same : target = reference
    · obtain ⟨object, member, isTarget⟩ := List.mem_map.mp (holds_iff.mp held)
      rw [← same, ← isTarget]
      exact reports.id_le object member
    · simp only [Write.sentId?, if_neg same, Option.none_or] at isSent
      exact reports.sent_le reference isSent
  · intro object member
    simp only [StoreState.setFields, modifyFirst_eq_map reports.references_nodup] at member
    obtain ⟨old, inState, rfl⟩ := List.mem_map.mp member
    have before := reports.reported old inState
    split
    · rename_i same
      rw [get?_withFields, reference_withFields, id_withFields, before, Write.sentId?, if_pos same.symm]
      cases fields.find? "id" with
      | none => rfl
      | some value => rfl
    · rename_i apart
      rw [before, Write.sentId?, if_neg (Ne.symm apart), Option.none_or]

private theorem ReportsSent.removeTree (reports : state.ReportsSent sent) (removed : ResourceRef) :
    (state.removeTree removed).ReportsSent sent where
  toNumbered := reports.toNumbered.performed (.delete removed)
  sent_le := reports.sent_le
  reported := fun object member => reports.reported object (List.mem_filter.mp member).1

private theorem ReportsSent.performed (reports : state.ReportsSent sent) {write : Write}
    (allowed : state.Allows write) :
    (state.performed write).ReportsSent fun reference => (write.sentId? reference).or (sent reference) := by
  cases write with
  | create collection payload => exact reports.insertObject collection payload
  | update target fields => exact reports.setFields allowed fields
  | delete removed => exact reports.removeTree removed

end StoreState

/-- What an action sends as the number of the object at an address, if it is a write that the store
accepts. -/
def StoreAction.sentId? (store : MemoryStore) (reference : ResourceRef) (action : StoreAction) :
    Option Value :=
  (action.write?.filter store.accepts).bind (·.sentId? reference)

namespace MemoryStore

open StoreState

variable {store : MemoryStore} {sent : ResourceRef → Option Value}

private theorem reportsSent_sent (reports : store.state.ReportsSent sent) (write : Write) :
    (store.sent write).state.ReportsSent fun reference =>
      (((some write).filter store.accepts).bind (·.sentId? reference)).or (sent reference) := by
  rw [sent_eq]
  cases accepted : store.accepts write with
  | false =>
      simp only [Option.filter_some, accepted, Bool.false_eq_true, if_false, Option.bind_none,
        Option.none_or]
      exact reports
  | true =>
      simp only [Option.filter_some, accepted, if_true, Option.bind_some]
      exact (reports.performed (allows_of_accepts accepted)).congr ⟨rfl, rfl⟩

private theorem reportsSent_perform (reports : store.state.ReportsSent sent) (action : StoreAction) :
    (action.perform store).state.ReportsSent fun reference =>
      (action.sentId? store reference).or (sent reference) := by
  cases action with
  | create collection payload => exact reportsSent_sent reports (.create collection payload)
  | update target fields => exact reportsSent_sent reports (.update target fields)
  | delete removed => exact reportsSent_sent reports (.delete removed)
  | seed collection attributes => exact reports.insertObject collection attributes
  | getEvent id => exact reports.congr (store.sameObjects_getEvent id)
  | seedEvent _ _ _ _ | scriptEvent _ _ => exact reports.congr ⟨rfl, rfl⟩
  | get _ | list _ | listEvents _ | failing _ | clearFailures | clearJournal => exact reports

/-- What the last accepted update of a history that sends a number for the object at an address sends. -/
def lastSentId? (reference : ResourceRef) (store : MemoryStore) : List StoreAction → Option Value
  | [] => none
  | action :: rest =>
      (lastSentId? reference (action.perform store) rest).or (action.sentId? store reference)

private theorem reportsSent_performAll (reports : store.state.ReportsSent sent) (actions : List StoreAction) :
    (store.performAll actions).state.ReportsSent fun reference =>
      (store.lastSentId? reference actions).or (sent reference) := by
  induction actions generalizing store sent with
  | nil => exact reports
  | cons action rest ih =>
      have later := ih (reportsSent_perform reports action)
      simp only [← Option.or_assoc] at later
      exact later

private theorem reportsSent_fresh (latency : UInt32) (clock : Clock) :
    (fresh latency clock).state.ReportsSent fun _ => none := by
  constructor
  · constructor
    · exact .nil
    · intro object member
      cases member
  · intro reference isSent
    cases isSent
  · intro object member
    cases member

private theorem lastSentId?_eq_none {reference : ResourceRef} {actions : List StoreAction}
    (unsent : ∀ fields, .update reference fields ∈ actions → fields.find? "id" = none) :
    store.lastSentId? reference actions = none := by
  induction actions generalizing store with
  | nil => rfl
  | cons action rest ih =>
      rw [lastSentId?, ih fun fields member => unsent fields (List.mem_cons_of_mem _ member),
        Option.none_or, Option.eq_none_iff_forall_not_mem]
      intro value isSent
      obtain ⟨write, isAccepted, sends⟩ := Option.bind_eq_some_iff.mp isSent
      have isWrite := (Option.filter_eq_some_iff.mp isAccepted).1
      cases action with
      | update target fields =>
          cases isWrite
          rw [Write.sentId?] at sends
          split at sends
          · rename_i same
            rw [unsent fields (same ▸ List.mem_cons_self)] at sends
            cases sends
          · cases sends
      | create _ _ | delete _ =>
          cases isWrite
          cases sends
      | _ => cases isWrite

/-- Whatever has been called and placed since a store was empty, an object reports as its number what the
last accepted update sent for it. If none sent anything, it is the number of its address, whatever came
with the object under that key. -/
theorem reported_id (latency : UInt32) (clock : Clock) (actions : List StoreAction) :
    ∀ object ∈ ((fresh latency clock).performAll actions).state.objects,
      object.get? "id" =
        some (((fresh latency clock).lastSentId? object.reference actions).getD (.ofNat object.id)) ∧
      ((∀ fields, .update object.reference fields ∈ actions → fields.find? "id" = none) →
        object.get? "id" = some (.ofNat object.id)) := by
  intro object member
  have reports := reportsSent_performAll (reportsSent_fresh latency clock) actions
  have reported := reports.reported object member
  rw [Option.or_none] at reported
  refine ⟨reported, fun unsent => ?_⟩
  rw [lastSentId?_eq_none unsent] at reported
  exact reported

/-- A firewall is created and placed with a number of its own choice, and one of the two is updated with
another one. -/
def renumberedFirewall : List StoreAction :=
  [.create ⟨"firewall", none⟩ (.ofList [("id", .ofNat 7)]), .seed ⟨"firewall", none⟩ (.ofList [("id", .null)]),
    .update (.top "firewall" 1) (.ofList [("id", .ofNat 9)])]

theorem reported_id_renumberedFirewall :
    ∃ updated untouched,
      ((fresh 0 (.stopped .epoch)).performAll renumberedFirewall).state.objects = [updated, untouched] ∧
      updated.reference = .top "firewall" 1 ∧ updated.get? "id" = some (.ofNat 9) ∧
      untouched.reference = .top "firewall" 2 ∧ untouched.get? "id" = some (.ofNat 2) := by
  have reported := reported_id 0 (.stopped .epoch) renumberedFirewall
  have sent : (fresh 0 (.stopped .epoch)).lastSentId? (.top "firewall" 1) renumberedFirewall =
      some (.ofNat 9) := by decide
  have unsent : ∀ fields, .update (.top "firewall" 2) fields ∈ renumberedFirewall →
      fields.find? "id" = none := by simp [renumberedFirewall]
  have updated := (reported ⟨.top "firewall" 1, .ofList [("id", .ofNat 9)]⟩ (by decide)).1
  rw [sent] at updated
  have untouched := (reported ⟨.top "firewall" 2, .ofList [("id", .ofNat 2)]⟩ (by decide)).2 unsent
  exact ⟨_, _, by decide, rfl, updated, rfl, untouched⟩

/-- An update can set the number that an object reports. -/
theorem reported_id_not_always_own :
    ¬∀ (latency : UInt32) (clock : Clock) (actions : List StoreAction),
      ∀ object ∈ ((fresh latency clock).performAll actions).state.objects,
        object.get? "id" = some (.ofNat object.id) := by
  intro own
  let actions : List StoreAction :=
    [.create ⟨"firewall", none⟩ (.ofList [("label", .string "edge")]),
      .update (.top "firewall" 1) (.ofList [("id", .ofNat 9)])]
  have reported := own 0 (.stopped .epoch) actions
    ⟨.top "firewall" 1, .ofList [("id", .ofNat 9), ("label", .string "edge")]⟩ (by decide)
  exact absurd reported (by decide)

end MemoryStore

end DesiredState
