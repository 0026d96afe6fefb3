import DesiredState.Proofs.Store.Order

/-!
# Histories of a store in memory

A store in memory starts out empty and is then called and prepared in any order. Its objects and
events always stand in the order of their numbers, nothing is left without the object that it belongs
to, and a number is never given twice, not even that of an object that is gone.
-/

set_option autoImplicit false

namespace DesiredState

open StoreState

/-- A call of a store in memory, or a step that prepares it. -/
inductive StoreAction where
  | get (reference : ResourceRef)
  | list (collection : Collection)
  | create (collection : Collection) (payload : Attributes)
  | update (reference : ResourceRef) (fields : Attributes)
  | delete (reference : ResourceRef)
  | listEvents (filter : EventFilter)
  | getEvent (id : Nat)
  | seed (collection : Collection) (attributes : Attributes)
  | seedEvent (entityType : String) (entityId : Nat) (action : String) (status : EventStatus)
  | scriptEvent (id : Nat) (statuses : List EventStatus)
  | failing (failure : InjectedFailure)
  | clearFailures
  | clearJournal

namespace StoreAction

def perform (store : MemoryStore) : StoreAction → MemoryStore
  | .get reference => (store.get reference).2
  | .list collection => (store.list collection).2
  | .create collection payload => (store.create collection payload).2
  | .update reference fields => (store.update reference fields).2
  | .delete reference => (store.delete reference).2
  | .listEvents filter => (store.listEvents filter).2
  | .getEvent id => (store.getEvent id).2
  | .seed collection attributes => (store.seed collection attributes).2
  | .seedEvent entityType entityId action status =>
      (store.seedEvent entityType entityId action status).2
  | .scriptEvent id statuses => store.scriptEvent id statuses
  | .failing failure => store.failing failure
  | .clearFailures => store.clearFailures
  | .clearJournal => store.clearJournal

/-- Objects are placed in a store only where their parent is. -/
def isAdmissible (state : StoreState) : StoreAction → Bool
  | .seed collection _ => (state.missingParent? collection).isNone
  | _ => true

private theorem became_perform (store : MemoryStore) {action : StoreAction}
    (admissible : action.isAdmissible store.state = true) :
    store.state.Became (action.perform store).state := by
  cases action with
  | get reference => exact .same
  | list collection => exact .same
  | create collection payload => exact MemoryStore.became_sent store (.create collection payload)
  | update reference fields => exact MemoryStore.became_sent store (.update reference fields)
  | delete reference => exact MemoryStore.became_sent store (.delete reference)
  | listEvents filter => exact .same
  | getEvent id => exact MemoryStore.became_getEvent store id
  | seed collection attributes =>
      exact .placed collection attributes (Option.isNone_iff_eq_none.mp admissible)
  | seedEvent entityType entityId action status => exact .filed entityType entityId action status [] _
  | scriptEvent id statuses => exact .revised id _ fun _ => rfl
  | failing failure => exact .same
  | clearFailures => exact .same
  | clearJournal => exact .same

end StoreAction

namespace MemoryStore

/-- A store with no objects and no events. -/
def fresh (latency : UInt32) (clock : Clock) : MemoryStore :=
  .ofState { StoreState.empty with eventLatency := latency } clock

def performAll (store : MemoryStore) (actions : List StoreAction) : MemoryStore :=
  actions.foldl StoreAction.perform store

/-- Whether each of some actions is admissible when its turn comes. -/
def admits (store : MemoryStore) : List StoreAction → Bool
  | [] => true
  | action :: rest => action.isAdmissible store.state && (action.perform store).admits rest

private theorem performAll_append (store : MemoryStore) (first second : List StoreAction) :
    store.performAll (first ++ second) = (store.performAll first).performAll second :=
  List.foldl_append

private theorem admits_append {store : MemoryStore} {first second : List StoreAction} :
    store.admits (first ++ second) = (store.admits first && (store.performAll first).admits second) := by
  induction first generalizing store with
  | nil => rfl
  | cons action rest ih =>
      rw [List.cons_append, admits, admits, ih, Bool.and_assoc]
      rfl

/-- What holds of a state whatever it becomes holds all along a history. -/
theorem holds_performAll {holds : StoreState → Prop}
    (closed : ∀ before after, before.Became after → holds before → holds after) {store : MemoryStore}
    {actions : List StoreAction} (admitted : store.admits actions = true)
    (start : holds store.state) : holds (store.performAll actions).state := by
  induction actions generalizing store with
  | nil => exact start
  | cons action rest ih =>
      obtain ⟨admissible, others⟩ := Bool.and_eq_true_iff.mp admitted
      exact ih others (closed _ _ (StoreAction.became_perform store admissible) start)

private theorem ordered_fresh (latency : UInt32) (clock : Clock) :
    (fresh latency clock).state.Ordered (· < ·) := by
  constructor
  · exact .nil
  · intro object member
    cases member
  · intro object member
    cases member
  · exact .nil
  · intro record member
    cases member

private theorem ordered_performAll {store : MemoryStore} {actions : List StoreAction}
    (admitted : store.admits actions = true) (ordered : store.state.Ordered (· < ·)) :
    (store.performAll actions).state.Ordered (· < ·) :=
  holds_performAll (fun _ _ became ordered => ordered.became (fun _ _ less => less) became) admitted
    ordered

private theorem nextId_le_performAll {store : MemoryStore} {actions : List StoreAction}
    (admitted : store.admits actions = true) :
    store.state.nextId ≤ (store.performAll actions).state.nextId :=
  holds_performAll (fun _ _ became least => Nat.le_trans least (nextId_le_of_became became)) admitted
    (Nat.le_refl _)

end MemoryStore

namespace StoreState

variable {state : StoreState}

private theorem Ordered.eq_of_id (ordered : state.Ordered (· < ·)) {left right : RemoteObject}
    (leftMember : left ∈ state.objects) (rightMember : right ∈ state.objects)
    (same : left.id = right.id) : left = right :=
  List.inj_on_of_nodup_map (ordered.ids.imp Nat.ne_of_lt) leftMember rightMember same

/-- Where numbers are in order, a look-up by kind and number finds every object. -/
theorem Ordered.objectNumbered?_eq_some_iff (ordered : state.Ordered (· < ·)) {kind : String} {id : Nat}
    {object : RemoteObject} :
    state.objectNumbered? kind id = some object ↔
      object ∈ state.objects ∧ object.reference.kind = kind ∧ object.id = id := by
  constructor
  · intro found
    have meant := List.find?_some found
    simp only [Bool.and_eq_true, beq_iff_eq] at meant
    exact ⟨List.mem_of_find?_eq_some found, meant⟩
  · rintro ⟨member, rfl, rfl⟩
    cases found : state.objectNumbered? object.reference.kind object.id with
    | none =>
        have absent := List.find?_eq_none.mp found object member
        simp at absent
    | some other =>
        have meant := List.find?_some found
        simp only [Bool.and_eq_true, beq_iff_eq] at meant
        rw [ordered.eq_of_id (List.mem_of_find?_eq_some found) member meant.2]

private theorem Ordered.filter_length_le_one (ordered : state.Ordered (· < ·)) (kind : String) (id : Nat) :
    (state.objects.filter fun object => object.reference.kind == kind && object.id == id).length ≤ 1 := by
  have numbers : ((state.objects.filter fun object =>
      object.reference.kind == kind && object.id == id).map (·.id)).Nodup :=
    (ordered.ids.imp Nat.ne_of_lt).sublist (List.filter_sublist.map _)
  have same : ∀ number ∈ (state.objects.filter fun object =>
      object.reference.kind == kind && object.id == id).map (·.id), number = id := by
    intro number member
    obtain ⟨object, isFound, rfl⟩ := List.mem_map.mp member
    have meant := (List.mem_filter.mp isFound).2
    simp only [Bool.and_eq_true, beq_iff_eq] at meant
    exact meant.2
  have repeated := List.eq_replicate_of_mem same
  rw [repeated, List.nodup_replicate] at numbers
  simpa using numbers

end StoreState

namespace MemoryStore

/-- Whatever has been done to a store since it was empty, with objects placed only where their parent
was, its objects and events are in the order of their numbers, within the counters, and with every
parent present. A create gives an address that no object had at any earlier point. A look-up by kind
and number has one object to find. -/
theorem history_ordered (latency : UInt32) (clock : Clock) (actions : List StoreAction)
    (admitted : (fresh latency clock).admits actions = true) :
    ((fresh latency clock).performAll actions).state.Ordered (· < ·) ∧
    (∀ (collection : Collection) (payload : Attributes) (object : RemoteObject) (after : MemoryStore),
      ((fresh latency clock).performAll actions).create collection payload = (.ok object, after) →
        ∀ earlier, earlier <+: actions →
          ((fresh latency clock).performAll earlier).state.holds object.reference = false) ∧
    ∀ (kind : String) (id : Nat),
      (((fresh latency clock).performAll actions).state.objects.filter fun object =>
        object.reference.kind == kind && object.id == id).length ≤ 1 ∧
      ∀ object : RemoteObject,
        ((fresh latency clock).performAll actions).state.objectNumbered? kind id = some object ↔
          object ∈ ((fresh latency clock).performAll actions).state.objects ∧
            object.reference.kind = kind ∧ object.id = id := by
  have ordered := ordered_performAll admitted (ordered_fresh latency clock)
  refine ⟨ordered, ?_, fun kind id => ⟨ordered.filter_length_le_one kind id, fun object =>
    ordered.objectNumbered?_eq_some_iff⟩⟩
  rintro collection payload object after created earlier ⟨later, rfl⟩
  rw [admits_append, Bool.and_eq_true] at admitted
  have before := ordered_performAll admitted.1 (ordered_fresh latency clock)
  have grown := nextId_le_performAll admitted.2
  rw [← performAll_append] at grown
  rcases create_cases ((fresh latency clock).performAll (earlier ++ later)) collection payload with
    ⟨error, refused⟩ | ⟨_, accepted⟩
  · rw [refused] at created
    cases created
  · rw [accepted] at created
    cases created
    rw [Bool.eq_false_iff, ne_eq, holds_iff]
    intro used
    obtain ⟨old, member, same⟩ := List.mem_map.mp used
    have bounded := before.id_le old member
    rw [RemoteObject.id, same, nextObject, reference_newObject, ResourceRef.id_under] at bounded
    omega

/-- A cluster and its node pool go, a firewall is refused, and there is a cluster again. -/
def clusterHistory : List StoreAction :=
  [.create ⟨"lke_cluster", none⟩ ∅, .seed (.under (.top "lke_cluster" 1) "lke_node_pool") ∅,
    .delete (.top "lke_cluster" 1), .failing (.of .create "firewall"),
    .create ⟨"firewall", none⟩ ∅, .create ⟨"lke_cluster", none⟩ ∅]

theorem history_ordered_clusterHistory :
    (fresh 2 (.stopped .epoch)).admits clusterHistory = true ∧
      ((fresh 2 (.stopped .epoch)).performAll clusterHistory).state.Ordered (· < ·) ∧
      ((fresh 2 (.stopped .epoch)).performAll (clusterHistory.take 2)).state.holds
        (.top "lke_cluster" 4) = false ∧
      ((fresh 2 (.stopped .epoch)).performAll clusterHistory).state.objectNumbered? "lke_cluster" 3 =
        some (newObject ⟨"lke_cluster", none⟩ 3 ∅) := by
  have admitted : (fresh 2 (.stopped .epoch)).admits clusterHistory = true := by decide
  obtain ⟨ordered, unused, lookUp⟩ := history_ordered 2 (.stopped .epoch) clusterHistory admitted
  refine ⟨admitted, ordered, ?_, ?_⟩
  · exact unused ⟨"lke_cluster", none⟩ ∅ _ _ rfl _ (List.take_prefix 2 clusterHistory)
  · exact ((lookUp "lke_cluster" 3).2 _).mpr (by decide)

end MemoryStore

end DesiredState
