import DesiredState.Proofs.Store.Call

/-!
# Records of a store in memory

What was recorded of a store in memory explains its objects: they are those of the beginning after
the accepted writes, and every answer is about the objects there were at that point. The journal has
one call for every exchange.
-/

set_option autoImplicit false

namespace DesiredState

namespace StoreState

/-- The same objects under the same counter, whatever the events. -/
structure SameObjects (left right : StoreState) : Prop where
  nextId : left.nextId = right.nextId
  objects : left.objects = right.objects

namespace SameObjects

variable {left right : StoreState}

theorem refl (state : StoreState) : SameObjects state state := ⟨rfl, rfl⟩

theorem trans {third : StoreState} (first : SameObjects left right)
    (second : SameObjects right third) : SameObjects left third :=
  ⟨first.nextId.trans second.nextId, first.objects.trans second.objects⟩

theorem find? (same : SameObjects left right) (reference : ResourceRef) :
    left.find? reference = right.find? reference := by
  rw [StoreState.find?, same.objects, StoreState.find?]

theorem holds (same : SameObjects left right) (reference : ResourceRef) :
    left.holds reference = right.holds reference := by
  rw [StoreState.holds, same.find?, StoreState.holds]

theorem members (same : SameObjects left right) (collection : Collection) :
    left.members collection = right.members collection := by
  rw [StoreState.members, same.objects, StoreState.members]

private theorem missingParent? (same : SameObjects left right) (collection : Collection) :
    left.missingParent? collection = right.missingParent? collection := by
  unfold StoreState.missingParent?
  cases collection.parent with
  | none => rfl
  | some parent => simp only [same.holds]

theorem performed (same : SameObjects left right) (write : Write) :
    SameObjects (left.performed write) (right.performed write) := by
  cases write with
  | create collection payload =>
      simp only [StoreState.performed, insertObject, nextObject]
      exact ⟨by rw [same.nextId], by rw [same.objects, same.nextId]⟩
  | update reference fields =>
      exact ⟨same.nextId, congrArg (modifyFirst reference (withFields fields)) same.objects⟩
  | delete reference =>
      exact ⟨same.nextId, congrArg (List.filter _) same.objects⟩

theorem performedAll (same : SameObjects left right) (writes : List Write) :
    SameObjects (left.performedAll writes) (right.performedAll writes) := by
  induction writes generalizing left right with
  | nil => exact same
  | cons write rest ih => exact ih (same.performed write)

end SameObjects

/-- An exchange is one that a store in memory with these objects can have. -/
def Answers (state : StoreState) : Exchange → Prop
  | .get reference answer => answer = .ok (state.find? reference)
  | .list collection answer => answer = .ok (state.members collection)
  | .create collection payload (.ok object) =>
      state.missingParent? collection = none ∧ object = state.nextObject collection payload
  | .update reference _ (.ok _) | .delete reference (.ok _) => state.holds reference = true
  | .create _ _ (.error _) | .update _ _ (.error _) | .delete _ (.error _) => True
  | .listEvents _ _ | .getEvent _ _ => True

end StoreState

theorem acceptedWritesOf_append (first second : List Exchange) :
    acceptedWritesOf (first ++ second) = acceptedWritesOf first ++ acceptedWritesOf second := by
  simp [acceptedWritesOf, writesOf]

namespace MemoryStore

open RemoteStore

/-- A record explains the objects that a store in memory has got to from some others. -/
structure Explained (initial : StoreState) (recorded : Recorded MemoryStore) : Prop where
  objects : recorded.state.state.SameObjects
    (initial.performedAll (acceptedWritesOf recorded.exchanges))
  answers : ∀ before exchange after, recorded.exchanges = before ++ exchange :: after →
    (initial.performedAll (acceptedWritesOf before)).Answers exchange

theorem explained_start (store : MemoryStore) : Explained store.state ⟨store, []⟩ where
  objects := .refl _
  answers := by
    intro before exchange after split
    exact absurd split (by simp)

variable {initial : StoreState}

private theorem answers_congr {left right : StoreState} (same : left.SameObjects right)
    {exchange : Exchange} (answers : left.Answers exchange) : right.Answers exchange := by
  cases exchange with
  | get reference answer => exact Eq.trans answers (by rw [same.find?])
  | list collection answer => exact Eq.trans answers (by rw [same.members])
  | create collection payload answer =>
      cases answer with
      | error error => trivial
      | ok object =>
          refine ⟨same.missingParent? collection ▸ answers.1, Eq.trans answers.2 ?_⟩
          rw [StoreState.nextObject, same.nextId, StoreState.nextObject]
  | update reference fields answer =>
      cases answer with
      | error error => trivial
      | ok object => exact (same.holds reference).symm.trans answers
  | delete reference answer =>
      cases answer with
      | error error => trivial
      | ok done => exact (same.holds reference).symm.trans answers
  | listEvents filter answer => trivial
  | getEvent id answer => trivial

/-- A call whose exchange tells truly what it did keeps the record an explanation. -/
theorem agree_explained {α : Type} {call : MemoryStore → Except StoreError α × MemoryStore}
    {exchange : Except StoreError α → Exchange}
    (effect : ∀ store, (call store).2.state.SameObjects
      (store.state.performedAll (acceptedWritesOf [exchange (call store).1])))
    (truthful : ∀ store : MemoryStore, store.state.Answers (exchange (call store).1)) :
    Agree (Kept (Explained initial)) (recordCall call exchange) (recordCall call exchange) := by
  refine agree_kept_iff.mpr ?_
  rintro ⟨store, exchanges⟩ explained
  refine ⟨?_, fun before other after split => ?_⟩
  · simp only [recordCall, acceptedWritesOf_append, StoreState.performedAll_append]
    exact (effect store).trans (explained.objects.performedAll _)
  · simp only [recordCall] at split
    rcases List.eq_nil_or_concat after with rfl | ⟨inner, last, rfl⟩
    · obtain ⟨rfl, same⟩ := List.append_inj' split rfl
      cases same
      exact answers_congr explained.objects (truthful store)
    · have earlier : exchanges ++ [exchange (call store).1] = (before ++ other :: inner) ++ [last] := by
        simpa using split
      exact explained.answers before other inner (List.append_inj' earlier rfl).1

/-- The read of an event leaves the objects alone. -/
theorem sameObjects_getEvent (store : MemoryStore) (id : Nat) :
    (getEvent id store).2.state.SameObjects store.state := by
  cases found : store.state.findEvent? id with
  | none =>
      rw [getEvent_of_none found]
      exact .refl _
  | some event =>
      rw [getEvent_of_some found]
      exact ⟨rfl, rfl⟩

theorem callsAgree_explained (initial : StoreState) :
    CallsAgree (Kept (Explained initial)) remote.recorded remote.recorded where
  get reference := agree_explained (fun _ => .refl _) fun _ => rfl
  list collection := agree_explained (fun _ => .refl _) fun _ => rfl
  listEvents filter := agree_explained (fun _ => .refl _) fun _ => trivial
  getEvent id := agree_explained (fun store => store.sameObjects_getEvent id) fun _ => trivial
  create collection payload := by
    refine agree_explained (fun store => ?_) fun store => ?_
    · rcases create_cases store collection payload with ⟨error, ran⟩ | ⟨_, ran⟩
      · simp only [remote, ran]
        exact .refl _
      · simp only [remote, ran]
        exact ⟨rfl, rfl⟩
    · rcases create_cases store collection payload with ⟨error, ran⟩ | ⟨parentHeld, ran⟩
      · simp only [remote, ran]
        trivial
      · simp only [remote, ran]
        exact ⟨parentHeld, rfl⟩
  update reference fields := by
    refine agree_explained (fun store => ?_) fun store => ?_
    · rcases update_cases store reference fields with ⟨error, ran⟩ | ⟨_, _, ran⟩
      · simp only [remote, ran]
        exact .refl _
      · simp only [remote, ran]
        exact ⟨rfl, rfl⟩
    · rcases update_cases store reference fields with ⟨error, ran⟩ | ⟨object, found, ran⟩
      · simp only [remote, ran]
        trivial
      · simp only [remote, ran]
        exact Option.isSome_of_eq_some found
  delete reference := by
    refine agree_explained (fun store => ?_) fun store => ?_
    · rcases delete_cases store reference with ⟨error, ran⟩ | ⟨_, ran⟩
      · simp only [remote, ran]
        exact .refl _
      · simp only [remote, ran]
        exact ⟨rfl, rfl⟩
    · rcases delete_cases store reference with ⟨error, ran⟩ | ⟨held, ran⟩
      · simp only [remote, ran]
        trivial
      · simp only [remote, ran]
        exact held

/-! ## The journal -/

/-- Since some calls the journal has got one call for every exchange. -/
def Journaled (before : List StoreCall) (recorded : Recorded MemoryStore) : Prop :=
  recorded.state.journal = before ++ recorded.exchanges.map Exchange.call

private theorem agree_journaled {α : Type} {before : List StoreCall}
    {call : MemoryStore → Except StoreError α × MemoryStore} {exchange : Except StoreError α → Exchange}
    (noted : ∀ store, (call store).2.journal = store.journal ++ [(exchange (call store).1).call]) :
    Agree (Kept (Journaled before)) (recordCall call exchange) (recordCall call exchange) := by
  refine agree_kept_iff.mpr ?_
  rintro ⟨store, exchanges⟩ journaled
  simp only [Journaled] at journaled
  simp [Journaled, recordCall, noted store, journaled]

theorem callsAgree_journaled (before : List StoreCall) :
    CallsAgree (Kept (Journaled before)) remote.recorded remote.recorded where
  get reference := agree_journaled fun _ => rfl
  list collection := agree_journaled fun _ => rfl
  listEvents filter := agree_journaled fun _ => rfl
  getEvent id := by
    refine agree_journaled fun store => ?_
    simp only [remote, getEvent]
    split <;> rfl
  create collection payload := by
    refine agree_journaled fun store => ?_
    rcases create_cases store collection payload with ⟨error, ran⟩ | ⟨_, ran⟩
    · simp only [remote, ran]
      rfl
    · simp only [remote, ran]
      rfl
  update reference fields := by
    refine agree_journaled fun store => ?_
    rcases update_cases store reference fields with ⟨error, ran⟩ | ⟨_, _, ran⟩
    · simp only [remote, ran]
      rfl
    · simp only [remote, ran]
      rfl
  delete reference := by
    refine agree_journaled fun store => ?_
    rcases delete_cases store reference with ⟨error, ran⟩ | ⟨_, ran⟩
    · simp only [remote, ran]
      rfl
    · simp only [remote, ran]
      rfl

end MemoryStore

end DesiredState
