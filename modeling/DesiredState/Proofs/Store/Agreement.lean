import DesiredState.Store

/-!
# Stores that agree

Two stores agree along a relation between their states if every call answers the same from
related states and leaves related states behind. A pass sees a store through its calls alone, so
that it cannot tell agreeing stores apart. A store agrees with the same store under a record, and
with itself along the states that have a property its calls keep.
-/

set_option autoImplicit false

namespace DesiredState

variable {σ τ α : Type}

/-- Two steps answer the same from related states, and leave related states behind. -/
def Agree (related : σ → τ → Prop) (first : σ → α × σ) (second : τ → α × τ) : Prop :=
  ∀ left right, related left right →
    (first left).1 = (second right).1 ∧ related (first left).2 (second right).2

theorem Agree.run {related : σ → τ → Prop} {first : σ → α × σ} {second : τ → α × τ}
    (agree : Agree related first second) {left : σ} {right : τ} (start : related left right) :
    ∃ answer leftAfter rightAfter, first left = (answer, leftAfter) ∧
      second right = (answer, rightAfter) ∧ related leftAfter rightAfter := by
  obtain ⟨answers, states⟩ := agree left right start
  exact ⟨(first left).1, (first left).2, (second right).2, rfl, Prod.ext answers.symm rfl, states⟩

/-- A state is related to itself if it has a property. -/
def Kept (holds : σ → Prop) (left right : σ) : Prop := left = right ∧ holds left

theorem agree_kept_iff {holds : σ → Prop} {step : σ → α × σ} :
    Agree (Kept holds) step step ↔ ∀ state, holds state → holds (step state).2 := by
  constructor
  · intro agree state held
    exact (agree state state ⟨rfl, held⟩).2.2
  · rintro keeps left _ ⟨rfl, held⟩
    exact ⟨rfl, rfl, keeps left held⟩

namespace RemoteStore

/-- The calls that a plan makes agree. -/
structure LooksAgree (related : σ → τ → Prop) (first : RemoteStore σ) (second : RemoteStore τ) :
    Prop where
  get : ∀ reference, Agree related (first.get reference) (second.get reference)
  list : ∀ collection, Agree related (first.list collection) (second.list collection)

/-- The calls that a pass makes before its first write agree. -/
structure PagesAgree (related : σ → τ → Prop) (first : RemoteStore σ) (second : RemoteStore τ) :
    Prop extends LooksAgree related first second where
  listEvents : ∀ filter, Agree related (first.listEvents filter) (second.listEvents filter)

structure ReadsAgree (related : σ → τ → Prop) (first : RemoteStore σ) (second : RemoteStore τ) :
    Prop extends PagesAgree related first second where
  getEvent : ∀ id, Agree related (first.getEvent id) (second.getEvent id)

structure CallsAgree (related : σ → τ → Prop) (first : RemoteStore σ) (second : RemoteStore τ) :
    Prop extends ReadsAgree related first second where
  create : ∀ collection payload,
    Agree related (first.create collection payload) (second.create collection payload)
  update : ∀ reference fields,
    Agree related (first.update reference fields) (second.update reference fields)
  delete : ∀ reference, Agree related (first.delete reference) (second.delete reference)

end RemoteStore

/-! ## Records -/

namespace Exchange

def isLook : Exchange → Bool
  | .get _ _ | .list _ _ => true
  | .create _ _ _ | .update _ _ _ | .delete _ _ | .listEvents _ _ | .getEvent _ _ => false

def isRead : Exchange → Bool
  | .get _ _ | .list _ _ | .listEvents _ _ | .getEvent _ _ => true
  | .create _ _ _ | .update _ _ _ | .delete _ _ => false

end Exchange

/-- A recorded state stands for a state, and all that was recorded after some exchanges is of
one sort. -/
structure Recorded.Traces (before : List Exchange) (sort : Exchange → Prop) (state : σ)
    (recorded : Recorded σ) : Prop where
  state_eq : recorded.state = state
  since : ∃ later, recorded.exchanges = before ++ later ∧ ∀ exchange ∈ later, sort exchange

theorem Recorded.traces_start (state : σ) (before : List Exchange) (sort : Exchange → Prop) :
    Recorded.Traces before sort state ⟨state, before⟩ :=
  ⟨rfl, [], by simp⟩

namespace RemoteStore

private theorem agree_recordCall (call : σ → Except StoreError α × σ)
    {exchange : Except StoreError α → Exchange} {before : List Exchange} {sort : Exchange → Prop}
    (fits : ∀ answer, sort (exchange answer)) :
    Agree (Recorded.Traces before sort) call (recordCall call exchange) := by
  rintro _ ⟨state, _⟩ ⟨rfl, later, rfl, fine⟩
  refine ⟨rfl, rfl, later ++ [exchange (call state).1], ?_, ?_⟩
  · simp [recordCall]
  · intro other member
    rcases List.mem_append.mp member with inLater | last
    · exact fine other inLater
    · rw [List.mem_singleton.mp last]
      exact fits _

variable (store : RemoteStore σ) (before : List Exchange)

theorem looksAgree_recorded :
    LooksAgree (Recorded.Traces before fun exchange => exchange.isLook = true) store
      store.recorded where
  get reference := agree_recordCall (store.get reference) fun _ => rfl
  list collection := agree_recordCall (store.list collection) fun _ => rfl

theorem readsAgree_recorded :
    ReadsAgree (Recorded.Traces before fun exchange => exchange.isRead = true) store
      store.recorded where
  get reference := agree_recordCall (store.get reference) fun _ => rfl
  list collection := agree_recordCall (store.list collection) fun _ => rfl
  listEvents filter := agree_recordCall (store.listEvents filter) fun _ => rfl
  getEvent id := agree_recordCall (store.getEvent id) fun _ => rfl

/-- A record changes nothing about a store. -/
theorem callsAgree_recorded :
    CallsAgree (Recorded.Traces before fun _ => True) store store.recorded where
  get reference := agree_recordCall (store.get reference) fun _ => trivial
  list collection := agree_recordCall (store.list collection) fun _ => trivial
  listEvents filter := agree_recordCall (store.listEvents filter) fun _ => trivial
  getEvent id := agree_recordCall (store.getEvent id) fun _ => trivial
  create collection payload := agree_recordCall (store.create collection payload) fun _ => trivial
  update reference fields := agree_recordCall (store.update reference fields) fun _ => trivial
  delete reference := agree_recordCall (store.delete reference) fun _ => trivial

end RemoteStore

end DesiredState
