import Mathlib.Algebra.Order.Floor.Div
import DesiredState.Proofs.Wait.Agreement
import DesiredState.Proofs.Wait.Loop

/-!
# The schedule of a wait

Looks that take no time come one interval after the other from the beginning on, until one of them decides
the wait or the deadline is there. Looks that take time begin before the deadline, and between them the wait
sleeps for an interval, or up to the deadline if that is nearer.
-/

set_option autoImplicit false

namespace DesiredState

namespace Probe

variable {σ α : Type}

/-! ## Looks that take no time -/

/-- Looks with scripted outcomes. The state counts them. -/
def scripted (script : Nat → Except PassError (Option α)) : Probe Nat α :=
  .instant fun looks => (script looks, looks + 1)

/-- The first outcome of a script that is a value or an error decides the wait. -/
structure Decides (script : Nat → Except PassError (Option α)) (place : Nat)
    (outcome : Except PassError α) : Prop where
  undecided : ∀ earlier < place, script earlier = .ok none
  decided : script place = outcome.map some

private theorem Decides.ne_nothing {script : Nat → Except PassError (Option α)} {place : Nat}
    {outcome : Except PassError α} (decides : Decides script place outcome) :
    script place ≠ .ok none := by
  rw [decides.decided]
  cases outcome <;> nofun

private theorem Decides.unique {script : Nat → Except PassError (Option α)} {place other : Nat}
    {first second : Except PassError α} (decides : Decides script place first)
    (decidesToo : Decides script other second) : place = other ∧ first = second := by
  have same : place = other := by
    rcases Nat.lt_trichotomy place other with before | same | after
    · exact absurd (decidesToo.undecided place before) decides.ne_nothing
    · exact same
    · exact absurd (decides.undecided other after) decidesToo.ne_nothing
  subst same
  have outcomes : first.map some = second.map some := decides.decided.symm.trans decidesToo.decided
  refine ⟨rfl, ?_⟩
  cases first <;> cases second <;> cases outcomes <;> rfl

section Scripted

variable {interval begun : Nat} {budget : Budget} {script : Nat → Except PassError (Option α)}

/-- So many looks have found nothing, all of them before the deadline. -/
def Missed (interval begun : Nat) (budget : Budget) (script : Nat → Except PassError (Option α))
    (looks : Nat) : Prop :=
  ∀ place < looks, script place = .ok none ∧ begun + place * interval < budget.deadline

theorem Missed.succ {looks : Nat} (missed : Missed interval begun budget script looks)
    (nothing : script looks = .ok none) (inTime : begun + looks * interval < budget.deadline) :
    Missed interval begun budget script (looks + 1) := by
  intro place earlier
  rcases Nat.lt_succ_iff_lt_or_eq.mp earlier with before | rfl
  · exact missed place before
  · exact ⟨nothing, inTime⟩

/-- At the deadline there were as many looks as intervals have begun. -/
theorem Missed.looks_eq {looks : Nat} (missed : Missed interval begun budget script looks)
    (positive : 0 < interval) (late : budget.deadline ≤ begun + looks * interval) :
    looks = (budget.deadline - begun) ⌈/⌉ interval := by
  refine eq_of_forall_ge_iff fun bound => ?_
  rw [ceilDiv_le_iff_le_mul positive, Nat.mul_comm]
  constructor
  · intro fewer
    have longer := Nat.mul_le_mul_right interval fewer
    omega
  · intro enough
    by_contra fewer
    have inTime := (missed bound (Nat.not_le.mp fewer)).2
    omega

/-- How a wait with scripted looks ends. -/
inductive EndsScripted (interval begun : Nat) (budget : Budget) (what : String)
    (script : Nat → Except PassError (Option α)) : Except PassError α → Timed Nat → Prop where
  | decided {place : Nat} {outcome : Except PassError α} (decides : Decides script place outcome)
      (inTime : begun + place * interval < budget.deadline) :
      EndsScripted interval begun budget what script outcome ⟨begun + place * interval, place + 1⟩
  | timeout (nothing : ∀ place, begun + place * interval < budget.deadline → script place = .ok none) :
      EndsScripted interval begun budget what script (.error (budget.timeout what budget.deadline))
        ⟨budget.deadline, (budget.deadline - begun) ⌈/⌉ interval⟩

private theorem later_scripted (clock looks : Nat) :
    later ⟨clock, looks⟩ (scripted script ⟨clock, looks⟩).2 = ⟨clock, looks + 1⟩ := by
  simp only [later, scripted, instant, Nat.max_self]

private theorem Missed.ends {what : String} {clock looks : Nat} {outcome : Except PassError α}
    (missed : Missed interval begun budget script looks)
    (isClock : clock = min (begun + looks * interval) budget.deadline) (waiting : clock < budget.deadline)
    (decided : script looks = outcome.map some) :
    EndsScripted interval begun budget what script outcome
      (later ⟨clock, looks⟩ (scripted script ⟨clock, looks⟩).2) := by
  obtain rfl : clock = begun + looks * interval := by omega
  rw [later_scripted]
  exact .decided ⟨fun earlier before => (missed earlier before).1, decided⟩ waiting

/-- Before a look the clock stands at the end of as many intervals as there were looks, or at the deadline. -/
theorem course_scripted (positive : 0 < interval) (begun : Nat) (budget : Budget) (what : String)
    (script : Nat → Except PassError (Option α)) :
    Course interval budget what (scripted script)
      (fun now => Missed interval begun budget script now.state ∧
        now.clock = min (begun + now.state * interval) budget.deadline)
      (fun now => Missed interval begun budget script now.state ∧
        ∃ place, now.state = place + 1 ∧ now.clock = begun + place * interval)
      (EndsScripted interval begun budget what script) where
  missed := by
    rintro ⟨clock, looks⟩ after ⟨missed, isClock⟩ waiting ran
    obtain rfl : _ = after := congrArg Prod.snd ran
    obtain rfl : clock = begun + looks * interval := by dsimp only at isClock waiting; omega
    rw [later_scripted]
    exact ⟨missed.succ (congrArg Prod.fst ran) waiting, looks, rfl, rfl⟩
  found := by
    rintro ⟨clock, looks⟩ value after ⟨missed, isClock⟩ waiting ran
    obtain rfl : _ = after := congrArg Prod.snd ran
    exact missed.ends isClock waiting (congrArg Prod.fst ran)
  failed := by
    rintro ⟨clock, looks⟩ error after ⟨missed, isClock⟩ waiting ran
    obtain rfl : _ = after := congrArg Prod.snd ran
    exact missed.ends isClock waiting (congrArg Prod.fst ran)
  again := by
    rintro ⟨clock, looks⟩ ⟨missed, place, rfl, rfl⟩ waiting
    refine ⟨missed, ?_⟩
    simp only [slept, sleepLength, Budget.remaining, Nat.add_mul, Nat.one_mul] at waiting ⊢
    omega
  late := by
    rintro ⟨clock, looks⟩ (⟨missed, isClock⟩ | ⟨missed, place, rfl, rfl⟩) late
    · dsimp only at isClock late missed
      obtain rfl : clock = budget.deadline := by omega
      have count := missed.looks_eq positive (by omega)
      have nothing : ∀ place, begun + place * interval < budget.deadline → script place = .ok none := by
        intro place inTime
        refine (missed place ?_).1
        by_contra later
        have longer := Nat.mul_le_mul_right interval (Nat.not_lt.mp later)
        omega
      rw [count]
      exact .timeout nothing
    · exact absurd (missed place (Nat.lt_succ_self place)).2 (Nat.not_lt.mpr late)

end Scripted

/-- The outcome of a wait on a script, with the time and the number of looks at its end. The first outcome
that decides the wait is returned as it is, after as many intervals as there were looks before it, if the
time lasts so long. Otherwise the wait takes all of its time and looks once in every interval begun. -/
structure OnSchedule (interval clock : Nat) (budget : Budget) (what : String)
    (script : Nat → Except PassError (Option α)) (run : Except PassError α × Timed Nat) : Prop where
  decided : ∀ place outcome, Decides script place outcome →
    place * interval < budget.remaining clock →
    run = (outcome, ⟨clock + place * interval, place + 1⟩)
  timeout : (∀ place outcome, Decides script place outcome →
      budget.remaining clock ≤ place * interval) →
    run = (.error (budget.timeout what (clock + budget.remaining clock)),
      ⟨clock + budget.remaining clock, budget.remaining clock ⌈/⌉ interval⟩)

private theorem onSchedule_await {interval : Nat} (positive : 0 < interval) (clock : Nat) (budget : Budget)
    (what : String) (script : Nat → Except PassError (Option α)) :
    OnSchedule interval clock budget what script
      (await interval budget what (scripted script) ⟨clock, 0⟩) := by
  rcases Nat.lt_or_ge budget.deadline clock with passed | begun
  · have spent : budget.remaining clock = 0 := Budget.remaining_eq_zero_iff.mpr passed.le
    have exhausted : budget.isExhausted clock = true := Budget.isExhausted_iff.mpr passed.le
    refine ⟨fun place _ _ inTime => ?_, fun _ => ?_⟩
    · rw [spent] at inTime
      exact absurd inTime (Nat.not_lt_zero _)
    · rw [spent, Nat.add_zero, zero_ceilDiv]
      simp only [await, exhausted, if_true]
  · have onTime := (course_scripted positive clock budget what script).await_ends ⟨clock, 0⟩
      ⟨fun _ => nofun, by simp [begun]⟩
    have deadline : clock + budget.remaining clock = budget.deadline := Nat.add_sub_of_le begun
    rcases run : await interval budget what (scripted script) ⟨clock, 0⟩ with ⟨answer, last⟩
    rw [run] at onTime
    rw [Budget.remaining] at deadline
    constructor
    · intro place outcome decides inTime
      rw [Budget.remaining] at inTime
      cases onTime with
      | decided decidesToo _ =>
          obtain ⟨rfl, rfl⟩ := decides.unique decidesToo
          rfl
      | timeout nothing => exact absurd (nothing place (by omega)) decides.ne_nothing
    · intro never
      cases onTime with
      | decided decides inTime =>
          have late := never _ _ decides
          rw [Budget.remaining] at late
          omega
      | timeout nothing => rw [Budget.remaining, deadline]

/-- A condition with scripted answers. -/
def scriptedCondition (script : Nat → Except PassError Bool) (now : Timed Nat) :
    Except PassError Bool × Timed Nat :=
  (script now.state, ⟨now.clock, now.state + 1⟩)

/-- That a condition holds is a value, and that it does not is nothing. -/
def foundIf (script : Nat → Except PassError Bool) (place : Nat) : Except PassError (Option Unit) :=
  (script place).map fun holds => if holds then some () else none

private theorem ofCondition_scripted (script : Nat → Except PassError Bool) :
    ofCondition (scriptedCondition script) = scripted (foundIf script) := by
  funext now
  simp only [ofCondition, scriptedCondition, scripted, foundIf, instant]
  rcases script now.state with error | _ | _ <;> rfl

/-! ## Looks that take time -/

/-- When a look began and when it ended. -/
structure Look where
  begun : Nat
  ended : Nat
  deriving DecidableEq

/-- A state together with the looks so far, the latest first. -/
structure Logged (σ : Type) where
  state : σ
  looks : List Look

/-- A probe that writes down its looks. -/
def logged (probe : Probe σ α) : Probe (Logged σ) α := fun now =>
  match probe ⟨now.clock, now.state.state⟩ with
  | (answer, after) =>
      (answer, ⟨after.clock,
        ⟨after.state, ⟨now.clock, max now.clock after.clock⟩ :: now.state.looks⟩⟩)

def Unlogged (state : σ) (logged : Logged σ) : Prop := logged.state = state

private theorem agree_logged (probe : Probe σ α) :
    Agree (Timed.Related Unlogged) probe (logged probe) := by
  rintro ⟨clock, state⟩ ⟨_, logged⟩ ⟨rfl, same⟩
  obtain rfl : logged.state = state := same
  exact ⟨rfl, rfl, rfl⟩

def span (begun ended : Nat) : List (Nat × Nat) := if begun = ended then [] else [(begun, ended)]

/-- The spans of time, from the beginning of a wait up to now, that were not spent on looks. -/
def sleeps (begun now : Nat) : List Look → List (Nat × Nat)
  | [] => span begun now
  | look :: earlier => sleeps begun look.begun earlier ++ span look.ended now

/-- Every look began before the deadline, and every sleep took an interval, or ended at the deadline. -/
structure Punctual (interval deadline begun now : Nat) (looks : List Look) : Prop where
  look_lt : ∀ look ∈ looks, look.begun < deadline
  sleep_eq : ∀ sleep ∈ sleeps begun now looks, sleep.2 = min (sleep.1 + interval) deadline

section Logged

variable {interval deadline begun now : Nat} {looks : List Look}

private theorem Punctual.look (punctual : Punctual interval deadline begun now looks)
    (waiting : now < deadline)
    (ended : Nat) : Punctual interval deadline begun ended (⟨now, ended⟩ :: looks) where
  look_lt := List.forall_mem_cons.mpr ⟨waiting, punctual.look_lt⟩
  sleep_eq := by
    rw [sleeps, span, if_pos rfl, List.append_nil]
    exact punctual.sleep_eq

private theorem Punctual.sleep {look : Look} {earlier : List Look}
    (punctual : Punctual interval deadline begun look.ended (look :: earlier)) {woken : Nat}
    (slept : woken = min (look.ended + interval) deadline) :
    Punctual interval deadline begun woken (look :: earlier) where
  look_lt := punctual.look_lt
  sleep_eq := by
    intro sleep member
    rcases List.mem_append.mp member with before | last
    · exact punctual.sleep_eq sleep (List.mem_append_left _ before)
    · rw [span] at last
      split at last
      · cases last
      · obtain rfl := List.mem_singleton.mp last
        exact slept

/-- Along a wait the looks are punctual, whatever the probe does. -/
theorem course_logged (positive : 0 < interval) (begun : Nat) (budget : Budget) (what : String)
    (probe : Probe σ α) :
    Course interval budget what (logged probe)
      (fun now => Punctual interval budget.deadline begun now.clock now.state.looks)
      (fun now => Punctual interval budget.deadline begun now.clock now.state.looks ∧
        ∃ look earlier, now.state.looks = look :: earlier ∧ look.ended = now.clock)
      (fun _ now => Punctual interval budget.deadline begun now.clock now.state.looks) where
  missed := by
    rintro ⟨clock, state, looks⟩ after punctual waiting ran
    obtain rfl : _ = after := congrArg Prod.snd ran
    exact ⟨punctual.look waiting _, _, _, rfl, rfl⟩
  found := by
    rintro ⟨clock, state, looks⟩ value after punctual waiting ran
    obtain rfl : _ = after := congrArg Prod.snd ran
    exact punctual.look waiting _
  failed := by
    rintro ⟨clock, state, looks⟩ error after punctual waiting ran
    obtain rfl : _ = after := congrArg Prod.snd ran
    exact punctual.look waiting _
  again := by
    rintro ⟨_, state, _⟩ ⟨punctual, look, earlier, rfl, rfl⟩ waiting
    refine punctual.sleep ?_
    simp only [slept, sleepLength, Budget.remaining] at waiting ⊢
    omega
  late := by
    rintro now (punctual | ⟨punctual, _⟩) _
    · exact punctual
    · exact punctual

end Logged

/-- A wait with a probe that may take time goes as it does if the looks are written down, and they are
punctual. -/
theorem punctual_await {interval : Nat} (positive : 0 < interval) (clock : Nat) (budget : Budget)
    (what : String) (probe : Probe σ α) (state : σ) :
    ∃ answer last looks, await interval budget what probe ⟨clock, state⟩ = (answer, last) ∧
      await interval budget what (logged probe) ⟨clock, ⟨state, []⟩⟩ =
        (answer, ⟨last.clock, ⟨last.state, looks⟩⟩) ∧
      Punctual interval budget.deadline clock last.clock looks := by
  have begun : Punctual interval budget.deadline clock clock [] := ⟨nofun, by simp [sleeps, span]⟩
  have ends := (course_logged positive clock budget what probe).await_ends ⟨clock, ⟨state, []⟩⟩ begun
  have start : Timed.Related Unlogged ⟨clock, state⟩ ⟨clock, (⟨state, []⟩ : Logged σ)⟩ := ⟨rfl, rfl⟩
  obtain ⟨answer, last, ⟨_, ⟨_, looks⟩⟩, ran, loggedRan, rfl, rfl⟩ :=
    (agree_await interval budget what (agree_logged probe)).run start
  rw [loggedRan] at ends
  exact ⟨answer, last, looks, ran, loggedRan, ends⟩

/-- A wait keeps to its schedule. On a script the first outcome that is a value or an error ends it after as
many intervals as there were looks before, or the deadline does after one look in every interval begun; a
condition that holds counts as a value. Whatever time a probe takes, no look begins at the deadline or
later and no sleep goes beyond it. -/
theorem await_onSchedule {interval : Nat} (positive : 0 < interval) (clock : Nat) (budget : Budget)
    (what : String) :
    (∀ {α : Type} (script : Nat → Except PassError (Option α)),
        OnSchedule interval clock budget what script
          (await interval budget what (scripted script) ⟨clock, 0⟩)) ∧
      (∀ script : Nat → Except PassError Bool,
        OnSchedule interval clock budget what (foundIf script)
          (awaitCondition interval budget what (scriptedCondition script) ⟨clock, 0⟩)) ∧
      ∀ {σ α : Type} (probe : Probe σ α) (state : σ), ∃ answer last looks,
        await interval budget what probe ⟨clock, state⟩ = (answer, last) ∧
        await interval budget what (logged probe) ⟨clock, ⟨state, []⟩⟩ =
          (answer, ⟨last.clock, ⟨last.state, looks⟩⟩) ∧
        Punctual interval budget.deadline clock last.clock looks := by
  refine ⟨onSchedule_await positive clock budget what, fun script => ?_, punctual_await positive clock budget what⟩
  rw [awaitCondition, ofCondition_scripted]
  exact onSchedule_await positive clock budget what (foundIf script)

/-- With an interval of ten milliseconds the third look comes after twenty, and before the fiftieth there are
five looks. -/
theorem await_onSchedule_tenMillis :
    awaitCondition 10 (.starting 0 50) "ready" (scriptedCondition fun look => .ok (look == 2)) ⟨0, 0⟩ =
        (.ok (), ⟨20, 3⟩) ∧
      awaitCondition 10 (.starting 0 50) "ready" (scriptedCondition fun _ => .ok false) ⟨0, 0⟩ =
        (.error (.timeoutExceeded "ready" (.ofMillis 50)), ⟨50, 5⟩) := by
  have onSchedule := (await_onSchedule (by decide : 0 < 10) 0 (.starting 0 50) "ready").2.1
  constructor
  · have decides : Decides (foundIf fun look => .ok (look == 2)) 2 (.ok ()) := by
      refine ⟨fun place earlier => ?_, rfl⟩
      have different : (place == 2) = false := by
        rw [beq_eq_false_iff_ne]
        omega
      simp [foundIf, different, Except.map]
    exact (onSchedule _).decided 2 (.ok ()) decides (by decide)
  · refine (onSchedule _).timeout fun place outcome decides => ?_
    cases outcome <;> cases decides.decided

end Probe

end DesiredState
