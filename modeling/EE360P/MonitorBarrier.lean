import Mathlib.Data.List.Basic
import Mathlib.Data.Nat.Basic
import EE360P.JavaText
import EE360P.ListEntries
import EE360P.GuardedRuns

/-! project2/q1 `MonitorCyclicBarrier`. A step is one monitor section: from the
start of `await` to its first `wait()` or to its end, or from the return of
`wait()` to the next one or to the end. A sleeping call may re-test at any time,
which covers `notifyAll`, spurious wake-ups and interrupts, since
`putThreadToSleep` swallows the exception and the loop tests again. -/

namespace EE360P.MonitorBarrier
open JavaText ListEntries GuardedRuns

variable {Thread : Type}

inductive Phase where
  | waiting (snapShotOfResetsAmount : Int) (notified : Bool)
  | returned (currentBarrierVacancies : Int)
  deriving DecidableEq, Repr

/-- A call of `await`. -/
structure Call (Thread : Type) where
  thread : Thread
  phase : Phase
  deriving DecidableEq, Repr

/-- `calls` holds the calls in the order in which they entered the monitor. The
ones that wait are the sleepers of the object; the ones that returned are kept
for an observer, and no step reads them. -/
structure State (Thread : Type) where
  barrierSize : Int
  currentBarrierVacancies : Int
  resets : Int
  calls : List (Call Thread)
  deriving DecidableEq, Repr

/-- The constructor. -/
def initial (numberOfThreads : Int) : State Thread := ⟨numberOfThreads, numberOfThreads, 0, []⟩

section Methods
variable (counting : Counting)

def maxCapacityReached (state : State Thread) : Bool :=
  state.barrierSize - state.currentBarrierVacancies = state.barrierSize

def resetCurrentBarrierCapacity (state : State Thread) : State Thread :=
  { state with currentBarrierVacancies := state.barrierSize }

def updateResets (state : State Thread) : State Thread :=
  { state with resets := counting.wrap (state.resets + 1) }

def Phase.wakened : Phase → Phase
  | .waiting snapShotOfResetsAmount _ => .waiting snapShotOfResetsAmount true
  | .returned currentBarrierVacancies => .returned currentBarrierVacancies

/-- `notifyAll`. -/
def tripBarrier (state : State Thread) : State Thread :=
  { state with calls := state.calls.map fun call => { call with phase := call.phase.wakened } }

/-- The condition of the loop of `yieldUntilBarrierFull`. -/
def mustSleep (state : State Thread) (snapShotOfResetsAmount : Int) : Bool :=
  snapShotOfResetsAmount = state.resets

/-- The loop test: sleep, or leave the loop and return from `await`. -/
def testLoop (state : State Thread) (snapShotOfResetsAmount : Int) : Phase :=
  if mustSleep state snapShotOfResetsAmount then .waiting snapShotOfResetsAmount false
  else .returned state.currentBarrierVacancies

def yieldUntilBarrierFull (state : State Thread) : Phase :=
  let snapShotOfResetsAmount := state.resets
  testLoop state snapShotOfResetsAmount

def enter (thread : Thread) (phase : Phase) (state : State Thread) : State Thread :=
  { state with calls := state.calls ++ [⟨thread, phase⟩] }

def await (thread : Thread) (state : State Thread) : State Thread :=
  let entered := { state with currentBarrierVacancies := state.currentBarrierVacancies - 1 }
  if maxCapacityReached entered then
    let tripped := tripBarrier (updateResets counting (resetCurrentBarrierCapacity entered))
    enter thread (.returned tripped.currentBarrierVacancies) tripped
  else
    enter thread (yieldUntilBarrierFull entered) entered

end Methods

def Asleep (call : Call Thread) : Bool :=
  match call.phase with
  | .waiting _ _ => true
  | .returned _ => false

inductive Action (Thread : Type) where
  | await (thread : Thread)
  | wake (number : Nat)
  deriving DecidableEq, Repr

/-- One monitor section. A thread calls `await` when no call of it is open. -/
def step [DecidableEq Thread] (counting : Counting) (state : State Thread) :
    Action Thread → Option (State Thread)
  | .await thread =>
      if state.calls.any fun call => call.thread = thread && Asleep call then none
      else some (await counting thread state)
  | .wake number =>
      match state.calls[number]? with
      | some ⟨thread, .waiting snapShotOfResetsAmount _⟩ =>
          some { state with
            calls := state.calls.set number ⟨thread, testLoop state snapShotOfResetsAmount⟩ }
      | _ => none

/-! The calls of group `g` are the ones numbered from `g * size` on. With `m`
calls entered, `m / size` groups are complete. -/
section Groups
variable (size : Nat)

def group (number : Nat) : Nat := number / size

def Complete (state : State Thread) (number : Nat) : Prop :=
  (group size number + 1) * size ≤ state.calls.length

structure Grouped (state : State Thread) : Prop where
  sized : state.barrierSize = size
  vacancies : state.currentBarrierVacancies = size - (state.calls.length % size : Nat)
  resets : state.resets = group size state.calls.length
  waiting : ∀ number thread (snapshot : Int) notified,
    state.calls[number]? = some ⟨thread, .waiting snapshot notified⟩ →
      snapshot = group size number ∧ (notified = false → snapshot = state.resets)
  returned : ∀ number thread value, state.calls[number]? = some ⟨thread, .returned value⟩ →
    Complete size state number

theorem initial_grouped : Grouped size (initial size : State Thread) := by
  refine ⟨rfl, ?_, ?_, ?_, ?_⟩ <;> simp [initial, group]

variable {size}

theorem complete_earlier (state : State Thread) (number : Nat)
    (earlier : group size number < group size state.calls.length) : Complete size state number := by
  have whole : group size state.calls.length * size ≤ state.calls.length := Nat.div_mul_le_self _ _
  exact (Nat.mul_le_mul_right size earlier).trans whole

theorem earlier_complete (state : State Thread) (number : Nat) (positive : 1 ≤ size)
    (complete : Complete size state number) : group size number < group size state.calls.length :=
  (Nat.le_div_iff_mul_le positive).mpr complete

theorem group_last (entered : Nat) (last : entered % size + 1 = size) :
    group size (entered + 1) = group size entered + 1 ∧ (entered + 1) % size = 0 := by
  have divided := Nat.div_add_mod entered size
  refine (Nat.div_mod_unique (by omega)).mpr ⟨?_, by omega⟩
  rw [group, Nat.mul_add]
  omega

theorem group_inner (entered : Nat) (positive : 1 ≤ size) (inner : entered % size + 1 ≠ size) :
    group size (entered + 1) = group size entered ∧
      (entered + 1) % size = entered % size + 1 := by
  have divided := Nat.div_add_mod entered size
  have bounded := Nat.mod_lt entered positive
  refine (Nat.div_mod_unique (by omega)).mpr ⟨?_, by omega⟩
  rw [group]
  omega

theorem complete_mono (before after : State Thread) (number : Nat)
    (longer : before.calls.length ≤ after.calls.length) (complete : Complete size before number) :
    Complete size after number := Nat.le_trans complete longer

end Groups

section Sections
variable {size : Nat}

-- The entering call is the last of its group exactly when it takes the last vacancy.
theorem capacity_reached (state : State Thread)
    (vacancies : state.currentBarrierVacancies = size - (state.calls.length % size : Nat)) :
    maxCapacityReached
        { state with currentBarrierVacancies := state.currentBarrierVacancies - 1 } = true ↔
      state.calls.length % size + 1 = size := by
  simp only [maxCapacityReached, decide_eq_true_eq]
  omega

theorem await_last (counting : Counting) (thread : Thread) (state : State Thread)
    (vacancies : state.currentBarrierVacancies = size - (state.calls.length % size : Nat))
    (last : state.calls.length % size + 1 = size) :
    await counting thread state = enter thread (.returned state.barrierSize)
      (tripBarrier (updateResets counting (resetCurrentBarrierCapacity state))) := by
  have full := (capacity_reached state vacancies).mpr last
  simp only [await, full, ↓reduceIte]
  rfl

theorem await_inner (counting : Counting) (thread : Thread) (state : State Thread)
    (vacancies : state.currentBarrierVacancies = size - (state.calls.length % size : Nat))
    (inner : state.calls.length % size + 1 ≠ size) :
    await counting thread state = enter thread (.waiting state.resets false)
      { state with currentBarrierVacancies := state.currentBarrierVacancies - 1 } := by
  have open_ := mt (capacity_reached state vacancies).mp inner
  simp only [await, open_, Bool.false_eq_true, ↓reduceIte, yieldUntilBarrierFull, testLoop,
    mustSleep, decide_true]

-- `notifyAll` changes no call that has returned.
theorem woken_returned (calls : List (Call Thread)) (number : Nat) (thread : Thread) (value : Int) :
    (calls.map fun call => { call with phase := call.phase.wakened })[number]? =
        some ⟨thread, .returned value⟩ ↔
      calls[number]? = some ⟨thread, .returned value⟩ := by
  rw [List.getElem?_map]
  cases calls[number]? with
  | none => simp
  | some call =>
      obtain ⟨own, phase⟩ := call
      cases phase <;> simp [Phase.wakened]

theorem trip_grouped (thread : Thread) (state : State Thread) (grouped : Grouped size state)
    (last : state.calls.length % size + 1 = size) :
    Grouped size (await .exact thread state) := by
  obtain ⟨nextGroup, nextPlace⟩ := group_last state.calls.length last
  rw [await_last .exact thread state grouped.vacancies last]
  simp only [enter, tripBarrier, updateResets, exact_wrap, resetCurrentBarrierCapacity]
  refine ⟨grouped.sized, ?_, ?_, ?_, ?_⟩
  · simp [nextPlace, grouped.sized]
  · simp [nextGroup, grouped.resets]
  · intro number other snapshot notified entered
    rcases (snoc_entry _ _ _ _).mp entered with earlier | ⟨_, own⟩
    · simp only [List.getElem?_map, Option.map_eq_some_iff] at earlier
      obtain ⟨⟨sleeper, phase⟩, before, woken⟩ := earlier
      cases phase with
      | returned value => simp [Phase.wakened] at woken
      | waiting snap flag =>
          simp only [Phase.wakened, Call.mk.injEq, Phase.waiting.injEq] at woken
          obtain ⟨_, rfl, rfl⟩ := woken
          exact ⟨(grouped.waiting number sleeper snap flag before).1, by simp⟩
    · cases own
  · intro number other value entered
    rcases (snoc_entry _ _ _ _).mp entered with earlier | ⟨place, _⟩
    · refine complete_mono state _ number (by simp) ?_
      exact grouped.returned number other value ((woken_returned _ _ _ _).mp earlier)
    · refine complete_earlier _ number ?_
      simp only [List.length_map] at place
      simp [place, nextGroup]

theorem join_grouped (thread : Thread) (state : State Thread) (positive : 1 ≤ size)
    (grouped : Grouped size state) (inner : state.calls.length % size + 1 ≠ size) :
    Grouped size (await .exact thread state) := by
  obtain ⟨sameGroup, nextPlace⟩ := group_inner state.calls.length positive inner
  have vacancies := grouped.vacancies
  rw [await_inner .exact thread state vacancies inner, enter]
  refine ⟨grouped.sized, ?_, ?_, ?_, ?_⟩
  · simp only [List.length_append, List.length_singleton, nextPlace, vacancies]
    omega
  · simp [sameGroup, grouped.resets]
  · intro number other snapshot notified entered
    rcases (snoc_entry _ _ _ _).mp entered with earlier | ⟨place, own⟩
    · exact grouped.waiting number other snapshot notified earlier
    · cases own
      exact ⟨place.symm ▸ grouped.resets, fun _ => rfl⟩
  · intro number other value entered
    rcases (snoc_entry _ _ _ _).mp entered with earlier | ⟨_, own⟩
    · exact complete_mono state _ number (by simp) (grouped.returned number other value earlier)
    · cases own

theorem wake_grouped (thread : Thread) (state : State Thread) (number : Nat) (snapshot : Int)
    (notified : Bool) (grouped : Grouped size state)
    (asleep : state.calls[number]? = some ⟨thread, .waiting snapshot notified⟩) :
    Grouped size { state with
      calls := state.calls.set number ⟨thread, testLoop state snapshot⟩ } := by
  obtain ⟨own, _⟩ := grouped.waiting number thread snapshot notified asleep
  have inside : number < state.calls.length := (List.getElem?_eq_some_iff.mp asleep).1
  refine ⟨grouped.sized, ?_, ?_, ?_, ?_⟩
  · simpa using grouped.vacancies
  · simpa using grouped.resets
  · intro other sleeper snap flag found
    rcases set_entry _ _ _ _ _ found with ⟨rfl, same⟩ | earlier
    · simp only [testLoop] at same
      split at same
      · rename_i again
        cases same
        simp only [mustSleep, decide_eq_true_eq] at again
        exact ⟨own, fun _ => again⟩
      · cases same
    · exact grouped.waiting other sleeper snap flag earlier
  · intro other sleeper value found
    rcases set_entry _ _ _ _ _ found with ⟨rfl, same⟩ | earlier
    · simp only [testLoop] at same
      split at same
      · cases same
      · rename_i tripped
        refine complete_mono state _ other (by simp) (complete_earlier state other ?_)
        have resets := grouped.resets
        have order : group size other ≤ group size state.calls.length :=
          Nat.div_le_div_right (Nat.le_of_lt inside)
        simp only [mustSleep, decide_eq_true_eq] at tripped
        omega
    · exact complete_mono state _ other (by simp) (grouped.returned other sleeper value earlier)

/-- One monitor section keeps the groups. -/
theorem step_grouped [DecidableEq Thread] (positive : 1 ≤ size) (before after : State Thread)
    (action : Action Thread) (grouped : Grouped size before)
    (taken : step .exact before action = some after) : Grouped size after := by
  cases action with
  | await thread =>
      simp only [step, Option.ite_none_left_eq_some, Option.some.injEq] at taken
      obtain ⟨_, rfl⟩ := taken
      by_cases last : before.calls.length % size + 1 = size
      · exact trip_grouped thread before grouped last
      · exact join_grouped thread before positive grouped last
  | wake number =>
      simp only [step] at taken
      split at taken
      · rename_i thread snapshot notified asleep
        cases taken
        exact wake_grouped thread before number snapshot notified grouped asleep
      · cases taken

end Sections

section Runs
variable [DecidableEq Thread]

/-- In every run no call returns before its group has entered, and a call that
still sleeps after that has been notified and will find its condition false. -/
theorem rounds_separate (size : Nat) (positive : 1 ≤ size) (state : State Thread)
    (reached : Reachable (step .exact) (fun _ _ => True) (initial size) state) (number : Nat)
    (thread : Thread) :
    (∀ value, state.calls[number]? = some ⟨thread, .returned value⟩ → Complete size state number) ∧
    (∀ snapshot notified, state.calls[number]? = some ⟨thread, .waiting snapshot notified⟩ →
      Complete size state number → mustSleep state snapshot = false ∧ notified = true) := by
  have grouped := reachable_invariant (Grouped size) (initial_grouped size)
    (fun before action after grouped _ taken => step_grouped positive before after action grouped taken)
    reached
  refine ⟨fun value entered => grouped.returned number thread value entered, ?_⟩
  intro snapshot notified asleep complete
  obtain ⟨own, fresh⟩ := grouped.waiting number thread snapshot notified asleep
  have earlier := earlier_complete state number positive complete
  have resets := grouped.resets
  have passed : snapshot ≠ state.resets := by omega
  refine ⟨decide_eq_false passed, ?_⟩
  cases notified with
  | false => exact absurd (fresh rfl) passed
  | true => rfl

-- A sleeper of the first round has not run again when the second one is over.
def overtakenSleeper : List (Action Nat) :=
  [.await 0, .wake 0, .await 1, .await 1, .await 2, .await 2]

theorem rounds_separate_overtaken :
    1 ≤ 2 ∧ ∃ state, replay (step .exact) (fun _ _ => True) (initial (2 : Nat)) overtakenSleeper =
        some state ∧
      (∀ value, state.calls[0]? = some ⟨0, .returned value⟩ → Complete 2 state 0) ∧
      (∀ snapshot notified, state.calls[0]? = some ⟨0, .waiting snapshot notified⟩ →
        Complete 2 state 0 → mustSleep state snapshot = false ∧ notified = true) := by
  refine ⟨by decide, ?_⟩
  obtain ⟨state, played⟩ := Option.isSome_iff_exists.mp
    (show (replay (step .exact) (fun _ _ => True) (initial (2 : Nat)) overtakenSleeper).isSome = true
      by decide)
  exact ⟨state, played, rounds_separate 2 (by decide) state (replayed _ _ played) 0 0⟩

end Runs

end EE360P.MonitorBarrier
