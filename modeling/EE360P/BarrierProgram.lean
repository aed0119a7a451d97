import Mathlib.Algebra.BigOperators.Fin
import Mathlib.Algebra.Order.BigOperators.Group.Finset
import EE360P.MonitorBarrier

/-! project2/q1 `testMonitorBarrier`: as many threads as the barrier has room for, each of
which prints, calls `await` and prints again, round after round. A step is one `println`
or one monitor section; a sleeper may wake without reason. -/

namespace EE360P.BarrierProgram
open JavaText ListEntries GuardedRuns
open MonitorBarrier (Call Grouped Complete group mustSleep await testLoop)

variable {size : Nat}

/-- Where `run` stands: before the first `println`, before `await`, in the call with that
number, and before the second `println`. -/
inductive Stage where
  | arriving
  | calling
  | inside (number : Nat)
  | leaving
  deriving DecidableEq, Repr

structure Runner where
  round : Nat
  stage : Stage
  deriving DecidableEq, Repr

inductive Printed (size : Nat) where
  | waiting (thread : Fin size) (round : Nat)
  | leaving (thread : Fin size) (round : Nat)
  deriving DecidableEq, Repr

structure Program (size : Nat) where
  barrier : MonitorBarrier.State (Fin size)
  runners : Fin size → Runner
  printed : List (Printed size)

def main : Program size := ⟨MonitorBarrier.initial size, fun _ => ⟨0, .arriving⟩, []⟩

section Code
variable (rounds : Nat)

def setRunner (thread : Fin size) (runner : Runner) (program : Program size) : Program size :=
  { program with runners := Function.update program.runners thread runner }

def println (line : Printed size) (program : Program size) : Program size :=
  { program with printed := program.printed ++ [line] }

def setBarrier (barrier : MonitorBarrier.State (Fin size)) (program : Program size) :
    Program size :=
  { program with barrier }

/-- Whether the call has returned from `await`. -/
def hasReturned (number : Nat) (barrier : MonitorBarrier.State (Fin size)) : Bool :=
  barrier.calls[number]?.any fun call => !MonitorBarrier.Asleep call

def settle (thread : Fin size) (number : Nat) (program : Program size)
    (barrier : MonitorBarrier.State (Fin size)) : Program size :=
  setRunner thread
    ⟨(program.runners thread).round, if hasReturned number barrier then .leaving else .inside number⟩
    (setBarrier barrier program)

/-- The next step of `run`. -/
def run (program : Program size) (thread : Fin size) : Option (Program size) :=
  let runner := program.runners thread
  match runner.stage with
  | .arriving =>
      if runner.round < rounds then
        some (setRunner thread { runner with stage := .calling }
          (println (.waiting thread runner.round) program))
      else none
  | .calling =>
      (MonitorBarrier.step .exact program.barrier (.await thread)).map
        (settle thread program.barrier.calls.length program)
  | .inside number =>
      (MonitorBarrier.step .exact program.barrier (.wake number)).map
        (settle thread number program)
  | .leaving =>
      some (setRunner thread ⟨runner.round + 1, .arriving⟩
        (println (.leaving thread runner.round) program))

end Code

section Counts

/-- The calls of `await` that a thread has made. -/
def Runner.entered (runner : Runner) : Nat :=
  match runner.stage with
  | .arriving | .calling => runner.round
  | .inside _ | .leaving => runner.round + 1

theorem runners_sum (amount : Runner → Nat) (runners : Fin size → Runner) (thread : Fin size)
    (runner : Runner) : (∑ other, amount (Function.update runners thread runner other)) +
      amount (runners thread) = (∑ other, amount (runners other)) + amount runner := by
  have others : ∀ other ∈ Finset.univ.erase thread,
      amount (Function.update runners thread runner other) = amount (runners other) := by
    intro other member
    rw [Function.update_of_ne (Finset.ne_of_mem_erase member)]
  have changed := Finset.add_sum_erase Finset.univ
    (fun other => amount (Function.update runners thread runner other)) (Finset.mem_univ thread)
  have before := Finset.add_sum_erase Finset.univ (fun other => amount (runners other))
    (Finset.mem_univ thread)
  rw [Finset.sum_congr rfl others] at changed
  simp only [Function.update_self] at changed
  omega

end Counts

section Laws

/-- The groups of calls that are complete. -/
def tripped (barrier : MonitorBarrier.State (Fin size)) : Nat := group size barrier.calls.length

structure Attending (barrier : MonitorBarrier.State (Fin size)) (runners : Fin size → Runner) :
    Prop where
  grouped : Grouped size barrier
  total : ∑ thread, (runners thread).entered = barrier.calls.length
  level : ∀ thread, (runners thread).entered = tripped barrier ∨
    (runners thread).entered = tripped barrier + 1
  own : ∀ thread number, (runners thread).stage = .inside number →
    group size number = (runners thread).round ∧
      ∃ snapshot notified, barrier.calls[number]? = some ⟨thread, .waiting snapshot notified⟩
  sole : ∀ number thread snapshot notified,
    barrier.calls[number]? = some ⟨thread, .waiting snapshot notified⟩ →
      (runners thread).stage = .inside number
  passed : ∀ thread, (∀ number, (runners thread).stage ≠ .inside number) →
    (runners thread).entered ≤ tripped barrier

end Laws

section Steps
variable (rounds : Nat) (before : Program size) (thread : Fin size)

/-- The barrier when a thread that is not the last one has gone to sleep. -/
def joined : MonitorBarrier.State (Fin size) :=
  MonitorBarrier.enter thread (.waiting before.barrier.resets false)
    { before.barrier with
      currentBarrierVacancies := before.barrier.currentBarrierVacancies - 1 }

/-- The barrier when the last thread has gone through it. -/
def filled : MonitorBarrier.State (Fin size) :=
  MonitorBarrier.enter thread (.returned before.barrier.barrierSize)
    (MonitorBarrier.tripBarrier (MonitorBarrier.updateResets .exact
      (MonitorBarrier.resetCurrentBarrierCapacity before.barrier)))

def rephased (number : Nat) (phase : MonitorBarrier.Phase) : MonitorBarrier.State (Fin size) :=
  { before.barrier with calls := before.barrier.calls.set number ⟨thread, phase⟩ }

/-- The steps of a thread. Of the two ways through `await`, the last thread of a round
takes the second one. -/
inductive Ran : Program size → Prop where
  | arrived (at_ : (before.runners thread).stage = .arriving)
      (more : (before.runners thread).round < rounds) :
      Ran (setRunner thread ⟨(before.runners thread).round, .calling⟩
        (println (.waiting thread (before.runners thread).round) before))
  | joined (at_ : (before.runners thread).stage = .calling)
      (inner : before.barrier.calls.length % size + 1 ≠ size) :
      Ran (setRunner thread ⟨(before.runners thread).round, .inside before.barrier.calls.length⟩
        (setBarrier (joined before thread) before))
  | filled (at_ : (before.runners thread).stage = .calling)
      (last : before.barrier.calls.length % size + 1 = size) :
      Ran (setRunner thread ⟨(before.runners thread).round, .leaving⟩
        (setBarrier (filled before thread) before))
  | slept (number : Nat) (snapshot : Int) (notified : Bool)
      (at_ : (before.runners thread).stage = .inside number)
      (asleep : before.barrier.calls[number]? = some ⟨thread, .waiting snapshot notified⟩)
      (again : mustSleep before.barrier snapshot = true) :
      Ran (setRunner thread ⟨(before.runners thread).round, .inside number⟩
        (setBarrier (rephased before thread number (.waiting snapshot false)) before))
  | returned (number : Nat) (snapshot : Int) (notified : Bool)
      (at_ : (before.runners thread).stage = .inside number)
      (asleep : before.barrier.calls[number]? = some ⟨thread, .waiting snapshot notified⟩)
      (free : mustSleep before.barrier snapshot = false) :
      Ran (setRunner thread ⟨(before.runners thread).round, .leaving⟩
        (setBarrier (rephased before thread number
          (.returned before.barrier.currentBarrierVacancies)) before))
  | left (at_ : (before.runners thread).stage = .leaving) :
      Ran (setRunner thread ⟨(before.runners thread).round + 1, .arriving⟩
        (println (.leaving thread (before.runners thread).round) before))

variable {before thread}

theorem run_ran (after : Program size) (attending : Attending before.barrier before.runners)
    (taken : run rounds before thread = some after) : Ran rounds before thread after := by
  have vacancies := attending.grouped.vacancies
  cases at_ : (before.runners thread).stage with
  | arriving =>
      simp only [run, at_, Option.ite_none_right_eq_some, Option.some.injEq] at taken
      obtain ⟨more, rfl⟩ := taken
      exact .arrived at_ more
  | calling =>
      simp only [run, at_, MonitorBarrier.step, Option.map_eq_some_iff,
        Option.ite_none_left_eq_some, Option.some.injEq] at taken
      obtain ⟨_, ⟨_, rfl⟩, rfl⟩ := taken
      by_cases last : before.barrier.calls.length % size + 1 = size
      · have whole : await .exact thread before.barrier = filled before thread :=
          MonitorBarrier.await_last .exact thread before.barrier vacancies last
        have ended : hasReturned before.barrier.calls.length (filled before thread) = true := by
          simp [hasReturned, filled, MonitorBarrier.enter, MonitorBarrier.tripBarrier,
            MonitorBarrier.updateResets, MonitorBarrier.resetCurrentBarrierCapacity,
            MonitorBarrier.Asleep]
        rw [whole, settle, ended]
        exact .filled at_ last
      · have whole : await .exact thread before.barrier = joined before thread :=
          MonitorBarrier.await_inner .exact thread before.barrier vacancies last
        have waits : hasReturned before.barrier.calls.length (joined before thread) = false := by
          simp [hasReturned, joined, MonitorBarrier.enter, MonitorBarrier.Asleep]
        rw [whole, settle, waits]
        exact .joined at_ last
  | inside number =>
      obtain ⟨_, snapshot, notified, asleep⟩ := attending.own thread number at_
      have inside := (List.getElem?_eq_some_iff.mp asleep).1
      simp only [run, at_, MonitorBarrier.step, asleep, Option.map_some, Option.some.injEq] at taken
      subst taken
      have ended : ∀ phase, hasReturned number (rephased before thread number phase) =
          !MonitorBarrier.Asleep (⟨thread, phase⟩ : Call (Fin size)) := by
        intro phase
        simp [hasReturned, rephased, inside]
      cases again : mustSleep before.barrier snapshot with
      | true =>
          have waits := ended (.waiting snapshot false)
          rw [testLoop, if_pos again, settle]
          rw [rephased] at waits
          rw [waits]
          exact .slept number snapshot notified at_ asleep again
      | false =>
          have ends := ended (.returned before.barrier.currentBarrierVacancies)
          rw [testLoop, if_neg (Bool.eq_false_iff.mp again), settle]
          rw [rephased] at ends
          rw [ends]
          exact .returned number snapshot notified at_ asleep again
  | leaving =>
      simp only [run, at_, Option.some.injEq] at taken
      subst taken
      exact .left at_

end Steps

section Kept
variable {barrier after : MonitorBarrier.State (Fin size)} {runners : Fin size → Runner}
  {thread : Fin size} (runner : Runner) (attending : Attending barrier runners)

include attending

/-- A `println` leaves the barrier alone. -/
theorem quiet_attending (same : runner.entered = (runners thread).entered)
    (was : ∀ number, (runners thread).stage ≠ .inside number)
    (now : ∀ number, runner.stage ≠ .inside number) :
    Attending barrier (Function.update runners thread runner) := by
  have entered : ∀ other, (Function.update runners thread runner other).entered =
      (runners other).entered := by
    intro other
    by_cases self : other = thread
    · rw [self, Function.update_self, same]
    · rw [Function.update_of_ne self]
  have staged : ∀ other number, (Function.update runners thread runner other).stage =
      .inside number ↔ (runners other).stage = .inside number := by
    intro other number
    by_cases self : other = thread
    · rw [self, Function.update_self]
      exact ⟨fun at_ => absurd at_ (now number), fun at_ => absurd at_ (was number)⟩
    · rw [Function.update_of_ne self]
  refine ⟨attending.grouped, ?_, fun other => ?_, fun other number at_ => ?_,
    fun number other snapshot notified asleep => ?_, fun other away => ?_⟩
  · simp only [entered]
    exact attending.total
  · rw [entered]
    exact attending.level other
  · have earlier := (staged other number).mp at_
    have self : other ≠ thread := fun self => was number (self ▸ earlier)
    rw [Function.update_of_ne self]
    exact attending.own other number earlier
  · exact (staged other number).mpr (attending.sole number other snapshot notified asleep)
  · rw [entered]
    exact attending.passed other fun number at_ => away number ((staged other number).mpr at_)

/-- A thread that calls `await` is in the round that the barrier is in. -/
theorem calling_level (at_ : (runners thread).stage = .calling) :
    (runners thread).round = tripped barrier := by
  have passed := attending.passed thread (by simp [at_])
  have level := attending.level thread
  simp only [Runner.entered, at_] at passed level
  omega

theorem calling_awake (at_ : (runners thread).stage = .calling) (number : Nat) (other : Fin size)
    (snapshot : Int) (notified : Bool)
    (asleep : barrier.calls[number]? = some ⟨other, .waiting snapshot notified⟩) : other ≠ thread := by
  rintro rfl
  have inside := attending.sole number other snapshot notified asleep
  rw [at_] at inside
  cases inside

theorem update_total (more : runner.entered = (runners thread).entered + 1) :
    (∑ other, (Function.update runners thread runner other).entered) = barrier.calls.length + 1 := by
  have changed := runners_sum Runner.entered runners thread runner
  have total := attending.total
  omega

theorem joined_attending (positive : 1 ≤ size) (grouped : Grouped size after)
    (at_ : (runners thread).stage = .calling) (inner : barrier.calls.length % size + 1 ≠ size)
    (snapshot : Int) (calls : after.calls = barrier.calls ++ [⟨thread, .waiting snapshot false⟩]) :
    Attending after (Function.update runners thread
      ⟨(runners thread).round, .inside barrier.calls.length⟩) := by
  have place := calling_level attending at_
  have same : tripped after = tripped barrier := by
    rw [tripped, calls, List.length_append, List.length_singleton,
      (MonitorBarrier.group_inner barrier.calls.length positive inner).1, tripped]
  refine ⟨grouped, ?_, fun other => ?_, fun other number inside => ?_,
    fun number other snapshot notified asleep => ?_, fun other away => ?_⟩
  · rw [calls, List.length_append]
    exact update_total _ attending (by simp only [Runner.entered, at_])
  · rw [same]
    by_cases self : other = thread
    · rw [self, Function.update_self]
      exact Or.inr (congrArg (· + 1) place)
    · rw [Function.update_of_ne self]
      exact attending.level other
  · rw [calls]
    by_cases self : other = thread
    · subst self
      rw [Function.update_self] at inside ⊢
      cases inside
      exact ⟨place.symm, snapshot, false, (snoc_entry _ _ _ _).mpr (Or.inr ⟨rfl, rfl⟩)⟩
    · rw [Function.update_of_ne self] at inside ⊢
      obtain ⟨own, earlier, notified, asleep⟩ := attending.own other number inside
      exact ⟨own, earlier, notified, (snoc_entry _ _ _ _).mpr (Or.inl asleep)⟩
  · rw [calls] at asleep
    rcases (snoc_entry _ _ _ _).mp asleep with old | ⟨rfl, new⟩
    · rw [Function.update_of_ne
        (calling_awake attending at_ number other snapshot notified old)]
      exact attending.sole number other snapshot notified old
    · cases new
      rw [Function.update_self]
  · rw [same]
    by_cases self : other = thread
    · subst self
      rw [Function.update_self] at away
      exact absurd rfl (away _)
    · rw [Function.update_of_ne self] at away ⊢
      exact attending.passed other away

/-- When the last thread of a round has come, all have come as often. -/
theorem filled_level (last : barrier.calls.length % size + 1 = size)
    (more : runner.entered = (runners thread).entered + 1)
    (own : runner.entered ≤ tripped barrier + 1) (other : Fin size) :
    (Function.update runners thread runner other).entered = tripped barrier + 1 := by
  have most : ∀ other ∈ Finset.univ,
      (Function.update runners thread runner other).entered ≤ tripped barrier + 1 := by
    intro other _
    by_cases self : other = thread
    · rw [self, Function.update_self]
      exact own
    · rw [Function.update_of_ne self]
      have level := attending.level other
      omega
  have divided := Nat.div_add_mod barrier.calls.length size
  have all : (∑ other : Fin size, (Function.update runners thread runner other).entered) =
      ∑ _ : Fin size, (tripped barrier + 1) := by
    rw [update_total runner attending more, Finset.sum_const, Finset.card_univ, Fintype.card_fin,
      smul_eq_mul, Nat.mul_add, tripped, group]
    omega
  exact (Finset.sum_eq_sum_iff_of_le most).mp all other (Finset.mem_univ other)

theorem filled_attending (grouped : Grouped size after)
    (at_ : (runners thread).stage = .calling) (last : barrier.calls.length % size + 1 = size)
    (value : Int) (calls : after.calls =
      (barrier.calls.map fun call => { call with phase := call.phase.wakened }) ++
        [⟨thread, .returned value⟩]) :
    Attending after (Function.update runners thread ⟨(runners thread).round, .leaving⟩) := by
  have place := calling_level attending at_
  have next : tripped after = tripped barrier + 1 := by
    rw [tripped, calls, List.length_append, List.length_singleton, List.length_map,
      (MonitorBarrier.group_last barrier.calls.length last).1, tripped]
  have more : Runner.entered ⟨(runners thread).round, .leaving⟩ = (runners thread).entered + 1 := by
    simp only [Runner.entered, at_]
  have level := filled_level _ attending last more (Nat.succ_le_succ place.le)
  have woken : ∀ (number : Nat) (other : Fin size), (∃ snapshot notified,
      after.calls[number]? = some ⟨other, .waiting snapshot notified⟩) ↔ ∃ snapshot notified,
        barrier.calls[number]? = some ⟨other, .waiting snapshot notified⟩ := by
    intro number other
    constructor
    · rintro ⟨snapshot, notified, asleep⟩
      rw [calls] at asleep
      rcases (snoc_entry _ _ _ _).mp asleep with old | ⟨_, new⟩
      · rw [List.getElem?_map, Option.map_eq_some_iff] at old
        obtain ⟨⟨sleeper, phase⟩, there, same⟩ := old
        cases phase with
        | waiting snapshot notified =>
            cases same
            exact ⟨snapshot, notified, there⟩
        | returned value => cases same
      · cases new
    · rintro ⟨snapshot, notified, asleep⟩
      refine ⟨snapshot, true, ?_⟩
      rw [calls]
      refine (snoc_entry _ _ _ _).mpr (Or.inl ?_)
      rw [List.getElem?_map, asleep]
      rfl
  refine ⟨grouped, ?_, fun other => ?_, fun other number inside => ?_,
    fun number other snapshot notified asleep => ?_, fun other away => ?_⟩
  · rw [calls, List.length_append, List.length_map]
    exact update_total _ attending more
  · rw [next, level other]
    exact Or.inl rfl
  · by_cases self : other = thread
    · subst self
      rw [Function.update_self] at inside
      cases inside
    · rw [Function.update_of_ne self] at inside ⊢
      obtain ⟨own, asleep⟩ := attending.own other number inside
      exact ⟨own, (woken number other).mpr asleep⟩
  · obtain ⟨snapshot, notified, earlier⟩ := (woken number other).mp ⟨snapshot, notified, asleep⟩
    rw [Function.update_of_ne
      (calling_awake attending at_ number other snapshot notified earlier)]
    exact attending.sole number other snapshot notified earlier
  · rw [next, level other]

theorem slept_attending (grouped : Grouped size after) (number : Nat) (snapshot : Int)
    (notified : Bool) (at_ : (runners thread).stage = .inside number)
    (asleep : barrier.calls[number]? = some ⟨thread, .waiting snapshot notified⟩)
    (calls : after.calls = barrier.calls.set number ⟨thread, .waiting snapshot false⟩) :
    Attending after (Function.update runners thread ⟨(runners thread).round, .inside number⟩) := by
  have inside := (List.getElem?_eq_some_iff.mp asleep).1
  have stays : Function.update runners thread ⟨(runners thread).round, .inside number⟩ = runners := by
    rw [← at_, Function.update_eq_self]
  have length : after.calls.length = barrier.calls.length := by rw [calls, List.length_set]
  have same : tripped after = tripped barrier := by rw [tripped, length, tripped]
  rw [stays]
  refine ⟨grouped, length ▸ attending.total, fun other => same ▸ attending.level other,
    fun other place within => ?_, fun place other earlier flag found => ?_,
    fun other away => same ▸ attending.passed other away⟩
  · obtain ⟨own, earlier, flag, found⟩ := attending.own other place within
    refine ⟨own, ?_⟩
    rw [calls]
    by_cases here : number = place
    · subst here
      rw [asleep, Option.some.injEq, Call.mk.injEq] at found
      exact ⟨snapshot, false, by rw [List.getElem?_set_self inside, found.1]⟩
    · exact ⟨earlier, flag, by rwa [List.getElem?_set_ne here]⟩
  · rw [calls] at found
    rcases set_entry _ _ _ _ _ found with ⟨rfl, new⟩ | old
    · cases new
      exact at_
    · exact attending.sole place other earlier flag old

theorem returned_attending (grouped : Grouped size after) (number : Nat) (snapshot value : Int)
    (notified : Bool) (at_ : (runners thread).stage = .inside number)
    (asleep : barrier.calls[number]? = some ⟨thread, .waiting snapshot notified⟩)
    (complete : group size number < tripped barrier)
    (calls : after.calls = barrier.calls.set number ⟨thread, .returned value⟩) :
    Attending after (Function.update runners thread ⟨(runners thread).round, .leaving⟩) := by
  have length : after.calls.length = barrier.calls.length := by rw [calls, List.length_set]
  have same : tripped after = tripped barrier := by rw [tripped, length, tripped]
  have own := (attending.own thread number at_).1
  have entered : ∀ other, (Function.update runners thread
      ⟨(runners thread).round, .leaving⟩ other).entered = (runners other).entered := by
    intro other
    by_cases self : other = thread
    · rw [self, Function.update_self]
      simp only [Runner.entered, at_]
    · rw [Function.update_of_ne self]
  refine ⟨grouped, ?_, fun other => ?_, fun other place within => ?_,
    fun place other earlier flag found => ?_, fun other away => ?_⟩
  · simp only [entered]
    exact length ▸ attending.total
  · rw [entered, same]
    exact attending.level other
  · by_cases self : other = thread
    · subst self
      rw [Function.update_self] at within
      cases within
    · rw [Function.update_of_ne self] at within ⊢
      obtain ⟨grouped, earlier, flag, found⟩ := attending.own other place within
      have apart : number ≠ place := by
        rintro rfl
        rw [asleep, Option.some.injEq, Call.mk.injEq] at found
        exact self found.1.symm
      exact ⟨grouped, earlier, flag, by rwa [calls, List.getElem?_set_ne apart]⟩
  · rw [calls] at found
    rcases set_entry _ _ _ _ _ found with ⟨rfl, new⟩ | old
    · cases new
    · have within := attending.sole place other earlier flag old
      have self : other ≠ thread := by
        rintro rfl
        rw [at_, Stage.inside.injEq] at within
        subst within
        rw [calls, List.getElem?_set_self (List.getElem?_eq_some_iff.mp asleep).1] at *
        cases found
      rw [Function.update_of_ne self]
      exact within
  · rw [entered, same]
    by_cases self : other = thread
    · subst self
      simp only [Runner.entered, at_]
      omega
    · rw [Function.update_of_ne self] at away
      exact attending.passed other away

/-- A sleeper whose condition is false belongs to a complete round. -/
theorem free_complete (number : Nat) (snapshot : Int) (notified : Bool)
    (asleep : barrier.calls[number]? = some ⟨thread, .waiting snapshot notified⟩)
    (free : mustSleep barrier snapshot = false) : group size number < tripped barrier := by
  obtain ⟨own, _⟩ := attending.grouped.waiting number thread snapshot notified asleep
  have resets := attending.grouped.resets
  have inside := (List.getElem?_eq_some_iff.mp asleep).1
  have order : group size number ≤ tripped barrier := Nat.div_le_div_right (Nat.le_of_lt inside)
  simp only [mustSleep, decide_eq_false_iff_not] at free
  rw [tripped] at order ⊢
  omega

end Kept

section Runs
variable (rounds : Nat)

theorem ran_attending (positive : 1 ≤ size) (before after : Program size) (thread : Fin size)
    (attending : Attending before.barrier before.runners) (ran : Ran rounds before thread after) :
    Attending after.barrier after.runners := by
  have vacancies := attending.grouped.vacancies
  cases ran with
  | arrived at_ more =>
      exact quiet_attending _ attending (by simp only [println, Runner.entered, at_])
        (by simp [println, at_]) (by simp)
  | joined at_ inner =>
      have grouped := MonitorBarrier.join_grouped thread before.barrier positive attending.grouped inner
      rw [MonitorBarrier.await_inner .exact thread before.barrier vacancies inner] at grouped
      exact joined_attending attending positive grouped at_ inner before.barrier.resets rfl
  | filled at_ last =>
      have grouped := MonitorBarrier.trip_grouped thread before.barrier attending.grouped last
      rw [MonitorBarrier.await_last .exact thread before.barrier vacancies last] at grouped
      exact filled_attending attending grouped at_ last before.barrier.barrierSize rfl
  | slept number snapshot notified at_ asleep again =>
      have grouped := MonitorBarrier.wake_grouped thread before.barrier number snapshot notified
        attending.grouped asleep
      rw [testLoop, if_pos again] at grouped
      exact slept_attending attending grouped number snapshot notified at_ asleep rfl
  | returned number snapshot notified at_ asleep free =>
      have grouped := MonitorBarrier.wake_grouped thread before.barrier number snapshot notified
        attending.grouped asleep
      rw [testLoop, if_neg (Bool.eq_false_iff.mp free)] at grouped
      exact returned_attending attending grouped number snapshot _ notified at_ asleep
        (free_complete attending number snapshot notified asleep free) rfl
  | left at_ =>
      exact quiet_attending _ attending (by simp only [println, Runner.entered, at_])
        (by simp [println, at_]) (by simp)

theorem main_attending : Attending (main : Program size).barrier main.runners := by
  refine ⟨MonitorBarrier.initial_grouped size, ?_, fun _ => Or.inl ?_, ?_, ?_, fun _ _ => ?_⟩
  · simp [main, Runner.entered, MonitorBarrier.initial]
  · simp [main, Runner.entered, tripped, MonitorBarrier.initial, group]
  · simp [main]
  · simp [main, MonitorBarrier.initial]
  · simp [main, Runner.entered]

end Runs

end EE360P.BarrierProgram
