import EE360P.BarrierProgram
import EE360P.MeteredRuns

/-! What `testMonitorBarrier` prints, and that it ends. The lines of a round stand before
and after the barrier; a sleeper that nobody has to wake keeps no other thread waiting. -/

namespace EE360P.BarrierProgram
open JavaText GuardedRuns MeteredRuns
open MonitorBarrier (group mustSleep)

variable {size : Nat}

section Lines
variable (rounds : Nat)

/-- The rounds whose first line a thread has printed. -/
def Runner.begun (runner : Runner) : Nat :=
  match runner.stage with
  | .arriving => runner.round
  | .calling | .inside _ | .leaving => runner.round + 1

/-- What has been printed, line by line. -/
structure Logged (program : Program size) : Prop where
  once : program.printed.Nodup
  waiting : ∀ thread round, .waiting thread round ∈ program.printed ↔
    round < (program.runners thread).begun
  leaving : ∀ thread round, .leaving thread round ∈ program.printed ↔
    round < (program.runners thread).round
  bounded : ∀ thread, (program.runners thread).begun ≤ rounds

/-- A step that prints nothing and stays within the round. -/
theorem unprinted_logged (before : Program size) (barrier : MonitorBarrier.State (Fin size))
    (thread : Fin size) (stage : Stage) (logged : Logged rounds before)
    (same : Runner.begun ⟨(before.runners thread).round, stage⟩ = (before.runners thread).begun) :
    Logged rounds (setRunner thread ⟨(before.runners thread).round, stage⟩
      (setBarrier barrier before)) := by
  have begun : ∀ other, (Function.update before.runners thread
      ⟨(before.runners thread).round, stage⟩ other).begun = (before.runners other).begun := by
    intro other
    by_cases self : other = thread
    · rw [self, Function.update_self, same]
    · rw [Function.update_of_ne self]
  have round : ∀ other, (Function.update before.runners thread
      ⟨(before.runners thread).round, stage⟩ other).round = (before.runners other).round := by
    intro other
    by_cases self : other = thread
    · rw [self, Function.update_self]
    · rw [Function.update_of_ne self]
  refine ⟨logged.once, fun other turn => ?_, fun other turn => ?_, fun other => ?_⟩
  · exact (logged.waiting other turn).trans (by simp only [setRunner, setBarrier, begun])
  · exact (logged.leaving other turn).trans (by simp only [setRunner, setBarrier, round])
  · exact (begun other).trans_le (logged.bounded other)

theorem arrived_logged (before : Program size) (thread : Fin size) (logged : Logged rounds before)
    (at_ : (before.runners thread).stage = .arriving)
    (more : (before.runners thread).round < rounds) :
    Logged rounds (setRunner thread ⟨(before.runners thread).round, .calling⟩
      (println (.waiting thread (before.runners thread).round) before)) := by
  have begun : (before.runners thread).begun = (before.runners thread).round := by
    simp only [Runner.begun, at_]
  have next : Runner.begun ⟨(before.runners thread).round, .calling⟩ =
      (before.runners thread).round + 1 := rfl
  refine ⟨?_, fun other turn => ?_, fun other turn => ?_, fun other => ?_⟩
  · refine List.nodup_append.mpr ⟨logged.once, List.nodup_singleton _, fun line old next new => ?_⟩
    rintro rfl
    rw [List.mem_singleton.mp new] at old
    have early := (logged.waiting thread _).mp old
    omega
  · simp only [setRunner, println, List.mem_append, List.mem_singleton, Printed.waiting.injEq,
      logged.waiting other turn]
    by_cases self : other = thread
    · subst self
      simp only [Function.update_self, next, begun, true_and]
      omega
    · simp [self]
  · simp only [setRunner, println, List.mem_append, List.mem_singleton, reduceCtorEq, or_false,
      logged.leaving other turn]
    by_cases self : other = thread
    · rw [self, Function.update_self]
    · rw [Function.update_of_ne self]
  · simp only [setRunner, println]
    by_cases self : other = thread
    · rw [self, Function.update_self]
      exact more
    · rw [Function.update_of_ne self]
      exact logged.bounded other

theorem left_logged (before : Program size) (thread : Fin size) (logged : Logged rounds before)
    (at_ : (before.runners thread).stage = .leaving) :
    Logged rounds (setRunner thread ⟨(before.runners thread).round + 1, .arriving⟩
      (println (.leaving thread (before.runners thread).round) before)) := by
  have begun : ∀ other, (Function.update before.runners thread
      ⟨(before.runners thread).round + 1, .arriving⟩ other).begun = (before.runners other).begun := by
    intro other
    by_cases self : other = thread
    · rw [self, Function.update_self]
      simp only [Runner.begun, at_]
    · rw [Function.update_of_ne self]
  refine ⟨?_, fun other turn => ?_, fun other turn => ?_, fun other => ?_⟩
  · refine List.nodup_append.mpr ⟨logged.once, List.nodup_singleton _, fun line old next new => ?_⟩
    rintro rfl
    rw [List.mem_singleton.mp new] at old
    exact absurd ((logged.leaving thread _).mp old) (Nat.lt_irrefl _)
  · simp only [setRunner, println, List.mem_append, List.mem_singleton, reduceCtorEq, or_false,
      logged.waiting other turn, begun]
  · simp only [setRunner, println, List.mem_append, List.mem_singleton, Printed.leaving.injEq,
      logged.leaving other turn]
    by_cases self : other = thread
    · subst self
      simp only [Function.update_self, true_and]
      omega
    · simp [self]
  · exact (begun other).trans_le (logged.bounded other)

theorem ran_logged (before after : Program size) (thread : Fin size)
    (logged : Logged rounds before) (ran : Ran rounds before thread after) :
    Logged rounds after := by
  cases ran with
  | arrived at_ more => exact arrived_logged rounds before thread logged at_ more
  | joined at_ inner =>
      exact unprinted_logged rounds before _ thread _ logged (by simp only [Runner.begun, at_])
  | filled at_ last =>
      exact unprinted_logged rounds before _ thread _ logged (by simp only [Runner.begun, at_])
  | slept number snapshot notified at_ asleep again =>
      exact unprinted_logged rounds before _ thread _ logged (by simp only [Runner.begun, at_])
  | returned number snapshot notified at_ asleep free =>
      exact unprinted_logged rounds before _ thread _ logged (by simp only [Runner.begun, at_])
  | left at_ => exact left_logged rounds before thread logged at_

theorem main_logged : Logged rounds (main : Program size) := by
  refine ⟨List.nodup_nil, ?_, ?_, ?_⟩ <;> simp [main, Runner.begun]

structure Sound (program : Program size) : Prop where
  attending : Attending program.barrier program.runners
  logged : Logged rounds program

theorem main_sound : Sound rounds (main : Program size) := ⟨main_attending, main_logged rounds⟩

theorem run_sound (positive : 1 ≤ size) (before : Program size) (thread : Fin size)
    (after : Program size) (sound : Sound rounds before)
    (taken : run rounds before thread = some after) : Sound rounds after :=
  have ran := run_ran rounds after sound.attending taken
  ⟨ran_attending rounds positive before after thread sound.attending ran,
    ran_logged rounds before after thread sound.logged ran⟩

/-- A thread's second line of a round comes after the first lines of all threads. -/
theorem lines_separated (positive : 1 ≤ size) (program : Program size)
    (reached : Reachable (run rounds) (fun _ _ => True) main program) (thread other : Fin size)
    (round : Nat) (left : .leaving thread round ∈ program.printed) :
    .waiting other round ∈ program.printed := by
  have sound := reachable_invariant (Sound rounds) (main_sound rounds)
    (fun before thread after sound _ taken => run_sound rounds positive before thread after sound taken)
    reached
  have early := (sound.logged.leaving thread round).mp left
  have through : (program.runners thread).round ≤ tripped program.barrier := by
    have level := sound.attending.level thread
    have passed := sound.attending.passed thread
    cases stage : (program.runners thread).stage with
    | inside number =>
        simp only [Runner.entered, stage] at level
        omega
    | _ =>
        have most := passed (by simp [stage])
        simp only [Runner.entered, stage] at most
        omega
  have here := sound.attending.level other
  have most : (program.runners other).entered ≤ (program.runners other).begun := by
    unfold Runner.entered Runner.begun
    split <;> simp_all
  refine (sound.logged.waiting other round).mpr ?_
  omega

end Lines

-- The first thread wakes without reason before the second one has come.
def secondTrips (first second : Fin size) : List (Fin size) :=
  [first, first, first, second, second, second]

theorem lines_separated_two : ∃ program : Program 2,
    replay (run 2) (fun _ _ => True) main (secondTrips 0 1) = some program ∧
      .waiting 0 0 ∈ program.printed := by
  have shown : ((replay (run 2) (fun _ _ => True) (main : Program 2) (secondTrips 0 1)).any
      fun program => decide (.leaving 1 0 ∈ program.printed)) = true := by
    decide
  obtain ⟨program, played, left⟩ := (Option.any_eq_true _ _).mp shown
  exact ⟨program, played, lines_separated 2 (by decide) program (replayed _ _ played) 1 0 0
    (of_decide_eq_true left)⟩

section Progress
variable (rounds : Nat)

/-- A sleeper goes on when it was notified and finds its condition false. -/
def effective (program : Program size) (thread : Fin size) : Bool :=
  match (program.runners thread).stage with
  | .inside number =>
      program.barrier.calls[number]?.any fun call => match call.phase with
        | .waiting snapShotOfResetsAmount notified =>
            notified && !mustSleep program.barrier snapShotOfResetsAmount
        | .returned _ => false
  | _ => true

abbrev Effective (program : Program size) (thread : Fin size) : Prop :=
  effective program thread = true

/-- The steps that a thread has before it, unless it wakes without reason. -/
def runnerLeft (runner : Runner) : Nat :=
  match runner.stage with
  | .arriving => 4 * (rounds - runner.round)
  | .calling => 4 * (rounds - runner.round - 1) + 3
  | .inside _ => 4 * (rounds - runner.round - 1) + 2
  | .leaving => 4 * (rounds - runner.round - 1) + 1

def stepsLeft (program : Program size) : Nat := ∑ thread, runnerLeft rounds (program.runners thread)

/-- Every thread is through its loop, and every line is printed once. -/
structure Finished (program : Program size) : Prop where
  runners : ∀ thread, program.runners thread = ⟨rounds, .arriving⟩
  once : program.printed.Nodup
  waiting : ∀ thread round, .waiting thread round ∈ program.printed ↔ round < rounds
  leaving : ∀ thread round, .leaving thread round ∈ program.printed ↔ round < rounds

theorem ran_left (before after : Program size) (thread : Fin size)
    (ran : Ran rounds before thread after) (useful : Effective before thread) :
    1 + stepsLeft rounds after ≤ stepsLeft rounds before := by
  have sum := runners_sum (runnerLeft rounds) before.runners thread
  unfold stepsLeft
  cases ran with
  | arrived at_ more =>
      have changed := sum ⟨(before.runners thread).round, .calling⟩
      simp only [runnerLeft, at_] at changed
      simp only [setRunner, println, runnerLeft]
      omega
  | joined at_ inner =>
      have changed := sum ⟨(before.runners thread).round, .inside before.barrier.calls.length⟩
      simp only [runnerLeft, at_] at changed
      simp only [setRunner, setBarrier, runnerLeft]
      omega
  | filled at_ last =>
      have changed := sum ⟨(before.runners thread).round, .leaving⟩
      simp only [runnerLeft, at_] at changed
      simp only [setRunner, setBarrier, runnerLeft]
      omega
  | slept number snapshot notified at_ asleep again =>
      simp [Effective, effective, at_, asleep, again] at useful
  | returned number snapshot notified at_ asleep free =>
      have changed := sum ⟨(before.runners thread).round, .leaving⟩
      simp only [runnerLeft, at_] at changed
      simp only [setRunner, setBarrier, runnerLeft]
      omega
  | left at_ =>
      have changed := sum ⟨(before.runners thread).round + 1, .arriving⟩
      simp only [runnerLeft, at_] at changed
      simp only [setRunner, println, runnerLeft]
      omega

theorem program_metered (positive : 1 ≤ size) : Metered (run rounds) (@Effective size)
    (Sound rounds) (fun _ => true) (fun _ => 0) (stepsLeft rounds) :=
  ⟨fun before thread after sound _ taken => run_sound rounds positive before thread after sound taken,
    fun before thread after sound useful taken =>
      ran_left rounds before after thread (run_ran rounds after sound.attending taken) useful⟩

section Still
variable {program : Program size} (sound : Sound rounds program)
  (still : ∀ thread, Effective program thread → run rounds program thread = none)
include sound still

theorem still_stage (thread : Fin size) :
    program.runners thread = ⟨rounds, .arriving⟩ ∨
      ((program.runners thread).round = tripped program.barrier ∧
        ∃ number, (program.runners thread).stage = .inside number) := by
  have none := still thread
  cases stage : (program.runners thread).stage with
  | arriving =>
      have stuck := none (by simp [Effective, effective, stage])
      simp only [run, stage, ite_eq_right_iff, reduceCtorEq, imp_false] at stuck
      have bounded := sound.logged.bounded thread
      simp only [Runner.begun, stage] at bounded
      refine Or.inl ?_
      rw [← stage, show rounds = (program.runners thread).round by omega]
  | calling =>
      have stuck := none (by simp [Effective, effective, stage])
      simp only [run, stage, MonitorBarrier.step, Option.map_eq_none_iff, ite_eq_left_iff,
        reduceCtorEq, imp_false, not_not, List.any_eq_true, Bool.and_eq_true,
        decide_eq_true_eq] at stuck
      obtain ⟨⟨_, phase⟩, member, rfl, sleeps⟩ := stuck
      obtain ⟨number, found⟩ := List.mem_iff_getElem?.mp member
      cases phase with
      | waiting snapshot notified =>
          have inside := sound.attending.sole number _ snapshot notified found
          exact absurd (stage.symm.trans inside) (by simp)
      | returned value => cases sleeps
  | inside number =>
      obtain ⟨own, snapshot, notified, asleep⟩ := sound.attending.own thread number stage
      obtain ⟨grouped, fresh⟩ := sound.attending.grouped.waiting number thread snapshot notified asleep
      have resets := sound.attending.grouped.resets
      refine Or.inr ⟨?_, number, rfl⟩
      by_cases current : snapshot = program.barrier.resets
      · rw [tripped]
        omega
      · have told : notified = true := by
          cases notified with
          | false => exact absurd (fresh rfl) current
          | true => rfl
        have useful : Effective program thread := by
          simp [Effective, effective, stage, asleep, told, mustSleep, current]
        have woken := none useful
        simp [run, stage, MonitorBarrier.step, asleep] at woken
  | leaving => simp [effective, run, stage] at none

/-- If one thread still waited, all would have come to its round, which would be complete. -/
theorem still_finished : Finished rounds program := by
  have runners : ∀ thread, program.runners thread = ⟨rounds, .arriving⟩ := by
    intro thread
    refine (still_stage rounds sound still thread).resolve_right ?_
    rintro ⟨here, number, stage⟩
    have begun := sound.logged.bounded thread
    simp only [Runner.begun, stage] at begun
    have entered : ∀ other, (program.runners other).entered = tripped program.barrier + 1 := by
      intro other
      rcases still_stage rounds sound still other with finished | ⟨there, place, inside⟩
      · have level := sound.attending.level other
        rw [finished] at level ⊢
        simp only [Runner.entered] at level ⊢
        omega
      · simp only [Runner.entered, inside, there]
    have total := sound.attending.total
    simp only [entered, Finset.sum_const, Finset.card_univ, Fintype.card_fin, smul_eq_mul] at total
    have short := Nat.lt_mul_div_succ program.barrier.calls.length thread.pos
    rw [tripped, group] at total
    exact Nat.lt_irrefl _ (short.trans_eq total)
  refine ⟨runners, sound.logged.once, fun thread round => ?_, fun thread round => ?_⟩
  · rw [sound.logged.waiting, runners]
    rfl
  · rw [sound.logged.leaving, runners]

end Still

/-- From every state that a run can lead to, also when sleepers have woken without reason,
the threads get through all their rounds, in whichever order they go on. -/
theorem program_finishes (positive : 1 ≤ size) (program : Program size)
    (reached : Reachable (run rounds) (fun _ _ => True) main program) :
    (∃ schedule final, replay (run rounds) Effective program schedule = some final ∧
      Finished rounds final) ∧
    ∀ schedule final, replay (run rounds) Effective program schedule = some final →
      schedule.length ≤ stepsLeft rounds program ∧
        ((∀ thread, Effective final thread → run rounds final thread = none) →
          Finished rounds final) := by
  have sound := reachable_invariant (Sound rounds) (main_sound rounds)
    (fun before thread after sound _ taken => run_sound rounds positive before thread after sound taken)
    reached
  have metered := program_metered rounds positive
  constructor
  · obtain ⟨schedule, final, _, played, still⟩ :=
      comes_to_rest metered (fun _ _ => rfl) program sound
    have kept := (work_length metered (fun _ _ => rfl) schedule (fun _ _ => rfl) program final sound
      played).1
    exact ⟨schedule, final, played, still_finished rounds kept fun thread => still thread rfl⟩
  · intro schedule final played
    obtain ⟨kept, short⟩ :=
      work_length metered (fun _ _ => rfl) schedule (fun _ _ => rfl) program final sound played
    exact ⟨short, still_finished rounds kept⟩

end Progress

theorem program_finishes_two : ∃ program : Program 2,
    replay (run 2) (fun _ _ => True) main (secondTrips 0 1) = some program ∧
      ∃ schedule final, replay (run 2) Effective program schedule = some final ∧
        Finished 2 final := by
  obtain ⟨program, played⟩ := Option.isSome_iff_exists.mp
    (show (replay (run 2) (fun _ _ => True) (main : Program 2) (secondTrips 0 1)).isSome = true by decide)
  exact ⟨program, played, (program_finishes 2 (by decide) program (replayed _ _ played)).1⟩

end EE360P.BarrierProgram
