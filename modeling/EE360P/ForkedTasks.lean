import Mathlib.Logic.Relation
import Mathlib.Tactic.ByContra
import Mathlib.Tactic.TypeStar

/-! Tasks that fork on a bounded pool of workers. A job first works on a memory
that all jobs share and then submits its children, one after the other: it waits
for each of them as soon as it is submitted, and keeps its worker while it waits.
Jobs and memory are arbitrary. How many jobs are nested in one another decides
how many workers a call needs; with fewer, all of them end up waiting for a child
that none is left to run. -/

namespace EE360P.ForkedTasks

inductive Stage (Job : Type*) where
  | queued (job : Job)
  | running (job : Job)
  | waiting (child : Stage Job) (later : List Job)
  | finished

variable {Job Memory : Type*}

/-- A task that has the children `later` still to submit. -/
def next : List Job → Stage Job
  | [] => .finished
  | job :: later => .waiting (.queued job) later

/-- How many tasks wait for a child. -/
def Stage.blocked : Stage Job → Nat
  | .waiting child _ => child.blocked + 1
  | _ => 0

def Stage.queues : Stage Job → Prop
  | .queued _ => True
  | .waiting child _ => child.queues
  | _ => False

/-- Every worker waits for a child, and a task is still queued. -/
def Starved (workers : Nat) (task : Stage Job) : Prop := task.blocked = workers ∧ task.queues

variable (start : Job → Memory → Memory × List Job)

/-- A step of a task for which `free` workers are left. A queued task needs one of
them; a waiting task has one, so its child has one less. -/
inductive Step : Nat → Memory × Stage Job → Memory × Stage Job → Prop where
  | take (free : Nat) (memory : Memory) (job : Job) :
      Step (free + 1) (memory, .queued job) (memory, .running job)
  | work (free : Nat) (memory : Memory) (job : Job) :
      Step free (memory, .running job) ((start job memory).1, next (start job memory).2)
  | within {free : Nat} {memory after : Memory} {child grown : Stage Job} (later : List Job)
      (step : Step free (memory, child) (after, grown)) :
      Step (free + 1) (memory, .waiting child later) (after, .waiting grown later)
  | get (free : Nat) (memory : Memory) (later : List Job) :
      Step free (memory, .waiting .finished later) (memory, next later)

abbrev Steps (free : Nat) : Memory × Stage Job → Memory × Stage Job → Prop :=
  Relation.ReflTransGen (Step start free)

/-- Jobs that are run one after the other on a memory are nested `depth` deep, and leave
the memory `final`. -/
inductive Nests : List Job → Memory → Nat → Memory → Prop where
  | none (memory : Memory) : Nests [] memory 0 memory
  | some {job : Job} {later : List Job} {memory middle final : Memory} {inner outer : Nat}
      (own : Nests (start job memory).2 (start job memory).1 inner middle)
      (rest : Nests later middle outer final) :
      Nests (job :: later) memory (max (inner + 1) outer) final

/-- What a task still needs: the workers that it and the tasks below it come to occupy at
once, and the memory that it leaves. -/
inductive Needs : Stage Job → Memory → Nat → Memory → Prop where
  | queued {job : Job} {memory final : Memory} {depth : Nat}
      (own : Nests start (start job memory).2 (start job memory).1 depth final) :
      Needs (.queued job) memory (depth + 1) final
  | running {job : Job} {memory final : Memory} {depth : Nat}
      (own : Nests start (start job memory).2 (start job memory).1 depth final) :
      Needs (.running job) memory (depth + 1) final
  | waiting {child : Stage Job} {later : List Job} {memory middle final : Memory} {inner outer : Nat}
      (below : Needs child memory inner middle) (rest : Nests start later middle outer final) :
      Needs (.waiting child later) memory (max inner outer + 1) final
  | finished (memory : Memory) : Needs .finished memory 0 memory

variable {start}

theorem nests_append {left right : List Job} {memory middle final : Memory} {inner outer : Nat}
    (first : Nests start left memory inner middle) (second : Nests start right middle outer final) :
    Nests start (left ++ right) memory (max inner outer) final := by
  induction first with
  | none => exact (Nat.zero_max outer).symm ▸ second
  | some own rest _ ih => exact Nat.max_assoc .. ▸ .some own (ih second)

/-- One job alone. -/
theorem nests_single (job : Job) {memory final : Memory} {depth : Nat}
    (own : Nests start (start job memory).2 (start job memory).1 depth final) :
    Nests start [job] memory (depth + 1) final := by
  have alone := Nests.some own (.none final)
  rwa [Nat.max_zero] at alone

section Determinism

theorem finished_stuck (free : Nat) (memory : Memory) (state : Memory × Stage Job) :
    ¬ Step start free (memory, .finished) state := nofun

/-- No state has two different steps. -/
theorem step_unique {free : Nat} {state left right : Memory × Stage Job} (one : Step start free state left)
    (other : Step start free state right) : left = right := by
  induction one generalizing right with
  | take free memory job =>
      cases other
      rfl
  | work free memory job =>
      cases other
      rfl
  | within later step ih =>
      cases other with
      | within _ again =>
          cases ih again
          rfl
      | get => exact absurd step (finished_stuck _ _ _)
  | get free memory later =>
      cases other with
      | within _ again => exact absurd again (finished_stuck _ _ _)
      | get => rfl

end Determinism

section Needed
variable {free : Nat} {memory final : Memory} {depth : Nat}

theorem next_needs (jobs : List Job) (nests : Nests start jobs memory depth final) :
    ∃ less ≤ depth + 1, Needs start (next jobs) memory less final := by
  cases nests with
  | none => exact ⟨0, Nat.zero_le _, .finished memory⟩
  | some own rest => exact ⟨_, Nat.le_refl _, .waiting (.queued own) rest⟩

/-- A step needs no more workers than were needed before, and comes to the same end. -/
theorem step_needs {state after : Memory × Stage Job} (step : Step start free state after)
    (needs : Needs start state.2 state.1 depth final) :
    ∃ less ≤ depth, Needs start after.2 after.1 less final := by
  induction step generalizing depth final with
  | take free memory job =>
      cases needs with
      | queued own => exact ⟨_, Nat.le_refl _, .running own⟩
  | work free memory job =>
      cases needs with
      | running own => exact next_needs _ own
  | within later step ih =>
      cases needs with
      | waiting below rest =>
          obtain ⟨less, fewer, needed⟩ := ih below
          exact ⟨_, by omega, .waiting needed rest⟩
  | get free memory later =>
      cases needs with
      | waiting below rest =>
          cases below
          obtain ⟨less, fewer, needed⟩ := next_needs later rest
          exact ⟨less, by omega, needed⟩

theorem steps_needs {state after : Memory × Stage Job} (steps : Steps start free state after)
    (needs : Needs start state.2 state.1 depth final) :
    ∃ less ≤ depth, Needs start after.2 after.1 less final := by
  induction steps with
  | refl => exact ⟨depth, Nat.le_refl _, needs⟩
  | tail _ step ih =>
      obtain ⟨less, fewer, needed⟩ := ih
      obtain ⟨least, fewest, last⟩ := step_needs step needed
      exact ⟨least, by omega, last⟩

theorem starved_needs {task : Stage Job} (starved : Starved free task)
    (needs : Needs start task memory depth final) : free < depth := by
  induction needs generalizing free with
  | queued => exact starved.1 ▸ Nat.succ_pos _
  | running => exact absurd starved.2 id
  | waiting below rest ih =>
      have under := ih ⟨rfl, starved.2⟩
      have blocked := starved.1
      simp only [Stage.blocked] at blocked
      omega
  | finished => exact absurd starved.2 id

theorem starved_stuck {task : Stage Job} (starved : Starved free task) (state : Memory × Stage Job) :
    ¬ Step start free (memory, task) state := by
  intro step
  generalize same : (memory, task) = before at step
  induction step generalizing memory task with
  | take free memory job =>
      cases same
      exact absurd starved.1 (Nat.succ_ne_zero free).symm
  | work =>
      cases same
      exact starved.2
  | within later step ih =>
      cases same
      exact ih ⟨Nat.succ.inj starved.1, starved.2⟩ rfl
  | get =>
      cases same
      exact starved.2

end Needed

section Completion
variable {free : Nat} {memory after final : Memory} {depth : Nat}

theorem steps_within {child grown : Stage Job} (later : List Job)
    (steps : Steps start free (memory, child) (after, grown)) :
    Steps start (free + 1) (memory, .waiting child later) (after, .waiting grown later) :=
  steps.lift (fun state => (state.1, Stage.waiting state.2 later)) fun _ _ step => .within later step

-- A worker takes up a queued task and brings it to its first fork.
theorem steps_take (job : Job) : Steps start (free + 1) (memory, .queued job)
    ((start job memory).1, next (start job memory).2) :=
  .tail (.single (.take free memory job)) (.work (free + 1) memory job)

/-- With enough workers a task gets through its children. -/
theorem next_completes (jobs : List Job) (nests : Nests start jobs memory depth final)
    (enough : depth ≤ free) : Steps start (free + 1) (memory, next jobs) (final, .finished) := by
  induction nests generalizing free with
  | none => exact .refl
  | some own rest first second =>
      obtain ⟨fewer, rfl⟩ := Nat.exists_eq_succ_of_ne_zero (show free ≠ 0 by omega)
      have child := (steps_take _).trans (first (show _ ≤ fewer by omega))
      exact ((steps_within _ child).tail (.get _ _ _)).trans (second (by omega))

/-- With too few workers a task gets to where all of them wait. -/
theorem next_starves (jobs : List Job) (nests : Nests start jobs memory depth final)
    (few : free < depth) :
    ∃ state, Steps start (free + 1) (memory, next jobs) state ∧ Starved (free + 1) state.2 := by
  induction nests generalizing free with
  | none => exact absurd few (Nat.not_lt_zero free)
  | some own rest first second =>
      rename_i job later memory middle final inner outer
      by_cases deep : free < inner + 1
      · cases free with
        | zero => exact ⟨_, .refl, rfl, trivial⟩
        | succ fewer =>
            obtain ⟨state, reached, starved⟩ := first (show fewer < inner by omega)
            have child := (steps_take job).trans reached
            exact ⟨_, steps_within later child, congrArg Nat.succ starved.1, starved.2⟩
      · obtain ⟨fewer, rfl⟩ := Nat.exists_eq_succ_of_ne_zero (show free ≠ 0 by omega)
        have child := (steps_take job).trans (next_completes _ own (show _ ≤ fewer by omega))
        obtain ⟨state, reached, starved⟩ := second (show fewer.succ < outer by omega)
        exact ⟨state, ((steps_within later child).tail (.get _ _ _)).trans reached, starved⟩

end Completion

section Calls
variable {memory final : Memory} {depth : Nat} (job : Job) (workers : Nat)

theorem job_needs (nests : Nests start [job] memory depth final) :
    Needs start (.queued job) memory depth final := by
  cases nests with
  | some own rest =>
      cases rest
      exact Nat.max_zero _ ▸ .queued own

theorem job_completes (nests : Nests start [job] memory depth final) (enough : depth ≤ workers) :
    Steps start workers (memory, .queued job) (final, .finished) := by
  cases nests with
  | some own rest =>
      cases rest
      obtain ⟨fewer, rfl⟩ := Nat.exists_eq_succ_of_ne_zero (show workers ≠ 0 by omega)
      exact (steps_take job).trans (next_completes _ own (by omega))

theorem job_starves (nests : Nests start [job] memory depth final) (few : workers < depth) :
    ∃ state, Steps start workers (memory, .queued job) state ∧ Starved workers state.2 := by
  cases workers with
  | zero => exact ⟨_, .refl, rfl, trivial⟩
  | succ fewer =>
      cases nests with
      | some own rest =>
          cases rest
          obtain ⟨state, reached, starved⟩ := next_starves _ own (show fewer < _ by omega)
          exact ⟨state, (steps_take job).trans reached, starved⟩

/-- No state of a call is starved exactly when there are workers for all nested jobs. -/
theorem never_starved (nests : Nests start [job] memory depth final) :
    (∀ state, Steps start workers (memory, .queued job) state → ¬ Starved workers state.2) ↔
      depth ≤ workers := by
  constructor
  · intro never
    by_contra few
    obtain ⟨state, reached, starved⟩ := job_starves job workers nests (by omega)
    exact never state reached starved
  · intro enough state reached starved
    obtain ⟨less, fewer, needed⟩ := steps_needs reached (job_needs job nests)
    have deep := starved_needs starved needed
    omega

/-- A call ends from each of its states exactly when there are workers for all nested jobs. -/
theorem always_completes (nests : Nests start [job] memory depth final) :
    (∀ state, Steps start workers (memory, .queued job) state →
      Steps start workers state (final, .finished)) ↔ depth ≤ workers := by
  constructor
  · intro ends
    by_contra few
    obtain ⟨⟨after, task⟩, reached, starved⟩ := job_starves job workers nests (by omega)
    rcases (ends _ reached).cases_head with same | ⟨state, step, _⟩
    · cases same
      exact starved.2
    · exact starved_stuck starved state step
  · intro enough state reached
    have ended := job_completes job workers nests enough
    rcases Relation.ReflTransGen.total_of_right_unique (r := Step start workers) (fun _ _ _ => step_unique)
      reached ended with later | earlier
    · exact later
    · rcases earlier.cases_head with same | ⟨next, step, _⟩
      · exact same ▸ .refl
      · exact absurd step (finished_stuck _ _ _)

end Calls

end EE360P.ForkedTasks
