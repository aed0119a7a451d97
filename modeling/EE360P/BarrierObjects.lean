import Mathlib.Logic.Function.Basic
import EE360P.JavaText
import EE360P.GuardedRuns

/-! Several project2/q1 `MonitorCyclicBarrier` objects. Each has a monitor of its
own, but they share the static `resets`, which none of these monitors guards. So
a step is one access to `resets` here, with what its call does to its own object
around it, and sections of different barriers overlap. A sleeping call may be
woken at any time, which covers `notifyAll`, spurious wake-ups and interrupts. -/

namespace EE360P.BarrierObjects
open JavaText GuardedRuns

variable {Thread Barrier : Type}

/-- How far a call of `await` is. All but the sleepers are in the monitor. -/
inductive Stage where
  | snapping
  | testing (snapShotOfResetsAmount : Int)
  | waiting (snapShotOfResetsAmount : Int) (notified : Bool)
  | reading
  | storing (value : Int)
  | tripping
  deriving DecidableEq, Repr

inductive Phase (Barrier : Type) where
  | outside
  | inside (barrier : Barrier) (stage : Stage)
  deriving DecidableEq, Repr

/-- The fields of one object. `owner` is the thread in its monitor, and `returned`
an observer's list of the values that `await` has returned; no step reads it. -/
structure Fields (Thread : Type) where
  barrierSize : Int
  currentBarrierVacancies : Int
  owner : Option Thread
  returned : List (Thread × Int)
  deriving DecidableEq, Repr

structure State (Thread Barrier : Type) where
  resets : Int
  object : Barrier → Option (Fields Thread)
  phase : Thread → Phase Barrier

def initial : State Thread Barrier := ⟨0, fun _ => none, fun _ => .outside⟩

section Methods

def Stage.snapshot : Stage → Option Int
  | .testing snapShotOfResetsAmount => some snapShotOfResetsAmount
  | .waiting snapShotOfResetsAmount _ => some snapShotOfResetsAmount
  | _ => none

@[simp] theorem snapshot_testing (snapshot : Int) : (Stage.testing snapshot).snapshot = some snapshot := rfl
@[simp] theorem snapshot_waiting (snapshot : Int) (notified : Bool) :
    (Stage.waiting snapshot notified).snapshot = some snapshot := rfl
@[simp] theorem snapshot_snapping : Stage.snapping.snapshot = none := rfl
@[simp] theorem snapshot_reading : Stage.reading.snapshot = none := rfl
@[simp] theorem snapshot_storing (value : Int) : (Stage.storing value).snapshot = none := rfl
@[simp] theorem snapshot_tripping : Stage.tripping.snapshot = none := rfl

def Stage.synchronized : Stage → Bool
  | .waiting _ _ => false
  | _ => true

def Phase.barrier : Phase Barrier → Option Barrier
  | .outside => none
  | .inside barrier _ => some barrier

def maxCapacityReached (fields : Fields Thread) : Bool :=
  fields.barrierSize - fields.currentBarrierVacancies = fields.barrierSize

def resetCurrentBarrierCapacity (fields : Fields Thread) : Fields Thread :=
  { fields with currentBarrierVacancies := fields.barrierSize }

variable [DecidableEq Thread] [DecidableEq Barrier]

def setFields (barrier : Barrier) (fields : Fields Thread) (state : State Thread Barrier) :
    State Thread Barrier :=
  { state with object := Function.update state.object barrier (some fields) }

def setPhase (thread : Thread) (phase : Phase Barrier) (state : State Thread Barrier) :
    State Thread Barrier :=
  { state with phase := Function.update state.phase thread phase }

/-- The constructor. -/
def construct (barrier : Barrier) (numberOfThreads : Int) (state : State Thread Barrier) :
    State Thread Barrier :=
  { setFields barrier ⟨numberOfThreads, numberOfThreads, none, []⟩ state with resets := 0 }

/-- `await` up to its first access to `resets`. -/
def await (thread : Thread) (barrier : Barrier) (fields : Fields Thread)
    (state : State Thread Barrier) : State Thread Barrier :=
  let entered := { fields with
    currentBarrierVacancies := fields.currentBarrierVacancies - 1
    owner := some thread }
  if maxCapacityReached entered then
    setPhase thread (.inside barrier .reading)
      (setFields barrier (resetCurrentBarrierCapacity entered) state)
  else setPhase thread (.inside barrier .snapping) (setFields barrier entered state)

/-- The condition of the loop of `yieldUntilBarrierFull`. -/
def mustSleep (state : State Thread Barrier) (snapShotOfResetsAmount : Int) : Bool :=
  snapShotOfResetsAmount = state.resets

/-- The end of `await`. -/
def finish (thread : Thread) (barrier : Barrier) (fields : Fields Thread)
    (state : State Thread Barrier) : State Thread Barrier :=
  setPhase thread .outside (setFields barrier { fields with
    owner := none
    returned := fields.returned ++ [(thread, fields.currentBarrierVacancies)] } state)

def Phase.wakened (barrier : Barrier) : Phase Barrier → Phase Barrier
  | .inside own (.waiting snapShotOfResetsAmount notified) =>
      .inside own (.waiting snapShotOfResetsAmount (notified || own = barrier))
  | other => other

/-- `notifyAll`. -/
def tripBarrier (barrier : Barrier) (state : State Thread Barrier) : State Thread Barrier :=
  { state with phase := fun thread => (state.phase thread).wakened barrier }

/-- One access of the call that is in the monitor of `barrier`. -/
def proceed (counting : Counting) (thread : Thread) (barrier : Barrier) (fields : Fields Thread)
    (state : State Thread Barrier) : Stage → Option (State Thread Barrier)
  | .snapping => some (setPhase thread (.inside barrier (.testing state.resets)) state)
  | .testing snapshot =>
      if mustSleep state snapshot then
        some (setPhase thread (.inside barrier (.waiting snapshot false))
          (setFields barrier { fields with owner := none } state))
      else some (finish thread barrier fields state)
  | .waiting _ _ => none
  | .reading =>
      some (setPhase thread (.inside barrier (.storing (counting.wrap (state.resets + 1)))) state)
  | .storing value =>
      some { setPhase thread (.inside barrier .tripping) state with resets := value }
  | .tripping => some (finish thread barrier fields (tripBarrier barrier state))

end Methods

inductive Action (Thread Barrier : Type) where
  | construct (barrier : Barrier) (numberOfThreads : Int)
  | await (thread : Thread) (barrier : Barrier)
  | proceed (thread : Thread)
  | wake (thread : Thread)
  deriving DecidableEq, Repr

/-- A thread enters a monitor, at the start of `await` or after `wait()`, only
when no other thread is in it. -/
def step [DecidableEq Thread] [DecidableEq Barrier] (counting : Counting)
    (state : State Thread Barrier) : Action Thread Barrier → Option (State Thread Barrier)
  | .construct barrier numberOfThreads =>
      match state.object barrier with
      | none => some (construct barrier numberOfThreads state)
      | some _ => none
  | .await thread barrier =>
      match state.object barrier with
      | none => none
      | some fields =>
          if state.phase thread = .outside ∧ fields.owner = none then
            some (await thread barrier fields state)
          else none
  | .proceed thread =>
      match state.phase thread with
      | .outside => none
      | .inside barrier stage =>
          (state.object barrier).bind fun fields =>
            proceed counting thread barrier fields state stage
  | .wake thread =>
      match state.phase thread with
      | .inside barrier (.waiting snapshot _) =>
          (state.object barrier).bind fun fields =>
            if fields.owner = none then
              some (setPhase thread (.inside barrier (.testing snapshot))
                (setFields barrier { fields with owner := some thread } state))
            else none
      | _ => none

section Frames
variable [DecidableEq Thread] [DecidableEq Barrier]

omit [DecidableEq Thread] in
@[simp] theorem setFields_object (barrier : Barrier) (fields : Fields Thread)
    (state : State Thread Barrier) :
    (setFields barrier fields state).object = Function.update state.object barrier (some fields) := rfl

omit [DecidableEq Thread] in
@[simp] theorem setFields_phase (barrier : Barrier) (fields : Fields Thread)
    (state : State Thread Barrier) : (setFields barrier fields state).phase = state.phase := rfl

omit [DecidableEq Thread] in
@[simp] theorem setFields_resets (barrier : Barrier) (fields : Fields Thread)
    (state : State Thread Barrier) : (setFields barrier fields state).resets = state.resets := rfl

omit [DecidableEq Barrier] in
@[simp] theorem setPhase_object (thread : Thread) (phase : Phase Barrier)
    (state : State Thread Barrier) : (setPhase thread phase state).object = state.object := rfl

omit [DecidableEq Barrier] in
@[simp] theorem setPhase_phase (thread : Thread) (phase : Phase Barrier)
    (state : State Thread Barrier) :
    (setPhase thread phase state).phase = Function.update state.phase thread phase := rfl

omit [DecidableEq Barrier] in
@[simp] theorem setPhase_resets (thread : Thread) (phase : Phase Barrier)
    (state : State Thread Barrier) : (setPhase thread phase state).resets = state.resets := rfl

end Frames

/-! The run of one object alone. -/
section Erasure

/-- A call is as far as its twin in the run of `barrier` alone; what the two have
read of `resets` may differ. -/
inductive Alike : Stage → Stage → Prop where
  | snapping : Alike .snapping .snapping
  | testing (snapshot own : Int) : Alike (.testing snapshot) (.testing own)
  | waiting (snapshot own : Int) (notified : Bool) :
      Alike (.waiting snapshot notified) (.waiting own notified)
  | reading : Alike .reading .reading
  | storing (value own : Int) : Alike (.storing value) (.storing own)
  | tripping : Alike .tripping .tripping

inductive Matches (barrier : Barrier) : Phase Barrier → Phase Barrier → Prop where
  | elsewhere {phase : Phase Barrier} (away : phase.barrier ≠ some barrier) :
      Matches barrier phase .outside
  | here {stage own : Stage} (alike : Alike stage own) :
      Matches barrier (.inside barrier stage) (.inside barrier own)

/-- Every comparison of a snapshot with `resets` comes out the same. -/
def Agree (barrier : Barrier) (state alone : State Thread Barrier) : Prop :=
  ∀ thread stage own snapshot ownSnapshot, state.phase thread = .inside barrier stage →
    alone.phase thread = .inside barrier own → stage.snapshot = some snapshot →
    own.snapshot = some ownSnapshot → (snapshot = state.resets ↔ ownSnapshot = alone.resets)

/-- What the run of an object alone keeps: one thread at a time in the monitor,
no snapshot from the future, and no trip by anyone else. -/
structure Single (barrier : Barrier) (alone : State Thread Barrier) : Prop where
  entered : ∀ thread stage, alone.phase thread = .inside barrier stage → ∃ fields,
    alone.object barrier = some fields ∧ (stage.synchronized = true → fields.owner = some thread)
  past : ∀ thread stage snapshot, alone.phase thread = .inside barrier stage →
    stage.snapshot = some snapshot → snapshot ≤ alone.resets
  trips : ∀ thread value, alone.phase thread = .inside barrier (.storing value) →
    value = alone.resets + 1

structure Aligned (barrier : Barrier) (state alone : State Thread Barrier) : Prop where
  single : Single barrier alone
  object : state.object barrier = alone.object barrier
  matching : ∀ thread, Matches barrier (state.phase thread) (alone.phase thread)
  agree : Agree barrier state alone

section Single
variable {barrier : Barrier} {alone : State Thread Barrier}

theorem initial_single : Single barrier (initial : State Thread Barrier) := by
  constructor
  · intro thread stage here
    cases here
  · intro thread stage snapshot here
    cases here
  · intro thread value here
    cases here

variable [DecidableEq Thread] [DecidableEq Barrier]

omit [DecidableEq Thread] in
theorem wakened_inside (phase : Phase Barrier) (own other : Barrier) (stage : Stage)
    (here : phase.wakened own = .inside other stage) : ∃ before, phase = .inside other before ∧
      before.snapshot = stage.snapshot ∧ before.synchronized = stage.synchronized ∧
      ∀ value, stage = .storing value → before = .storing value := by
  cases phase with
  | outside => cases here
  | inside barrier before =>
      cases before <;> cases here <;> exact ⟨_, rfl, rfl, rfl, by simp⟩

omit [DecidableEq Thread] in
theorem trip_single (single : Single barrier alone) : Single barrier (tripBarrier barrier alone) := by
  constructor
  · intro thread stage here
    obtain ⟨before, there, _, held, _⟩ := wakened_inside _ _ _ _ here
    exact held ▸ single.entered thread before there
  · intro thread stage snapshot here seen
    obtain ⟨before, there, same, _, _⟩ := wakened_inside _ _ _ _ here
    exact single.past thread before snapshot there (same.trans seen)
  · intro thread value here
    obtain ⟨before, there, _, _, storing⟩ := wakened_inside _ _ _ _ here
    exact single.trips thread value (storing value rfl ▸ there)

omit [DecidableEq Barrier] in
-- One thread moves, and no other thread is in the monitor.
theorem single_moves (single : Single barrier alone) (mover : Thread) (phase : Phase Barrier)
    (fields : Fields Thread) (after : State Thread Barrier)
    (moved : after.phase = Function.update alone.phase mover phase)
    (object : after.object barrier = some fields) (rising : alone.resets ≤ after.resets)
    (free : ∀ thread stage, thread ≠ mover → alone.phase thread = .inside barrier stage →
      stage.synchronized = false)
    (entered : ∀ stage, phase = .inside barrier stage → stage.synchronized = true →
      fields.owner = some mover)
    (past : ∀ stage, phase = .inside barrier stage → ∀ snapshot, stage.snapshot = some snapshot →
      snapshot ≤ after.resets)
    (trips : ∀ value, phase = .inside barrier (.storing value) → value = after.resets + 1) :
    Single barrier after := by
  constructor
  · intro thread stage here
    refine ⟨fields, object, fun held => ?_⟩
    rw [moved] at here
    by_cases self : thread = mover
    · rw [self, Function.update_self] at here
      exact self ▸ entered stage here held
    · rw [Function.update_of_ne self] at here
      rw [free thread stage self here] at held
      cases held
  · intro thread stage snapshot here seen
    rw [moved] at here
    by_cases self : thread = mover
    · rw [self, Function.update_self] at here
      exact past stage here snapshot seen
    · rw [Function.update_of_ne self] at here
      exact Int.le_trans (single.past thread stage snapshot here seen) rising
  · intro thread value here
    rw [moved] at here
    by_cases self : thread = mover
    · rw [self, Function.update_self] at here
      exact trips value here
    · rw [Function.update_of_ne self] at here
      cases free thread _ self here

omit [DecidableEq Thread] [DecidableEq Barrier] in
theorem owner_sole (single : Single barrier alone) (fields : Fields Thread)
    (object : alone.object barrier = some fields) (owner : Option Thread)
    (owned : fields.owner = owner) (thread : Thread) (stage : Stage) (other : some thread ≠ owner)
    (here : alone.phase thread = .inside barrier stage) : stage.synchronized = false := by
  obtain ⟨own, found, held⟩ := single.entered thread stage here
  cases found.symm.trans object
  by_contra busy
  exact other ((held (by simpa using busy)).symm.trans owned)

omit [DecidableEq Thread] [DecidableEq Barrier] in
theorem owner_held (single : Single barrier alone) (fields : Fields Thread)
    (object : alone.object barrier = some fields) (thread : Thread) (stage : Stage)
    (here : alone.phase thread = .inside barrier stage) (held : stage.synchronized = true) :
    fields.owner = some thread := by
  obtain ⟨own, found, owned⟩ := single.entered thread stage here
  cases found.symm.trans object
  exact owned held

end Single

section Moves
variable [DecidableEq Thread] [DecidableEq Barrier] {barrier : Barrier}
  {state alone : State Thread Barrier}

omit [DecidableEq Barrier] in
theorem aligned_moves (aligned : Aligned barrier state alone) (mover : Thread)
    (phase own : Phase Barrier) (after left : State Thread Barrier) (single : Single barrier left)
    (object : after.object barrier = left.object barrier)
    (moved : after.phase = Function.update state.phase mover phase)
    (also : left.phase = Function.update alone.phase mover own)
    (matching : Matches barrier phase own)
    (self : ∀ stage, phase = .inside barrier stage → ∀ twin, own = .inside barrier twin →
      ∀ snapshot, stage.snapshot = some snapshot → ∀ ownSnapshot, twin.snapshot = some ownSnapshot →
        (snapshot = after.resets ↔ ownSnapshot = left.resets))
    (others : ∀ thread stage twin snapshot ownSnapshot, state.phase thread = .inside barrier stage →
      alone.phase thread = .inside barrier twin → stage.snapshot = some snapshot →
        twin.snapshot = some ownSnapshot → (snapshot = after.resets ↔ ownSnapshot = left.resets)) :
    Aligned barrier after left := by
  refine ⟨single, object, fun thread => ?_, fun thread stage twin snapshot ownSnapshot => ?_⟩
  · rw [moved, also]
    by_cases same : thread = mover
    · simpa [same] using matching
    · simpa [same] using aligned.matching thread
  · rw [moved, also]
    by_cases same : thread = mover
    · simp only [same, Function.update_self]
      exact fun here there seen also => self stage here twin there snapshot seen ownSnapshot also
    · simpa [same] using others thread stage twin snapshot ownSnapshot

omit [DecidableEq Thread] in
theorem trip_aligned (aligned : Aligned barrier state alone) :
    Aligned barrier (tripBarrier barrier state) (tripBarrier barrier alone) := by
  refine ⟨trip_single aligned.single, aligned.object, fun thread => ?_,
    fun thread stage own snapshot ownSnapshot here there seen also => ?_⟩
  · have same := aligned.matching thread
    simp only [tripBarrier]
    generalize state.phase thread = before, alone.phase thread = twin at same
    cases same with
    | elsewhere away =>
        refine .elsewhere ?_
        cases before with
        | outside => exact away
        | inside other stage => cases stage <;> exact away
    | here alike => cases alike <;> exact .here (by constructor)
  · obtain ⟨before, here, same, _, _⟩ := wakened_inside _ _ _ _ here
    obtain ⟨twin, there, equal, _, _⟩ := wakened_inside _ _ _ _ there
    exact aligned.agree thread before twin snapshot ownSnapshot here there (same.trans seen)
      (equal.trans also)

omit [DecidableEq Thread] [DecidableEq Barrier] in
theorem aligned_outside (aligned : Aligned barrier state alone) (thread : Thread)
    (outside : state.phase thread = .outside) : alone.phase thread = .outside := by
  have same := aligned.matching thread
  generalize alone.phase thread = twin at same
  rw [outside] at same
  cases same
  rfl

omit [DecidableEq Thread] [DecidableEq Barrier] in
theorem aligned_inside (aligned : Aligned barrier state alone) (thread : Thread) (stage : Stage)
    (here : state.phase thread = .inside barrier stage) :
    ∃ own, alone.phase thread = .inside barrier own ∧ Alike stage own := by
  have same := aligned.matching thread
  generalize alone.phase thread = twin at same
  rw [here] at same
  cases same with
  | elsewhere away => exact absurd rfl away
  | here alike => exact ⟨_, rfl, alike⟩

theorem await_aligned (aligned : Aligned barrier state alone) (thread : Thread)
    (fields : Fields Thread) (object : state.object barrier = some fields)
    (free : fields.owner = none) :
    Aligned barrier (await thread barrier fields state) (await thread barrier fields alone) := by
  have sole := owner_sole aligned.single fields (aligned.object ▸ object) none free
  simp only [await]
  split
  all_goals
    refine aligned_moves aligned thread _ _ _ _ (single_moves aligned.single thread _ _ _ rfl
      (Function.update_self ..) (Int.le_refl _) (fun other stage _ => sole other stage (by simp))
      (fun _ _ _ => rfl) ?_ ?_) (by simp) rfl rfl (.here (by constructor)) ?_ aligned.agree
  all_goals simp

theorem finish_aligned (aligned : Aligned barrier state alone) (thread : Thread) (stage : Stage)
    (fields : Fields Thread) (object : state.object barrier = some fields)
    (there : alone.phase thread = .inside barrier stage) (held : stage.synchronized = true) :
    Aligned barrier (finish thread barrier fields state) (finish thread barrier fields alone) := by
  have owned := owner_held aligned.single fields (aligned.object ▸ object) thread stage there held
  have sole := owner_sole aligned.single fields (aligned.object ▸ object) (some thread) owned
  refine aligned_moves aligned thread .outside .outside _ _ (single_moves aligned.single thread .outside
    _ _ rfl (Function.update_self ..) (Int.le_refl _) (fun other stage apart => sole other stage
      (by simpa using apart)) ?_ ?_ ?_) (by simp [finish]) rfl rfl (.elsewhere (by simp [Phase.barrier]))
    ?_ aligned.agree
  all_goals simp

theorem proceed_aligned (counting : Counting) (aligned : Aligned barrier state alone) (thread : Thread)
    (stage own : Stage) (fields : Fields Thread) (after : State Thread Barrier)
    (object : state.object barrier = some fields)
    (there : alone.phase thread = .inside barrier own) (alike : Alike stage own)
    (here : state.phase thread = .inside barrier stage)
    (fits : counting.wrap (alone.resets + 1) = alone.resets + 1)
    (apart : ∀ value, stage = .storing value → ∀ other before snapshot,
      state.phase other = .inside barrier before → before.snapshot = some snapshot → snapshot ≠ value)
    (taken : proceed counting thread barrier fields state stage = some after) :
    ∃ left, proceed counting thread barrier fields alone own = some left ∧
      Aligned barrier after left := by
  have same := aligned.object ▸ object
  have sole : own.synchronized = true → ∀ other stage, other ≠ thread →
      alone.phase other = .inside barrier stage → stage.synchronized = false := by
    intro held other stage different
    have owned := owner_held aligned.single fields same thread own there held
    exact owner_sole aligned.single fields same (some thread) owned other stage (by simpa using different)
  have owned := owner_held aligned.single fields same thread own there
  cases alike with
  | snapping =>
      cases taken
      refine ⟨_, rfl, aligned_moves aligned thread _ _ _ _ (single_moves aligned.single thread _ fields _
        rfl same (Int.le_refl _) (sole rfl) ?_ ?_ ?_) aligned.object rfl rfl (.here (.testing _ _)) ?_
        aligned.agree⟩
      all_goals simp
      exact fun _ => owned rfl
  | testing snapshot ownSnapshot =>
      have agree := aligned.agree thread _ _ snapshot ownSnapshot here there rfl rfl
      have past := aligned.single.past thread _ ownSnapshot there rfl
      simp only [proceed, mustSleep, decide_eq_true_eq] at taken ⊢
      by_cases asleep : snapshot = state.resets
      · simp only [asleep, agree.mp asleep, ↓reduceIte, Option.some.injEq] at taken ⊢
        subst taken
        refine ⟨_, rfl, aligned_moves aligned thread _ _ _ _ (single_moves aligned.single thread _ _ _
          rfl (Function.update_self ..) (Int.le_refl _) (sole rfl) ?_ ?_ ?_) (by simp) rfl rfl
          (.here (.waiting _ _ _)) ?_ aligned.agree⟩
        all_goals simp [Stage.synchronized]
      · have also := mt agree.mpr asleep
        simp only [asleep, also, ↓reduceIte, Option.some.injEq] at taken ⊢
        subst taken
        exact ⟨_, rfl, finish_aligned aligned thread _ fields object there rfl⟩
  | waiting => cases taken
  | reading =>
      cases taken
      refine ⟨_, rfl, aligned_moves aligned thread _ _ _ _ (single_moves aligned.single thread _ fields _
        rfl same (Int.le_refl _) (sole rfl) ?_ ?_ ?_) aligned.object rfl rfl (.here (.storing _ _)) ?_
        aligned.agree⟩
      all_goals simp [fits]
      exact fun _ => owned rfl
  | storing value twin =>
      cases taken
      have next := aligned.single.trips thread twin there
      have rising : alone.resets ≤ twin := by omega
      refine ⟨_, rfl, aligned_moves aligned thread _ _ _ _ (single_moves aligned.single thread _ fields _
        rfl same rising (sole rfl) ?_ ?_ ?_) aligned.object rfl rfl (.here .tripping) ?_ ?_⟩
      · exact fun _ _ _ => owned rfl
      · simp
      · simp
      · simp
      · intro other stage before snapshot ownSnapshot first second seen also
        have past := aligned.single.past other before ownSnapshot second also
        have different := apart value rfl other stage snapshot first seen
        exact iff_of_false different (by simp only; omega)
  | tripping =>
      cases taken
      have tripped := trip_aligned aligned
      refine ⟨_, rfl, finish_aligned tripped thread .tripping fields object ?_ rfl⟩
      simp [tripBarrier, there, Phase.wakened]

theorem wake_aligned (aligned : Aligned barrier state alone) (thread : Thread) (snapshot own : Int)
    (notified : Bool) (fields : Fields Thread) (object : state.object barrier = some fields)
    (free : fields.owner = none)
    (here : state.phase thread = .inside barrier (.waiting snapshot notified))
    (there : alone.phase thread = .inside barrier (.waiting own notified)) :
    Aligned barrier
      (setPhase thread (.inside barrier (.testing snapshot))
        (setFields barrier { fields with owner := some thread } state))
      (setPhase thread (.inside barrier (.testing own))
        (setFields barrier { fields with owner := some thread } alone)) := by
  have sole := owner_sole aligned.single fields (aligned.object ▸ object) none free
  have agree := aligned.agree thread _ _ snapshot own here there rfl rfl
  have past := aligned.single.past thread _ own there rfl
  refine aligned_moves aligned thread _ _ _ _ (single_moves aligned.single thread _ _ _ rfl
    (Function.update_self ..) (Int.le_refl _) (fun other stage _ => sole other stage (by simp))
    (fun _ _ _ => rfl) ?_ ?_) (by simp) rfl rfl (.here (.testing _ _)) ?_ aligned.agree
  · simpa using past
  · simp
  · simpa using agree

omit [DecidableEq Thread] in
theorem construct_aligned (aligned : Aligned barrier state alone) (numberOfThreads : Int)
    (fresh : state.object barrier = none) :
    Aligned barrier (construct barrier numberOfThreads state)
      (construct barrier numberOfThreads alone) := by
  have nobody : ∀ thread stage, alone.phase thread ≠ .inside barrier stage := by
    intro thread stage here
    obtain ⟨fields, found, _⟩ := aligned.single.entered thread stage here
    rw [← aligned.object, fresh] at found
    cases found
  refine ⟨⟨?_, ?_, ?_⟩, by simp [construct], aligned.matching, ?_⟩
  · exact fun thread stage here => absurd here (nobody thread stage)
  · exact fun thread stage snapshot here => absurd here (nobody thread stage)
  · exact fun thread value here => absurd here (nobody thread _)
  · exact fun thread stage own snapshot ownSnapshot _ there => absurd there (nobody thread own)

end Moves

section Elsewhere
variable [DecidableEq Thread] [DecidableEq Barrier] {barrier : Barrier}
  {state alone : State Thread Barrier}

/-- Writing this value to `resets` changes no comparison of a call of `barrier`. -/
def Undisturbed (barrier : Barrier) (state : State Thread Barrier) (value : Int) : Prop :=
  ∀ thread stage snapshot, state.phase thread = .inside barrier stage →
    stage.snapshot = some snapshot → (snapshot = value ↔ snapshot = state.resets)

/-- Only calls of other objects move. -/
def Elsewhere (barrier : Barrier) (before after : State Thread Barrier) : Prop :=
  after.object barrier = before.object barrier ∧ ∀ thread, after.phase thread = before.phase thread ∨
    ((before.phase thread).barrier ≠ some barrier ∧ (after.phase thread).barrier ≠ some barrier)

omit [DecidableEq Thread] [DecidableEq Barrier] in
theorem elsewhere_trans (before middle after : State Thread Barrier)
    (first : Elsewhere barrier before middle) (second : Elsewhere barrier middle after) :
    Elsewhere barrier before after := by
  refine ⟨second.1.trans first.1, fun thread => ?_⟩
  rcases second.2 thread with same | ⟨apart, away⟩
  · rw [same]
    exact first.2 thread
  · rcases first.2 thread with same | ⟨off, _⟩
    · exact Or.inr ⟨same ▸ apart, away⟩
    · exact Or.inr ⟨off, away⟩

omit [DecidableEq Thread] [DecidableEq Barrier] in
theorem elsewhere_aligned (aligned : Aligned barrier state alone) (after : State Thread Barrier)
    (elsewhere : Elsewhere barrier state after)
    (undisturbed : Undisturbed barrier state after.resets) : Aligned barrier after alone := by
  refine ⟨aligned.single, elsewhere.1.trans aligned.object, fun thread => ?_, ?_⟩
  · have same := aligned.matching thread
    rcases elsewhere.2 thread with equal | ⟨apart, away⟩
    · exact equal ▸ same
    · generalize state.phase thread = before, alone.phase thread = twin at same apart
      cases same with
      | elsewhere => exact .elsewhere away
      | here => exact absurd rfl apart
  · intro thread stage own snapshot ownSnapshot here there seen also
    have before : state.phase thread = .inside barrier stage := by
      rcases elsewhere.2 thread with equal | ⟨_, away⟩
      · exact equal ▸ here
      · exact absurd (by rw [here]; rfl) away
    rw [undisturbed thread stage snapshot before seen]
    exact aligned.agree thread stage own snapshot ownSnapshot before there seen also

omit [DecidableEq Thread] [DecidableEq Barrier] in
theorem undisturbed_same : Undisturbed barrier state state.resets := fun _ _ _ _ _ => Iff.rfl

omit [DecidableEq Barrier] in
theorem move_elsewhere (before : State Thread Barrier) (thread : Thread) (phase : Phase Barrier)
    (away : (before.phase thread).barrier ≠ some barrier) (apart : phase.barrier ≠ some barrier) :
    Elsewhere barrier before (setPhase thread phase before) := by
  refine ⟨rfl, fun other => ?_⟩
  by_cases same : other = thread
  · exact Or.inr ⟨same ▸ away, by simpa [same] using apart⟩
  · exact Or.inl (by simp [same])

omit [DecidableEq Thread] in
theorem fields_elsewhere (before : State Thread Barrier) (own : Barrier) (fields : Fields Thread)
    (other : own ≠ barrier) : Elsewhere barrier before (setFields own fields before) :=
  ⟨Function.update_of_ne other.symm _ _, fun _ => Or.inl rfl⟩

omit [DecidableEq Thread] in
theorem trip_elsewhere (before : State Thread Barrier) (own : Barrier) (other : own ≠ barrier) :
    Elsewhere barrier before (tripBarrier own before) := by
  refine ⟨rfl, fun thread => ?_⟩
  simp only [tripBarrier]
  cases before.phase thread with
  | outside => exact Or.inl rfl
  | inside place stage =>
      by_cases here : place = own
      · have apart : place ≠ barrier := here ▸ other
        cases stage <;> exact Or.inr ⟨by simpa [Phase.barrier] using apart,
          by simpa [Phase.wakened, Phase.barrier] using apart⟩
      · cases stage <;> simp [Phase.wakened, here]

theorem finish_elsewhere (before : State Thread Barrier) (thread : Thread) (own : Barrier)
    (fields : Fields Thread) (other : own ≠ barrier)
    (away : (before.phase thread).barrier ≠ some barrier) :
    Elsewhere barrier before (finish thread own fields before) :=
  elsewhere_trans _ _ _ (fields_elsewhere before own _ other)
    (move_elsewhere _ thread .outside away (by simp [Phase.barrier]))

theorem await_elsewhere (before : State Thread Barrier) (thread : Thread) (own : Barrier)
    (fields : Fields Thread) (other : own ≠ barrier)
    (away : (before.phase thread).barrier ≠ some barrier) :
    Elsewhere barrier before (await thread own fields before) ∧
      (await thread own fields before).resets = before.resets := by
  simp only [await]
  split
  all_goals
    exact ⟨elsewhere_trans _ _ _ (fields_elsewhere before own _ other)
      (move_elsewhere _ thread _ away (by simpa [Phase.barrier] using other)), rfl⟩

theorem proceed_elsewhere (counting : Counting) (before after : State Thread Barrier)
    (thread : Thread) (own : Barrier) (stage : Stage) (fields : Fields Thread) (other : own ≠ barrier)
    (here : before.phase thread = .inside own stage)
    (taken : proceed counting thread own fields before stage = some after) :
    Elsewhere barrier before after ∧
      (after.resets = before.resets ∨ stage = .storing after.resets) := by
  have away : (before.phase thread).barrier ≠ some barrier := by simpa [here, Phase.barrier] using other
  have moves : ∀ next, Elsewhere barrier before (setPhase thread (.inside own next) before) := fun next =>
    move_elsewhere before thread _ away (by simpa [Phase.barrier] using other)
  cases stage with
  | snapping =>
      cases taken
      exact ⟨moves _, Or.inl rfl⟩
  | testing snapshot =>
      simp only [proceed] at taken
      split at taken
      · cases taken
        exact ⟨elsewhere_trans _ _ _ (fields_elsewhere before own _ other)
          (move_elsewhere _ thread _ away (by simpa [Phase.barrier] using other)), Or.inl rfl⟩
      · cases taken
        exact ⟨finish_elsewhere before thread own fields other away, Or.inl rfl⟩
  | waiting => cases taken
  | reading =>
      cases taken
      exact ⟨moves _, Or.inl rfl⟩
  | storing value =>
      cases taken
      exact ⟨moves _, Or.inr rfl⟩
  | tripping =>
      cases taken
      have tripped := trip_elsewhere before own other
      refine ⟨elsewhere_trans _ _ _ tripped (finish_elsewhere _ thread own fields other ?_), Or.inl rfl⟩
      simpa [tripBarrier, here, Phase.wakened, Phase.barrier] using other

end Elsewhere

end Erasure

section Runs
variable [DecidableEq Thread] [DecidableEq Barrier] (counting : Counting) (barrier : Barrier)

def aimed (state : State Thread Barrier) : Action Thread Barrier → Bool
  | .construct own _ => own = barrier
  | .await _ own => own = barrier
  | .proceed thread => (state.phase thread).barrier = some barrier
  | .wake thread => (state.phase thread).barrier = some barrier

/-- Plays what is done at `barrier` in the run of `barrier` alone, and erases the rest. -/
def erase (state : State Thread Barrier) (action : Action Thread Barrier)
    (notes : Option (State Thread Barrier)) : Option (State Thread Barrier) :=
  if aimed barrier state action then notes.bind fun alone => step counting alone action else notes

/-- The step changes no comparison of a call of `barrier` with `resets`, except
that a trip of `barrier` itself frees every one of its sleepers. -/
def Separate (state : State Thread Barrier) : Action Thread Barrier → Prop
  | .construct own _ => own ≠ barrier → Undisturbed barrier state 0
  | .await _ _ => True
  | .proceed thread => ∀ own value, state.phase thread = .inside own (.storing value) →
      if own = barrier then ∀ other stage snapshot, state.phase other = .inside barrier stage →
        stage.snapshot = some snapshot → snapshot ≠ value
      else Undisturbed barrier state value
  | .wake _ => True

/-- The trips of `barrier` alone do not overflow a counter of their own. -/
def Fits (notes : Option (State Thread Barrier)) : Prop :=
  ∀ alone, notes = some alone → counting.wrap (alone.resets + 1) = alone.resets + 1

/-- The run of `barrier` alone has got as far: the same calls have returned, and
those in the loop find its condition the same. -/
def Independent (state : State Thread Barrier) (notes : Option (State Thread Barrier)) : Prop :=
  ∃ alone, notes = some alone ∧
    Reachable (step counting) (fun before action => aimed barrier before action = true) initial alone ∧
    state.object barrier = alone.object barrier ∧
    (∀ thread stage snapshot, state.phase thread = .inside barrier stage →
      stage.snapshot = some snapshot → ∃ own ownSnapshot, alone.phase thread = .inside barrier own ∧
        own.snapshot = some ownSnapshot ∧ mustSleep state snapshot = mustSleep alone ownSnapshot) ∧
    ∀ thread own, alone.phase thread = .inside barrier own →
      ∃ stage, state.phase thread = .inside barrier stage

theorem step_aligned (state after alone : State Thread Barrier) (action : Action Thread Barrier)
    (aligned : Aligned barrier state alone) (separate : Separate barrier state action)
    (fits : counting.wrap (alone.resets + 1) = alone.resets + 1)
    (taken : step counting state action = some after) :
    if aimed barrier state action = true then
      aimed barrier alone action = true ∧ ∃ left, step counting alone action = some left ∧
        Aligned barrier after left
    else Aligned barrier after alone := by
  cases action with
  | construct own numberOfThreads =>
      simp only [step] at taken
      split at taken
      · rename_i fresh
        cases taken
        by_cases here : own = barrier
        · subst here
          have empty : alone.object own = none := aligned.object ▸ fresh
          simp only [aimed, decide_true, ↓reduceIte, step, empty, Option.some.injEq,
            exists_eq_left', true_and]
          exact construct_aligned aligned numberOfThreads fresh
        · simp only [aimed, here, decide_false, Bool.false_eq_true, ↓reduceIte]
          exact elsewhere_aligned aligned _ (fields_elsewhere state own _ here) (separate here)
      · cases taken
  | await thread own =>
      simp only [step] at taken
      split at taken
      · cases taken
      · rename_i fields object
        simp only [Option.ite_none_right_eq_some, Option.some.injEq] at taken
        obtain ⟨⟨outside, free⟩, rfl⟩ := taken
        by_cases here : own = barrier
        · subst here
          have same : alone.object own = some fields := aligned.object ▸ object
          have idle := aligned_outside aligned thread outside
          simp only [aimed, decide_true, ↓reduceIte, step, same, idle, free, and_self,
            Option.some.injEq, exists_eq_left', true_and]
          exact await_aligned aligned thread fields object free
        · have away : (state.phase thread).barrier ≠ some barrier := by simp [outside, Phase.barrier]
          obtain ⟨elsewhere, resets⟩ := await_elsewhere state thread own fields here away
          simp only [aimed, here, decide_false, Bool.false_eq_true, ↓reduceIte]
          exact elsewhere_aligned aligned _ elsewhere (resets.symm ▸ undisturbed_same)
  | proceed thread =>
      simp only [step] at taken
      split at taken
      · cases taken
      · rename_i own stage inside
        obtain ⟨fields, object, taken⟩ := Option.bind_eq_some_iff.mp taken
        have apart := separate own
        by_cases here : own = barrier
        · subst here
          obtain ⟨twin, there, alike⟩ := aligned_inside aligned thread stage inside
          have same : alone.object own = some fields := aligned.object ▸ object
          obtain ⟨left, played, kept⟩ := proceed_aligned counting aligned thread stage twin fields after
            object there alike inside fits (fun value storing => by
              subst storing
              simpa using apart value inside) taken
          simp only [aimed, inside, there, Phase.barrier, decide_true, ↓reduceIte, step, same,
            Option.bind_some, played, Option.some.injEq, exists_eq_left', true_and]
          exact kept
        · have other : own ≠ barrier := here
          obtain ⟨elsewhere, resets⟩ := proceed_elsewhere counting state after thread own stage fields
            other inside taken
          simp only [aimed, inside, Phase.barrier, Option.some.injEq, here, decide_false,
            Bool.false_eq_true, ↓reduceIte]
          apply elsewhere_aligned aligned after elsewhere
          rcases resets with same | storing
          · exact same.symm ▸ undisturbed_same
          · subst storing
            simpa [here] using apart after.resets inside
  | wake thread =>
      simp only [step] at taken
      split at taken
      · rename_i own snapshot notified inside
        obtain ⟨fields, object, taken⟩ := Option.bind_eq_some_iff.mp taken
        simp only [Option.ite_none_right_eq_some, Option.some.injEq] at taken
        obtain ⟨free, rfl⟩ := taken
        by_cases here : own = barrier
        · subst here
          obtain ⟨twin, there, alike⟩ := aligned_inside aligned thread _ inside
          cases alike with
          | waiting _ ownSnapshot _ =>
              have same : alone.object own = some fields := aligned.object ▸ object
              simp only [aimed, inside, there, Phase.barrier, decide_true, ↓reduceIte, step, same,
                Option.bind_some, free, Option.some.injEq, exists_eq_left', true_and]
              exact wake_aligned aligned thread snapshot ownSnapshot notified fields object free inside there
        · simp only [aimed, inside, Phase.barrier, Option.some.injEq, here, decide_false,
            Bool.false_eq_true, ↓reduceIte]
          exact elsewhere_aligned aligned _ (elsewhere_trans _ _ _ (fields_elsewhere state own _ here)
            (move_elsewhere _ thread _ (by simpa [inside, Phase.barrier] using here)
              (by simpa [Phase.barrier] using here))) undisturbed_same
      · cases taken

/-- The two runs, side by side. -/
def Beside (both : State Thread Barrier × Option (State Thread Barrier)) : Prop :=
  ∃ alone, both.2 = some alone ∧
    Reachable (step counting) (fun before action => aimed barrier before action = true) initial alone ∧
    Aligned barrier both.1 alone

omit [DecidableEq Thread] [DecidableEq Barrier] in
theorem initial_aligned : Aligned barrier (initial : State Thread Barrier) initial where
  single := initial_single
  object := rfl
  matching := fun _ => .elsewhere (by simp [initial, Phase.barrier])
  agree := by
    intro thread stage own snapshot ownSnapshot here
    cases here

theorem step_beside (before after : State Thread Barrier × Option (State Thread Barrier))
    (action : Action Thread Barrier) (beside : Beside counting barrier before)
    (permitted : Separate barrier before.1 action ∧ Fits counting before.2)
    (taken : observed (step counting) (erase counting barrier) before action = some after) :
    Beside counting barrier after := by
  obtain ⟨state, notes⟩ := before
  obtain ⟨alone, rfl, reached, aligned⟩ := beside
  obtain ⟨next, following⟩ := after
  obtain ⟨moved, noted⟩ := observed_taken _ _ _ _ _ taken
  have kept := step_aligned counting barrier state next alone action aligned permitted.1
    (permitted.2 alone rfl) moved
  simp only [erase] at noted
  split at kept
  · rename_i here
    obtain ⟨also, left, played, kept⟩ := kept
    refine ⟨left, ?_, .next action reached also played, kept⟩
    simpa [here, played] using noted
  · rename_i away
    exact ⟨alone, by simpa [away] using noted, reached, kept⟩

theorem beside_independent (state : State Thread Barrier) (notes : Option (State Thread Barrier))
    (beside : Beside counting barrier (state, notes)) : Independent counting barrier state notes := by
  obtain ⟨alone, noted, reached, aligned⟩ := beside
  refine ⟨alone, noted, reached, aligned.object, ?_, ?_⟩
  · intro thread stage snapshot here seen
    obtain ⟨own, there, alike⟩ := aligned_inside aligned thread stage here
    obtain ⟨ownSnapshot, also⟩ : ∃ ownSnapshot, own.snapshot = some ownSnapshot := by
      cases alike with
      | testing => exact ⟨_, rfl⟩
      | waiting => exact ⟨_, rfl⟩
      | snapping => cases seen
      | reading => cases seen
      | storing => cases seen
      | tripping => cases seen
    have agree := aligned.agree thread stage own snapshot ownSnapshot here there seen also
    exact ⟨own, ownSnapshot, there, also, decide_eq_decide.mpr agree⟩
  · intro thread own there
    have same := aligned.matching thread
    generalize placed : state.phase thread = here at same
    rw [there] at same
    cases same with
    | here alike => exact ⟨_, rfl⟩

/-- In every run in which no construction and no trip of another barrier changes
a comparison of a call of `barrier`, the other barriers make no difference to it. -/
theorem barrier_independent (state : State Thread Barrier) (notes : Option (State Thread Barrier))
    (reached : Reachable (observed (step counting) (erase counting barrier))
      (fun both action => Separate barrier both.1 action ∧ Fits counting both.2)
      (initial, some initial) (state, notes)) : Independent counting barrier state notes := by
  have beside := reachable_invariant (Beside counting barrier)
    ⟨initial, rfl, .start, initial_aligned barrier⟩
    (fun before action after beside permitted taken =>
      step_beside counting barrier before after action beside permitted taken) reached
  exact beside_independent counting barrier state notes beside

-- The other barrier trips while nobody is at this one.
theorem barrier_independent_idle : ∃ state notes,
    Independent .int32 true (state : State Bool Bool) notes ∧ state.resets = 1 ∧
      state.phase true = .inside true (.testing 1) := by
  have fits : ∀ alone : State Bool Bool, alone.resets = 0 → Fits .int32 (some alone) := by
    rintro alone none _ ⟨⟩
    rw [none]
    decide
  refine ⟨_, _, barrier_independent .int32 true _ _ (.next (.proceed true)
    (.next (.await true true) (.next (.proceed false) (.next (.proceed false)
      (.next (.await false false) (.next (.construct false 1) (.next (.construct true 2) .start
        ⟨fun other => absurd rfl other, fits _ rfl⟩ rfl) ⟨?_, fits _ rfl⟩ rfl)
      ⟨trivial, fits _ rfl⟩ rfl) ⟨?_, fits _ rfl⟩ rfl) ⟨?_, fits _ rfl⟩ rfl)
      ⟨trivial, fits _ rfl⟩ rfl) ⟨?_, fits _ rfl⟩ rfl), rfl, rfl⟩
  · intro _ thread stage snapshot here
    cases here
  · intro own value here
    cases here
  · intro own value here
    cases here
    intro thread stage snapshot inside
    cases thread <;> cases inside
  · intro own value here
    cases here

/-- A waiter of one barrier is let go by a trip of another one. -/
theorem barrier_dependent : ∃ state notes,
    Reachable (observed (step .int32) (erase .int32 true)) (fun _ _ => True)
      ((initial : State Bool Bool), some initial) (state, notes) ∧
    ¬ Independent .int32 true state notes := by
  refine ⟨_, _, .next (.proceed false) (.next (.proceed false) (.next (.await false false)
    (.next (.proceed true) (.next (.proceed true) (.next (.await true true)
      (.next (.construct false 1) (.next (.construct true 2) .start trivial rfl) trivial rfl)
      trivial rfl) trivial rfl) trivial rfl) trivial rfl) trivial rfl) trivial rfl, ?_⟩
  rintro ⟨alone, noted, _, _, loops, _⟩
  cases noted
  obtain ⟨own, ownSnapshot, there, seen, same⟩ := loops true _ 0 rfl rfl
  cases there
  cases seen
  revert same
  decide

end Runs

end EE360P.BarrierObjects
