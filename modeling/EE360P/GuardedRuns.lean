import Mathlib.Logic.Basic
import Mathlib.Tactic.TypeStar

/-! Runs of a machine whose step is a partial function of the state and of the
scheduled action. `allowed` restricts which actions a run may take in which
state, so a law about every run and a law about the runs that avoid a defect
are proved by the same induction. -/

namespace EE360P.GuardedRuns

variable {State Action : Type*}

inductive Reachable (step : State → Action → Option State) (allowed : State → Action → Prop)
    (initial : State) : State → Prop where
  | start : Reachable step allowed initial initial
  | next {before after : State} (action : Action)
      (earlier : Reachable step allowed initial before) (permitted : allowed before action)
      (taken : step before action = some after) : Reachable step allowed initial after

/-- A property that holds at the start and survives every permitted step holds
in every reachable state. -/
theorem reachable_invariant {step : State → Action → Option State}
    {allowed : State → Action → Prop} {initial : State} (Invariant : State → Prop)
    (base : Invariant initial)
    (preserved : ∀ before action after, Invariant before → allowed before action →
      step before action = some after → Invariant after)
    {state : State} (reached : Reachable step allowed initial state) : Invariant state := by
  induction reached with
  | start => exact base
  | next action _ permitted taken ih => exact preserved _ action _ ih permitted taken

/-- What a stricter guard lets through is a run under a wider one too. -/
theorem reachable_wider {step : State → Action → Option State}
    {allowed wider : State → Action → Prop} {initial : State}
    (weaker : ∀ before action, allowed before action → wider before action) {state : State}
    (reached : Reachable step allowed initial state) : Reachable step wider initial state :=
  reachable_invariant _ .start
    (fun before action _ earlier permitted taken =>
      .next action earlier (weaker before action permitted) taken) reached

section Replay
variable (step : State → Action → Option State) (allowed : State → Action → Prop)
  [∀ state action, Decidable (allowed state action)]

/-- Plays a schedule, refusing an action that is not permitted or not enabled. -/
def replay : State → List Action → Option State
  | state, [] => some state
  | state, action :: rest =>
      if allowed state action then (step state action).bind fun after => replay after rest
      else none

theorem replay_reachable (initial : State) (schedule : List Action) (before after : State)
    (reached : Reachable step allowed initial before)
    (played : replay step allowed before schedule = some after) :
    Reachable step allowed initial after := by
  induction schedule generalizing before with
  | nil =>
      simp only [replay, Option.some.injEq] at played
      exact played ▸ reached
  | cons action rest ih =>
      by_cases permitted : allowed before action
      · simp only [replay, permitted, ↓reduceIte, Option.bind_eq_some_iff] at played
        obtain ⟨middle, taken, played⟩ := played
        exact ih middle (.next action reached permitted taken) played
      · simp [replay, permitted] at played

theorem replayed {initial final : State} {schedule : List Action}
    (played : replay step allowed initial schedule = some final) :
    Reachable step allowed initial final :=
  replay_reachable step allowed initial schedule initial final .start played

end Replay

/-! An observer takes notes of a run and changes nothing. -/
section Observers
variable {Notes : Type*} (step : State → Action → Option State)
  (watch : State → Action → Notes → Notes)

def observed (both : State × Notes) (action : Action) : Option (State × Notes) :=
  (step both.1 action).map fun after => (after, watch both.1 action both.2)

theorem observed_taken (both after : State × Notes) (action : Action)
    (taken : observed step watch both action = some after) :
    step both.1 action = some after.1 ∧ after.2 = watch both.1 action both.2 := by
  obtain ⟨state, stepped, rfl⟩ := Option.map_eq_some_iff.mp taken
  exact ⟨stepped, rfl⟩

/-- The observed runs are the runs. -/
theorem observed_reachable (allowed : State → Action → Prop) (initial state : State)
    (blank : Notes) : Reachable step allowed initial state ↔
      ∃ notes, Reachable (observed step watch) (fun both action => allowed both.1 action)
        (initial, blank) (state, notes) := by
  constructor
  · intro reached
    induction reached with
    | start => exact ⟨blank, .start⟩
    | next action _ permitted taken ih =>
        obtain ⟨notes, reached⟩ := ih
        exact ⟨_, .next action reached permitted (by simp [observed, taken]; rfl)⟩
  · rintro ⟨notes, reached⟩
    exact reachable_invariant (fun both => Reachable step allowed initial both.1) .start
      (fun before action after earlier permitted taken =>
        .next action earlier permitted (observed_taken step watch before after action taken).1)
      reached

end Observers

end EE360P.GuardedRuns
