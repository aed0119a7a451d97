import Mathlib.Logic.Basic
import Mathlib.Tactic.TypeStar

/-! Parties that take turns in any order and never get in each other's way. A party
has at most one next step. It is `sure` when the party cannot be refused it, and it
`may` be taken in some more states. When one complete run of sure steps is known,
every run is a beginning of a run to the same end. -/

namespace EE360P.ConfluentRuns

variable {State Party : Type*}

inductive Ran (step : State → Party → Option State) : Nat → State → State → Prop where
  | done {state : State} : Ran step 0 state state
  | next {length : Nat} {before middle after : State} (party : Party)
      (taken : step before party = some middle) (rest : Ran step length middle after) :
      Ran step (length + 1) before after

structure Confluent (may sure : State → Party → Option State) : Prop where
  possible : ∀ before party after, sure before party = some after → may before party = some after
  /-- Neither of two parties changes what the other one is about to do. -/
  commutes : ∀ before one other left right, one ≠ other → may before one = some left →
    sure before other = some right → ∃ after, sure left other = some after ∧
      may right one = some after

section Runs
variable {step : State → Party → Option State}

theorem ran_append {first second : Nat} {before middle after : State}
    (early : Ran step first before middle) (late : Ran step second middle after) :
    Ran step (first + second) before after := by
  induction early with
  | done => exact (Nat.zero_add second).symm ▸ late
  | next party taken _ ih => exact Nat.add_right_comm _ 1 second ▸ .next party taken (ih late)

theorem ran_single {before after : State} (party : Party) (taken : step before party = some after) :
    Ran step 1 before after := .next party taken .done

/-- What one step keeps, a run keeps. -/
theorem ran_invariant (Invariant : State → Prop)
    (preserved : ∀ before party after, Invariant before → step before party = some after →
      Invariant after)
    {length : Nat} {before after : State} (ran : Ran step length before after)
    (base : Invariant before) : Invariant after := by
  induction ran with
  | done => exact base
  | next party taken _ ih => exact ih (preserved _ party _ base taken)

end Runs

variable {may sure : State → Party → Option State}

/-- Any step brings the known end nearer by one. -/
theorem step_shortens (confluent : Confluent may sure) {final : State}
    (ended : ∀ party, may final party = none) {length : Nat} {before after : State} (party : Party)
    (known : Ran sure length before final) (taken : may before party = some after) :
    ∃ left, length = left + 1 ∧ Ran sure left after final := by
  induction known generalizing after with
  | done =>
      rw [ended] at taken
      cases taken
  | @next length before middle _ other first rest ih =>
      by_cases same : party = other
      · subst same
        have possible := confluent.possible before party middle first
        cases taken.symm.trans possible
        exact ⟨length, rfl, rest⟩
      · obtain ⟨joined, again, later⟩ :=
          confluent.commutes before party other after middle same taken first
        obtain ⟨left, counted, ran⟩ := ih ended later
        exact ⟨length, rfl, counted ▸ .next other again ran⟩

theorem run_shortens (confluent : Confluent may sure) {final : State}
    (ended : ∀ party, may final party = none) {played length : Nat} {before after : State}
    (ran : Ran may played before after) (known : Ran sure length before final) :
    ∃ left, length = played + left ∧ Ran sure left after final := by
  induction ran generalizing length with
  | done => exact ⟨length, (Nat.zero_add length).symm, known⟩
  | next party taken _ ih =>
      obtain ⟨left, rfl, nearer⟩ := step_shortens confluent ended party known taken
      obtain ⟨rest, rfl, reaches⟩ := ih nearer
      exact ⟨rest, by omega, reaches⟩

/-- Nothing can go on for longer than the known run, and where no step is sure,
its end is reached. -/
theorem runs_end (confluent : Confluent may sure) {final : State}
    (ended : ∀ party, may final party = none) {played length : Nat} {before after : State}
    (known : Ran sure length before final) (ran : Ran may played before after) :
    played ≤ length ∧ ((∀ party, sure after party = none) → after = final) := by
  obtain ⟨left, rfl, reaches⟩ := run_shortens confluent ended ran known
  refine ⟨Nat.le_add_right played left, fun stuck => ?_⟩
  cases reaches with
  | done => rfl
  | next party taken _ =>
      rw [stuck] at taken
      cases taken

end EE360P.ConfluentRuns
