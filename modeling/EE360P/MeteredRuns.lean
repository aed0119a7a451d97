import Mathlib.Algebra.BigOperators.Group.List.Basic
import Mathlib.Algebra.GroupWithZero.Nat
import EE360P.GuardedRuns

/-! Runs in which every step has its price. A step is paid from what the state has in
store and from what the action brings in, so the work of a schedule is bounded by the
store it started with and by its income. -/

namespace EE360P.MeteredRuns
open GuardedRuns

variable {State Action : Type*}

structure Metered (step : State → Action → Option State) (allowed : State → Action → Prop)
    (Invariant : State → Prop) (work : Action → Bool) (income : Action → Nat) (store : State → Nat) :
    Prop where
  kept : ∀ before action after, Invariant before → allowed before action →
    step before action = some after → Invariant after
  paid : ∀ before action after, Invariant before → allowed before action →
    step before action = some after →
      (work action).toNat + store after ≤ store before + income action

/-- What is paid for all work is paid for some of it. -/
theorem metered_part {step : State → Action → Option State} {allowed : State → Action → Prop}
    {Invariant : State → Prop} {work part : Action → Bool} {income : Action → Nat} {store : State → Nat}
    (metered : Metered step allowed Invariant work income store)
    (inside : ∀ action, part action = true → work action = true) :
    Metered step allowed Invariant part income store := by
  refine ⟨metered.kept, fun before action after holds may taken => ?_⟩
  have paid := metered.paid before action after holds may taken
  have fewer : (part action).toNat ≤ (work action).toNat := by
    cases own : part action with
    | false => exact Nat.zero_le _
    | true => exact (inside action own).symm ▸ Nat.le_refl _
  omega

section Schedules
variable {step : State → Action → Option State} {allowed : State → Action → Prop}
  [∀ state action, Decidable (allowed state action)]
  {Invariant : State → Prop} {work : Action → Bool} {income : Action → Nat} {store : State → Nat}
  (metered : Metered step allowed Invariant work income store)
include metered

theorem replay_paid (schedule : List Action) (before after : State) (holds : Invariant before)
    (played : replay step allowed before schedule = some after) : Invariant after ∧
      schedule.countP work + store after ≤ store before + (schedule.map income).sum := by
  induction schedule generalizing before with
  | nil =>
      obtain rfl := Option.some.inj played
      exact ⟨holds, by simp⟩
  | cons action rest ih =>
      by_cases permitted : allowed before action
      · simp only [replay, permitted, ↓reduceIte, Option.bind_eq_some_iff] at played
        obtain ⟨middle, taken, played⟩ := played
        have paid := metered.paid before action middle holds permitted taken
        obtain ⟨there, later⟩ :=
          ih middle (metered.kept before action middle holds permitted taken) played
        refine ⟨there, ?_⟩
        have worked : (action :: rest).countP work = rest.countP work + (work action).toNat := by
          rw [List.countP_cons]
          cases work action <;> rfl
        rw [worked, List.map_cons, List.sum_cons]
        omega
      · simp [replay, permitted] at played

/-- Work that brings in nothing cannot go on for ever. -/
theorem comes_to_rest (costs : ∀ action, work action = true → income action = 0) (state : State)
    (holds : Invariant state) : ∃ schedule final, (∀ action ∈ schedule, work action = true) ∧
      replay step allowed state schedule = some final ∧
      ∀ action, work action = true → allowed final action → step final action = none := by
  induction size : store state using Nat.strongRecOn generalizing state with
  | ind size ih =>
      by_cases still : ∀ action, work action = true → allowed state action → step state action = none
      · exact ⟨[], state, by simp, rfl, still⟩
      · push Not at still
        obtain ⟨action, within, may, enabled⟩ := still
        obtain ⟨after, taken⟩ := Option.ne_none_iff_exists'.mp enabled
        have paid := metered.paid state action after holds may taken
        rw [within, Bool.toNat_true, costs action within] at paid
        obtain ⟨schedule, final, inside, played, rests⟩ := ih (store after) (by omega) after
          (metered.kept state action after holds may taken) rfl
        refine ⟨action :: schedule, final, ?_, ?_, rests⟩
        · rintro other (_ | ⟨_, later⟩)
          · exact within
          · exact inside other later
        · simp only [replay, may, taken, ↓reduceIte, Option.bind_some, played]

/-- Work alone is no longer than what was in store. -/
theorem work_length (costs : ∀ action, work action = true → income action = 0)
    (schedule : List Action) (inner : ∀ action ∈ schedule, work action = true)
    (before after : State) (holds : Invariant before)
    (played : replay step allowed before schedule = some after) :
    Invariant after ∧ schedule.length ≤ store before := by
  obtain ⟨kept, paid⟩ := replay_paid metered schedule before after holds played
  have free : (schedule.map income).sum = 0 :=
    List.sum_eq_zero fun cost member => by
      obtain ⟨action, there, rfl⟩ := List.mem_map.mp member
      exact costs action (inner action there)
  rw [free, List.countP_eq_length.mpr inner] at paid
  exact ⟨kept, Nat.le_of_add_right_le paid⟩

end Schedules

end EE360P.MeteredRuns
