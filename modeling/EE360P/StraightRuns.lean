import Mathlib.Logic.Relation
import Mathlib.Tactic.TypeStar

/-! Machines with at most one step from every state, and properties of all states on
the way to where such a machine stops. -/

namespace EE360P.StraightRuns

variable {State : Type*} (step : State → Option State)

abbrev Steps : State → State → Prop :=
  Relation.ReflTransGen fun before after => step before = some after

/-- The run from a state comes to `final`, and all states up to it are good. -/
inductive Comes (Good : State → Prop) (final : State) : State → Prop where
  | there (good : Good final) : Comes Good final final
  | next {before after : State} (good : Good before) (taken : step before = some after)
      (rest : Comes Good final after) : Comes Good final before

variable {step} {Good : State → Prop} {start final : State}

theorem comes_steps (comes : Comes step Good final start) : Steps step start final := by
  induction comes with
  | there => exact .refl
  | next good taken rest ih => exact .head taken ih

/-- Where the machine stops, the run has no other states. -/
theorem comes_good (stops : step final = none) (comes : Comes step Good final start)
    (state : State) (reached : Steps step start state) : Good state := by
  induction comes with
  | there good =>
      cases Relation.ReflTransGen.cases_head reached with
      | inl here => exact here ▸ good
      | inr more =>
          obtain ⟨after, taken, _⟩ := more
          rw [stops] at taken
          cases taken
  | next good taken rest ih =>
      cases Relation.ReflTransGen.cases_head reached with
      | inl here => exact here ▸ good
      | inr more =>
          obtain ⟨after, other, later⟩ := more
          cases taken.symm.trans other
          exact ih later

end EE360P.StraightRuns
