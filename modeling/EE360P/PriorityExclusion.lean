import Mathlib.Logic.Basic

/-! Mutual exclusion by priority among parties with logical clocks. A party may
enter with a request once every other party's clock has reached the request
and everything that others wait with, or are inside with, comes later. New
requests are later than the clock of the one who makes them. Then no two
parties are ever inside together. -/

namespace EE360P.PriorityExclusion

variable {Party Request : Type}

structure View (Party Request : Type) where
  clock : Party → Int
  waiting : Party → Request → Prop
  inside : Party → Request → Prop

section Turns
variable (time : Request → Int) (earlier : Request → Request → Prop)

structure Exclusive (view : View Party Request) : Prop where
  reached : ∀ i m, view.inside i m → ∀ j, j ≠ i → time m ≤ view.clock j
  behind : ∀ i m, view.inside i m → ∀ j, j ≠ i → ∀ w, view.waiting j w → earlier m w
  alone : ∀ i m, view.inside i m → ∀ j, j ≠ i → ∀ w, ¬ view.inside j w

/-- One party moves, and may come to be inside with an `entering` request. -/
structure Turn (before after : View Party Request) (me : Party) (entering : Request → Prop) :
    Prop where
  frame : ∀ j, j ≠ me → after.clock j = before.clock j ∧ after.waiting j = before.waiting j ∧
    after.inside j = before.inside j
  clock : before.clock me ≤ after.clock me
  waiting : ∀ w, after.waiting me w → before.waiting me w ∨ before.clock me < time w
  inside : ∀ m, after.inside me m → before.inside me m ∨ entering m
  candidate : ∀ m, entering m → before.waiting me m ∨ before.clock me < time m
  reached : ∀ m, entering m → ∀ j, j ≠ me → time m ≤ before.clock j
  cleared : ∀ m, entering m → ∀ j, j ≠ me →
    ∀ w, before.waiting j w ∨ before.inside j w → earlier m w

variable {time earlier} {before after : View Party Request} {me : Party}
  {entering : Request → Prop}

-- Whoever is inside comes before every request the mover could enter with.
theorem inside_first (sooner : ∀ m w, time m < time w → earlier m w)
    (exclusive : Exclusive time earlier before) (i : Party) (m : Request)
    (inside : before.inside i m) (other : me ≠ i) (w : Request)
    (later : before.waiting me w ∨ before.clock me < time w) : earlier m w := by
  rcases later with waiting | fresh
  · exact exclusive.behind i m inside me other w waiting
  · exact sooner m w (Int.lt_of_le_of_lt (exclusive.reached i m inside me other) fresh)

theorem occupied (sooner : ∀ m w, time m < time w → earlier m w)
    (asymmetric : ∀ m w, earlier m w → ¬ earlier w m)
    (exclusive : Exclusive time earlier before)
    (turn : Turn time earlier before after me entering) (i : Party) (m : Request)
    (inside : before.inside i m) (other : me ≠ i) (w : Request) : ¬ entering w := by
  intro enters
  have first := inside_first sooner exclusive i m inside other w (turn.candidate w enters)
  have ahead := turn.cleared w enters i (Ne.symm other) m (Or.inr inside)
  exact asymmetric m w first ahead

theorem turn_exclusive (sooner : ∀ m w, time m < time w → earlier m w)
    (asymmetric : ∀ m w, earlier m w → ¬ earlier w m)
    (exclusive : Exclusive time earlier before)
    (turn : Turn time earlier before after me entering) : Exclusive time earlier after := by
  have stays : ∀ i m, i ≠ me → after.inside i m → before.inside i m := by
    intro i m other inside
    rwa [(turn.frame i other).2.2] at inside
  constructor
  · intro i m inside j other
    by_cases mine : i = me
    · subst mine
      rw [(turn.frame j other).1]
      rcases turn.inside m inside with old | enters
      · exact exclusive.reached i m old j other
      · exact turn.reached m enters j other
    · have old := exclusive.reached i m (stays i m mine inside) j other
      by_cases mover : j = me
      · subst mover
        exact Int.le_trans old turn.clock
      · rwa [(turn.frame j mover).1]
  · intro i m inside j other w waiting
    by_cases mine : i = me
    · subst mine
      rw [(turn.frame j other).2.1] at waiting
      rcases turn.inside m inside with old | enters
      · exact exclusive.behind i m old j other w waiting
      · exact turn.cleared m enters j other w (Or.inl waiting)
    · have old := stays i m mine inside
      by_cases mover : j = me
      · subst mover
        exact inside_first sooner exclusive i m old other w (turn.waiting w waiting)
      · rw [(turn.frame j mover).2.1] at waiting
        exact exclusive.behind i m old j other w waiting
  · intro i m inside j other w within
    by_cases mine : i = me
    · subst mine
      rw [(turn.frame j other).2.2] at within
      rcases turn.inside m inside with old | enters
      · exact exclusive.alone i m old j other w within
      · exact occupied sooner asymmetric exclusive turn j w within (Ne.symm other) m enters
    · have old := stays i m mine inside
      by_cases mover : j = me
      · subst mover
        rcases turn.inside w within with present | enters
        · exact exclusive.alone i m old j other w present
        · exact occupied sooner asymmetric exclusive turn i m old other w enters
      · exact exclusive.alone i m old j other w (stays j w mover within)

theorem shrink_exclusive (exclusive : Exclusive time earlier before)
    (clock : after.clock = before.clock) (waiting : ∀ i w, after.waiting i w → before.waiting i w)
    (inside : ∀ i m, after.inside i m → before.inside i m) : Exclusive time earlier after := by
  constructor
  · intro i m within j other
    rw [clock]
    exact exclusive.reached i m (inside i m within) j other
  · intro i m within j other w waits
    exact exclusive.behind i m (inside i m within) j other w (waiting j w waits)
  · intro i m within j other w both
    exact exclusive.alone i m (inside i m within) j other w (inside j w both)

end Turns

end EE360P.PriorityExclusion
