import EE360P.LockWakeups
import EE360P.MeteredRuns

/-! Everybody gets through the lock. When no thread begins anew, each step of a thread
that was notified and may go in, or that leaves, brings the lock nearer to being free;
and as long as it is not free some thread has such a step. -/

namespace EE360P.FairReadWriteLock
open JavaText GuardedRuns MeteredRuns

variable {Thread : Type}

def mayEnter (state : State Thread Unit) : Phase Unit → Bool
  | .waiting _ kind turn notified => notified && !mustWait state kind turn
  | _ => false

/-- Leaving, and the return of a notified sleeper from a loop whose condition is false. -/
def effective (state : State Thread Unit) : Action Thread Unit → Bool
  | .beginRead _ _ => false
  | .beginWrite _ _ => false
  | .wake thread => mayEnter state (state.phase thread)
  | .endRead _ _ => true
  | .endWrite _ _ => true

abbrev Effective (state : State Thread Unit) (action : Action Thread Unit) : Prop :=
  effective state action = true

/-- Whoever waits has to go in and to leave, whoever is inside has to leave. -/
def crowd (state : State Thread Unit) : Nat :=
  2 * (state.drawn.length - state.completed.length) + state.numberOfReaders.toNat +
    state.numberOfWriters.toNat

structure Regular (state : State Thread Unit) : Prop where
  ordered : Ordered state
  counted : Counted state
  justified : Justified state

theorem initial_regular : Regular (initial : State Thread Unit) :=
  ⟨initial_ordered, initial_counted, initial_justified⟩

variable [DecidableEq Thread]

theorem step_regular (before : State Thread Unit) (action : Action Thread Unit)
    (after : State Thread Unit) (regular : Regular before)
    (taken : step .exact before action = some after) : Regular after :=
  ⟨step_ordered before after action regular.ordered taken,
    step_counted .exact before after action regular.counted taken,
    step_justified .exact before after action regular.counted regular.justified taken⟩

section Steps

omit [DecidableEq Thread] in
theorem holder_counted (state : State Thread Unit) (kind : Kind) (count : Int)
    (tally : Tally state kind count) (thread : Thread) (holds : Holds state kind thread) : 0 < count := by
  by_contra none
  exact tally_empty state kind count tally (Int.not_lt.mp none) thread holds

theorem admit_crowd (state : State Thread Unit) (ordered : Ordered state) (counted : Counted state)
    (thread : Thread) (lock : Unit) (kind : Kind) (turn : Int) (waits : Waits state ⟨thread, kind, turn⟩)
    (free : mustWait state kind turn = false) :
    1 + crowd (testLoop .exact thread lock kind turn state) ≤ crowd state := by
  obtain ⟨n, drawn, late⟩ := (ordered.pending _).mp waits
  have inside := (List.getElem?_eq_some_iff.mp drawn).1
  have readers := tally_nonneg _ .read _ counted.readers
  have writers := tally_nonneg _ .write _ counted.writers
  cases kind with
  | read =>
      simp only [crowd, testLoop, free, Bool.false_eq_true, ↓reduceIte, notifyAll, setPhase, countIn,
        List.length_append, List.length_singleton]
      omega
  | write =>
      simp only [crowd, testLoop, free, Bool.false_eq_true, ↓reduceIte, notifyAll, setPhase, countIn,
        List.length_append, List.length_singleton]
      omega

theorem effective_crowd (before : State Thread Unit) (action : Action Thread Unit)
    (after : State Thread Unit) (regular : Regular before) (useful : Effective before action)
    (taken : step .exact before action = some after) : 1 + crowd after ≤ crowd before := by
  cases step_stepped .exact before after action taken with
  | beganRead thread lock outside => cases useful
  | beganWrite thread lock outside => cases useful
  | woke thread lock kind turn notified asleep =>
      simp only [Effective, effective, asleep, mayEnter, Bool.and_eq_true, Bool.not_eq_true'] at useful
      exact admit_crowd before regular.ordered regular.counted thread lock kind turn
        ⟨lock, notified, asleep⟩ useful.2
  | endedRead thread lock holding =>
      have positive := holder_counted before .read _ regular.counted.readers thread ⟨lock, holding⟩
      simp only [endRead]
      split
      · simp only [crowd, notifyAll, setPhase]
        omega
      · simp only [crowd, setPhase]
        omega
  | endedWrite thread lock holding =>
      have positive := holder_counted before .write _ regular.counted.writers thread ⟨lock, holding⟩
      simp only [endWrite]
      split
      · simp only [crowd, notifyAll, setPhase]
        omega
      · simp only [crowd, setPhase]
        omega

theorem lock_metered : Metered (step .exact) (@Effective Thread) Regular
    (fun _ => true) (fun _ => 0) crowd :=
  ⟨fun before action after regular _ taken => step_regular before action after regular taken,
    fun before action after regular useful taken =>
      effective_crowd before action after regular useful taken⟩

end Steps

section Rest
variable (state : State Thread Unit) (regular : Regular state)
  (still : ∀ action, Effective state action → step .exact state action = none)

include still in
theorem still_empty (kind : Kind) (thread : Thread) : ¬ Holds state kind thread := by
  rintro ⟨lock, holding⟩
  cases kind with
  | read => simpa [step, holding] using still (.endRead thread lock) rfl
  | write => simpa [step, holding] using still (.endWrite thread lock) rfl

include regular still in
/-- Nobody sleeps while nobody is inside: the first in turn was notified and may go in. -/
theorem still_outside (thread : Thread) : state.phase thread = .outside := by
  have idle := still_empty state still
  cases phase : state.phase thread with
  | outside => rfl
  | holding lock kind => exact absurd ⟨lock, phase⟩ (idle kind thread)
  | waiting lock kind turn notified =>
      obtain ⟨first, ⟨own, told, asleep⟩, turned, _⟩ := turn_waits state regular.ordered
        ⟨thread, kind, turn⟩ ⟨lock, notified, phase⟩
      have free : mustWait state first.kind first.turn = false := by
        simp [mustWait, nobody_inside state regular.counted idle, turned]
      cases told with
      | false =>
          have busy := regular.justified first.thread own first.kind first.turn asleep
          rw [free] at busy
          cases busy
      | true =>
          have woken := still (.wake first.thread) (by simp [Effective, effective, mayEnter, asleep, free])
          simp [step, asleep] at woken

end Rest

/-- From every state that a run can lead to, in which sleepers may also wake without reason:
when no thread begins anew, notified threads that go in and threads that leave empty the lock,
in whichever order they do. -/
theorem lock_drains (state : State Thread Unit)
    (reached : Reachable (step .exact) (fun _ _ => True) initial state) :
    (∃ schedule final, replay (step .exact) Effective state schedule = some final ∧
      ∀ thread, final.phase thread = .outside) ∧
    ∀ schedule final, replay (step .exact) Effective state schedule = some final →
      schedule.length ≤ crowd state ∧
        ((∀ action, Effective final action → step .exact final action = none) →
          ∀ thread, final.phase thread = .outside) := by
  have regular := reachable_invariant Regular initial_regular
    (fun before action after regular _ taken => step_regular before action after regular taken) reached
  have metered := @lock_metered Thread _
  constructor
  · obtain ⟨schedule, final, _, played, still⟩ :=
      comes_to_rest metered (fun _ _ => rfl) state regular
    have kept := (work_length metered (fun _ _ => rfl) schedule (fun _ _ => rfl) state final regular
      played).1
    exact ⟨schedule, final, played, still_outside final kept fun action => still action rfl⟩
  · intro schedule final played
    obtain ⟨kept, short⟩ :=
      work_length metered (fun _ _ => rfl) schedule (fun _ _ => rfl) state final regular played
    exact ⟨short, still_outside final kept⟩

-- A reader and a second writer wait behind the writer that is inside.
def twoBehindWriter : List (Action Nat Unit) :=
  [.beginWrite 0 (), .beginRead 1 (), .beginWrite 2 (), .wake 1]

theorem lock_drains_two : ∃ state,
    replay (step .exact) (fun _ _ => True) initial twoBehindWriter = some state ∧
      ∃ schedule final, replay (step .exact) Effective state schedule = some final ∧
        ∀ thread, final.phase thread = .outside := by
  obtain ⟨state, played⟩ := Option.isSome_iff_exists.mp
    (show (replay (step .exact) (fun _ _ => True) initial twoBehindWriter).isSome = true by decide)
  exact ⟨state, played, (lock_drains state (replayed _ _ played)).1⟩

end EE360P.FairReadWriteLock
