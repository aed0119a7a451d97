import EE360P.FairReadWriteLock

/-! Nobody sleeps through its turn. Every monitor section that can make a loop
condition false notifies the sleepers of its lock object, and when nobody is
inside, the smallest outstanding ticket is the one whose turn it is. -/

namespace EE360P.FairReadWriteLock
open JavaText GuardedRuns

variable {Thread : Type}

/-- A sleeper that nobody has notified since must really wait. -/
def Justified (state : State Thread Unit) : Prop := ∀ thread lock kind turn,
  state.phase thread = .waiting lock kind turn false → mustWait state kind turn = true

theorem initial_justified : Justified (initial : State Thread Unit) := by
  intro thread lock kind turn asleep
  cases asleep

theorem wakened_notified (phase : Phase Unit) (lock own : Unit) (kind : Kind) (turn : Int) :
    phase.wakened lock ≠ .waiting own kind turn false := by
  cases phase <;> simp [Phase.wakened]

theorem notified_justified (lock : Unit) (state : State Thread Unit) :
    Justified (notifyAll lock state) := by
  intro thread own kind turn asleep
  exact absurd asleep (wakened_notified _ lock own kind turn)

variable [DecidableEq Thread]

theorem test_justified (counting : Counting) (state : State Thread Unit) (thread : Thread)
    (lock : Unit) (kind : Kind) (turn : Int) (justified : Justified state) :
    Justified (testLoop counting thread lock kind turn state) := by
  by_cases busy : mustWait state kind turn = true
  · simp only [testLoop, busy, ↓reduceIte]
    intro other own wish drawn asleep
    by_cases self : other = thread
    · simp only [setPhase, self, Function.update_self, Phase.waiting.injEq] at asleep
      obtain ⟨_, rfl, rfl, _⟩ := asleep
      exact busy
    · simp only [setPhase, Function.update_of_ne self] at asleep
      exact justified other own wish drawn asleep
  · simp only [testLoop, busy, Bool.false_eq_true, ↓reduceIte]
    exact notified_justified lock _

theorem endRead_readers (thread : Thread) (lock : Unit) (state : State Thread Unit) :
    (endRead thread lock state).numberOfReaders = state.numberOfReaders - 1 := by
  simp only [endRead]
  split <;> rfl

-- A reader that is not the last one leaves the writers waiting for the others.
theorem endRead_justified (state : State Thread Unit) (thread : Thread) (lock : Unit)
    (counted : Counted (endRead thread lock state)) (justified : Justified state) :
    Justified (endRead thread lock state) := by
  have readers := tally_nonneg _ .read _ counted.readers
  rw [endRead_readers] at readers
  simp only [endRead]
  split
  · exact notified_justified lock _
  · rename_i others
    simp only [setPhase] at others
    intro other own kind turn asleep
    by_cases self : other = thread
    · simp [setPhase, self] at asleep
    · simp only [setPhase, Function.update_of_ne self] at asleep
      have before := justified other own kind turn asleep
      cases kind with
      | read => exact before
      | write =>
          have remaining : 0 < state.numberOfReaders - 1 := by omega
          simp only [mustWait, violated, writeRequirementsViolated, setPhase, remaining, decide_true,
            Bool.true_or]

-- The only writer is always the last one.
theorem endWrite_justified (state : State Thread Unit) (thread : Thread) (lock : Unit)
    (counted : Counted state) (holding : state.phase thread = .holding lock .write) :
    Justified (endWrite thread lock state) := by
  have last : state.numberOfWriters - 1 = 0 := by
    rcases counted.exclusive with none | ⟨one, _⟩
    · exact absurd ⟨lock, holding⟩ (tally_empty state .write _ counted.writers none thread)
    · omega
  simp only [endWrite, setPhase, last, ↓reduceIte]
  exact notified_justified lock _

theorem step_justified (counting : Counting) (before after : State Thread Unit)
    (action : Action Thread Unit) (counted : Counted before) (justified : Justified before)
    (taken : step counting before action = some after) : Justified after := by
  have kept := step_counted counting before after action counted taken
  cases step_stepped counting before after action taken with
  | beganRead thread lock outside => exact test_justified counting _ thread lock .read _ justified
  | beganWrite thread lock outside => exact test_justified counting _ thread lock .write _ justified
  | woke thread lock kind turn notified asleep =>
      exact test_justified counting before thread lock kind turn justified
  | endedRead thread lock holding => exact endRead_justified before thread lock kept justified
  | endedWrite thread lock holding => exact endWrite_justified before thread lock counted holding

section Turn
variable {Lock : Type}

omit [DecidableEq Thread] in
theorem nobody_inside (state : State Thread Lock) (counted : Counted state)
    (idle : ∀ kind thread, ¬ Holds state kind thread) (kind : Kind) : violated state kind = false := by
  have none : ∀ own count, Tally state own count → count = 0 := by
    rintro own count ⟨inside, members, total⟩
    have empty : inside = ∅ := Finset.eq_empty_of_forall_notMem fun thread member =>
      idle own thread ((members thread).mp member)
    simp [total, empty]
  have readers := none .read _ counted.readers
  have writers := none .write _ counted.writers
  cases kind with
  | read => simp [violated, readRequirementsViolated, writers]
  | write => simp [violated, writeRequirementsViolated, readers, writers]

omit [DecidableEq Thread] in
/-- While tickets are outstanding, the call whose turn it is waits, and it holds
the smallest of them. -/
theorem turn_waits (state : State Thread Lock) (ordered : Ordered state) (ticket : Ticket Thread)
    (waits : Waits state ticket) : ∃ first, Waits state first ∧ first.turn = state.overallTurn ∧
      ∀ other, Waits state other → other ≠ first → first.turn < other.turn := by
  obtain ⟨n, drawn, late⟩ := (ordered.pending ticket).mp waits
  have inside : state.completed.length < state.drawn.length :=
    Nat.lt_of_le_of_lt late (List.getElem?_eq_some_iff.mp drawn).1
  obtain ⟨first, here⟩ : ∃ first, state.drawn[state.completed.length]? = some first :=
    ⟨_, List.getElem?_eq_getElem inside⟩
  have turn := ordered.numbered _ first here
  refine ⟨first, (ordered.pending first).mpr ⟨_, here, Nat.le_refl _⟩, ?_, fun other waiting different => ?_⟩
  · rw [turn, ordered.turned]
  · obtain ⟨m, there, behind⟩ := (ordered.pending other).mp waiting
    have place := ordered.numbered m other there
    have apart : m ≠ state.completed.length := by
      rintro rfl
      exact different (Option.some.inj (there.symm.trans here))
    omega

end Turn

/-- In every run an unnotified sleeper must wait, and when nobody is inside, the
waiting call with the smallest ticket can go in. -/
theorem no_lost_wakeups (state : State Thread Unit)
    (reached : Reachable (step .exact) (fun _ _ => True) initial state) :
    (∀ thread lock kind turn, state.phase thread = .waiting lock kind turn false →
      mustWait state kind turn = true) ∧
    ((∀ kind thread, ¬ Holds state kind thread) → (∃ ticket, Waits state ticket) →
      ∃ first, Waits state first ∧
        (∀ other, Waits state other → other ≠ first → first.turn < other.turn) ∧
        mustWait state first.kind first.turn = false) := by
  have ordered := reachable_invariant Ordered initial_ordered
    (fun before action after ordered _ taken => step_ordered before after action ordered taken) reached
  have both := reachable_invariant (fun state => Counted state ∧ Justified state)
    ⟨initial_counted, initial_justified⟩
    (fun before action after both _ taken =>
      ⟨step_counted .exact before after action both.1 taken,
        step_justified .exact before after action both.1 both.2 taken⟩) reached
  refine ⟨both.2, fun idle ⟨ticket, waits⟩ => ?_⟩
  obtain ⟨first, waiting, turn, smallest⟩ := turn_waits state ordered ticket waits
  refine ⟨first, waiting, smallest, ?_⟩
  simp [mustWait, nobody_inside state both.1 idle, turn]

-- Two readers inside, a writer and a third reader behind it: the first reader
-- leaves without notifying, the second one wakes the writer.
def readersThenWriter : List (Action Nat Unit) :=
  [.beginRead 0 (), .beginRead 1 (), .beginWrite 2 (), .beginRead 3 (), .endRead 0 (), .endRead 1 ()]

theorem no_lost_wakeups_readers :
    ∃ state, replay (step .exact) (fun _ _ => True) initial readersThenWriter = some state ∧
      (∀ thread lock kind turn, state.phase thread = .waiting lock kind turn false →
        mustWait state kind turn = true) ∧
      ((∀ kind thread, ¬ Holds state kind thread) → (∃ ticket, Waits state ticket) →
        ∃ first, Waits state first ∧
          (∀ other, Waits state other → other ≠ first → first.turn < other.turn) ∧
          mustWait state first.kind first.turn = false) := by
  obtain ⟨state, played⟩ := Option.isSome_iff_exists.mp
    (show (replay (step .exact) (fun _ _ => True) initial readersThenWriter).isSome = true by decide)
  exact ⟨state, played, no_lost_wakeups state (replayed _ _ played)⟩

end EE360P.FairReadWriteLock
