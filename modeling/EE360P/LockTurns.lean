import Mathlib.Data.List.Perm.Basic
import Mathlib.Data.List.Range
import EE360P.LockWakeups

/-! The ticket counters as Java ints. As long as no thread goes in ahead of its
turn, the tickets that wait are a window of the wrapping counter that begins at
`overallTurn`. The loop condition asks for more than that: a ticket drawn behind
the wrap is smaller than a turn in front of it, and is let in at once. -/

namespace EE360P.FairReadWriteLock
open JavaText GuardedRuns

variable {Thread Lock : Type}

/-- Whoever the active threads let in does not hold a smaller ticket than the
one whose turn it is. -/
def called (state : State Thread Lock) (kind : Kind) (turn : Int) : Bool :=
  violated state kind || decide (state.overallTurn ≤ turn)

/-- The thread that tests the loop in this step does not go in ahead of its turn. -/
def inTurn (state : State Thread Lock) : Action Thread Lock → Bool
  | .beginRead _ _ => called state .read state.readOrWritesRequested
  | .beginWrite _ _ => called state .write state.readOrWritesRequested
  | .wake thread =>
      match state.phase thread with
      | .waiting _ kind turn _ => called state kind turn
      | _ => true
  | .endRead _ _ => true
  | .endWrite _ _ => true

section Window

/-- The values that a wrapping counter takes, from `first` on. -/
def window (counting : Counting) (first : Int) (count : Nat) : List Int :=
  (List.range count).map fun (ahead : Nat) => counting.wrap (first + ahead)

theorem window_succ (counting : Counting) (first : Int) (count : Nat) :
    window counting first (count + 1) =
      counting.wrap first :: window counting (counting.wrap (first + 1)) count := by
  simp only [window, List.range_succ_eq_map, List.map_cons, List.map_map, Nat.cast_zero, add_zero]
  congr 1
  refine List.map_congr_left fun ahead _ => ?_
  simp only [Function.comp_apply, wrap_add, Nat.cast_succ]
  congr 1
  omega

theorem window_snoc (counting : Counting) (first : Int) (count : Nat) :
    window counting first (count + 1) =
      window counting first count ++ [counting.wrap (first + count)] := by
  simp [window, List.range_succ]

end Window

/-- The tickets of the sleeping threads, in any order. -/
structure Outstanding (counting : Counting) (state : State Thread Lock)
    (queue : List (Ticket Thread)) : Prop where
  held : counting.wrap state.overallTurn = state.overallTurn
  requested : state.readOrWritesRequested = counting.wrap (state.overallTurn + queue.length)
  turns : (queue.map Ticket.turn).Perm (window counting state.overallTurn queue.length)
  single : queue.Nodup

def Queued (counting : Counting) (state : State Thread Lock) : Prop :=
  ∃ queue, Outstanding counting state queue ∧ ∀ ticket, ticket ∈ queue ↔ Waits state ticket

/-- The state a thread tests the loop in: its own ticket is in the queue, and
every other ticket belongs to a sleeper. -/
structure Trying (counting : Counting) (state : State Thread Lock) (ticket : Ticket Thread)
    (queue : List (Ticket Thread)) : Prop extends Outstanding counting state queue where
  own : ∀ other ∈ queue, other.thread = ticket.thread ↔ other = ticket
  present : ticket ∈ queue
  others : ∀ other, other.thread ≠ ticket.thread → (other ∈ queue ↔ Waits state other)

section Sections
variable [DecidableEq Thread]

theorem sleep_queued (counting : Counting) (state : State Thread Lock) (ticket : Ticket Thread)
    (lock : Lock) (queue : List (Ticket Thread)) (trying : Trying counting state ticket queue) :
    Queued counting (setPhase ticket.thread (.waiting lock ticket.kind ticket.turn false) state) := by
  refine ⟨queue, ⟨trying.held, trying.requested, trying.turns, trying.single⟩, fun other => ?_⟩
  rw [waits_setPhase]
  by_cases same : other.thread = ticket.thread
  · simp only [same, ↓reduceIte, Phase.waiting.injEq]
    constructor
    · intro member
      have equal := (trying.own other member).mp same
      exact ⟨lock, false, by simp [equal]⟩
    · rintro ⟨_, _, _, kind, turn, _⟩
      have equal : other = ticket := by
        cases other
        cases ticket
        simp_all
      exact equal ▸ trying.present
  · simp only [same, ↓reduceIte]
    exact trying.others other same

variable [DecidableEq Lock]

theorem admit_queued (counting : Counting) (state : State Thread Lock) (ticket : Ticket Thread)
    (lock : Lock) (queue : List (Ticket Thread)) (trying : Trying counting state ticket queue)
    (free : mustWait state ticket.kind ticket.turn = false) (turn : ticket.turn = state.overallTurn) :
    Queued counting (testLoop counting ticket.thread lock ticket.kind ticket.turn state) := by
  have order := List.perm_cons_erase trying.present
  have count : queue.length = (queue.erase ticket).length + 1 := order.length_eq
  have rest : ((queue.erase ticket).map Ticket.turn).Perm
      (window counting (counting.wrap (state.overallTurn + 1)) (queue.erase ticket).length) := by
    have whole := (order.map Ticket.turn).symm.trans trying.turns
    rw [count, window_succ, trying.held, List.map_cons, turn] at whole
    exact whole.cons_inv
  simp only [testLoop, free, Bool.false_eq_true, ↓reduceIte]
  refine ⟨queue.erase ticket, ⟨?_, ?_, ?_, trying.single.erase ticket⟩, fun other => ?_⟩
  · simpa [notifyAll, setPhase] using wrap_add counting (state.overallTurn + 1) 0
  · have requested := trying.requested
    simp only [notifyAll, setPhase, countIn_requested, countIn_overallTurn, wrap_add, requested, count]
    congr 1
    omega
  · simpa [notifyAll, setPhase] using rest
  · rw [waits_notifyAll, waits_setPhase, trying.single.mem_erase_iff]
    by_cases same : other.thread = ticket.thread
    · simp only [same, ↓reduceIte, reduceCtorEq, exists_false, iff_false, not_and]
      intro different member
      exact different ((trying.own other member).mp same)
    · have different : other ≠ ticket := fun equal => same (congrArg Ticket.thread equal)
      have before := trying.others other same
      simp only [Waits, countIn_phase] at before ⊢
      simp [same, different, before]

theorem test_queued (counting : Counting) (state : State Thread Lock) (ticket : Ticket Thread)
    (lock : Lock) (queue : List (Ticket Thread)) (trying : Trying counting state ticket queue)
    (turn : called state ticket.kind ticket.turn = true) :
    Queued counting (testLoop counting ticket.thread lock ticket.kind ticket.turn state) := by
  by_cases busy : mustWait state ticket.kind ticket.turn = true
  · simpa [testLoop, busy] using sleep_queued counting state ticket lock queue trying
  · have free : mustWait state ticket.kind ticket.turn = false := by simpa using busy
    have exactly : ticket.turn = state.overallTurn := by
      simp only [mustWait, Bool.or_eq_false_iff, decide_eq_false_iff_not] at free
      simp only [called, free.1, Bool.false_or, decide_eq_true_eq] at turn
      omega
    exact admit_queued counting state ticket lock queue trying free exactly

theorem begin_queued (counting : Counting) (state : State Thread Lock) (kind : Kind)
    (thread : Thread) (lock : Lock) (queued : Queued counting state)
    (outside : state.phase thread = .outside)
    (turn : called state kind state.readOrWritesRequested = true) :
    Queued counting (beginKind counting kind thread lock state) := by
  obtain ⟨queue, window, members⟩ := queued
  let ticket : Ticket Thread := ⟨thread, kind, state.readOrWritesRequested⟩
  have awake : ∀ other ∈ queue, other.thread ≠ thread := by
    rintro other member rfl
    obtain ⟨_, _, waiting⟩ := (members other).mp member
    rw [outside] at waiting
    cases waiting
  have fresh : ticket ∉ queue := fun member => awake ticket member rfl
  refine test_queued counting _ ticket lock (queue ++ [ticket]) ⟨⟨window.held, ?_, ?_, ?_⟩, ?_, ?_, ?_⟩ turn
  · simp only [window.requested, wrap_add, List.length_append, List.length_singleton, Nat.cast_succ]
    congr 1
    omega
  · rw [List.map_append, List.length_append, List.length_singleton, window_snoc]
    have last : List.map Ticket.turn [ticket] =
        [counting.wrap (state.overallTurn + queue.length)] := by
      simp [ticket, window.requested]
    exact last ▸ window.turns.append_right _
  · exact (List.nodup_append_comm.mp (List.nodup_cons.mpr ⟨fresh, window.single⟩))
  · intro other member
    rcases List.mem_append.mp member with old | new
    · have different := awake other old
      exact iff_of_false different fun equal => different (congrArg Ticket.thread equal)
    · simp [List.mem_singleton.mp new]
  · simp
  · intro other different
    have unequal : other ≠ ticket := fun equal => different (congrArg Ticket.thread equal)
    simp only [List.mem_append, List.mem_singleton, unequal, or_false]
    exact members other

theorem wake_queued (counting : Counting) (state : State Thread Lock) (ticket : Ticket Thread)
    (lock : Lock) (notified : Bool) (queued : Queued counting state)
    (asleep : state.phase ticket.thread = .waiting lock ticket.kind ticket.turn notified)
    (turn : called state ticket.kind ticket.turn = true) :
    Queued counting (testLoop counting ticket.thread lock ticket.kind ticket.turn state) := by
  obtain ⟨queue, window, members⟩ := queued
  refine test_queued counting state ticket lock queue
    ⟨window, fun other member => ⟨fun same => ?_, congrArg Ticket.thread⟩,
      (members ticket).mpr ⟨lock, notified, asleep⟩, fun other _ => members other⟩ turn
  obtain ⟨_, _, waiting⟩ := (members other).mp member
  rw [same, asleep, Phase.waiting.injEq] at waiting
  cases other
  cases ticket
  simp_all

omit [DecidableEq Lock] in
theorem leave_queued (counting : Counting) (before after : State Thread Lock) (thread : Thread)
    (kind : Kind) (inside : Holds before kind thread)
    (requested : after.readOrWritesRequested = before.readOrWritesRequested)
    (turned : after.overallTurn = before.overallTurn)
    (waits : ∀ ticket, Waits after ticket ↔ Waits (setPhase thread .outside before) ticket)
    (queued : Queued counting before) : Queued counting after := by
  obtain ⟨queue, window, members⟩ := queued
  refine ⟨queue, ⟨turned ▸ window.held, turned ▸ requested ▸ window.requested,
    turned ▸ window.turns, window.single⟩, fun ticket => ?_⟩
  rw [waits, waits_setPhase, members]
  by_cases same : ticket.thread = thread
  · have idle : ¬ Waits before ticket := by
      rintro ⟨_, _, waiting⟩
      obtain ⟨_, holding⟩ := inside
      rw [same, holding] at waiting
      cases waiting
    simp [same, idle]
  · simp [same]

/-- A section in which nobody goes in ahead of its turn keeps the window. -/
theorem step_queued (counting : Counting) (before after : State Thread Lock)
    (action : Action Thread Lock) (queued : Queued counting before)
    (turn : inTurn before action = true) (taken : step counting before action = some after) :
    Queued counting after := by
  cases step_stepped counting before after action taken with
  | beganRead thread lock outside =>
      exact begin_queued counting before .read thread lock queued outside turn
  | beganWrite thread lock outside =>
      exact begin_queued counting before .write thread lock queued outside turn
  | woke thread lock kind drawn notified asleep =>
      simp only [inTurn, asleep] at turn
      exact wake_queued counting before ⟨thread, kind, drawn⟩ lock notified queued asleep turn
  | endedRead thread lock holding =>
      refine leave_queued counting before _ thread .read ⟨lock, holding⟩ ?_ ?_ (fun ticket => ?_) queued
      all_goals simp only [endRead]; split
      all_goals first | rfl | exact waits_notifyAll lock _ ticket
  | endedWrite thread lock holding =>
      refine leave_queued counting before _ thread .write ⟨lock, holding⟩ ?_ ?_ (fun ticket => ?_) queued
      all_goals simp only [endWrite]; split
      all_goals first | rfl | exact waits_notifyAll lock _ ticket

end Sections

theorem initial_queued (counting : Counting) (held : counting.wrap 0 = 0) :
    Queued counting (initial : State Thread Lock) := by
  refine ⟨[], ⟨held, ?_, ?_, List.nodup_nil⟩, ?_⟩ <;> simp [initial, held, window, Waits]

-- Whoever holds the ticket whose turn it is can go in.
theorem queued_enterable (counting : Counting) (state : State Thread Lock)
    (queued : Queued counting state) (counted : Counted state)
    (idle : ∀ kind thread, ¬ Holds state kind thread) (ticket : Ticket Thread)
    (waits : Waits state ticket) : ∃ first, Waits state first ∧ first.turn = state.overallTurn ∧
      mustWait state first.kind first.turn = false := by
  obtain ⟨queue, window, members⟩ := queued
  have some : ∃ count, queue.length = count + 1 :=
    Nat.exists_eq_add_one.mpr (List.length_pos_of_mem ((members ticket).mpr waits))
  obtain ⟨count, length⟩ := some
  have turn : state.overallTurn ∈ queue.map Ticket.turn := by
    rw [window.turns.mem_iff, length, window_succ, window.held]
    exact List.mem_cons_self
  obtain ⟨first, member, own⟩ := List.mem_map.mp turn
  exact ⟨first, (members first).mp member, own, by simp [mustWait, nobody_inside state counted idle, own]⟩

theorem one_sleeper_idle (state : State Thread Unit) (sleeper : Thread) {lock : Unit} {kind : Kind}
    {turn : Int} {notified : Bool} (asleep : state.phase sleeper = .waiting lock kind turn notified)
    (others : ∀ thread, thread ≠ sleeper → state.phase thread = .outside) (own : Kind)
    (thread : Thread) : ¬ Holds state own thread := by
  rintro ⟨_, holding⟩
  by_cases self : thread = sleeper
  · rw [self, asleep] at holding
    cases holding
  · rw [others thread self] at holding
    cases holding

section Wrap

/-- A lock that one thread has taken and left again `rounds` times. -/
def rested (rounds : Nat) (log : List (Ticket Nat)) : State Nat Unit :=
  ⟨0, 0, Counting.int32.wrap rounds, Counting.int32.wrap rounds, fun _ => .outside, log, log⟩

theorem rested_enters (rounds : Nat) (log : List (Ticket Nat)) :
    step .int32 (rested rounds log) (.beginWrite 0 ()) = some (notifyAll () (setPhase 0
      (.holding () .write) { rested (rounds + 1) (log ++ [⟨0, .write, Counting.int32.wrap rounds⟩]) with
        numberOfWriters := 1 })) := by
  have turned : Counting.int32.wrap (Counting.int32.wrap rounds + 1) =
      Counting.int32.wrap ((rounds + 1 : Nat) : Int) := by
    rw [wrap_add, Nat.cast_succ]
  simp only [step, rested, ↓reduceIte, beginWrite, beginKind, testLoop, mustWait, violated,
    writeRequirementsViolated, Int.lt_irrefl, decide_false, Bool.false_eq_true,
    countIn, turned, Int.zero_add, Bool.or_self, gt_iff_lt]

theorem writer_leaves (counting : Counting) (state : State Nat Unit) (nobody : state.numberOfWriters = 0)
    (quiet : ∀ thread, state.phase thread = .outside) :
    step counting (notifyAll () (setPhase 0 (.holding () .write) { state with numberOfWriters := 1 }))
      (.endWrite 0 ()) = some state := by
  obtain ⟨readers, writers, requested, turn, phase, drawn, completed⟩ := state
  obtain rfl : writers = 0 := nobody
  obtain rfl : phase = fun _ => .outside := funext quiet
  have phases : (fun thread => (Function.update (fun thread => (Function.update
      (fun _ => Phase.outside) 0 (.holding () .write) thread).wakened ()) 0 .outside thread).wakened ()) =
      fun _ : Nat => Phase.outside := by
    funext thread
    by_cases self : thread = 0
    · simp [self, Phase.wakened]
    · simp [self, Phase.wakened]
  have holding : (Function.update (fun _ => Phase.outside) 0 (Phase.holding () Kind.write) 0).wakened () =
      .holding () .write := rfl
  simp only [step, notifyAll, setPhase, holding, ↓reduceIte, endWrite, Int.sub_self, phases]

/-- The ticket of a lone thread is the one whose turn it is. -/
theorem rests (rounds : Nat) : ∃ log, Reachable (step .int32)
    (fun state action => inTurn state action = true) initial (rested rounds log) := by
  induction rounds with
  | zero => exact ⟨[], .start⟩
  | succ rounds ih =>
      obtain ⟨log, reached⟩ := ih
      have called : inTurn (rested rounds log) (.beginWrite 0 ()) = true := by
        simp [inTurn, called, rested]
      exact ⟨_, .next _ (.next _ reached called (rested_enters rounds log)) rfl
        (writer_leaves .int32 (rested (rounds + 1) _) rfl fun _ => rfl)⟩

end Wrap

section Runs
variable [DecidableEq Thread] [DecidableEq Lock]

/-- With Java ints, the lock can be entered whenever somebody waits and nobody
is inside, in every run in which no thread has gone in ahead of its turn. -/
theorem wrapping_lock_enterable (state : State Thread Unit)
    (reached : Reachable (step .int32) (fun state action => inTurn state action = true) initial state)
    (idle : ∀ kind thread, ¬ Holds state kind thread) (ticket : Ticket Thread)
    (waits : Waits state ticket) :
    ∃ other, Waits state other ∧ mustWait state other.kind other.turn = false := by
  have both := reachable_invariant (fun state => Queued .int32 state ∧ Counted state)
    ⟨initial_queued .int32 (by decide), initial_counted⟩
    (fun before action after both turn taken =>
      ⟨step_queued .int32 before after action both.1 turn taken,
        step_counted .int32 before after action both.2 taken⟩) reached
  obtain ⟨first, waiting, _, free⟩ := queued_enterable .int32 state both.1 both.2 idle ticket waits
  exact ⟨first, waiting, free⟩

-- The writer holds the last positive ticket and the reader behind it the first negative one.
def acrossWrap : List (Action Nat Unit) := [.beginWrite 0 (), .beginRead 1 (), .endWrite 0 ()]

theorem acrossWrap_waits (log : List (Ticket Nat)) : ∃ state,
    replay (step .int32) (fun state action => inTurn state action = true) (rested (2 ^ 31 - 1) log)
      acrossWrap = some state ∧ state.overallTurn = -2 ^ 31 ∧
    state.phase 1 = .waiting () .read (-2 ^ 31) true ∧
    ∀ thread, thread ≠ 1 → state.phase thread = .outside := by
  refine ⟨_, rfl, rfl, rfl, fun thread other => ?_⟩
  match thread with
  | 0 => rfl
  | 1 => exact absurd rfl other
  | rest + 2 => rfl

theorem wrapping_lock_enterable_reader :
    ∃ state : State Nat Unit, state.overallTurn = -2 ^ 31 ∧
      (∀ kind thread, ¬ Holds state kind thread) ∧ Waits state ⟨1, .read, -2 ^ 31⟩ ∧
      ∃ other, Waits state other ∧ mustWait state other.kind other.turn = false := by
  obtain ⟨log, reached⟩ := rests (2 ^ 31 - 1)
  obtain ⟨state, played, turn, asleep, others⟩ := acrossWrap_waits log
  have idle := one_sleeper_idle state 1 asleep others
  exact ⟨state, turn, idle, ⟨(), true, asleep⟩,
    wrapping_lock_enterable state (replay_reachable _ _ _ _ _ _ reached played) idle
      ⟨1, .read, -2 ^ 31⟩ ⟨(), true, asleep⟩⟩

end Runs

section Overtaking

-- The writer holds the last but one positive ticket, thread 1 draws the last
-- one, thread 2 the first negative one and goes in ahead of thread 1.
def overtaking : List (Action Nat Unit) :=
  [.beginWrite 0 (), .beginRead 1 (), .beginRead 2 (), .endWrite 0 (), .wake 2, .endRead 2 ()]

theorem overtaking_strands (log : List (Ticket Nat)) :
    ∃ state, replay (step .int32) (fun _ _ => True) (rested (2 ^ 31 - 2) log) overtaking = some state ∧
      state.overallTurn = -2 ^ 31 ∧ state.phase 1 = .waiting () .read (2 ^ 31 - 1) true ∧
      ∀ thread, thread ≠ 1 → state.phase thread = .outside := by
  refine ⟨_, rfl, rfl, rfl, fun thread other => ?_⟩
  match thread with
  | 0 => rfl
  | 1 => exact absurd rfl other
  | 2 => rfl
  | rest + 3 => rfl

/-- Two tickets on either side of the wrap wait together: the negative one goes
in first, and the positive one then waits although nobody is inside. -/
theorem wrapping_lock_stranded :
    ∃ state : State Nat Unit, Reachable (step .int32) (fun _ _ => True) initial state ∧
      (∀ kind thread, ¬ Holds state kind thread) ∧ (∃ ticket, Waits state ticket) ∧
      ∀ ticket, Waits state ticket → mustWait state ticket.kind ticket.turn = true := by
  obtain ⟨log, inOrder⟩ := rests (2 ^ 31 - 2)
  have reached : Reachable (step .int32) (fun _ _ => True) initial (rested (2 ^ 31 - 2) log) :=
    reachable_wider (fun _ _ _ => trivial) inOrder
  obtain ⟨state, played, turn, asleep, others⟩ := overtaking_strands log
  refine ⟨state, replay_reachable _ _ _ _ _ _ reached played, one_sleeper_idle state 1 asleep others,
    ⟨⟨1, .read, 2 ^ 31 - 1⟩, (), true, asleep⟩, ?_⟩
  · rintro ⟨thread, kind, own⟩ ⟨lock, notified, waiting⟩
    have self : thread = 1 := by
      by_contra other
      rw [others thread other] at waiting
      cases waiting
    rw [self, asleep, Phase.waiting.injEq] at waiting
    obtain ⟨_, rfl, rfl, _⟩ := waiting
    simp [mustWait, turn]

end Overtaking

end EE360P.FairReadWriteLock
