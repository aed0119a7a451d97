import Mathlib.Data.Finset.Card
import Mathlib.Data.List.Basic
import EE360P.JavaText
import EE360P.ListEntries
import EE360P.GuardedRuns

/-! project2/q2 `FairReadWriteLock`. A step is one monitor section: from the
start of a method, or from the return of `wait()`, to the next `wait()` or to
the end of the method. A sleeping thread may re-test at any time, which covers
`notifyAll`, spurious wake-ups and interrupts, since `putThreadToSleep` swallows
the exception and the loop tests again. The four counters are static: all lock
objects share them, while `notifyAll` reaches the sleepers of one object. -/

namespace EE360P.FairReadWriteLock
open JavaText ListEntries GuardedRuns

variable {Thread Lock : Type}

inductive Kind where
  | read
  | write
  deriving DecidableEq, Repr

inductive Phase (Lock : Type) where
  | outside
  | waiting (lock : Lock) (kind : Kind) (thisThreadTurn : Int) (notified : Bool)
  | holding (lock : Lock) (kind : Kind)
  deriving DecidableEq, Repr

/-- A call of `beginRead` or `beginWrite` with the ticket it drew. -/
structure Ticket (Thread : Type) where
  thread : Thread
  kind : Kind
  turn : Int
  deriving DecidableEq, Repr

/-- `drawn` and `completed` are an observer's lists of the tickets in the order
in which they were drawn and in which their calls completed; no step reads them. -/
structure State (Thread Lock : Type) where
  numberOfReaders : Int
  numberOfWriters : Int
  readOrWritesRequested : Int
  overallTurn : Int
  phase : Thread → Phase Lock
  drawn : List (Ticket Thread)
  completed : List (Ticket Thread)

def initial : State Thread Lock := ⟨0, 0, 0, 0, fun _ => .outside, [], []⟩

section Methods
variable [DecidableEq Thread] [DecidableEq Lock] (counting : Counting)

def readRequirementsViolated (state : State Thread Lock) : Bool := state.numberOfWriters > 0

def writeRequirementsViolated (state : State Thread Lock) : Bool :=
  state.numberOfReaders > 0 || state.numberOfWriters > 0

def violated (state : State Thread Lock) : Kind → Bool
  | .read => readRequirementsViolated state
  | .write => writeRequirementsViolated state

/-- The condition of the `while` loops of `beginRead` and `beginWrite`. -/
def mustWait (state : State Thread Lock) (kind : Kind) (thisThreadTurn : Int) : Bool :=
  violated state kind || state.overallTurn < thisThreadTurn

def Phase.wakened (lock : Lock) : Phase Lock → Phase Lock
  | .waiting own kind turn notified => .waiting own kind turn (notified || own = lock)
  | other => other

def notifyAll (lock : Lock) (state : State Thread Lock) : State Thread Lock :=
  { state with phase := fun thread => (state.phase thread).wakened lock }

def setPhase (thread : Thread) (phase : Phase Lock) (state : State Thread Lock) :
    State Thread Lock :=
  { state with phase := Function.update state.phase thread phase }

def countIn (kind : Kind) (state : State Thread Lock) : State Thread Lock :=
  match kind with
  | .read => { state with numberOfReaders := state.numberOfReaders + 1 }
  | .write => { state with numberOfWriters := state.numberOfWriters + 1 }

/-- The loop test and what follows it: sleep, or take the turn and go in. -/
def testLoop (thread : Thread) (lock : Lock) (kind : Kind) (thisThreadTurn : Int)
    (state : State Thread Lock) : State Thread Lock :=
  if mustWait state kind thisThreadTurn then
    setPhase thread (.waiting lock kind thisThreadTurn false) state
  else
    let turned := { state with
      overallTurn := counting.wrap (state.overallTurn + 1)
      completed := state.completed ++ [⟨thread, kind, thisThreadTurn⟩] }
    notifyAll lock (setPhase thread (.holding lock kind) (countIn kind turned))

def beginKind (kind : Kind) (thread : Thread) (lock : Lock) (state : State Thread Lock) :
    State Thread Lock :=
  let thisThreadTurn := state.readOrWritesRequested
  testLoop counting thread lock kind thisThreadTurn { state with
    readOrWritesRequested := counting.wrap (state.readOrWritesRequested + 1)
    drawn := state.drawn ++ [⟨thread, kind, thisThreadTurn⟩] }

def beginRead : Thread → Lock → State Thread Lock → State Thread Lock := beginKind counting .read

def beginWrite : Thread → Lock → State Thread Lock → State Thread Lock := beginKind counting .write

def endRead (thread : Thread) (lock : Lock) (state : State Thread Lock) : State Thread Lock :=
  let left := setPhase thread .outside { state with numberOfReaders := state.numberOfReaders - 1 }
  if left.numberOfReaders = 0 then notifyAll lock left else left

def endWrite (thread : Thread) (lock : Lock) (state : State Thread Lock) : State Thread Lock :=
  let left := setPhase thread .outside { state with numberOfWriters := state.numberOfWriters - 1 }
  if left.numberOfWriters = 0 then notifyAll lock left else left

end Methods

inductive Action (Thread Lock : Type) where
  | beginRead (thread : Thread) (lock : Lock)
  | beginWrite (thread : Thread) (lock : Lock)
  | wake (thread : Thread)
  | endRead (thread : Thread) (lock : Lock)
  | endWrite (thread : Thread) (lock : Lock)
  deriving DecidableEq, Repr

/-- One monitor section. A thread begins only when it is outside and ends only
what it holds: that is what well-behaved means. -/
def step [DecidableEq Thread] [DecidableEq Lock] (counting : Counting) (state : State Thread Lock) :
    Action Thread Lock → Option (State Thread Lock)
  | .beginRead thread lock =>
      if state.phase thread = .outside then some (beginRead counting thread lock state) else none
  | .beginWrite thread lock =>
      if state.phase thread = .outside then some (beginWrite counting thread lock state) else none
  | .wake thread =>
      match state.phase thread with
      | .waiting lock kind turn _ => some (testLoop counting thread lock kind turn state)
      | _ => none
  | .endRead thread lock =>
      if state.phase thread = .holding lock .read then some (endRead thread lock state) else none
  | .endWrite thread lock =>
      if state.phase thread = .holding lock .write then some (endWrite thread lock state) else none

/-- The monitor sections that a thread can go through, with what it takes. -/
inductive Stepped [DecidableEq Thread] [DecidableEq Lock] (counting : Counting)
    (before : State Thread Lock) : Action Thread Lock → State Thread Lock → Prop where
  | beganRead (thread : Thread) (lock : Lock) (outside : before.phase thread = .outside) :
      Stepped counting before (.beginRead thread lock) (beginRead counting thread lock before)
  | beganWrite (thread : Thread) (lock : Lock) (outside : before.phase thread = .outside) :
      Stepped counting before (.beginWrite thread lock) (beginWrite counting thread lock before)
  | woke (thread : Thread) (lock : Lock) (kind : Kind) (turn : Int) (notified : Bool)
      (asleep : before.phase thread = .waiting lock kind turn notified) :
      Stepped counting before (.wake thread) (testLoop counting thread lock kind turn before)
  | endedRead (thread : Thread) (lock : Lock) (holding : before.phase thread = .holding lock .read) :
      Stepped counting before (.endRead thread lock) (endRead thread lock before)
  | endedWrite (thread : Thread) (lock : Lock) (holding : before.phase thread = .holding lock .write) :
      Stepped counting before (.endWrite thread lock) (endWrite thread lock before)

theorem step_stepped [DecidableEq Thread] [DecidableEq Lock] (counting : Counting)
    (before after : State Thread Lock) (action : Action Thread Lock)
    (taken : step counting before action = some after) : Stepped counting before action after := by
  cases action with
  | beginRead thread lock =>
      simp only [step, Option.ite_none_right_eq_some, Option.some.injEq] at taken
      exact taken.2 ▸ .beganRead thread lock taken.1
  | beginWrite thread lock =>
      simp only [step, Option.ite_none_right_eq_some, Option.some.injEq] at taken
      exact taken.2 ▸ .beganWrite thread lock taken.1
  | wake thread =>
      simp only [step] at taken
      split at taken
      · rename_i lock kind turn notified asleep
        cases taken
        exact .woke thread lock kind turn notified asleep
      · cases taken
  | endRead thread lock =>
      simp only [step, Option.ite_none_right_eq_some, Option.some.injEq] at taken
      exact taken.2 ▸ .endedRead thread lock taken.1
  | endWrite thread lock =>
      simp only [step, Option.ite_none_right_eq_some, Option.some.injEq] at taken
      exact taken.2 ▸ .endedWrite thread lock taken.1

def Holds (state : State Thread Lock) (kind : Kind) (thread : Thread) : Prop :=
  ∃ lock, state.phase thread = .holding lock kind

def Waits (state : State Thread Lock) (ticket : Ticket Thread) : Prop :=
  ∃ lock notified, state.phase ticket.thread = .waiting lock ticket.kind ticket.turn notified

section Frames

-- `countIn` touches the two active counts only.
@[simp] theorem countIn_phase (kind : Kind) (state : State Thread Lock) :
    (countIn kind state).phase = state.phase := by cases kind <;> rfl

@[simp] theorem countIn_drawn (kind : Kind) (state : State Thread Lock) :
    (countIn kind state).drawn = state.drawn := by cases kind <;> rfl

@[simp] theorem countIn_completed (kind : Kind) (state : State Thread Lock) :
    (countIn kind state).completed = state.completed := by cases kind <;> rfl

@[simp] theorem countIn_overallTurn (kind : Kind) (state : State Thread Lock) :
    (countIn kind state).overallTurn = state.overallTurn := by cases kind <;> rfl

@[simp] theorem countIn_requested (kind : Kind) (state : State Thread Lock) :
    (countIn kind state).readOrWritesRequested = state.readOrWritesRequested := by
  cases kind <;> rfl

theorem wakened_holding [DecidableEq Lock] (lock own : Lock) (kind : Kind) (phase : Phase Lock) :
    phase.wakened lock = .holding own kind ↔ phase = .holding own kind := by
  cases phase <;> simp [Phase.wakened]

theorem holds_notifyAll [DecidableEq Lock] (lock : Lock) (state : State Thread Lock) (kind : Kind)
    (thread : Thread) : Holds (notifyAll lock state) kind thread ↔ Holds state kind thread := by
  simp only [Holds, notifyAll, wakened_holding]

theorem waits_notifyAll [DecidableEq Lock] (lock : Lock) (state : State Thread Lock)
    (ticket : Ticket Thread) : Waits (notifyAll lock state) ticket ↔ Waits state ticket := by
  simp only [Waits, notifyAll]
  constructor
  · rintro ⟨own, notified, asleep⟩
    cases before : state.phase ticket.thread with
    | outside => simp [before, Phase.wakened] at asleep
    | holding => simp [before, Phase.wakened] at asleep
    | waiting other kind turn flag =>
        simp only [before, Phase.wakened, Phase.waiting.injEq] at asleep
        obtain ⟨_, rfl, rfl, _⟩ := asleep
        exact ⟨other, flag, rfl⟩
  · rintro ⟨own, notified, asleep⟩
    exact ⟨own, notified || own = lock, by simp [asleep, Phase.wakened]⟩

theorem holds_setPhase [DecidableEq Thread] (thread other : Thread) (phase : Phase Lock)
    (state : State Thread Lock) (kind : Kind) : Holds (setPhase thread phase state) kind other ↔
      if other = thread then ∃ lock, phase = .holding lock kind else Holds state kind other := by
  by_cases same : other = thread
  · simp [Holds, setPhase, same]
  · simp [Holds, setPhase, same]

theorem waits_setPhase [DecidableEq Thread] (thread : Thread) (phase : Phase Lock) (state : State Thread Lock)
    (ticket : Ticket Thread) : Waits (setPhase thread phase state) ticket ↔
      if ticket.thread = thread then
        ∃ lock notified, phase = .waiting lock ticket.kind ticket.turn notified
      else Waits state ticket := by
  by_cases same : ticket.thread = thread
  · simp [Waits, setPhase, same]
  · simp [Waits, setPhase, same]

end Frames

/-! Tickets. The completed calls are the first ones drawn, and the waiting calls
are exactly the remaining ones. -/
section Tickets

def Pending (state : State Thread Lock) (ticket : Ticket Thread) : Prop :=
  ∃ n : Nat, state.drawn[n]? = some ticket ∧ state.completed.length ≤ n

structure Numbered (state : State Thread Lock) : Prop where
  turned : state.overallTurn = state.completed.length
  requested : state.readOrWritesRequested = state.drawn.length
  behind : state.completed = state.drawn.take state.completed.length
  numbered : ∀ (n : Nat) (ticket : Ticket Thread), state.drawn[n]? = some ticket → ticket.turn = n

structure Ordered (state : State Thread Lock) : Prop extends Numbered state where
  pending : ∀ ticket, Waits state ticket ↔ Pending state ticket

/-- The state a thread tests the loop in: its own ticket is drawn and not
completed, and every other ticket is accounted for. -/
structure Due (state : State Thread Lock) (ticket : Ticket Thread) : Prop
    extends Numbered state where
  own : Pending state ticket
  sole : ∀ other, Pending state other → other.thread = ticket.thread → other = ticket
  others : ∀ other, other.thread ≠ ticket.thread → (Waits state other ↔ Pending state other)

theorem sleep_ordered [DecidableEq Thread] (state : State Thread Lock) (ticket : Ticket Thread) (lock : Lock)
    (due : Due state ticket) :
    Ordered (setPhase ticket.thread (.waiting lock ticket.kind ticket.turn false) state) := by
  refine ⟨⟨due.turned, due.requested, due.behind, due.numbered⟩, fun other => ?_⟩
  rw [waits_setPhase]
  by_cases same : other.thread = ticket.thread
  · simp only [same, ↓reduceIte, Phase.waiting.injEq]
    constructor
    · rintro ⟨_, _, _, kind, turn, _⟩
      have equal : other = ticket := by
        cases other
        cases ticket
        simp_all
      exact equal ▸ due.own
    · intro pending
      have equal := due.sole other pending same
      exact ⟨lock, false, by simp [equal]⟩
  · simp only [same, ↓reduceIte]
    exact due.others other same

-- The loop lets a ticket through only when every earlier one has completed.
theorem due_turn (state : State Thread Lock) (ticket : Ticket Thread) (due : Due state ticket)
    (free : mustWait state ticket.kind ticket.turn = false) :
    state.drawn[state.completed.length]? = some ticket := by
  obtain ⟨n, drawn, late⟩ := due.own
  have turn := due.numbered n ticket drawn
  have early : ¬ state.overallTurn < ticket.turn := by
    simp only [mustWait, Bool.or_eq_false_iff, decide_eq_false_iff_not] at free
    exact free.2
  have here : n = state.completed.length := by
    have count := due.turned
    omega
  exact here ▸ drawn

theorem numbered_drawn (state : State Thread Lock) (numbered : Numbered state)
    (ticket : Ticket Thread) (n m : Nat) (here : state.drawn[n]? = some ticket)
    (there : state.drawn[m]? = some ticket) : n = m := by
  have first := numbered.numbered n ticket here
  have second := numbered.numbered m ticket there
  omega

section Sections
variable [DecidableEq Thread] [DecidableEq Lock]

theorem admit_ordered (state : State Thread Lock) (ticket : Ticket Thread) (lock : Lock)
    (due : Due state ticket) (free : mustWait state ticket.kind ticket.turn = false) :
    Ordered (testLoop .exact ticket.thread lock ticket.kind ticket.turn state) := by
  have here := due_turn state ticket due free
  have fits : state.completed.length < state.drawn.length := (List.getElem?_eq_some_iff.mp here).1
  have extended : state.completed ++ [ticket] = state.drawn.take (state.completed.length + 1) := by
    rw [List.take_add_one, here, ← due.behind]
    rfl
  simp only [testLoop, free, Bool.false_eq_true, ↓reduceIte, exact_wrap]
  refine ⟨⟨?_, ?_, ?_, ?_⟩, fun other => ?_⟩
  · simp [notifyAll, setPhase, due.turned]
  · simp [notifyAll, setPhase, due.requested]
  · simpa [notifyAll, setPhase] using extended
  · simpa [notifyAll, setPhase] using due.numbered
  · rw [waits_notifyAll, waits_setPhase]
    simp only [Pending, notifyAll, setPhase, countIn_drawn, countIn_completed, List.length_append,
      List.length_cons, List.length_nil, Nat.zero_add]
    by_cases same : other.thread = ticket.thread
    · simp only [same, ↓reduceIte, reduceCtorEq, exists_false, false_iff]
      rintro ⟨n, drawn, late⟩
      have equal := due.sole other ⟨n, drawn, by omega⟩ same
      have index := numbered_drawn state due.toNumbered ticket n _ (equal ▸ drawn) here
      omega
    · simp only [same, ↓reduceIte]
      have before := due.others other same
      simp only [Waits, countIn_phase] at before ⊢
      rw [before]
      constructor
      · rintro ⟨n, drawn, late⟩
        have later : n ≠ state.completed.length := by
          rintro rfl
          rw [here] at drawn
          exact same (Option.some.inj drawn ▸ rfl)
        exact ⟨n, drawn, by omega⟩
      · rintro ⟨n, drawn, late⟩
        exact ⟨n, drawn, by omega⟩

theorem test_ordered (state : State Thread Lock) (ticket : Ticket Thread) (lock : Lock)
    (due : Due state ticket) :
    Ordered (testLoop .exact ticket.thread lock ticket.kind ticket.turn state) := by
  by_cases busy : mustWait state ticket.kind ticket.turn = true
  · simpa [testLoop, busy] using sleep_ordered state ticket lock due
  · exact admit_ordered state ticket lock due (by simpa using busy)

theorem begin_ordered (state : State Thread Lock) (kind : Kind) (thread : Thread) (lock : Lock)
    (ordered : Ordered state) (outside : state.phase thread = .outside) :
    Ordered (beginKind .exact kind thread lock state) := by
  let ticket : Ticket Thread := ⟨thread, kind, state.readOrWritesRequested⟩
  have asleep : ∀ other, Waits state other → other.thread ≠ thread := by
    rintro other ⟨_, _, waiting⟩ rfl
    rw [outside] at waiting
    cases waiting
  have short : state.completed.length ≤ state.drawn.length := by
    rw [ordered.behind]
    exact (List.length_take_le' _ _)
  have drawnNow : ∀ other, Pending { state with
      readOrWritesRequested := Counting.exact.wrap (state.readOrWritesRequested + 1)
      drawn := state.drawn ++ [ticket] } other ↔ Pending state other ∨ other = ticket := by
    intro other
    simp only [Pending, snoc_entry]
    constructor
    · rintro ⟨n, old | ⟨_, new⟩, late⟩
      · exact Or.inl ⟨n, old, late⟩
      · exact Or.inr new.symm
    · rintro (⟨n, old, late⟩ | new)
      · exact ⟨n, Or.inl old, late⟩
      · exact ⟨state.drawn.length, Or.inr ⟨rfl, new.symm⟩, short⟩
  have due : Due { state with
      readOrWritesRequested := Counting.exact.wrap (state.readOrWritesRequested + 1)
      drawn := state.drawn ++ [ticket] } ticket := by
    refine ⟨⟨ordered.turned, ?_, ?_, ?_⟩, (drawnNow ticket).mpr (Or.inr rfl), ?_, ?_⟩
    · simp [ordered.requested]
    · simpa [List.take_append_of_le_length short] using ordered.behind
    · intro n other drawn
      rcases (snoc_entry _ _ _ n).mp drawn with old | ⟨here, new⟩
      · exact ordered.numbered n other old
      · exact new ▸ here ▸ ordered.requested
    · intro other pending same
      rcases (drawnNow other).mp pending with old | new
      · exact absurd same (asleep other ((ordered.pending other).mpr old))
      · exact new
    · intro other different
      rw [drawnNow]
      constructor
      · exact fun waits => Or.inl ((ordered.pending other).mp waits)
      · rintro (old | new)
        · exact (ordered.pending other).mpr old
        · exact absurd (congrArg Ticket.thread new) different
  exact test_ordered _ ticket lock due

theorem wake_ordered (state : State Thread Lock) (ticket : Ticket Thread) (lock : Lock)
    (notified : Bool) (ordered : Ordered state)
    (asleep : state.phase ticket.thread = .waiting lock ticket.kind ticket.turn notified) :
    Ordered (testLoop .exact ticket.thread lock ticket.kind ticket.turn state) := by
  have own := (ordered.pending ticket).mp ⟨lock, notified, asleep⟩
  refine test_ordered state ticket lock ⟨ordered.toNumbered, own, ?_, fun other _ => ordered.pending other⟩
  intro other pending same
  obtain ⟨_, _, waiting⟩ := (ordered.pending other).mpr pending
  rw [same, asleep, Phase.waiting.injEq] at waiting
  cases other
  cases ticket
  simp_all

-- Leaving touches no ticket: the thread held the lock and so waited for nothing.
omit [DecidableEq Lock] in
theorem outside_ordered (state : State Thread Lock) (thread : Thread) (kind : Kind)
    (ordered : Ordered state) (inside : Holds state kind thread) :
    Ordered (setPhase thread .outside state) := by
  refine ⟨⟨ordered.turned, ordered.requested, ordered.behind, ordered.numbered⟩, fun other => ?_⟩
  have before := ordered.pending other
  change Waits (setPhase thread .outside state) other ↔ Pending state other
  rw [waits_setPhase]
  by_cases same : other.thread = thread
  · have idle : ¬ Waits state other := by
      rintro ⟨_, _, waiting⟩
      obtain ⟨_, holding⟩ := inside
      rw [same, holding] at waiting
      cases waiting
    simpa [same] using fun pending => idle (before.mpr pending)
  · simpa [same] using before

omit [DecidableEq Thread] in
theorem notified_ordered (state : State Thread Lock) (lock : Lock) (last : Prop) [Decidable last]
    (ordered : Ordered state) : Ordered (if last then notifyAll lock state else state) := by
  split
  · exact ⟨⟨ordered.turned, ordered.requested, ordered.behind, ordered.numbered⟩, fun ticket =>
      (waits_notifyAll lock state ticket).trans (ordered.pending ticket)⟩
  · exact ordered

end Sections

end Tickets

/-! Active threads. The two counters are the numbers of threads inside, and the
guards keep a writer alone. -/
section Active

def Tally (state : State Thread Lock) (kind : Kind) (count : Int) : Prop :=
  ∃ inside : Finset Thread, (∀ thread, thread ∈ inside ↔ Holds state kind thread) ∧
    count = inside.card

structure Counted (state : State Thread Lock) : Prop where
  readers : Tally state .read state.numberOfReaders
  writers : Tally state .write state.numberOfWriters
  exclusive : state.numberOfWriters ≤ 0 ∨ (state.numberOfWriters = 1 ∧ state.numberOfReaders ≤ 0)

theorem tally_congr (before after : State Thread Lock) (kind : Kind) (count : Int)
    (same : ∀ thread, Holds after kind thread ↔ Holds before kind thread)
    (tally : Tally before kind count) : Tally after kind count := by
  obtain ⟨inside, members, total⟩ := tally
  exact ⟨inside, fun thread => (members thread).trans (same thread).symm, total⟩

theorem tally_nonneg (state : State Thread Lock) (kind : Kind) (count : Int)
    (tally : Tally state kind count) : 0 ≤ count := by
  obtain ⟨inside, _, total⟩ := tally
  omega

theorem tally_empty (state : State Thread Lock) (kind : Kind) (count : Int)
    (tally : Tally state kind count) (none : count ≤ 0) (thread : Thread) :
    ¬ Holds state kind thread := by
  obtain ⟨inside, members, total⟩ := tally
  have empty : inside = ∅ := Finset.card_eq_zero.mp (by omega)
  intro holds
  simpa [empty] using (members thread).mpr holds

theorem tally_single (state : State Thread Lock) (kind : Kind) (tally : Tally state kind 1)
    (left right : Thread) (first : Holds state kind left) (second : Holds state kind right) :
    left = right := by
  obtain ⟨inside, members, total⟩ := tally
  have single : inside.card ≤ 1 := by omega
  exact Finset.card_le_one.mp single left ((members left).mpr first) right ((members right).mpr second)

variable [DecidableEq Thread]

theorem tally_enter (before after : State Thread Lock) (kind : Kind) (count : Int)
    (thread : Thread) (idle : ¬ Holds before kind thread)
    (entered : ∀ other, Holds after kind other ↔ other = thread ∨ Holds before kind other)
    (tally : Tally before kind count) : Tally after kind (count + 1) := by
  obtain ⟨inside, members, total⟩ := tally
  have fresh : thread ∉ inside := fun member => idle ((members thread).mp member)
  refine ⟨insert thread inside, fun other => ?_, ?_⟩
  · rw [Finset.mem_insert, members, entered]
  · rw [Finset.card_insert_of_notMem fresh, total]
    simp

theorem tally_leave (before after : State Thread Lock) (kind : Kind) (count : Int)
    (thread : Thread) (inside : Holds before kind thread)
    (gone : ∀ other, Holds after kind other ↔ other ≠ thread ∧ Holds before kind other)
    (tally : Tally before kind count) : Tally after kind (count - 1) := by
  obtain ⟨members, exactly, total⟩ := tally
  have present : thread ∈ members := (exactly thread).mpr inside
  refine ⟨members.erase thread, fun other => ?_, ?_⟩
  · rw [Finset.mem_erase, exactly, gone]
  · have positive := Finset.card_pos.mpr ⟨thread, present⟩
    rw [Finset.card_erase_of_mem present, total]
    omega

variable [DecidableEq Lock]

omit [DecidableEq Lock] in
theorem sleep_counted (state : State Thread Lock) (thread : Thread) (lock : Lock) (kind : Kind)
    (turn : Int) (counted : Counted state) (idle : ∀ kind, ¬ Holds state kind thread) :
    Counted (setPhase thread (.waiting lock kind turn false) state) := by
  have same : ∀ own other, Holds (setPhase thread (.waiting lock kind turn false) state) own other ↔
      Holds state own other := by
    intro own other
    rw [holds_setPhase]
    by_cases self : other = thread
    · simpa [self] using idle own
    · simp [self]
  exact ⟨tally_congr _ _ _ _ (same .read) counted.readers,
    tally_congr _ _ _ _ (same .write) counted.writers, counted.exclusive⟩

theorem admit_counted (counting : Counting) (state : State Thread Lock) (thread : Thread)
    (lock : Lock) (kind : Kind) (turn : Int) (counted : Counted state)
    (idle : ∀ kind, ¬ Holds state kind thread) (free : mustWait state kind turn = false) :
    Counted (testLoop counting thread lock kind turn state) := by
  have holds : ∀ own other, Holds (testLoop counting thread lock kind turn state) own other ↔
      (other = thread ∧ own = kind) ∨ Holds state own other := by
    intro own other
    simp only [testLoop, free, Bool.false_eq_true, ↓reduceIte, holds_notifyAll, holds_setPhase]
    by_cases self : other = thread
    · simp [self, idle own, eq_comm]
    · simp [self, Holds]
  have open_ : violated state kind = false := by
    simp only [mustWait, Bool.or_eq_false_iff] at free
    exact free.1
  cases kind with
  | read =>
      have quiet : state.numberOfWriters ≤ 0 := by
        simpa [violated, readRequirementsViolated] using open_
      refine ⟨?_, ?_, Or.inl ?_⟩
      · have grown := tally_enter state _ .read _ thread (idle .read)
          (fun other => by simpa using holds .read other) counted.readers
        simpa [testLoop, free, notifyAll, setPhase, countIn] using grown
      · have kept := tally_congr state _ .write _ (fun other => by simpa using holds .write other)
          counted.writers
        simpa [testLoop, free, notifyAll, setPhase, countIn] using kept
      · simpa [testLoop, free, notifyAll, setPhase, countIn] using quiet
  | write =>
      have quiet : state.numberOfReaders ≤ 0 ∧ state.numberOfWriters ≤ 0 := by
        simpa [violated, writeRequirementsViolated] using open_
      have alone : state.numberOfWriters = 0 := by
        have positive := tally_nonneg state .write _ counted.writers
        omega
      refine ⟨?_, ?_, Or.inr ⟨?_, ?_⟩⟩
      · have kept := tally_congr state _ .read _ (fun other => by simpa using holds .read other)
          counted.readers
        simpa [testLoop, free, notifyAll, setPhase, countIn] using kept
      · have grown := tally_enter state _ .write _ thread (idle .write)
          (fun other => by simpa using holds .write other) counted.writers
        simpa [testLoop, free, notifyAll, setPhase, countIn] using grown
      · simp [testLoop, free, notifyAll, setPhase, countIn, alone]
      · simpa [testLoop, free, notifyAll, setPhase, countIn] using quiet.1

theorem test_counted (counting : Counting) (state : State Thread Lock) (thread : Thread)
    (lock : Lock) (kind : Kind) (turn : Int) (counted : Counted state)
    (idle : ∀ kind, ¬ Holds state kind thread) :
    Counted (testLoop counting thread lock kind turn state) := by
  by_cases busy : mustWait state kind turn = true
  · simpa [testLoop, busy] using sleep_counted state thread lock kind turn counted idle
  · exact admit_counted counting state thread lock kind turn counted idle (by simpa using busy)

omit [DecidableEq Thread] in
theorem notified_counted (state : State Thread Lock) (lock : Lock) (last : Prop) [Decidable last]
    (counted : Counted state) : Counted (if last then notifyAll lock state else state) := by
  split
  · exact ⟨tally_congr _ _ _ _ (holds_notifyAll lock state .read) counted.readers,
      tally_congr _ _ _ _ (holds_notifyAll lock state .write) counted.writers, counted.exclusive⟩
  · exact counted

omit [DecidableEq Lock] in
theorem outside_holds (state : State Thread Lock) (thread other : Thread) (kind : Kind) :
    Holds (setPhase thread .outside state) kind other ↔ other ≠ thread ∧ Holds state kind other := by
  rw [holds_setPhase]
  by_cases self : other = thread <;> simp [self]

omit [DecidableEq Thread] [DecidableEq Lock] in
theorem holds_one_kind (state : State Thread Lock) (thread : Thread) (lock : Lock)
    (kind other : Kind) (holding : state.phase thread = .holding lock kind)
    (holds : Holds state other thread) : other = kind := by
  obtain ⟨_, also⟩ := holds
  rw [holding, Phase.holding.injEq] at also
  exact also.2.symm

theorem endRead_counted (state : State Thread Lock) (thread : Thread) (lock : Lock)
    (counted : Counted state) (holding : state.phase thread = .holding lock .read) :
    Counted (endRead thread lock state) := by
  have left : Counted (setPhase thread .outside
      { state with numberOfReaders := state.numberOfReaders - 1 }) := by
    refine ⟨?_, ?_, ?_⟩
    · exact tally_leave state _ .read _ thread ⟨lock, holding⟩
        (fun other => outside_holds _ thread other .read) counted.readers
    · refine tally_congr state _ .write _ (fun other => ?_) counted.writers
      rw [outside_holds]
      exact and_iff_right_of_imp fun holds self =>
        absurd (holds_one_kind state thread lock _ _ holding (self ▸ holds)) (by decide)
    · have exclusive := counted.exclusive
      simp only [setPhase]
      omega
  exact notified_counted _ lock _ left

theorem endWrite_counted (state : State Thread Lock) (thread : Thread) (lock : Lock)
    (counted : Counted state) (holding : state.phase thread = .holding lock .write) :
    Counted (endWrite thread lock state) := by
  have left : Counted (setPhase thread .outside
      { state with numberOfWriters := state.numberOfWriters - 1 }) := by
    refine ⟨?_, ?_, ?_⟩
    · refine tally_congr state _ .read _ (fun other => ?_) counted.readers
      rw [outside_holds]
      exact and_iff_right_of_imp fun holds self =>
        absurd (holds_one_kind state thread lock _ _ holding (self ▸ holds)) (by decide)
    · exact tally_leave state _ .write _ thread ⟨lock, holding⟩
        (fun other => outside_holds _ thread other .write) counted.writers
    · have exclusive := counted.exclusive
      simp only [setPhase]
      omega
  exact notified_counted _ lock _ left

end Active

section Runs

theorem initial_ordered : Ordered (initial : State Thread Lock) := by
  refine ⟨⟨rfl, rfl, rfl, ?_⟩, ?_⟩ <;> simp [initial, Pending, Waits]

theorem initial_counted : Counted (initial : State Thread Lock) := by
  refine ⟨⟨∅, ?_, rfl⟩, ⟨∅, ?_, rfl⟩, Or.inl (Int.le_refl 0)⟩ <;> simp [initial, Holds]

theorem outside_idle (state : State Thread Lock) (thread : Thread)
    (outside : state.phase thread = .outside) (kind : Kind) : ¬ Holds state kind thread := by
  rintro ⟨_, holding⟩
  rw [outside] at holding
  cases holding

variable [DecidableEq Thread] [DecidableEq Lock]

/-- One monitor section keeps the ticket order. -/
theorem step_ordered (before after : State Thread Lock) (action : Action Thread Lock)
    (ordered : Ordered before) (taken : step .exact before action = some after) : Ordered after := by
  cases step_stepped .exact before after action taken with
  | beganRead thread lock outside => exact begin_ordered before .read thread lock ordered outside
  | beganWrite thread lock outside => exact begin_ordered before .write thread lock ordered outside
  | woke thread lock kind turn notified asleep =>
      exact wake_ordered before ⟨thread, kind, turn⟩ lock notified ordered asleep
  | endedRead thread lock holding =>
      have left := outside_ordered before thread .read ordered ⟨lock, holding⟩
      exact notified_ordered _ lock _
        ⟨⟨left.turned, left.requested, left.behind, left.numbered⟩, left.pending⟩
  | endedWrite thread lock holding =>
      have left := outside_ordered before thread .write ordered ⟨lock, holding⟩
      exact notified_ordered _ lock _
        ⟨⟨left.turned, left.requested, left.behind, left.numbered⟩, left.pending⟩

/-- One monitor section keeps the counts, however the tickets count. -/
theorem step_counted (counting : Counting) (before after : State Thread Lock)
    (action : Action Thread Lock) (counted : Counted before)
    (taken : step counting before action = some after) : Counted after := by
  cases step_stepped counting before after action taken with
  | beganRead thread lock outside =>
      exact test_counted counting _ thread lock .read _
        ⟨counted.readers, counted.writers, counted.exclusive⟩ (outside_idle before thread outside)
  | beganWrite thread lock outside =>
      exact test_counted counting _ thread lock .write _
        ⟨counted.readers, counted.writers, counted.exclusive⟩ (outside_idle before thread outside)
  | woke thread lock kind turn notified asleep =>
      refine test_counted counting before thread lock kind turn counted ?_
      rintro own ⟨_, holding⟩
      rw [asleep] at holding
      cases holding
  | endedRead thread lock holding => exact endRead_counted before thread lock counted holding
  | endedWrite thread lock holding => exact endWrite_counted before thread lock counted holding

/-- In every run of the monitor sections a writer is alone, and the calls
complete in the order in which they drew their tickets. -/
theorem excludes_in_ticket_order (state : State Thread Lock)
    (reached : Reachable (step .exact) (fun _ _ => True) initial state) :
    (∀ left right, Holds state .write left → Holds state .write right → left = right) ∧
    (∀ writer reader, Holds state .write writer → ¬ Holds state .read reader) ∧
    state.completed <+: state.drawn := by
  have ordered := reachable_invariant Ordered initial_ordered
    (fun before action after ordered _ taken => step_ordered before after action ordered taken) reached
  have counted := reachable_invariant Counted initial_counted
    (fun before action after counted _ taken => step_counted .exact before after action counted taken)
    reached
  refine ⟨fun left right first second => ?_, fun writer reader writing => ?_, ?_⟩
  · rcases counted.exclusive with none | ⟨one, _⟩
    · exact absurd first (tally_empty state .write _ counted.writers none left)
    · exact tally_single state .write (one ▸ counted.writers) left right first second
  · rcases counted.exclusive with none | ⟨_, none⟩
    · exact absurd writing (tally_empty state .write _ counted.writers none writer)
    · exact tally_empty state .read _ counted.readers none reader
  · rw [ordered.behind]
    exact List.take_prefix _ _

-- A reader draws its ticket while a writer is inside, and gets in after it.
def writerThenReader : List (Action Bool Unit) :=
  [.beginWrite true (), .beginRead false (), .wake false, .endWrite true (), .wake false]

theorem excludes_writer_then_reader :
    ∃ state, replay (step .exact) (fun _ _ => True) initial writerThenReader = some state ∧
      (∀ left right, Holds state .write left → Holds state .write right → left = right) ∧
      (∀ writer reader, Holds state .write writer → ¬ Holds state .read reader) ∧
      state.completed <+: state.drawn := by
  obtain ⟨state, played⟩ := Option.isSome_iff_exists.mp
    (show (replay (step .exact) (fun _ _ => True) initial writerThenReader).isSome = true by decide)
  exact ⟨state, played, excludes_in_ticket_order state (replayed _ _ played)⟩

end Runs

end EE360P.FairReadWriteLock
