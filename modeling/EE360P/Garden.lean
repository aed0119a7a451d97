import Mathlib.Data.Fintype.Basic
import EE360P.JavaText
import EE360P.GuardedRuns

/-! project2/q3 `Garden` with one thread for each of Newton, Benjamin and Mary.
Every read or write of a counter, every `lock`, `unlock`, `await` and `signal`
is one step. The guards are read without a lock and tested once, in an `if`. A
condition has one thread that awaits it, no wake-up is spurious and no thread is
interrupted, so an `await` ends only after a later `signal`. -/

namespace EE360P.Garden
open JavaText GuardedRuns

inductive Worker where
  | newton
  | benjamin
  | mary
  deriving DecidableEq, Repr

instance : Fintype Worker :=
  ⟨{.newton, .benjamin, .mary}, fun worker => by cases worker <;> decide⟩

inductive Counter where
  | holesDug
  | holesSeeded
  | holesFilled
  deriving DecidableEq, Repr

/-- The conditions of the lock `sequencer`. -/
inductive Condition where
  | fourUnseeded
  | eightUnfilled
  | oneUnseeded
  | oneUnfilled
  deriving DecidableEq, Repr

/-- The operation that a thread does next. The ones with a condition belong to
the `if` block that awaits it, except `signalling`; from `doneLocking` on the
thread is inside its `done` method. -/
inductive Point where
  | reading (condition : Condition)
  | comparing (condition : Condition) (first : Int)
  | locking (condition : Condition)
  | awaiting (condition : Condition)
  | asleep (condition : Condition) (signalled : Bool)
  | unlocking (condition : Condition)
  | takingShovel
  | working
  | doneLocking
  | doneReading
  | doneWriting (seen : Int)
  | signalling (condition : Condition)
  | doneUnlocking
  | returningShovel
  deriving DecidableEq, Repr

/-- `total` counts the holes that were dug, seeded and filled, for an observer;
no step reads it. -/
structure State where
  shovel : Option Worker
  sequencer : Option Worker
  counter : Counter → Int
  point : Worker → Point
  total : Counter → Nat

/-! What the methods of the three threads do in which order. -/
section Methods

/-- `startDigging`, `startSeeding` and `startFilling` begin with their first test. -/
def start : Worker → Point
  | .newton => .reading .fourUnseeded
  | .benjamin => .reading .oneUnseeded
  | .mary => .reading .oneUnfilled

/-- The counters that the test before an `await` reads, in that order. -/
def firstCounter : Condition → Counter
  | .fourUnseeded => .holesDug
  | .eightUnfilled => .holesDug
  | .oneUnseeded => .holesDug
  | .oneUnfilled => .holesFilled

def secondCounter : Condition → Counter
  | .fourUnseeded => .holesSeeded
  | .eightUnfilled => .holesFilled
  | .oneUnseeded => .holesSeeded
  | .oneUnfilled => .holesSeeded

/-- The test before an `await`. -/
def mustWait (counting : Counting) (condition : Condition) (first second : Int) : Bool :=
  match condition with
  | .fourUnseeded => counting.wrap (first - second) = 4
  | .eightUnfilled => counting.wrap (first - second) = 8
  | .oneUnseeded => first = second
  | .oneUnfilled => first = second

/-- What follows the `if` block of a condition. -/
def passed : Condition → Point
  | .fourUnseeded => .reading .eightUnfilled
  | .eightUnfilled => .takingShovel
  | .oneUnseeded => .working
  | .oneUnfilled => .takingShovel

/-- The counter that `doneDigging`, `doneSeeding` and `doneFilling` increment. -/
def ownCounter : Worker → Counter
  | .newton => .holesDug
  | .benjamin => .holesSeeded
  | .mary => .holesFilled

def firstSignal : Worker → Condition
  | .newton => .oneUnseeded
  | .benjamin => .fourUnseeded
  | .mary => .eightUnfilled

/-- What follows a `signal`: `doneSeeding` sends a second one. -/
def signalled : Condition → Point
  | .fourUnseeded => .signalling .oneUnfilled
  | .eightUnfilled => .doneUnlocking
  | .oneUnseeded => .doneUnlocking
  | .oneUnfilled => .doneUnlocking

/-- What follows the `finally` block of the `done` methods. -/
def unlocked : Worker → Point
  | .newton => .returningShovel
  | .benjamin => start .benjamin
  | .mary => .returningShovel

/-- The thread whose `start` method awaits a condition. -/
def waiter : Condition → Worker
  | .fourUnseeded => .newton
  | .eightUnfilled => .newton
  | .oneUnseeded => .benjamin
  | .oneUnfilled => .mary

end Methods

def initial : State := ⟨none, none, fun _ => 0, start, fun _ => 0⟩

section Steps
variable (counting : Counting)

def goto (worker : Worker) (point : Point) (state : State) : State :=
  { state with point := Function.update state.point worker point }

/-- `signal` reaches a thread that is asleep on the condition; with none it is lost. -/
def signal (condition : Condition) (state : State) : State :=
  if state.point (waiter condition) = .asleep condition false then
    goto (waiter condition) (.asleep condition true) state
  else state

def increment (counter : Counter) (seen : Int) (state : State) : State :=
  { state with
    counter := Function.update state.counter counter (counting.wrap (seen + 1))
    total := Function.update state.total counter (state.total counter + 1) }

/-- The next operation of a thread. -/
def step (state : State) (worker : Worker) : Option State :=
  match state.point worker with
  | .reading condition =>
      some (goto worker (.comparing condition (state.counter (firstCounter condition))) state)
  | .comparing condition first =>
      let second := state.counter (secondCounter condition)
      some (goto worker
        (if mustWait counting condition first second then .locking condition else passed condition) state)
  | .locking condition =>
      if state.sequencer = none then
        some (goto worker (.awaiting condition) { state with sequencer := worker })
      else none
  | .awaiting condition =>
      some (goto worker (.asleep condition false) { state with sequencer := none })
  | .asleep condition signalled =>
      if signalled ∧ state.sequencer = none then
        some (goto worker (.unlocking condition) { state with sequencer := worker })
      else none
  | .unlocking condition => some (goto worker (passed condition) { state with sequencer := none })
  | .takingShovel =>
      if state.shovel = none then some (goto worker .working { state with shovel := worker })
      else none
  | .working => some (goto worker .doneLocking state)
  | .doneLocking =>
      if state.sequencer = none then
        some (goto worker .doneReading { state with sequencer := worker })
      else none
  | .doneReading => some (goto worker (.doneWriting (state.counter (ownCounter worker))) state)
  | .doneWriting seen =>
      some (goto worker (.signalling (firstSignal worker))
        (increment counting (ownCounter worker) seen state))
  | .signalling condition => some (goto worker (Garden.signalled condition) (signal condition state))
  | .doneUnlocking => some (goto worker (unlocked worker) { state with sequencer := none })
  | .returningShovel => some (goto worker (start worker) { state with shovel := none })

/-- The operations of a worker, each with the point at which it is next. -/
inductive Stepped (before : State) (worker : Worker) : State → Prop where
  | read (condition : Condition) (at_ : before.point worker = .reading condition) :
      Stepped before worker
        (goto worker (.comparing condition (before.counter (firstCounter condition))) before)
  | compared (condition : Condition) (first : Int) (at_ : before.point worker = .comparing condition first) :
      Stepped before worker
        (goto worker (if mustWait counting condition first (before.counter (secondCounter condition))
          then .locking condition else passed condition) before)
  | locked (condition : Condition) (at_ : before.point worker = .locking condition)
      (free : before.sequencer = none) :
      Stepped before worker (goto worker (.awaiting condition) { before with sequencer := worker })
  | awaited (condition : Condition) (at_ : before.point worker = .awaiting condition) :
      Stepped before worker (goto worker (.asleep condition false) { before with sequencer := none })
  | woke (condition : Condition) (at_ : before.point worker = .asleep condition true)
      (free : before.sequencer = none) :
      Stepped before worker (goto worker (.unlocking condition) { before with sequencer := worker })
  | unlocked (condition : Condition) (at_ : before.point worker = .unlocking condition) :
      Stepped before worker (goto worker (passed condition) { before with sequencer := none })
  | tookShovel (at_ : before.point worker = .takingShovel) (free : before.shovel = none) :
      Stepped before worker (goto worker .working { before with shovel := worker })
  | worked (at_ : before.point worker = .working) : Stepped before worker (goto worker .doneLocking before)
  | doneLocked (at_ : before.point worker = .doneLocking) (free : before.sequencer = none) :
      Stepped before worker (goto worker .doneReading { before with sequencer := worker })
  | doneRead (at_ : before.point worker = .doneReading) :
      Stepped before worker (goto worker (.doneWriting (before.counter (ownCounter worker))) before)
  | doneWrote (seen : Int) (at_ : before.point worker = .doneWriting seen) :
      Stepped before worker (goto worker (.signalling (firstSignal worker))
        (increment counting (ownCounter worker) seen before))
  | signalled (condition : Condition) (at_ : before.point worker = .signalling condition) :
      Stepped before worker (goto worker (Garden.signalled condition) (signal condition before))
  | doneUnlocked (at_ : before.point worker = .doneUnlocking) :
      Stepped before worker (goto worker (Garden.unlocked worker) { before with sequencer := none })
  | returnedShovel (at_ : before.point worker = .returningShovel) :
      Stepped before worker (goto worker (start worker) { before with shovel := none })

theorem step_stepped (before after : State) (worker : Worker)
    (taken : step counting before worker = some after) : Stepped counting before worker after := by
  unfold step at taken
  cases at_ : before.point worker with
  | reading condition =>
      simp only [at_, Option.some.injEq] at taken
      exact taken ▸ .read condition at_
  | comparing condition first =>
      simp only [at_, Option.some.injEq] at taken
      exact taken ▸ .compared condition first at_
  | locking condition =>
      simp only [at_, Option.ite_none_right_eq_some, Option.some.injEq] at taken
      exact taken.2 ▸ .locked condition at_ taken.1
  | awaiting condition =>
      simp only [at_, Option.some.injEq] at taken
      exact taken ▸ .awaited condition at_
  | asleep condition woken =>
      simp only [at_, Option.ite_none_right_eq_some, Option.some.injEq] at taken
      obtain ⟨⟨rfl, free⟩, rfl⟩ := taken
      exact .woke condition at_ free
  | unlocking condition =>
      simp only [at_, Option.some.injEq] at taken
      exact taken ▸ .unlocked condition at_
  | takingShovel =>
      simp only [at_, Option.ite_none_right_eq_some, Option.some.injEq] at taken
      exact taken.2 ▸ .tookShovel at_ taken.1
  | working =>
      simp only [at_, Option.some.injEq] at taken
      exact taken ▸ .worked at_
  | doneLocking =>
      simp only [at_, Option.ite_none_right_eq_some, Option.some.injEq] at taken
      exact taken.2 ▸ .doneLocked at_ taken.1
  | doneReading =>
      simp only [at_, Option.some.injEq] at taken
      exact taken ▸ .doneRead at_
  | doneWriting seen =>
      simp only [at_, Option.some.injEq] at taken
      exact taken ▸ .doneWrote seen at_
  | signalling condition =>
      simp only [at_, Option.some.injEq] at taken
      exact taken ▸ .signalled condition at_
  | doneUnlocking =>
      simp only [at_, Option.some.injEq] at taken
      exact taken ▸ .doneUnlocked at_
  | returningShovel =>
      simp only [at_, Option.some.injEq] at taken
      exact taken ▸ .returnedShovel at_

end Steps

/-! Every condition stands for a stock of credits: holes that may still be dug
before four are unseeded or eight unfilled, holes to seed, holes to fill. A
worker who finishes a hole uses up one credit of each condition that it awaits
and makes one of each condition that it signals. -/
section Credits

def gap : Condition → Int → Int → Int
  | .fourUnseeded, dug, seeded => 4 - (dug - seeded)
  | .eightUnfilled, dug, filled => 8 - (dug - filled)
  | .oneUnseeded, dug, seeded => dug - seeded
  | .oneUnfilled, filled, seeded => seeded - filled

def credit (total : Counter → Nat) (condition : Condition) : Int :=
  gap condition (total (firstCounter condition)) (total (secondCounter condition))

/-- The worker who signals a condition. -/
def signaller : Condition → Worker
  | .fourUnseeded => .benjamin
  | .eightUnfilled => .mary
  | .oneUnseeded => .newton
  | .oneUnfilled => .benjamin

def finished (worker : Worker) (total : Counter → Nat) : Counter → Nat :=
  Function.update total (ownCounter worker) (total (ownCounter worker) + 1)

theorem credit_finished (total : Counter → Nat) (worker : Worker) (condition : Condition) :
    credit (finished worker total) condition = credit total condition +
      (if signaller condition = worker then 1 else 0) - if waiter condition = worker then 1 else 0 := by
  cases worker <;> cases condition <;>
    simp [credit, gap, finished, firstCounter, secondCounter, ownCounter, signaller, waiter] <;> omega

theorem waiter_signaller (condition : Condition) : waiter condition ≠ signaller condition := by
  cases condition <;> decide

def Ordered (total : Counter → Nat) : Prop := ∀ condition, 0 ≤ credit total condition

-- The bounds of the exercise, read off the four stocks.
theorem ordered_bounds (total : Counter → Nat) (ordered : Ordered total) :
    total .holesFilled ≤ total .holesSeeded ∧ total .holesSeeded ≤ total .holesDug ∧
      total .holesDug ≤ total .holesSeeded + 4 ∧ total .holesDug ≤ total .holesFilled + 8 := by
  have four := ordered .fourUnseeded
  have eight := ordered .eightUnfilled
  have unseeded := ordered .oneUnseeded
  have unfilled := ordered .oneUnfilled
  simp only [credit, gap, firstCounter, secondCounter] at four eight unseeded unfilled
  omega

theorem credit_bounded (total : Counter → Nat) (ordered : Ordered total) (condition : Condition) :
    credit total condition ≤ 8 := by
  have bounds := ordered_bounds total ordered
  cases condition <;> simp only [credit, gap, firstCounter, secondCounter] <;> omega

/-- Finishing a hole keeps the stocks, when each one that it uses has a credit. -/
theorem finished_ordered (total : Counter → Nat) (worker : Worker) (ordered : Ordered total)
    (covered : ∀ condition, waiter condition = worker → 1 ≤ credit total condition) :
    Ordered (finished worker total) := by
  intro condition
  have before := ordered condition
  rw [credit_finished]
  by_cases uses : waiter condition = worker
  · have stock := covered condition uses
    simp only [uses, ↓reduceIte]
    split <;> omega
  · simp only [uses, ↓reduceIte]
    split <;> omega

theorem wrap_small (counting : Counting) (n : Int) (low : -16 ≤ n) (high : n ≤ 16) :
    counting.wrap n = n := by
  refine wrap_fits counting n ?_
  cases counting with
  | exact => rfl
  | int32 => exact decide_eq_true ⟨by omega, by omega⟩

-- Around the range of the stocks the test is exact, wrapped counters or not.
theorem mustWait_gap (counting : Counting) (condition : Condition) (first second : Int)
    (low : 0 ≤ gap condition first second) (high : gap condition first second ≤ 8) :
    mustWait counting condition (counting.wrap first) (counting.wrap second) = true ↔
      gap condition first second = 0 := by
  have equal : ∀ m n : Int, -16 ≤ m - n → m - n ≤ 16 →
      (counting.wrap m = counting.wrap n ↔ m = n) := by
    intro m n below above
    refine ⟨fun same => ?_, fun same => same ▸ rfl⟩
    have zero := wrap_sub counting m n
    rw [same, Int.sub_self, wrap_small counting 0 (by omega) (by omega),
      wrap_small counting _ below above] at zero
    omega
  cases condition <;> simp only [gap] at low high <;>
    simp only [mustWait, gap, wrap_sub, decide_eq_true_eq]
  · rw [wrap_small counting _ (by omega) (by omega)]
    omega
  · rw [wrap_small counting _ (by omega) (by omega)]
    omega
  · rw [equal first second (by omega) (by omega)]
    omega
  · rw [equal first second (by omega) (by omega)]
    omega

end Credits

/-! The locks: a worker is inside the critical part of its program exactly when
the lock names it. -/
section Locks

def Point.sequencing : Point → Bool
  | .awaiting _ | .unlocking _ | .doneReading | .doneWriting _ | .signalling _ | .doneUnlocking => true
  | _ => false

/-- Between the `start` method and the increment of the `done` method. -/
def Point.between : Point → Bool
  | .working | .doneLocking | .doneReading | .doneWriting _ => true
  | _ => false

/-- After the increment and before the end of the critical part. -/
def Point.produced : Point → Bool
  | .signalling _ | .doneUnlocking => true
  | _ => false

/-- Between the `start` method and the end of the `done` method. -/
def Point.busy : Point → Bool
  | .working | .doneLocking | .doneReading | .doneWriting _ | .signalling _ | .doneUnlocking
  | .returningShovel => true
  | _ => false

def shovelling (worker : Worker) (point : Point) : Bool := worker ≠ .benjamin && point.busy

/-- The operations of a worker's own program. -/
def Own (worker : Worker) : Point → Prop
  | .reading condition | .comparing condition _ | .locking condition | .awaiting condition
  | .asleep condition _ | .unlocking condition => waiter condition = worker
  | .signalling condition => signaller condition = worker
  | .takingShovel | .returningShovel => worker ≠ .benjamin
  | .working | .doneLocking | .doneReading | .doneWriting _ | .doneUnlocking => True

structure Arranged (state : State) : Prop where
  sequenced : ∀ worker, (state.point worker).sequencing = true ↔ state.sequencer = some worker
  shovelled : ∀ worker, shovelling worker (state.point worker) = true ↔ state.shovel = some worker
  own : ∀ worker, Own worker (state.point worker)

/-- What one move of a worker does to a lock: nothing, or it takes the free lock
on entering the critical part, or it gives the lock back on leaving it. -/
def Passes (worker : Worker) (was now : Bool) (before after : Option Worker) : Prop :=
  (now = was ∧ after = before) ∨ (before = none ∧ now = true ∧ after = some worker) ∨
    (was = true ∧ now = false ∧ after = none)

theorem passes_held (inside : Worker → Bool) (worker : Worker) (now : Bool)
    (before after : Option Worker) (held : ∀ other, inside other = true ↔ before = some other)
    (passes : Passes worker (inside worker) now before after) (other : Worker) :
    Function.update inside worker now other = true ↔ after = some other := by
  have mine := held worker
  have theirs := held other
  by_cases self : other = worker
  · subst self
    rw [Function.update_self]
    rcases passes with ⟨same, kept⟩ | ⟨_, entered, taken⟩ | ⟨_, gone, free⟩
    · rw [same, kept]
      exact mine
    · simp [entered, taken]
    · simp [gone, free]
  · rw [Function.update_of_ne self]
    rcases passes with ⟨_, kept⟩ | ⟨idle, _, taken⟩ | ⟨inside_, _, free⟩
    · rw [kept]
      exact theirs
    · rw [theirs, idle, taken]
      simp [Ne.symm self]
    · rw [theirs, mine.mp inside_, free]
      simp [Ne.symm self]

theorem moved_arranged (before after : State) (worker : Worker) (point : Point)
    (arranged : Arranged before) (moved : after.point = Function.update before.point worker point)
    (own : Own worker point)
    (sequencer : Passes worker (before.point worker).sequencing point.sequencing before.sequencer
      after.sequencer)
    (shovel : Passes worker (shovelling worker (before.point worker)) (shovelling worker point)
      before.shovel after.shovel) : Arranged after := by
  refine ⟨fun other => ?_, fun other => ?_, fun other => ?_⟩
  · have held := passes_held (fun other => (before.point other).sequencing) worker point.sequencing
      before.sequencer after.sequencer arranged.sequenced sequencer other
    rw [moved]
    by_cases self : other = worker
    · simpa [self] using held
    · simpa [Function.update_of_ne self] using held
  · have held := passes_held (fun other => shovelling other (before.point other)) worker
      (shovelling worker point) before.shovel after.shovel arranged.shovelled shovel other
    rw [moved]
    by_cases self : other = worker
    · simpa [self] using held
    · simpa [Function.update_of_ne self] using held
  · rw [moved]
    by_cases self : other = worker
    · rw [self, Function.update_self]
      exact own
    · rw [Function.update_of_ne self]
      exact arranged.own other

theorem signal_other (condition : Condition) (state : State) (worker : Worker)
    (other : worker ≠ waiter condition) : (signal condition state).point worker = state.point worker := by
  unfold signal
  split
  · exact Function.update_of_ne other _ _
  · rfl

theorem signal_arranged (condition : Condition) (state : State) (arranged : Arranged state) :
    Arranged (signal condition state) := by
  unfold signal
  split
  · rename_i asleep
    refine moved_arranged state _ (waiter condition) _ arranged rfl rfl ?_ ?_
    · exact Or.inl ⟨by rw [asleep]; rfl, rfl⟩
    · exact Or.inl ⟨by rw [asleep]; rfl, rfl⟩
  · exact arranged

theorem initial_arranged : Arranged initial := by
  refine ⟨fun worker => ?_, fun worker => ?_, fun worker => ?_⟩ <;> cases worker <;>
    simp [initial, start, Point.sequencing, shovelling, Point.busy, Own, waiter]

theorem own_passed (worker : Worker) (condition : Condition) (own : waiter condition = worker) :
    Own worker (passed condition) ∧ (passed condition).sequencing = false ∧
      (shovelling worker (passed condition) = false) := by
  subst own
  cases condition <;> simp [passed, Own, waiter, Point.sequencing, shovelling, Point.busy]

/-- One operation of a worker keeps the locks. -/
theorem step_arranged (counting : Counting) (before after : State) (worker : Worker)
    (arranged : Arranged before) (taken : step counting before worker = some after) :
    Arranged after := by
  have own := arranged.own worker
  cases step_stepped counting before after worker taken with
  | read condition at_ =>
      rw [at_] at own
      refine moved_arranged before _ worker _ arranged rfl own ?_ ?_ <;> rw [at_]
      · exact Or.inl ⟨rfl, rfl⟩
      · exact Or.inl ⟨rfl, rfl⟩
  | compared condition first at_ =>
      rw [at_] at own
      obtain ⟨mine, outside, shovelless⟩ := own_passed worker condition own
      split
      · refine moved_arranged before _ worker _ arranged rfl own ?_ ?_ <;> rw [at_]
        · exact Or.inl ⟨rfl, rfl⟩
        · exact Or.inl ⟨rfl, rfl⟩
      · refine moved_arranged before _ worker _ arranged rfl mine ?_ ?_ <;> rw [at_]
        · exact Or.inl ⟨outside, rfl⟩
        · exact Or.inl ⟨shovelless.trans (by simp [shovelling, Point.busy]), rfl⟩
  | locked condition at_ free =>
      rw [at_] at own
      refine moved_arranged before _ worker _ arranged rfl own ?_ ?_ <;> rw [at_]
      · exact Or.inr (Or.inl ⟨free, rfl, rfl⟩)
      · exact Or.inl ⟨rfl, rfl⟩
  | awaited condition at_ =>
      rw [at_] at own
      refine moved_arranged before _ worker _ arranged rfl own ?_ ?_ <;> rw [at_]
      · exact Or.inr (Or.inr ⟨rfl, rfl, rfl⟩)
      · exact Or.inl ⟨rfl, rfl⟩
  | woke condition at_ free =>
      rw [at_] at own
      refine moved_arranged before _ worker _ arranged rfl own ?_ ?_ <;> rw [at_]
      · exact Or.inr (Or.inl ⟨free, rfl, rfl⟩)
      · exact Or.inl ⟨rfl, rfl⟩
  | unlocked condition at_ =>
      rw [at_] at own
      obtain ⟨mine, outside, shovelless⟩ := own_passed worker condition own
      refine moved_arranged before _ worker _ arranged rfl mine ?_ ?_ <;> rw [at_]
      · exact Or.inr (Or.inr ⟨rfl, outside, rfl⟩)
      · exact Or.inl ⟨shovelless.trans (by simp [shovelling, Point.busy]), rfl⟩
  | tookShovel at_ free =>
      rw [at_] at own
      refine moved_arranged before _ worker _ arranged rfl trivial ?_ ?_ <;> rw [at_]
      · exact Or.inl ⟨rfl, rfl⟩
      · exact Or.inr (Or.inl ⟨free, by simpa [shovelling, Point.busy, Own] using own, rfl⟩)
  | worked at_ =>
      refine moved_arranged before _ worker _ arranged rfl trivial ?_ ?_ <;> rw [at_]
      · exact Or.inl ⟨rfl, rfl⟩
      · exact Or.inl ⟨rfl, rfl⟩
  | doneLocked at_ free =>
      refine moved_arranged before _ worker _ arranged rfl trivial ?_ ?_ <;> rw [at_]
      · exact Or.inr (Or.inl ⟨free, rfl, rfl⟩)
      · exact Or.inl ⟨rfl, rfl⟩
  | doneRead at_ =>
      refine moved_arranged before _ worker _ arranged rfl trivial ?_ ?_ <;> rw [at_]
      · exact Or.inl ⟨rfl, rfl⟩
      · exact Or.inl ⟨rfl, rfl⟩
  | doneWrote seen at_ =>
      have mine : Own worker (.signalling (firstSignal worker)) := by cases worker <;> rfl
      refine moved_arranged before _ worker _ arranged rfl mine ?_ ?_ <;> rw [at_]
      · exact Or.inl ⟨rfl, rfl⟩
      · exact Or.inl ⟨rfl, rfl⟩
  | signalled condition at_ =>
      rw [at_] at own
      have mine : Own worker (signalled condition) ∧ (signalled condition).sequencing = true ∧
          (signalled condition).busy = true := by
        subst own
        cases condition <;> simp [signalled, Own, signaller, Point.sequencing, Point.busy]
      have here : (signal condition before).point worker = .signalling condition := by
        rw [signal_other condition before worker (fun same => waiter_signaller condition (same ▸ own.symm)), at_]
      refine moved_arranged (signal condition before) _ worker _
        (signal_arranged condition before arranged) rfl mine.1 ?_ ?_ <;> rw [here]
      · exact Or.inl ⟨mine.2.1, rfl⟩
      · exact Or.inl ⟨by rw [shovelling, mine.2.2]; rfl, rfl⟩
  | doneUnlocked at_ =>
      have mine : Own worker (unlocked worker) ∧ (unlocked worker).sequencing = false ∧
          shovelling worker (unlocked worker) = shovelling worker .doneUnlocking := by
        cases worker <;>
          simp [unlocked, start, Own, waiter, Point.sequencing, shovelling, Point.busy]
      refine moved_arranged before _ worker _ arranged rfl mine.1 ?_ ?_ <;> rw [at_]
      · exact Or.inr (Or.inr ⟨rfl, mine.2.1, rfl⟩)
      · exact Or.inl ⟨mine.2.2, rfl⟩
  | returnedShovel at_ =>
      rw [at_] at own
      have mine : Own worker (start worker) ∧ (start worker).sequencing = false ∧
          shovelling worker (start worker) = false := by
        cases worker <;> simp [start, Own, waiter, Point.sequencing, shovelling, Point.busy]
      refine moved_arranged before _ worker _ arranged rfl mine.1 ?_ ?_ <;> rw [at_]
      · exact Or.inl ⟨mine.2.1, rfl⟩
      · exact Or.inr (Or.inr ⟨by simpa [shovelling, Point.busy, Own] using own, mine.2.2, rfl⟩)

end Locks

end EE360P.Garden
