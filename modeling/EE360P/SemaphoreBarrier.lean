import Mathlib.Data.Fintype.Card
import EE360P.GuardedRuns

/-! project2/q1 `CyclicBarrier`. Every semaphore operation and every read or
write of `currentBarrierVacancies` is one step of one of `size` threads, each of
which calls `await` again and again. Permits of a semaphore are anonymous: any
thread at an `acquire` may take one. No thread is interrupted. -/

namespace EE360P.SemaphoreBarrier
open GuardedRuns

/-- Where a thread stands: the operation of `await` that it does next. -/
inductive Point where
  | outside
  | acquiring
  | reading
  | writing (seen : Int)
  | releasing
  | testing
  | sleeping
  | retesting
  | resetting
  | tripping
  | returning
  deriving DecidableEq, Repr

/-- `called` counts the calls of `await` that the thread has begun, `returned`
holds the values that the finished ones gave; both are for an observer only. -/
structure Local where
  called : Nat
  returned : List Int
  point : Point
  deriving DecidableEq, Repr

structure State (size : Nat) where
  isBarrierFull : Nat
  criticalSection : Nat
  currentBarrierVacancies : Int
  locals : Fin size → Local

variable {size : Nat}

/-- The constructor. -/
def initial : State size := ⟨0, 1, size, fun _ => ⟨0, [], .outside⟩⟩

section Methods

def isBarrierFilled (state : State size) : Bool :=
  (size : Int) - state.currentBarrierVacancies = size

def setLocal (thread : Fin size) (own : Local) (state : State size) : State size :=
  { state with locals := Function.update state.locals thread own }

def goto (thread : Fin size) (point : Point) (state : State size) : State size :=
  setLocal thread { state.locals thread with point := point } state

def beginCall (thread : Fin size) (state : State size) : State size :=
  let own := state.locals thread
  setLocal thread { own with called := own.called + 1, point := .acquiring } state

def returnValue (thread : Fin size) (state : State size) : State size :=
  let own := state.locals thread
  let value := state.currentBarrierVacancies
  setLocal thread { own with returned := own.returned ++ [value], point := .outside } state

/-- The next operation of a thread. -/
def step (state : State size) (thread : Fin size) : Option (State size) :=
  match (state.locals thread).point with
  | .outside => some (beginCall thread state)
  | .acquiring =>
      if state.criticalSection = 0 then none
      else some (goto thread .reading { state with criticalSection := state.criticalSection - 1 })
  | .reading => some (goto thread (.writing state.currentBarrierVacancies) state)
  | .writing seen => some (goto thread .releasing { state with currentBarrierVacancies := seen - 1 })
  | .releasing =>
      some (goto thread .testing { state with criticalSection := state.criticalSection + 1 })
  | .testing => some (goto thread (if isBarrierFilled state then .retesting else .sleeping) state)
  | .sleeping =>
      if state.isBarrierFull = 0 then none
      else some (goto thread .retesting { state with isBarrierFull := state.isBarrierFull - 1 })
  | .retesting => some (goto thread (if isBarrierFilled state then .resetting else .returning) state)
  | .resetting => some (goto thread .tripping { state with currentBarrierVacancies := size })
  | .tripping =>
      some (goto thread .returning { state with isBarrierFull := state.isBarrierFull + (size - 1) })
  | .returning => some (returnValue thread state)

/-- The operations of a thread, each with the point at which it is next. -/
inductive Stepped (before : State size) (thread : Fin size) : State size → Prop where
  | called (at_ : (before.locals thread).point = .outside) :
      Stepped before thread (beginCall thread before)
  | acquired (at_ : (before.locals thread).point = .acquiring) (open_ : before.criticalSection ≠ 0) :
      Stepped before thread
        (goto thread .reading { before with criticalSection := before.criticalSection - 1 })
  | read (at_ : (before.locals thread).point = .reading) :
      Stepped before thread (goto thread (.writing before.currentBarrierVacancies) before)
  | wrote (seen : Int) (at_ : (before.locals thread).point = .writing seen) :
      Stepped before thread (goto thread .releasing { before with currentBarrierVacancies := seen - 1 })
  | released (at_ : (before.locals thread).point = .releasing) :
      Stepped before thread
        (goto thread .testing { before with criticalSection := before.criticalSection + 1 })
  | tested (at_ : (before.locals thread).point = .testing) :
      Stepped before thread (goto thread (if isBarrierFilled before then .retesting else .sleeping) before)
  | took (at_ : (before.locals thread).point = .sleeping) (permit : before.isBarrierFull ≠ 0) :
      Stepped before thread (goto thread .retesting { before with isBarrierFull := before.isBarrierFull - 1 })
  | retested (at_ : (before.locals thread).point = .retesting) :
      Stepped before thread
        (goto thread (if isBarrierFilled before then .resetting else .returning) before)
  | refilled (at_ : (before.locals thread).point = .resetting) :
      Stepped before thread (goto thread .tripping { before with currentBarrierVacancies := size })
  | tripped (at_ : (before.locals thread).point = .tripping) :
      Stepped before thread
        (goto thread .returning { before with isBarrierFull := before.isBarrierFull + (size - 1) })
  | returned (at_ : (before.locals thread).point = .returning) :
      Stepped before thread (returnValue thread before)

theorem step_stepped (before after : State size) (thread : Fin size)
    (taken : step before thread = some after) : Stepped before thread after := by
  unfold step at taken
  cases at_ : (before.locals thread).point with
  | outside =>
      simp only [at_, Option.some.injEq] at taken
      exact taken ▸ .called at_
  | acquiring =>
      simp only [at_, Option.ite_none_left_eq_some, Option.some.injEq] at taken
      exact taken.2 ▸ .acquired at_ taken.1
  | reading =>
      simp only [at_, Option.some.injEq] at taken
      exact taken ▸ .read at_
  | writing seen =>
      simp only [at_, Option.some.injEq] at taken
      exact taken ▸ .wrote seen at_
  | releasing =>
      simp only [at_, Option.some.injEq] at taken
      exact taken ▸ .released at_
  | testing =>
      simp only [at_, Option.some.injEq] at taken
      exact taken ▸ .tested at_
  | sleeping =>
      simp only [at_, Option.ite_none_left_eq_some, Option.some.injEq] at taken
      exact taken.2 ▸ .took at_ taken.1
  | retesting =>
      simp only [at_, Option.some.injEq] at taken
      exact taken ▸ .retested at_
  | resetting =>
      simp only [at_, Option.some.injEq] at taken
      exact taken ▸ .refilled at_
  | tripping =>
      simp only [at_, Option.some.injEq] at taken
      exact taken ▸ .tripped at_
  | returning =>
      simp only [at_, Option.some.injEq] at taken
      exact taken ▸ .returned at_

end Methods

/-! Two things keep the rounds apart, and the code enforces neither. -/
section Discipline

/-- After the decrement and before the permit of the call is taken. -/
def Point.unserved : Point → Bool
  | .releasing | .testing | .sleeping => true
  | _ => false

/-- Past the first test and before the reset. -/
def Point.tripper : Point → Bool
  | .retesting | .resetting => true
  | _ => false

/-- A first test finds the barrier filled only while no other thread is about to
reset it, and a permit goes to no thread that is a round ahead of one still
waiting for its own. -/
def Orderly (state : State size) (thread : Fin size) : Prop :=
  let own := state.locals thread
  (own.point = .testing → isBarrierFilled state = true →
    ∀ other, (state.locals other).point.tripper = false) ∧
  (own.point = .sleeping → ∀ other, (state.locals other).called < own.called →
    (state.locals other).point.unserved = false)

instance (state : State size) (thread : Fin size) : Decidable (Orderly state thread) :=
  inferInstanceAs (Decidable (_ ∧ _))

end Discipline

section Counts
variable {Index Value : Type} [Fintype Index] [DecidableEq Index]

def count (test : Value → Bool) (values : Index → Value) : Nat :=
  (Finset.univ.filter fun index => test (values index) = true).card

theorem count_split (test : Value → Bool) (values : Index → Value) (index : Index) :
    count test values = (test (values index)).toNat +
      ((Finset.univ.erase index).filter fun other => test (values other) = true).card := by
  have whole := Finset.insert_erase (Finset.mem_univ index)
  rw [count, ← whole, Finset.filter_insert, whole]
  cases hit : test (values index) with
  | false => simp
  | true => simp [Nat.add_comm]

-- Changing one value moves the count by the difference of the two tests.
theorem count_update (test : Value → Bool) (values : Index → Value) (index : Index) (value : Value) :
    count test (Function.update values index value) + (test (values index)).toNat =
      count test values + (test value).toNat := by
  have rest : ((Finset.univ.erase index).filter fun other =>
        test (Function.update values index value other) = true) =
      (Finset.univ.erase index).filter fun other => test (values other) = true := by
    refine Finset.filter_congr fun other member => ?_
    rw [Function.update_of_ne (Finset.ne_of_mem_erase member)]
  rw [count_split test values index, count_split test _ index, rest, Function.update_self]
  omega

theorem count_others (test : Value → Bool) (values : Index → Value) (index : Index)
    (own : test (values index) = false) (others : ∀ other, other ≠ index → test (values other) = true) :
    count test values = Fintype.card Index - 1 := by
  have rest : ((Finset.univ.erase index).filter fun other => test (values other) = true) =
      Finset.univ.erase index :=
    Finset.filter_true_of_mem fun other member => others other (Finset.ne_of_mem_erase member)
  rw [count_split test values index, own, rest, Finset.card_erase_of_mem (Finset.mem_univ index)]
  simp

omit [DecidableEq Index]

theorem count_exists (test : Value → Bool) (values : Index → Value)
    (positive : 1 ≤ count test values) : ∃ index, test (values index) = true := by
  obtain ⟨index, member⟩ := Finset.card_pos.mp positive
  exact ⟨index, (Finset.mem_filter.mp member).2⟩

theorem count_single (test : Value → Bool) (values : Index → Value) (index other : Index)
    (single : count test values ≤ 1) (first : test (values index) = true)
    (second : test (values other) = true) : index = other :=
  Finset.card_le_one.mp single index (Finset.mem_filter.mpr ⟨Finset.mem_univ index, first⟩) other
    (Finset.mem_filter.mpr ⟨Finset.mem_univ other, second⟩)

theorem count_full (test : Value → Bool) (values : Index → Value) :
    count test values = Fintype.card Index ↔ ∀ index, test (values index) = true := by
  rw [count, Finset.card_eq_iff_eq_univ, Finset.filter_eq_self]
  simp

theorem count_none (test : Value → Bool) (values : Index → Value)
    (none_ : ∀ index, test (values index) = false) : count test values = 0 := by
  simp [count, none_]

theorem count_le (test : Value → Bool) (values : Index → Value) :
    count test values ≤ Fintype.card Index := Finset.card_le_univ _

end Counts

/-! With `resets` rounds over, every thread is in its call number `resets` or in
the next one. The calls of the next round that have decremented are the missing
vacancies; the permits are the ones that calls of the last round still wait for. -/
section Rounds

def Point.inside : Point → Bool
  | .reading | .writing _ | .releasing => true
  | _ => false

def Inside (own : Local) : Bool := own.point.inside

def Tripping (own : Local) : Bool := own.point = .tripping

def Joined (resets : Nat) (own : Local) : Bool :=
  own.called = resets + 1 && (own.point.unserved || own.point.tripper)

def Tripper (resets : Nat) (own : Local) : Bool := own.called = resets + 1 && own.point.tripper

def Owed (resets : Nat) (own : Local) : Bool := own.called = resets && own.point.unserved

def Placed (resets : Nat) (vacancies : Int) (own : Local) : Prop :=
  match own.point with
  | .outside | .tripping | .returning => own.called = resets
  | .acquiring | .reading => own.called = resets + 1
  | .writing seen => own.called = resets + 1 ∧ seen = vacancies
  | .releasing | .testing | .sleeping => own.called = resets ∨ own.called = resets + 1
  | .retesting => own.called = resets ∨ (own.called = resets + 1 ∧ vacancies = 0)
  | .resetting => own.called = resets + 1 ∧ vacancies = 0

structure Rounds (resets : Nat) (state : State size) : Prop where
  placed : ∀ thread, Placed resets state.currentBarrierVacancies (state.locals thread)
  vacancies : state.currentBarrierVacancies + count (Joined resets) state.locals = size
  mutex : state.criticalSection + count Inside state.locals = 1
  permits : state.isBarrierFull + (size - 1) * count Tripping state.locals =
    count (Owed resets) state.locals
  single : count (Tripper resets) state.locals ≤ 1

theorem initial_rounds : Rounds 0 (initial : State size) := by
  refine ⟨fun _ => rfl, ?_, ?_, ?_, ?_⟩
  · simp [initial, count_none, Joined]
  · rw [count_none Inside _ fun _ => rfl]
    rfl
  · rw [count_none Tripping _ fun _ => rfl, count_none (Owed 0) _ fun _ => rfl]
    rfl
  · rw [count_none (Tripper 0) _ fun _ => rfl]
    exact Nat.zero_le 1

variable {resets : Nat}

-- A thread that has not joined the round keeps the barrier from being filled.
theorem vacant (state : State size) (rounds : Rounds resets state) (thread : Fin size)
    (apart : Joined resets (state.locals thread) = false) : 1 ≤ state.currentBarrierVacancies := by
  have bound := count_le (Joined resets) state.locals
  have missing : count (Joined resets) state.locals ≠ Fintype.card (Fin size) := by
    intro full
    rw [(count_full _ _).mp full thread] at apart
    cases apart
  have vacancies := rounds.vacancies
  rw [Fintype.card_fin] at bound missing
  omega

theorem filled (state : State size) : isBarrierFilled state = true ↔ state.currentBarrierVacancies = 0 := by
  simp only [isBarrierFilled, decide_eq_true_eq]
  omega

theorem filled_joined (state : State size) (rounds : Rounds resets state)
    (zero : state.currentBarrierVacancies = 0) (thread : Fin size) :
    Joined resets (state.locals thread) = true := by
  by_contra apart
  have positive := vacant state rounds thread (Bool.eq_false_iff.mpr apart)
  omega

/-- A step of one thread within a round: it suffices to look at that thread and
at what the others see of the vacancies. -/
theorem moved_rounds (before after : State size) (thread : Fin size) (own : Local)
    (rounds : Rounds resets before)
    (locals : after.locals = Function.update before.locals thread own)
    (others : ∀ other, other ≠ thread →
      Placed resets after.currentBarrierVacancies (before.locals other))
    (placed : Placed resets after.currentBarrierVacancies own)
    (vacancies : after.currentBarrierVacancies + (Joined resets own).toNat =
      before.currentBarrierVacancies + (Joined resets (before.locals thread)).toNat)
    (mutex : after.criticalSection + (Inside own).toNat =
      before.criticalSection + (Inside (before.locals thread)).toNat)
    (permits : after.isBarrierFull + (size - 1) * (Tripping own).toNat + (Owed resets (before.locals thread)).toNat =
      before.isBarrierFull + (size - 1) * (Tripping (before.locals thread)).toNat + (Owed resets own).toNat)
    (single : Tripper resets own = true → Tripper resets (before.locals thread) = true ∨
      ∀ other, Tripper resets (before.locals other) = false) :
    Rounds resets after := by
  have changed : ∀ test : Local → Bool, count test after.locals + (test (before.locals thread)).toNat =
      count test before.locals + (test own).toNat := by
    intro test
    rw [locals]
    exact count_update test before.locals thread own
  refine ⟨fun other => ?_, ?_, ?_, ?_, ?_⟩
  · rw [locals]
    by_cases self : other = thread
    · rw [self, Function.update_self]
      exact placed
    · rw [Function.update_of_ne self]
      exact others other self
  · have joined := changed (Joined resets)
    have earlier := rounds.vacancies
    omega
  · have inside := changed Inside
    have earlier := rounds.mutex
    omega
  · have tripping := congrArg ((size - 1) * ·) (changed Tripping)
    have owed := changed (Owed resets)
    have earlier := rounds.permits
    simp only [Nat.mul_add] at tripping
    omega
  · have trippers := changed (Tripper resets)
    have earlier := rounds.single
    cases new : Tripper resets own with
    | false =>
        rw [new] at trippers
        simp only [Bool.toNat_false] at trippers
        omega
    | true =>
        rcases single new with old | alone
        · rw [new, old] at trippers
          omega
        · have bound := Bool.toNat_le (Tripper resets own)
          have empty := count_none (Tripper resets) before.locals alone
          omega

-- What the tests say at a point is read off its own definition.
attribute [local simp] Joined Inside Tripping Tripper Owed Point.inside Point.unserved Point.tripper

theorem call_rounds (state : State size) (thread : Fin size) (rounds : Rounds resets state)
    (at_ : (state.locals thread).point = .outside) : Rounds resets (beginCall thread state) := by
  have here := rounds.placed thread
  simp only [Placed, at_] at here
  refine moved_rounds state _ thread _ rounds rfl (fun other _ => rounds.placed other) ?_ ?_ ?_ ?_ ?_
  · simp [Placed, here]
  · simp [beginCall, setLocal, at_]
  · simp [beginCall, setLocal, at_]
  · simp [beginCall, setLocal, at_]
  · simp

theorem acquire_rounds (state : State size) (thread : Fin size) (rounds : Rounds resets state)
    (at_ : (state.locals thread).point = .acquiring) (open_ : state.criticalSection ≠ 0) :
    Rounds resets (goto thread .reading { state with criticalSection := state.criticalSection - 1 }) := by
  have here := rounds.placed thread
  simp only [Placed, at_] at here
  refine moved_rounds state _ thread _ rounds rfl (fun other _ => rounds.placed other) ?_ ?_ ?_ ?_ ?_
  · simp [Placed, here]
  · simp [goto, setLocal, at_]
  · simp [goto, setLocal, at_]
    omega
  · simp [goto, setLocal, at_]
  · simp

theorem read_rounds (state : State size) (thread : Fin size) (rounds : Rounds resets state)
    (at_ : (state.locals thread).point = .reading) :
    Rounds resets (goto thread (.writing state.currentBarrierVacancies) state) := by
  have here := rounds.placed thread
  simp only [Placed, at_] at here
  refine moved_rounds state _ thread _ rounds rfl (fun other _ => rounds.placed other) ?_ ?_ ?_ ?_ ?_
  · exact ⟨here, rfl⟩
  · simp [goto, setLocal, at_]
  · simp [goto, setLocal, at_]
  · simp [goto, setLocal, at_]
  · simp

-- The writer holds the mutex, so nobody else is between read and write, and it
-- has not joined yet, so nobody has found the barrier filled.
theorem write_rounds (state : State size) (thread : Fin size) (seen : Int)
    (rounds : Rounds resets state) (at_ : (state.locals thread).point = .writing seen) :
    Rounds resets (goto thread .releasing { state with currentBarrierVacancies := seen - 1 }) := by
  have here := rounds.placed thread
  simp only [Placed, at_] at here
  obtain ⟨called, rfl⟩ := here
  have open_ := vacant state rounds thread (by simp [at_])
  have alone : count Inside state.locals ≤ 1 := by
    have mutex := rounds.mutex
    omega
  refine moved_rounds state _ thread _ rounds rfl (fun other apart => ?_) ?_ ?_ ?_ ?_ ?_
  · have placed := rounds.placed other
    unfold Placed at placed ⊢
    cases where_ : (state.locals other).point with
    | writing also =>
        exact absurd (count_single Inside _ thread other alone (by simp [at_]) (by simp [where_]))
          (Ne.symm apart)
    | retesting =>
        simp only [where_] at placed
        exact placed.imp_right fun joined => by omega
    | resetting =>
        simp only [where_] at placed
        omega
    | outside | acquiring | reading | releasing | testing | sleeping | tripping | returning =>
        simpa only [where_] using placed
  · exact Or.inr called
  · simp [goto, setLocal, at_, called]
  · simp [goto, setLocal, at_]
  · simp [goto, setLocal, at_, called]
  · simp

theorem release_rounds (state : State size) (thread : Fin size) (rounds : Rounds resets state)
    (at_ : (state.locals thread).point = .releasing) :
    Rounds resets (goto thread .testing { state with criticalSection := state.criticalSection + 1 }) := by
  have here := rounds.placed thread
  simp only [Placed, at_] at here
  refine moved_rounds state _ thread _ rounds rfl (fun other _ => rounds.placed other) ?_ ?_ ?_ ?_ ?_
  · simpa [Placed] using here
  · simp [goto, setLocal, at_]
  · simp [goto, setLocal, at_]
  · simp [goto, setLocal, at_]
  · simp

theorem test_rounds (state : State size) (thread : Fin size) (rounds : Rounds resets state)
    (at_ : (state.locals thread).point = .testing) (orderly : Orderly state thread) :
    Rounds resets (goto thread (if isBarrierFilled state then .retesting else .sleeping) state) := by
  have here := rounds.placed thread
  simp only [Placed, at_] at here
  split
  · rename_i full
    have zero := (filled state).mp full
    have joined := filled_joined state rounds zero thread
    have called : (state.locals thread).called = resets + 1 := by
      simp only [Joined, Bool.and_eq_true, decide_eq_true_eq] at joined
      exact joined.1
    refine moved_rounds state _ thread _ rounds rfl (fun other _ => rounds.placed other) ?_ ?_ ?_ ?_ ?_
    · exact Or.inr ⟨called, zero⟩
    · simp [goto, setLocal, at_]
    · simp [goto, setLocal, at_]
    · simp [goto, setLocal, at_, called]
    · intro _
      refine Or.inr fun other => ?_
      rw [Tripper, orderly.1 at_ full other, Bool.and_false]
  · refine moved_rounds state _ thread _ rounds rfl (fun other _ => rounds.placed other) ?_ ?_ ?_ ?_ ?_
    · simpa [Placed] using here
    · simp [goto, setLocal, at_]
    · simp [goto, setLocal, at_]
    · simp [goto, setLocal, at_]
    · simp

-- A permit that is there is owed to a call of the last round, and the discipline
-- gives it to one.
theorem take_rounds (state : State size) (thread : Fin size) (rounds : Rounds resets state)
    (at_ : (state.locals thread).point = .sleeping) (permit : state.isBarrierFull ≠ 0)
    (orderly : Orderly state thread) :
    Rounds resets (goto thread .retesting { state with isBarrierFull := state.isBarrierFull - 1 }) := by
  have here := rounds.placed thread
  simp only [Placed, at_] at here
  have called : (state.locals thread).called = resets := by
    rcases here with old | ahead
    · exact old
    · exfalso
      have permits := rounds.permits
      obtain ⟨other, owed⟩ := count_exists (Owed resets) state.locals (by omega)
      simp only [Owed, Bool.and_eq_true, decide_eq_true_eq] at owed
      have served := orderly.2 at_ other (by omega)
      rw [served] at owed
      exact absurd owed.2 Bool.false_ne_true
  refine moved_rounds state _ thread _ rounds rfl (fun other _ => rounds.placed other) ?_ ?_ ?_ ?_ ?_
  · exact Or.inl called
  · simp [goto, setLocal, at_, called]
  · simp [goto, setLocal, at_]
  · simp [goto, setLocal, at_, called]
    omega
  · simp [called]

theorem retest_rounds (state : State size) (thread : Fin size) (rounds : Rounds resets state)
    (at_ : (state.locals thread).point = .retesting) :
    Rounds resets (goto thread (if isBarrierFilled state then .resetting else .returning) state) := by
  have here := rounds.placed thread
  simp only [Placed, at_] at here
  split
  · rename_i full
    have zero := (filled state).mp full
    have joined := filled_joined state rounds zero thread
    have called : (state.locals thread).called = resets + 1 := by
      simp only [Joined, Bool.and_eq_true, decide_eq_true_eq] at joined
      exact joined.1
    refine moved_rounds state _ thread _ rounds rfl (fun other _ => rounds.placed other) ?_ ?_ ?_ ?_ ?_
    · exact ⟨called, zero⟩
    · simp [goto, setLocal, at_]
    · simp [goto, setLocal, at_]
    · simp [goto, setLocal, at_]
    · exact fun _ => Or.inl (by simp [at_, called])
  · rename_i open_
    have called : (state.locals thread).called = resets := by
      rcases here with old | ⟨_, zero⟩
      · exact old
      · exact absurd ((filled state).mpr zero) open_
    refine moved_rounds state _ thread _ rounds rfl (fun other _ => rounds.placed other) ?_ ?_ ?_ ?_ ?_
    · exact called
    · simp [goto, setLocal, at_, called]
    · simp [goto, setLocal, at_]
    · simp [goto, setLocal, at_]
    · simp

theorem trip_rounds (state : State size) (thread : Fin size) (rounds : Rounds resets state)
    (at_ : (state.locals thread).point = .tripping) :
    Rounds resets (goto thread .returning
      { state with isBarrierFull := state.isBarrierFull + (size - 1) }) := by
  have here := rounds.placed thread
  simp only [Placed, at_] at here
  refine moved_rounds state _ thread _ rounds rfl (fun other _ => rounds.placed other) ?_ ?_ ?_ ?_ ?_
  · exact here
  · simp [goto, setLocal, at_]
  · simp [goto, setLocal, at_]
  · simp [goto, setLocal, at_]
  · simp

theorem return_rounds (state : State size) (thread : Fin size) (rounds : Rounds resets state)
    (at_ : (state.locals thread).point = .returning) : Rounds resets (returnValue thread state) := by
  have here := rounds.placed thread
  simp only [Placed, at_] at here
  refine moved_rounds state _ thread _ rounds rfl (fun other _ => rounds.placed other) ?_ ?_ ?_ ?_ ?_
  · exact here
  · simp [returnValue, setLocal, at_]
  · simp [returnValue, setLocal, at_]
  · simp [returnValue, setLocal, at_]
  · simp

-- Everybody has joined and nobody else is about to reset: the round is over, and
-- everybody but the tripper is owed a permit.
theorem reset_rounds (state : State size) (thread : Fin size) (rounds : Rounds resets state)
    (at_ : (state.locals thread).point = .resetting) :
    Rounds (resets + 1) (goto thread .tripping { state with currentBarrierVacancies := size }) := by
  have here := rounds.placed thread
  simp only [Placed, at_] at here
  obtain ⟨called, zero⟩ := here
  have others : ∀ other, other ≠ thread →
      (state.locals other).called = resets + 1 ∧ (state.locals other).point.unserved = true := by
    intro other apart
    have joined := filled_joined state rounds zero other
    simp only [Joined, Bool.and_eq_true, decide_eq_true_eq, Bool.or_eq_true] at joined
    refine ⟨joined.1, joined.2.resolve_right fun tripper => ?_⟩
    have same := count_single (Tripper resets) _ thread other rounds.single (by simp [at_, called])
      (by simp only [Tripper, joined.1, tripper, decide_true, Bool.and_self])
    exact apart same.symm
  have everywhere : ∀ other, (state.locals other).called = resets + 1 := by
    intro other
    by_cases self : other = thread
    · exact self ▸ called
    · exact (others other self).1
  have after : ∀ other, ((goto thread .tripping state).locals other).called = resets + 1 := by
    intro other
    by_cases self : other = thread
    · simp [goto, setLocal, self, called]
    · simp [goto, setLocal, Function.update_of_ne self, everywhere other]
  have changed := fun test => count_update test state.locals thread
    { state.locals thread with point := .tripping }
  refine ⟨fun other => ?_, ?_, ?_, ?_, ?_⟩
  · by_cases self : other = thread
    · subst self
      simpa [Placed, goto, setLocal] using called
    · obtain ⟨joined, unserved⟩ := others other self
      simp only [goto, setLocal, Function.update_of_ne self, Placed]
      cases where_ : (state.locals other).point with
      | releasing | testing | sleeping => exact Or.inl joined
      | outside | acquiring | reading | writing | retesting | resetting | tripping | returning =>
          rw [where_] at unserved
          cases unserved
  · have fresh : count (Joined (resets + 1)) (goto thread .tripping state).locals = 0 :=
      count_none _ _ fun other => by simp [after other]
    simp only [goto, setLocal] at fresh ⊢
    omega
  · have inside := changed Inside
    have mutex := rounds.mutex
    simp only [Inside, Point.inside, at_, Bool.toNat_false, Nat.add_zero] at inside
    simp only [goto, setLocal]
    omega
  · have settled : count (Owed resets) state.locals = 0 :=
      count_none _ _ fun other => by simp [everywhere other]
    have quiet : count Tripping state.locals = 0 := by
      refine count_none _ _ fun other => ?_
      by_cases self : other = thread
      · simp [self, at_]
      · have unserved := (others other self).2
        cases where_ : (state.locals other).point <;> simp_all
    have owed : count (Owed (resets + 1)) (goto thread .tripping state).locals = size - 1 := by
      have all := count_others (Owed (resets + 1)) (goto thread .tripping state).locals thread
        (by simp [goto, setLocal]) fun other apart => by
          simp only [goto, setLocal, Function.update_of_ne apart, Owed, (others other apart).1,
            (others other apart).2, decide_true, Bool.and_self]
      rw [all, Fintype.card_fin]
    have tripping := changed Tripping
    have permits := rounds.permits
    rw [quiet, settled] at permits
    simp only [Tripping, at_, quiet, decide_true, reduceCtorEq, decide_false, Bool.toNat_false,
      Bool.toNat_true, Nat.add_zero, Nat.zero_add] at tripping
    simp only [goto, setLocal] at owed ⊢
    rw [owed, show count Tripping _ = 1 from tripping]
    omega
  · have fresh : count (Tripper (resets + 1)) (goto thread .tripping state).locals = 0 :=
      count_none _ _ fun other => by simp [after other]
    simp only [goto, setLocal] at fresh ⊢
    omega

/-- One operation of a thread keeps the rounds, or it is a reset and starts the
next one. -/
theorem step_rounds (before after : State size) (thread : Fin size) (rounds : Rounds resets before)
    (orderly : Orderly before thread) (taken : step before thread = some after) :
    ∃ resets, Rounds resets after := by
  cases step_stepped before after thread taken with
  | called at_ => exact ⟨resets, call_rounds before thread rounds at_⟩
  | acquired at_ open_ => exact ⟨resets, acquire_rounds before thread rounds at_ open_⟩
  | read at_ => exact ⟨resets, read_rounds before thread rounds at_⟩
  | wrote seen at_ => exact ⟨resets, write_rounds before thread seen rounds at_⟩
  | released at_ => exact ⟨resets, release_rounds before thread rounds at_⟩
  | tested at_ => exact ⟨resets, test_rounds before thread rounds at_ orderly⟩
  | took at_ permit => exact ⟨resets, take_rounds before thread rounds at_ permit orderly⟩
  | retested at_ => exact ⟨resets, retest_rounds before thread rounds at_⟩
  | refilled at_ => exact ⟨resets + 1, reset_rounds before thread rounds at_⟩
  | tripped at_ => exact ⟨resets, trip_rounds before thread rounds at_⟩
  | returned at_ => exact ⟨resets, return_rounds before thread rounds at_⟩

end Rounds

section Runs

/-- A thread has returned from all its calls but the one it is in. -/
def Paired (own : Local) : Prop :=
  own.called = own.returned.length + if own.point = .outside then 0 else 1

-- Only the stepping thread changes, and it stays paired.
theorem step_local (before after : State size) (thread : Fin size)
    (paired : Paired (before.locals thread)) (taken : step before thread = some after) :
    ∃ own, after.locals = Function.update before.locals thread own ∧ Paired own := by
  unfold Paired at paired
  cases step_stepped before after thread taken with
  | called at_ | acquired at_ | read at_ | wrote _ at_ | released at_ | took at_ | refilled at_
    | tripped at_ | returned at_ =>
      refine ⟨_, rfl, ?_⟩
      simp only [at_, reduceCtorEq, ↓reduceIte] at paired
      simp [Paired, paired]
  | tested at_ | retested at_ =>
      refine ⟨_, rfl, ?_⟩
      simp only [at_, reduceCtorEq, ↓reduceIte] at paired
      split <;> simp [Paired, paired]

theorem step_paired (before after : State size) (thread : Fin size)
    (paired : ∀ other, Paired (before.locals other)) (taken : step before thread = some after)
    (other : Fin size) : Paired (after.locals other) := by
  obtain ⟨own, locals, kept⟩ := step_local before after thread (paired thread) taken
  rw [locals]
  by_cases self : other = thread
  · rw [self, Function.update_self]
    exact kept
  · rw [Function.update_of_ne self]
    exact paired other

-- A call in which a thread has returned is one of the rounds that are over, and
-- every thread has begun as many calls as there are rounds over.
theorem returned_resets (state : State size) (resets : Nat) (rounds : Rounds resets state)
    (thread : Fin size) (paired : Paired (state.locals thread)) :
    (state.locals thread).returned.length ≤ resets := by
  have placed := rounds.placed thread
  unfold Paired at paired
  unfold Placed at placed
  cases at_ : (state.locals thread).point <;> simp only [at_, reduceCtorEq, ↓reduceIte] at placed paired <;>
    omega

theorem resets_called (state : State size) (resets : Nat) (rounds : Rounds resets state)
    (thread : Fin size) : resets ≤ (state.locals thread).called := by
  have placed := rounds.placed thread
  unfold Placed at placed
  cases at_ : (state.locals thread).point <;> simp only [at_] at placed <;> omega

theorem rounds_apart (state : State size) (reached : Reachable step Orderly initial state)
    (early late : Fin size) :
    (state.locals early).returned.length ≤ (state.locals late).called := by
  obtain ⟨⟨resets, rounds⟩, paired⟩ := reachable_invariant
    (fun state => (∃ resets, Rounds resets state) ∧ ∀ thread, Paired (state.locals thread))
    ⟨⟨0, initial_rounds⟩, fun _ => by simp [Paired, initial]⟩
    (fun before thread after ⟨⟨resets, rounds⟩, paired⟩ orderly taken =>
      ⟨step_rounds before after thread rounds orderly taken,
        step_paired before after thread paired taken⟩) reached
  exact (returned_resets state resets rounds early (paired early)).trans
    (resets_called state resets rounds late)

def joinRound (thread : Fin size) : List (Fin size) := List.replicate 6 thread

-- Two whole rounds of two threads.
def twoRounds : List (Fin 2) :=
  joinRound 0 ++ joinRound 1 ++ List.replicate 4 1 ++ List.replicate 3 0 ++
    joinRound 1 ++ joinRound 0 ++ List.replicate 4 0 ++ List.replicate 3 1

theorem rounds_apart_two :
    ∃ state, replay step Orderly (initial : State 2) twoRounds = some state ∧
      (state.locals 1).returned.length ≤ (state.locals 0).called := by
  obtain ⟨state, played⟩ := Option.isSome_iff_exists.mp
    (show (replay step Orderly (initial : State 2) twoRounds).isSome = true by decide +kernel)
  exact ⟨state, played, rounds_apart state (replayed _ _ played) 1 0⟩

-- Thread 1 trips the barrier, enters again and takes the permit that it has just
-- released for thread 0, which still sleeps in its first call.
def stolenPermit : List (Fin 2) :=
  joinRound 0 ++ joinRound 1 ++ List.replicate 4 1 ++ joinRound 1 ++ List.replicate 3 1

theorem round_overtaken :
    ¬ ∀ state : State 2, Reachable step (fun _ _ => True) initial state → ∀ early late,
      (state.locals early).returned.length ≤ (state.locals late).called := by
  intro apart
  have overtaken : ((replay step (fun _ _ => True) (initial : State 2) stolenPermit).any fun state =>
      (state.locals 0).called < (state.locals 1).returned.length) = true := by decide +kernel
  obtain ⟨state, played, late⟩ := (Option.any_eq_true _ _).mp overtaken
  exact absurd (apart state (replayed _ _ played) 1 0) (Nat.not_le.mpr (of_decide_eq_true late))

-- Both threads decrement before either tests, so both find the barrier filled;
-- the one that resets it releases a permit that the other does not need.
def spareThread : List (Fin 2) :=
  List.replicate 5 0 ++ List.replicate 5 1 ++ [0, 1] ++ List.replicate 4 0 ++ List.replicate 2 1

end Runs

end EE360P.SemaphoreBarrier
