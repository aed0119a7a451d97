import EE360P.SemaphoreBarrier

/-! What is left of a `CyclicBarrier` when nobody uses it. The permits that are
there or about to be released are matched by the calls that wait for them, as
long as a single thread at a time finds the barrier filled; which thread takes
which permit does not matter here. -/

namespace EE360P.SemaphoreBarrier
open GuardedRuns

variable {size : Nat}

/-- A first test finds the barrier filled only while no other thread is about to
reset it. -/
def Solitary (state : State size) (thread : Fin size) : Prop :=
  (state.locals thread).point = .testing → isBarrierFilled state = true →
    ∀ other, (state.locals other).point.tripper = false

instance (state : State size) (thread : Fin size) : Decidable (Solitary state thread) :=
  inferInstanceAs (Decidable (_ → _))

section Counts
variable {Index Value : Type} [Fintype Index] [DecidableEq Index]

theorem count_both (left right : Value → Bool) (disjoint : ∀ value, left value = true → right value = false)
    (values : Index → Value) :
    count left values + count right values = count (fun value => left value || right value) values := by
  unfold count
  rw [← Finset.card_union_of_disjoint, ← Finset.filter_or]
  · simp only [Bool.or_eq_true]
  · refine Finset.disjoint_filter.mpr fun index _ first second => ?_
    rw [disjoint _ first] at second
    cases second

omit [DecidableEq Index] in
theorem count_missing (test : Value → Bool) (values : Index → Value) (index : Index)
    (apart : test (values index) = false) : count test values + 1 ≤ Fintype.card Index := by
  have less : count test values ≠ Fintype.card Index := by
    intro full
    rw [(count_full test values).mp full index] at apart
    cases apart
  have bound := count_le test values
  omega

end Counts

section Balance

def Waiting (own : Local) : Bool := own.point.unserved

def Trying (own : Local) : Bool := own.point.tripper

/-- The threads past their first test that have found the barrier filled. -/
def pending (vacancies : Int) (locals : Fin size → Local) : Nat :=
  if vacancies = 0 then count Trying locals else 0

theorem pending_vacant (vacancies : Int) (locals : Fin size → Local) (vacant : vacancies ≠ 0) :
    pending vacancies locals = 0 := if_neg vacant

/-- The permits that are there, and the ones that are about to be released. -/
def permits (state : State size) : Nat :=
  state.isBarrierFull + (size - 1) * count Tripping state.locals

def Settled (vacancies : Int) (own : Local) : Prop :=
  match own.point with
  | .writing seen => seen = vacancies
  | .resetting => vacancies = 0
  | _ => True

structure Balanced (state : State size) : Prop where
  settled : ∀ thread, Settled state.currentBarrierVacancies (state.locals thread)
  balance : state.currentBarrierVacancies + count Waiting state.locals +
    pending state.currentBarrierVacancies state.locals = size + permits state
  most : state.currentBarrierVacancies ≤ size
  mutex : state.criticalSection + count Inside state.locals = 1
  single : state.currentBarrierVacancies = 0 → count Trying state.locals ≤ 1

theorem initial_balanced : Balanced (initial : State size) := by
  refine ⟨fun _ => trivial, ?_, Int.le_refl _, ?_, fun _ => ?_⟩
  · have none : ∀ test : Local → Bool, (test ⟨0, [], .outside⟩) = false →
        count test (initial : State size).locals = 0 := fun test idle => count_none test _ fun _ => idle
    rw [pending, permits, none Waiting rfl, none Trying rfl, none Tripping rfl]
    simp [initial]
  · rw [count_none Inside _ fun _ => rfl]
    rfl
  · rw [count_none Trying _ fun _ => rfl]
    exact Nat.zero_le 1

theorem waiting_trying (locals : Fin size → Local) : count Waiting locals + count Trying locals ≤ size := by
  rw [count_both Waiting Trying]
  · exact (count_le _ locals).trans_eq (Fintype.card_fin size)
  · intro own
    unfold Waiting Trying
    cases own.point <;> simp [Point.unserved, Point.tripper]

theorem waiting_trying_missing (locals : Fin size → Local) (thread : Fin size)
    (idle : Waiting (locals thread) = false) (calm : Trying (locals thread) = false) :
    count Waiting locals + count Trying locals + 1 ≤ size := by
  rw [count_both Waiting Trying]
  · exact (count_missing _ locals thread (by simp [idle, calm])).trans_eq (Fintype.card_fin size)
  · intro own
    unfold Waiting Trying
    cases own.point <;> simp [Point.unserved, Point.tripper]

-- Nobody but the waiting threads and the one that is about to reset is left
-- when the barrier is filled, and no permit.
theorem filled_everybody (state : State size) (balanced : Balanced state)
    (zero : state.currentBarrierVacancies = 0) :
    permits state = 0 ∧ count Waiting state.locals + count Trying state.locals = size := by
  have balance := balanced.balance
  have bound := waiting_trying state.locals
  rw [pending, if_pos zero, zero] at balance
  omega

/-- A step that leaves the vacancies alone: it suffices to look at the thread
that makes it. -/
theorem moved_balanced (before after : State size) (thread : Fin size) (own : Local)
    (balanced : Balanced before) (locals : after.locals = Function.update before.locals thread own)
    (vacancies : after.currentBarrierVacancies = before.currentBarrierVacancies)
    (settled : Settled before.currentBarrierVacancies own)
    (permit : after.isBarrierFull + (size - 1) * (Tripping own).toNat +
        (Waiting (before.locals thread)).toNat +
        (if before.currentBarrierVacancies = 0 then (Trying (before.locals thread)).toNat else 0) =
      before.isBarrierFull + (size - 1) * (Tripping (before.locals thread)).toNat + (Waiting own).toNat +
        (if before.currentBarrierVacancies = 0 then (Trying own).toNat else 0))
    (mutex : after.criticalSection + (Inside own).toNat =
      before.criticalSection + (Inside (before.locals thread)).toNat)
    (single : before.currentBarrierVacancies = 0 → Trying own = true →
      Trying (before.locals thread) = true ∨ ∀ other, Trying (before.locals other) = false) :
    Balanced after := by
  have changed : ∀ test : Local → Bool, count test after.locals + (test (before.locals thread)).toNat =
      count test before.locals + (test own).toNat := by
    intro test
    rw [locals]
    exact count_update test before.locals thread own
  have waiting := changed Waiting
  have trying := changed Trying
  refine ⟨fun other => ?_, ?_, ?_, ?_, fun zero => ?_⟩
  · rw [locals, vacancies]
    by_cases self : other = thread
    · rw [self, Function.update_self]
      exact settled
    · rw [Function.update_of_ne self]
      exact balanced.settled other
  · have tripping := congrArg ((size - 1) * ·) (changed Tripping)
    have earlier := balanced.balance
    simp only [Nat.mul_add] at tripping
    rw [vacancies]
    unfold pending permits at earlier ⊢
    by_cases zero : before.currentBarrierVacancies = 0
    · simp only [zero, ↓reduceIte] at permit earlier ⊢
      omega
    · simp only [zero, ↓reduceIte] at permit earlier ⊢
      omega
  · exact vacancies ▸ balanced.most
  · have inside := changed Inside
    have earlier := balanced.mutex
    omega
  · rw [vacancies] at zero
    have earlier := balanced.single zero
    cases new : Trying own with
    | false =>
        rw [new] at trying
        simp only [Bool.toNat_false] at trying
        omega
    | true =>
        rcases single zero new with old | alone
        · rw [new, old] at trying
          omega
        · have bound := Bool.toNat_le (Trying own)
          have empty := count_none Trying before.locals alone
          omega

attribute [local simp] Waiting Trying Inside Tripping Point.inside Point.unserved Point.tripper

theorem call_balanced (state : State size) (thread : Fin size) (balanced : Balanced state)
    (at_ : (state.locals thread).point = .outside) : Balanced (beginCall thread state) := by
  refine moved_balanced state _ thread _ balanced rfl rfl ?_ ?_ ?_ ?_
  · simp [Settled]
  · simp [beginCall, setLocal, at_]
  · simp [beginCall, setLocal, at_]
  · simp

theorem acquire_balanced (state : State size) (thread : Fin size) (balanced : Balanced state)
    (at_ : (state.locals thread).point = .acquiring) (open_ : state.criticalSection ≠ 0) :
    Balanced (goto thread .reading { state with criticalSection := state.criticalSection - 1 }) := by
  refine moved_balanced state _ thread _ balanced rfl rfl ?_ ?_ ?_ ?_
  · simp [Settled]
  · simp [goto, setLocal, at_]
  · simp [goto, setLocal, at_]
    omega
  · simp

theorem read_balanced (state : State size) (thread : Fin size) (balanced : Balanced state)
    (at_ : (state.locals thread).point = .reading) :
    Balanced (goto thread (.writing state.currentBarrierVacancies) state) := by
  refine moved_balanced state _ thread _ balanced rfl rfl ?_ ?_ ?_ ?_
  · simp [Settled]
  · simp [goto, setLocal, at_]
  · simp [goto, setLocal, at_]
  · simp

-- The decrement that fills the barrier finds nobody who saw it filled before.
theorem write_vacant (state : State size) (thread : Fin size) (balanced : Balanced state)
    (idle : Waiting (state.locals thread) = false) (calm : Trying (state.locals thread) = false) :
    1 ≤ state.currentBarrierVacancies ∧
      (state.currentBarrierVacancies = 1 → count Trying state.locals = 0) := by
  have missing := waiting_trying_missing state.locals thread idle calm
  have balance := balanced.balance
  unfold pending at balance
  constructor
  · by_contra low
    split at balance <;> omega
  · intro last
    rw [if_neg (by omega)] at balance
    omega

theorem write_balanced (state : State size) (thread : Fin size) (seen : Int) (balanced : Balanced state)
    (at_ : (state.locals thread).point = .writing seen) :
    Balanced (goto thread .releasing { state with currentBarrierVacancies := seen - 1 }) := by
  have here := balanced.settled thread
  simp only [Settled, at_] at here
  subst here
  obtain ⟨vacant, calm⟩ := write_vacant state thread balanced (by simp [at_]) (by simp [at_])
  have changed : ∀ test : Local → Bool, _ := fun test =>
    count_update test state.locals thread { state.locals thread with point := .releasing }
  have balance := balanced.balance
  have alone := balanced.mutex
  constructor
  · intro other
    simp only [goto, setLocal]
    by_cases self : other = thread
    · rw [self, Function.update_self]
      trivial
    · rw [Function.update_of_ne self]
      have settled := balanced.settled other
      unfold Settled at settled ⊢
      cases where_ : (state.locals other).point with
      | writing also =>
          have single : count Inside state.locals ≤ 1 := by omega
          exact absurd (count_single Inside _ other thread single (by simp [where_]) (by simp [at_])) self
      | resetting =>
          simp only [where_] at settled
          omega
      | outside | acquiring | reading | releasing | testing | sleeping | retesting | tripping
        | returning => trivial
  · have waiting := changed Waiting
    have trying := changed Trying
    have tripping := changed Tripping
    simp only [Waiting, Trying, Tripping, Point.unserved, Point.tripper, at_, reduceCtorEq, decide_false,
      Bool.toNat_false, Bool.toNat_true, Nat.add_zero] at waiting trying tripping
    have later : pending (state.currentBarrierVacancies - 1) (Function.update state.locals thread
        { state.locals thread with point := .releasing }) = 0 := by
      unfold pending
      split
      · exact trying.trans (calm (by omega))
      · rfl
    rw [pending_vacant _ _ (by omega)] at balance
    simp only [goto, setLocal, permits] at balance ⊢
    rw [later, waiting, tripping]
    omega
  · have most := balanced.most
    simp only [goto, setLocal]
    omega
  · have inside := changed Inside
    simp only [Inside, Point.inside, at_] at inside
    simp only [goto, setLocal]
    omega
  · intro zero
    have trying := changed Trying
    simp only [goto, setLocal] at zero ⊢
    simp only [Trying, Point.tripper, at_, Bool.toNat_false] at trying
    have none := calm (by omega)
    omega

theorem release_balanced (state : State size) (thread : Fin size) (balanced : Balanced state)
    (at_ : (state.locals thread).point = .releasing) :
    Balanced (goto thread .testing { state with criticalSection := state.criticalSection + 1 }) := by
  refine moved_balanced state _ thread _ balanced rfl rfl ?_ ?_ ?_ ?_
  · simp [Settled]
  · simp [goto, setLocal, at_]
  · simp [goto, setLocal, at_]
  · simp

theorem test_balanced (state : State size) (thread : Fin size) (balanced : Balanced state)
    (at_ : (state.locals thread).point = .testing) (solitary : Solitary state thread) :
    Balanced (goto thread (if isBarrierFilled state then .retesting else .sleeping) state) := by
  cases full : isBarrierFilled state with
  | true =>
      have zero := (filled state).mp full
      refine moved_balanced state _ thread _ balanced rfl rfl ?_ ?_ ?_ ?_
      · simp [Settled]
      · simp [goto, setLocal, at_, zero]
      · simp [goto, setLocal, at_]
      · intro _ _
        exact .inr (solitary at_ full)
  | false =>
      refine moved_balanced state _ thread _ balanced rfl rfl ?_ ?_ ?_ ?_
      · simp [Settled]
      · simp [goto, setLocal, at_]
      · simp [goto, setLocal, at_]
      · simp

-- A permit that is there shows that the barrier is not filled.
theorem take_balanced (state : State size) (thread : Fin size) (balanced : Balanced state)
    (at_ : (state.locals thread).point = .sleeping) (permit : state.isBarrierFull ≠ 0) :
    Balanced (goto thread .retesting { state with isBarrierFull := state.isBarrierFull - 1 }) := by
  have vacant : state.currentBarrierVacancies ≠ 0 := by
    intro zero
    have none := (filled_everybody state balanced zero).1
    unfold permits at none
    omega
  refine moved_balanced state _ thread _ balanced rfl rfl ?_ ?_ ?_ ?_
  · simp [Settled]
  · simp [goto, setLocal, at_, vacant]
    omega
  · simp [goto, setLocal, at_]
  · intro zero
    exact absurd zero vacant

theorem retest_balanced (state : State size) (thread : Fin size) (balanced : Balanced state)
    (at_ : (state.locals thread).point = .retesting) :
    Balanced (goto thread (if isBarrierFilled state then .resetting else .returning) state) := by
  cases full : isBarrierFilled state with
  | true =>
      have zero := (filled state).mp full
      refine moved_balanced state _ thread _ balanced rfl rfl ?_ ?_ ?_ ?_
      · simp [Settled, zero]
      · simp [goto, setLocal, at_]
      · simp [goto, setLocal, at_]
      · simp [at_]
  | false =>
      have vacant : state.currentBarrierVacancies ≠ 0 := fun zero => by
        rw [(filled state).mpr zero] at full
        cases full
      refine moved_balanced state _ thread _ balanced rfl rfl ?_ ?_ ?_ ?_
      · simp [Settled]
      · simp [goto, setLocal, at_, vacant]
      · simp [goto, setLocal, at_]
      · simp

theorem reset_balanced (state : State size) (thread : Fin size) (balanced : Balanced state)
    (at_ : (state.locals thread).point = .resetting) :
    Balanced (goto thread .tripping { state with currentBarrierVacancies := size }) := by
  have zero := balanced.settled thread
  simp only [Settled, at_] at zero
  obtain ⟨spent, everybody⟩ := filled_everybody state balanced zero
  have single := balanced.single zero
  have some_ : 1 ≤ size := thread.pos
  have positive : 1 ≤ count Trying state.locals := by
    have split := count_split Trying state.locals thread
    simp only [Trying, Point.tripper, at_, Bool.toNat_true] at split
    omega
  have changed : ∀ test : Local → Bool, _ := fun test =>
    count_update test state.locals thread { state.locals thread with point := .tripping }
  constructor
  · intro other
    simp only [goto, setLocal]
    by_cases self : other = thread
    · rw [self, Function.update_self]
      trivial
    · rw [Function.update_of_ne self]
      unfold Settled
      cases where_ : (state.locals other).point with
      | writing seen =>
          have missing := waiting_trying_missing state.locals other (by simp [where_]) (by simp [where_])
          omega
      | resetting =>
          exact absurd (count_single Trying _ other thread single (by simp [where_]) (by simp [at_])) self
      | outside | acquiring | reading | releasing | testing | sleeping | retesting | tripping
        | returning => trivial
  · have waiting := changed Waiting
    have tripping := congrArg ((size - 1) * ·) (changed Tripping)
    simp only [Waiting, Tripping, Point.unserved, at_, reduceCtorEq, decide_false, decide_true,
      Bool.toNat_false, Bool.toNat_true, Nat.add_zero, Nat.mul_add, Nat.mul_one] at waiting tripping
    simp only [goto, setLocal, permits] at spent ⊢
    rw [pending_vacant _ _ (by omega), waiting, tripping]
    omega
  · exact Int.le_refl _
  · have inside := changed Inside
    have mutex := balanced.mutex
    simp only [Inside, Point.inside, at_] at inside
    simp only [goto, setLocal]
    omega
  · intro none
    simp only [goto, setLocal] at none
    omega

theorem trip_balanced (state : State size) (thread : Fin size) (balanced : Balanced state)
    (at_ : (state.locals thread).point = .tripping) :
    Balanced (goto thread .returning { state with isBarrierFull := state.isBarrierFull + (size - 1) }) := by
  refine moved_balanced state _ thread _ balanced rfl rfl ?_ ?_ ?_ ?_
  · simp [Settled]
  · simp [goto, setLocal, at_]
  · simp [goto, setLocal, at_]
  · simp

theorem return_balanced (state : State size) (thread : Fin size) (balanced : Balanced state)
    (at_ : (state.locals thread).point = .returning) : Balanced (returnValue thread state) := by
  refine moved_balanced state _ thread _ balanced rfl rfl ?_ ?_ ?_ ?_
  · simp [Settled]
  · simp [returnValue, setLocal, at_]
  · simp [returnValue, setLocal, at_]
  · simp

theorem step_balanced (before after : State size) (thread : Fin size) (balanced : Balanced before)
    (solitary : Solitary before thread) (taken : step before thread = some after) : Balanced after := by
  cases step_stepped before after thread taken with
  | called at_ => exact call_balanced before thread balanced at_
  | acquired at_ open_ => exact acquire_balanced before thread balanced at_ open_
  | read at_ => exact read_balanced before thread balanced at_
  | wrote seen at_ => exact write_balanced before thread seen balanced at_
  | released at_ => exact release_balanced before thread balanced at_
  | tested at_ => exact test_balanced before thread balanced at_ solitary
  | took at_ permit => exact take_balanced before thread balanced at_ permit
  | retested at_ => exact retest_balanced before thread balanced at_
  | refilled at_ => exact reset_balanced before thread balanced at_
  | tripped at_ => exact trip_balanced before thread balanced at_
  | returned at_ => exact return_balanced before thread balanced at_

end Balance

section Runs

theorem reachable_balanced (state : State size) (reached : Reachable step Solitary initial state) :
    Balanced state :=
  reachable_invariant Balanced initial_balanced
    (fun before thread after balanced solitary taken =>
      step_balanced before after thread balanced solitary taken) reached

/-- The barrier as its constructor left it. -/
def Restored (state : State size) : Prop :=
  state.currentBarrierVacancies = size ∧ state.isBarrierFull = 0 ∧ state.criticalSection = 1

instance (state : State size) : Decidable (Restored state) := inferInstanceAs (Decidable (_ ∧ _))

def Quiet (state : State size) : Prop :=
  (∀ thread, (state.locals thread).point = .outside) ∧
    ∀ left right, (state.locals left).called = (state.locals right).called

instance (state : State size) : Decidable (Quiet state) := inferInstanceAs (Decidable (_ ∧ _))

-- With nobody in a call the balance says that vacancies and permits move
-- together; the vacancies never exceed the size.
theorem barrier_restored (state : State size) (reached : Reachable step Solitary initial state)
    (quiet : Quiet state) : Restored state := by
  have balanced := reachable_balanced state reached
  have none : ∀ test : Local → Bool, (∀ own, own.point = .outside → test own = false) →
      count test state.locals = 0 :=
    fun test idle => count_none test _ fun thread => idle _ (quiet.1 thread)
  have waiting := none Waiting fun own at_ => by simp [Waiting, Point.unserved, at_]
  have trying := none Trying fun own at_ => by simp [Trying, Point.tripper, at_]
  have tripping := none Tripping fun own at_ => by simp [Tripping, at_]
  have inside := none Inside fun own at_ => by simp [Inside, Point.inside, at_]
  have balance := balanced.balance
  have most := balanced.most
  have mutex := balanced.mutex
  unfold pending permits at balance
  rw [waiting, trying, tripping, ite_self] at balance
  rw [inside] at mutex
  exact ⟨by omega, by omega, mutex⟩

theorem barrier_restored_two :
    ∃ state, replay step Solitary (initial : State 2) twoRounds = some state ∧ Restored state := by
  obtain ⟨state, played⟩ := Option.isSome_iff_exists.mp
    (show (replay step Solitary (initial : State 2) twoRounds).isSome = true by decide +kernel)
  have quiet : (replay step Solitary (initial : State 2) twoRounds).any (fun state => Quiet state) = true := by
    decide +kernel
  rw [played, Option.any_some, decide_eq_true_eq] at quiet
  exact ⟨state, played, barrier_restored state (replayed _ _ played) quiet⟩

theorem barrier_not_restored :
    ¬ ∀ state : State 2, Reachable step (fun _ _ => True) initial state → Quiet state → Restored state := by
  intro restored
  have spare : ((replay step (fun _ _ => True) (initial : State 2) spareThread).any fun state =>
      Quiet state ∧ ¬ Restored state) = true := by decide +kernel
  obtain ⟨state, played, kept⟩ := (Option.any_eq_true _ _).mp spare
  obtain ⟨quiet, left⟩ := of_decide_eq_true kept
  exact left (restored state (replayed _ _ played) quiet)

end Runs

end EE360P.SemaphoreBarrier
