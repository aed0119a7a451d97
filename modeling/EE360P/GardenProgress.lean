import Mathlib.Data.Fintype.Basic
import EE360P.JavaText
import EE360P.GuardedRuns
import EE360P.Garden
import EE360P.GardenOrder

/-! When a worker never begins to wait for what has happened in the meantime,
every sleeper misses a credit that somebody is still going to signal, and the
four stocks cannot all be empty. -/

namespace EE360P.GardenProgress
open JavaText GuardedRuns Garden GardenOrder

/-- A worker that begins to wait would still find its guard true. -/
def prompt (counting : Counting) (state : State) (worker : Worker) : Bool :=
  match state.point worker with
  | .awaiting condition =>
      mustWait counting condition (state.counter (firstCounter condition))
        (state.counter (secondCounter condition))
  | _ => true

/-- The signal of a condition is still to be sent. -/
def Promised (condition : Condition) : Point → Bool
  | .signalling next => next = condition || (next = .fourUnseeded && condition = .oneUnfilled)
  | _ => false

def Missing (state : State) : Prop :=
  ∀ condition, state.point (waiter condition) = .asleep condition false →
    credit state.total condition = 0 ∨ Promised condition (state.point (signaller condition)) = true

section Steps
variable {counting : Counting}

theorem moved_missing (before after : State) (worker : Worker) (point : Point)
    (missing : Missing before) (moved : after.point = Function.update before.point worker point)
    (sameTotal : after.total = before.total)
    (asleep : ∀ condition, point = .asleep condition false → credit before.total condition = 0)
    (promised : ∀ condition, signaller condition = worker →
      Promised condition (before.point worker) = true →
        before.point (waiter condition) = .asleep condition false →
        Promised condition point = true) :
    Missing after := by
  intro condition
  rw [moved, sameTotal]
  have apart := waiter_signaller condition
  by_cases self : waiter condition = worker
  · rw [self, Function.update_self]
    exact fun sleeps => Or.inl (asleep condition sleeps)
  · rw [Function.update_of_ne self]
    intro sleeps
    rcases missing condition sleeps with empty | promise
    · exact Or.inl empty
    · refine Or.inr ?_
      by_cases mine : signaller condition = worker
      · rw [mine, Function.update_self]
        exact promised condition mine (mine ▸ promise) sleeps
      · rwa [Function.update_of_ne mine]

theorem initial_missing : Missing initial := by
  intro condition
  cases condition <;> simp [initial, start, waiter]

theorem empty_stock (state : State) (condition : Condition) (credited : Credited counting state)
    (waits : mustWait counting condition (state.counter (firstCounter condition))
      (state.counter (secondCounter condition)) = true) : credit state.total condition = 0 := by
  rw [credited.counted, credited.counted] at waits
  exact (mustWait_gap counting condition _ _ (credited.ordered condition)
    (credit_bounded state.total credited.ordered condition)).mp waits

-- An increment promises every signal of its worker; the stocks of the others stay.
theorem write_missing (state : State) (worker : Worker) (seen : Int) (missing : Missing state) :
    Missing (goto worker (.signalling (firstSignal worker))
      (increment counting (ownCounter worker) seen state)) := by
  intro condition
  simp only [goto, increment]
  by_cases self : waiter condition = worker
  · rw [self, Function.update_self]
    exact fun sleeps => absurd sleeps (by simp)
  · rw [Function.update_of_ne self]
    intro sleeps
    by_cases mine : signaller condition = worker
    · subst mine
      refine Or.inr ?_
      rw [Function.update_self]
      cases condition <;> decide
    · rw [Function.update_of_ne mine]
      have changed := credit_finished state.total worker condition
      simp only [finished, self, mine, ↓reduceIte, Int.add_zero, Int.sub_zero] at changed
      rw [changed]
      exact missing condition sleeps

-- The signalled sleeper is awake; the other promise of Benjamin is kept next.
theorem signal_missing (state : State) (worker : Worker) (condition : Condition)
    (missing : Missing state) (at_ : state.point worker = .signalling condition)
    (own : signaller condition = worker) :
    Missing (goto worker (signalled condition) (signal condition state)) := by
  have apart : worker ≠ waiter condition := own ▸ (waiter_signaller condition).symm
  have here : (signal condition state).point worker = .signalling condition := by
    rw [signal_other condition state worker apart, at_]
  have woken : ∀ other, (signal condition state).point (waiter other) = .asleep other false →
      other ≠ condition ∧ state.point (waiter other) = .asleep other false := by
    intro other sleeps
    unfold signal at sleeps
    split at sleeps
    · rename_i asleep
      by_cases same : waiter other = waiter condition
      · simp [goto, same] at sleeps
      · simp only [goto, Function.update_of_ne same] at sleeps
        exact ⟨fun equal => same (equal ▸ rfl), sleeps⟩
    · rename_i awake
      exact ⟨fun equal => awake (equal ▸ sleeps), sleeps⟩
  have kept : Missing (signal condition state) := by
    unfold signal
    split
    · rename_i asleep
      refine moved_missing state _ (waiter condition) _ missing rfl rfl (by simp) ?_
      intro other _ promise
      rw [asleep] at promise
      cases promise
    · exact missing
  refine moved_missing _ _ worker _ kept rfl rfl ?_ ?_
  · cases condition <;> simp [signalled]
  · intro other _ promise sleeps
    rw [here] at promise
    obtain ⟨different, _⟩ := woken other sleeps
    cases condition <;> cases other <;> simp_all [Promised, signalled]

-- A worker that sends no signal next has promised nothing.
theorem plain_missing (before after : State) (worker : Worker) (point : Point)
    (missing : Missing before) (moved : after.point = Function.update before.point worker point)
    (sameTotal : after.total = before.total) (awake : ∀ condition, point ≠ .asleep condition false)
    (plain : ∀ condition, before.point worker ≠ .signalling condition) : Missing after := by
  refine moved_missing before after worker point missing moved sameTotal ?_ ?_
  · exact fun condition sleeps => absurd sleeps (awake condition)
  · intro condition _ promise
    cases at_ : before.point worker <;> simp [at_, Promised] at promise
    exact absurd at_ (plain _)

theorem step_missing (before after : State) (worker : Worker) (credited : Credited counting before)
    (missing : Missing before) (arranged : Arranged before)
    (waits : prompt counting before worker = true)
    (taken : step counting before worker = some after) : Missing after := by
  have own := arranged.own worker
  cases step_stepped counting before after worker taken with
  | read condition at_ =>
      exact plain_missing before _ worker _ missing rfl rfl (by simp) (by simp [at_])
  | compared condition first at_ =>
      refine plain_missing before _ worker _ missing rfl rfl (fun other => ?_) (by simp [at_])
      split
      · simp
      · exact plain_awake _ (passed_plain condition) other
  | awaited condition at_ =>
      simp only [prompt, at_] at waits
      refine moved_missing before _ worker _ missing rfl rfl ?_ (by simp [at_, Promised])
      intro other same
      simp only [Point.asleep.injEq, and_true] at same
      exact same ▸ empty_stock before condition credited waits
  | locked _ at_ | woke _ at_ | tookShovel at_ | worked at_ | doneLocked at_ | doneRead at_ =>
      exact plain_missing before _ worker _ missing rfl rfl (by simp) (by simp [at_])
  | unlocked condition at_ =>
      exact plain_missing before _ worker _ missing rfl rfl (plain_awake _ (passed_plain condition))
        (by simp [at_])
  | doneWrote seen at_ => exact write_missing before worker seen missing
  | signalled condition at_ =>
      rw [at_] at own
      exact signal_missing before worker condition missing at_ own
  | doneUnlocked at_ =>
      exact plain_missing before _ worker _ missing rfl rfl (plain_awake _ (unlocked_plain worker))
        (by simp [at_])
  | returnedShovel at_ =>
      exact plain_missing before _ worker _ missing rfl rfl (plain_awake _ (start_plain worker))
        (by simp [at_])

end Steps

/-! A worker that cannot move sleeps unsignalled, or it stands at a lock that
another worker holds; the holder of a lock can move. -/
section Blocked
variable {counting : Counting}

theorem blocked_point (state : State) (worker : Worker)
    (stuck : step counting state worker = none) :
    (∃ condition, state.point worker = .asleep condition false) ∨
      (state.sequencer ≠ none ∧ (state.point worker).sequencing = false) ∨
      (state.shovel ≠ none ∧ state.point worker = .takingShovel) := by
  unfold step at stuck
  cases at_ : state.point worker with
  | locking | doneLocking =>
      simp only [at_, ite_eq_right_iff, reduceCtorEq, imp_false] at stuck
      exact Or.inr (Or.inl ⟨stuck, rfl⟩)
  | asleep condition woken =>
      simp only [at_, ite_eq_right_iff, reduceCtorEq, imp_false, not_and] at stuck
      cases woken with
      | false => exact Or.inl ⟨condition, rfl⟩
      | true => exact Or.inr (Or.inl ⟨stuck rfl, rfl⟩)
  | takingShovel =>
      simp only [at_, ite_eq_right_iff, reduceCtorEq, imp_false] at stuck
      exact Or.inr (Or.inr ⟨stuck, rfl⟩)
  | reading | comparing | awaiting | unlocking | working | doneReading | doneWriting | signalling
  | doneUnlocking | returningShovel => simp [at_] at stuck

theorem sequencer_free (state : State) (arranged : Arranged state)
    (stuck : ∀ worker, step counting state worker = none) : state.sequencer = none := by
  cases held : state.sequencer with
  | none => rfl
  | some holder =>
      have inside := (arranged.sequenced holder).mpr held
      rcases blocked_point state holder (stuck holder) with ⟨condition, at_⟩ | ⟨_, outside⟩ | ⟨_, at_⟩
      · simp [at_, Point.sequencing] at inside
      · simp [outside] at inside
      · simp [at_, Point.sequencing] at inside

theorem shovel_free (state : State) (arranged : Arranged state)
    (stuck : ∀ worker, step counting state worker = none) : state.shovel = none := by
  have free := sequencer_free state arranged stuck
  cases held : state.shovel with
  | none => rfl
  | some holder =>
      have inside := (arranged.shovelled holder).mpr held
      rcases blocked_point state holder (stuck holder) with ⟨condition, at_⟩ | ⟨taken, _⟩ | ⟨_, at_⟩
      · simp [at_, shovelling, Point.busy] at inside
      · exact absurd free taken
      · simp [at_, shovelling, Point.busy] at inside

-- Everybody asleep: four unseeded or eight unfilled holes, and none to seed or fill.
theorem some_step (state : State) (arranged : Arranged state) (missing : Missing state)
    : ∃ worker, (step counting state worker).isSome = true := by
  by_contra none_
  have stuck : ∀ worker, step counting state worker = none := by
    intro worker
    by_contra moves
    exact none_ ⟨worker, Option.isSome_iff_ne_none.mpr moves⟩
  have asleep : ∀ worker, ∃ condition, state.point worker = .asleep condition false := by
    intro worker
    rcases blocked_point state worker (stuck worker) with sleeps | ⟨taken, _⟩ | ⟨taken, _⟩
    · exact sleeps
    · exact absurd (sequencer_free state arranged stuck) taken
    · exact absurd (shovel_free state arranged stuck) taken
  have empty : ∀ condition, state.point (waiter condition) = .asleep condition false →
      credit state.total condition = 0 := by
    intro condition sleeps
    obtain ⟨other, at_⟩ := asleep (signaller condition)
    rcases missing condition sleeps with none_left | promise
    · exact none_left
    · rw [at_] at promise
      cases promise
  have mine : ∀ worker condition, state.point worker = .asleep condition false →
      waiter condition = worker := by
    intro worker condition at_
    have own := arranged.own worker
    rwa [at_] at own
  obtain ⟨guard, newton⟩ := asleep .newton
  obtain ⟨seeds, benjamin⟩ := asleep .benjamin
  obtain ⟨fills, mary⟩ := asleep .mary
  have unseeded : credit state.total .oneUnseeded = 0 := by
    have own := mine _ _ benjamin
    cases seeds <;> simp [waiter] at own
    exact empty .oneUnseeded benjamin
  have unfilled : credit state.total .oneUnfilled = 0 := by
    have own := mine _ _ mary
    cases fills <;> simp [waiter] at own
    exact empty .oneUnfilled mary
  have limit : credit state.total .fourUnseeded = 0 ∨ credit state.total .eightUnfilled = 0 := by
    have own := mine _ _ newton
    cases guard <;> simp [waiter] at own
    · exact Or.inl (empty .fourUnseeded newton)
    · exact Or.inr (empty .eightUnfilled newton)
  simp only [credit, gap, firstCounter, secondCounter] at unseeded unfilled limit
  omega

end Blocked

section Runs

/-- In every run in which no worker begins to wait after its guard has become
false, somebody can always move. -/
theorem never_stuck (counting : Counting) (state : State)
    (reached : Reachable (step counting) (fun state worker => prompt counting state worker = true)
      initial state) : ∃ worker, (step counting state worker).isSome = true := by
  have ⟨kept, missing⟩ := reachable_invariant (fun state => Kept counting state ∧ Missing state)
    ⟨initial_kept counting, initial_missing⟩
    (fun before worker after ⟨kept, missing⟩ waits taken =>
      ⟨step_kept counting before after worker kept taken,
        step_missing before after worker kept.credited missing kept.arranged waits taken⟩) reached
  exact some_step state kept.arranged missing

-- Benjamin and Mary fall asleep over an empty garden, and Newton goes to dig.
def emptyGarden : List Worker := List.replicate 4 .benjamin ++ List.replicate 4 .mary

theorem never_stuck_empty :
    ∃ state, replay (step .int32) (fun state worker => prompt .int32 state worker = true) initial
        emptyGarden = some state ∧
      ∃ worker, (step .int32 state worker).isSome = true := by
  obtain ⟨state, played⟩ := Option.isSome_iff_exists.mp
    (show (replay (step .int32) (fun state worker => prompt .int32 state worker = true) initial
      emptyGarden).isSome = true by decide +kernel)
  exact ⟨state, played, never_stuck .int32 state (replayed _ _ played)⟩

-- Newton has found four unseeded holes; before he waits, Benjamin seeds all of
-- them, and the four signals reach nobody.
def lostSignal : List Worker :=
  List.replicate (4 * 12 + 2) .newton ++ List.replicate (4 * 9 + 4) .benjamin ++
    List.replicate 2 .newton ++ List.replicate (4 * 10 + 4) .mary

theorem all_asleep :
    ¬ ∀ state, Reachable (step .int32) (fun _ _ => True) initial state →
      ∃ worker, (step .int32 state worker).isSome = true := by
  intro moves
  have blocked : ((replay (step .int32) (fun _ _ => True) initial lostSignal).any fun state =>
      decide (∀ worker, (step .int32 state worker).isSome = false)) = true := by decide +kernel
  obtain ⟨state, played, stuck⟩ := (Option.any_eq_true _ _).mp blocked
  obtain ⟨worker, moved⟩ := moves state (replayed _ _ played)
  rw [of_decide_eq_true stuck worker] at moved
  cases moved

end Runs

end EE360P.GardenProgress
