import Mathlib.Data.Fintype.Basic
import EE360P.JavaText
import EE360P.GuardedRuns
import EE360P.Garden

/-! Who may change which counter while another worker is between its test and
its increment: the order of the three counters and the limits 4 and 8, with
exact and with 32-bit counters. -/

namespace EE360P.GardenOrder
open JavaText GuardedRuns Garden

/-! The stocks. A worker who is past the test or the `await` of a condition has a
credit of it in store, and nobody else can use that one up. -/
section Stocks

/-- Past the guard of a condition and before the increment that uses its credit. -/
def Cleared (condition : Condition) : Point → Bool
  | .asleep own true | .unlocking own =>
      own = condition || (own = .eightUnfilled && condition = .fourUnseeded)
  | .reading own | .comparing own _ | .locking own | .awaiting own | .asleep own false =>
      own = .eightUnfilled && condition = .fourUnseeded
  | .takingShovel | .working | .doneLocking | .doneReading | .doneWriting _ => true
  | .signalling _ | .doneUnlocking | .returningShovel => false

/-- The first value of a test is a count that the second one still fits. -/
def Compared (counting : Counting) (total : Counter → Nat) (condition : Condition) (first : Int) :
    Prop :=
  ∃ exact_ : Int, first = counting.wrap exact_ ∧
    0 ≤ gap condition exact_ (total (secondCounter condition)) ∧
    gap condition exact_ (total (secondCounter condition)) ≤ credit total condition

structure Credited (counting : Counting) (state : State) : Prop where
  counted : ∀ counter, state.counter counter = counting.wrap (state.total counter)
  ordered : Ordered state.total
  cleared : ∀ condition, Cleared condition (state.point (waiter condition)) = true →
    1 ≤ credit state.total condition
  produced : ∀ condition, state.point (waiter condition) = .asleep condition false →
    (state.point (signaller condition)).produced = true → 1 ≤ credit state.total condition
  compared : ∀ condition first, state.point (waiter condition) = .comparing condition first →
    Compared counting state.total condition first
  written : ∀ worker seen, state.point worker = .doneWriting seen →
    seen = state.counter (ownCounter worker)

variable {counting : Counting}

theorem initial_credited : Credited counting initial := by
  refine ⟨fun _ => ?_, fun condition => ?_, fun condition => ?_, fun condition => ?_,
    fun condition first => ?_, fun worker seen => ?_⟩
  · exact (wrap_small counting 0 (by omega) (by omega)).symm
  · cases condition <;> simp [initial, credit, gap]
  · cases condition <;> simp [initial, start, waiter, Cleared]
  · cases condition <;> simp [initial, start, waiter]
  · cases condition <;> simp [initial, start, waiter]
  · cases worker <;> simp [initial, start]

/-- A move that neither writes nor signals: it suffices to look at the worker. -/
theorem moved_credited (before after : State) (worker : Worker) (point : Point)
    (credited : Credited counting before)
    (moved : after.point = Function.update before.point worker point)
    (sameCounter : after.counter = before.counter) (sameTotal : after.total = before.total)
    (cleared : ∀ condition, waiter condition = worker → Cleared condition point = true →
      Cleared condition (before.point worker) = true ∨ 1 ≤ credit before.total condition)
    (asleep : ∀ condition, point = .asleep condition false →
      (before.point (signaller condition)).produced = false)
    (produced : point.produced = true → (before.point worker).produced = true)
    (compared : ∀ condition first, point = .comparing condition first →
      Compared counting before.total condition first)
    (written : ∀ seen, point = .doneWriting seen → seen = before.counter (ownCounter worker)) :
    Credited counting after := by
  refine ⟨?_, ?_, fun condition => ?_, fun condition => ?_, fun condition first => ?_,
    fun other seen => ?_⟩
  · rw [sameCounter, sameTotal]
    exact credited.counted
  · rw [sameTotal]
    exact credited.ordered
  · rw [moved, sameTotal]
    by_cases self : waiter condition = worker
    · rw [self, Function.update_self]
      intro holds
      rcases cleared condition self holds with old | stock
      · exact credited.cleared condition (self ▸ old)
      · exact stock
    · rw [Function.update_of_ne self]
      exact credited.cleared condition
  · rw [moved, sameTotal]
    have apart := waiter_signaller condition
    by_cases self : waiter condition = worker
    · rw [self, Function.update_self, Function.update_of_ne (self ▸ apart.symm)]
      intro sleeps making
      rw [asleep condition sleeps] at making
      cases making
    · rw [Function.update_of_ne self]
      intro sleeps making
      refine credited.produced condition sleeps ?_
      by_cases mine : signaller condition = worker
      · rw [mine, Function.update_self] at making
        rw [mine]
        exact produced making
      · rwa [Function.update_of_ne mine] at making
  · rw [moved, sameTotal]
    by_cases self : waiter condition = worker
    · rw [self, Function.update_self]
      exact compared condition first
    · rw [Function.update_of_ne self]
      exact credited.compared condition first
  · rw [moved, sameCounter]
    by_cases self : other = worker
    · rw [self, Function.update_self]
      exact written seen
    · rw [Function.update_of_ne self]
      exact credited.written other seen

theorem signal_credited (condition : Condition) (state : State)
    (credited : Credited counting state)
    (making : (state.point (signaller condition)).produced = true) :
    Credited counting (signal condition state) := by
  unfold signal
  split
  · rename_i asleep
    refine moved_credited state _ (waiter condition) _ credited rfl rfl rfl ?_ ?_ ?_ ?_ ?_
    · intro other _ holds
      have stock := credited.produced condition asleep making
      by_cases same : condition = other
      · exact Or.inr (same ▸ stock)
      · exact Or.inl (by simpa [asleep, Cleared, same] using holds)
    · simp
    · simp [Point.produced]
    · simp
    · simp
  · exact credited

theorem gap_finished (total : Counter → Nat) (worker : Worker) (condition : Condition) (first : Int)
    (other : waiter condition ≠ worker)
    (low : 0 ≤ gap condition first (total (secondCounter condition)))
    (high : gap condition first (total (secondCounter condition)) ≤ credit total condition) :
    0 ≤ gap condition first (finished worker total (secondCounter condition)) ∧
      gap condition first (finished worker total (secondCounter condition)) ≤
        credit (finished worker total) condition := by
  cases worker <;> cases condition <;>
    simp [credit, gap, finished, firstCounter, secondCounter, ownCounter, waiter] at * <;> omega

theorem ownCounter_other (worker other : Worker) (apart : other ≠ worker) :
    ownCounter other ≠ ownCounter worker := by
  cases worker <;> cases other <;> simp_all [ownCounter]

/-- The increment turns one credit of each awaited condition into one of each
signalled condition. -/
theorem write_credited (state : State) (worker : Worker) (seen : Int)
    (credited : Credited counting state) (at_ : state.point worker = .doneWriting seen) :
    Credited counting (goto worker (.signalling (firstSignal worker))
      (increment counting (ownCounter worker) seen state)) := by
  have covered : ∀ condition, waiter condition = worker → 1 ≤ credit state.total condition := by
    intro condition self
    refine credited.cleared condition ?_
    rw [self, at_]
    rfl
  refine ⟨fun counter => ?_, ?_, fun condition => ?_, fun condition => ?_, fun condition first => ?_,
    fun other value => ?_⟩
  · by_cases mine : counter = ownCounter worker
    · subst mine
      have value := credited.written worker seen at_
      rw [credited.counted] at value
      simp [goto, increment, value, wrap_add]
    · simp [goto, increment, Function.update_of_ne mine, credited.counted]
  · exact finished_ordered state.total worker credited.ordered covered
  · simp only [goto, increment]
    by_cases self : waiter condition = worker
    · rw [self, Function.update_self]
      exact fun holds => absurd holds (by simp [Cleared])
    · rw [Function.update_of_ne self]
      intro holds
      have stock := credited.cleared condition holds
      have changed := credit_finished state.total worker condition
      simp only [finished, self, ↓reduceIte] at changed
      rw [changed]
      split <;> omega
  · simp only [goto, increment]
    by_cases self : waiter condition = worker
    · rw [self, Function.update_self]
      exact fun sleeps => absurd sleeps (by simp)
    · rw [Function.update_of_ne self]
      intro sleeps making
      have changed := credit_finished state.total worker condition
      simp only [finished, self, ↓reduceIte] at changed
      rw [changed]
      by_cases mine : signaller condition = worker
      · have stock := credited.ordered condition
        simp only [mine, ↓reduceIte]
        omega
      · rw [Function.update_of_ne mine] at making
        have stock := credited.produced condition sleeps making
        simp only [mine, ↓reduceIte]
        omega
  · simp only [goto, increment]
    by_cases self : waiter condition = worker
    · rw [self, Function.update_self]
      exact fun compares => absurd compares (by simp)
    · rw [Function.update_of_ne self]
      intro compares
      obtain ⟨exact_, same, low, high⟩ := credited.compared condition first compares
      obtain ⟨low, high⟩ := gap_finished state.total worker condition exact_ self low high
      exact ⟨exact_, same, low, high⟩
  · simp only [goto, increment]
    by_cases self : other = worker
    · rw [self, Function.update_self]
      exact fun writes => absurd writes (by simp)
    · rw [Function.update_of_ne self, Function.update_of_ne (ownCounter_other worker other self)]
      exact credited.written other value

theorem cleared_passed (condition other : Condition) (same : waiter other = waiter condition)
    (holds : Cleared other (passed condition) = true) :
    other = condition ∨ Cleared other (.locking condition) = true := by
  cases condition <;> cases other <;> simp_all [waiter, passed, Cleared]

/-- No sleep begins at the point, and nothing is compared, written or signalled. -/
def Plain : Point → Bool
  | .asleep _ false | .comparing _ _ | .doneWriting _ | .signalling _ | .doneUnlocking => false
  | _ => true

theorem plain_awake (point : Point) (plain : Plain point = true) (condition : Condition) :
    point ≠ .asleep condition false := by
  rintro rfl
  cases plain

theorem passed_plain (condition : Condition) : Plain (passed condition) = true := by
  cases condition <;> rfl

theorem start_plain (worker : Worker) : Plain (start worker) = true := by
  cases worker <;> rfl

theorem unlocked_plain (worker : Worker) : Plain (unlocked worker) = true := by
  cases worker <;> rfl

theorem start_uncleared (worker : Worker) (condition : Condition) :
    Cleared condition (start worker) = false := by
  cases worker <;> rfl

theorem unlocked_uncleared (worker : Worker) (condition : Condition) :
    Cleared condition (unlocked worker) = false := by
  cases worker <;> rfl

-- On a move to a plain point only the credits of its worker count.
theorem plain_credited (before after : State) (worker : Worker) (point : Point)
    (credited : Credited counting before)
    (moved : after.point = Function.update before.point worker point)
    (sameCounter : after.counter = before.counter) (sameTotal : after.total = before.total)
    (plain : Plain point = true)
    (cleared : ∀ condition, waiter condition = worker → Cleared condition point = true →
      Cleared condition (before.point worker) = true ∨ 1 ≤ credit before.total condition) :
    Credited counting after := by
  refine moved_credited before after worker point credited moved sameCounter sameTotal cleared ?_ ?_ ?_ ?_
  · exact fun condition sleeps => absurd sleeps (plain_awake point plain condition)
  · intro making
    cases point with
    | signalling | doneUnlocking => cases plain
    | _ => cases making
  · rintro condition first rfl
    cases plain
  · rintro seen rfl
    cases plain

-- Nobody is inside the critical part while another worker holds its lock.
theorem idle_signaller (state : State) (arranged : Arranged state) (condition : Condition)
    (held : state.sequencer = some (waiter condition)) :
    (state.point (signaller condition)).produced = false := by
  have theirs := arranged.sequenced (signaller condition)
  rw [held] at theirs
  cases where_ : state.point (signaller condition) <;>
    simp [where_, Point.sequencing, Point.produced, waiter_signaller condition] at theirs ⊢

theorem step_credited (before after : State) (worker : Worker) (arranged : Arranged before)
    (credited : Credited counting before) (taken : step counting before worker = some after) :
    Credited counting after := by
  have own := arranged.own worker
  cases step_stepped counting before after worker taken with
  | read condition at_ =>
      refine moved_credited before _ worker _ credited rfl rfl rfl ?_ (by simp) ?_ ?_ (by simp)
      · exact fun other _ holds => Or.inl (by rw [at_]; exact holds)
      · simp [Point.produced]
      · intro other first same
        simp only [Point.comparing.injEq] at same
        obtain ⟨rfl, rfl⟩ := same
        exact ⟨before.total (firstCounter condition), credited.counted _, credited.ordered condition,
          Int.le_refl _⟩
  | compared condition first at_ =>
      rw [at_] at own
      obtain ⟨exact_, same, low, high⟩ := credited.compared condition first (own.symm ▸ at_)
      have test := mustWait_gap counting condition exact_ (before.total (secondCounter condition)) low
        (high.trans (credit_bounded before.total credited.ordered condition))
      rw [same, credited.counted]
      split
      · refine plain_credited before _ worker _ credited rfl rfl rfl rfl ?_
        exact fun other _ holds => Or.inl (by rw [at_]; exact holds)
      · rename_i free
        have positive := mt test.mpr free
        refine plain_credited before _ worker _ credited rfl rfl rfl (passed_plain condition) ?_
        intro other mine holds
        rcases cleared_passed condition other (mine.trans own.symm) holds with rfl | old
        · exact Or.inr (by omega)
        · exact Or.inl (by rw [at_]; exact old)
  | locked condition at_ free =>
      refine plain_credited before _ worker _ credited rfl rfl rfl rfl ?_
      exact fun other _ holds => Or.inl (by rw [at_]; exact holds)
  | awaited condition at_ =>
      rw [at_] at own
      have held := (arranged.sequenced worker).mp (by rw [at_]; rfl)
      refine moved_credited before _ worker _ credited rfl rfl rfl ?_ ?_ ?_ (by simp) (by simp)
      · exact fun other _ holds => Or.inl (by rw [at_]; exact holds)
      · intro other same
        simp only [Point.asleep.injEq, and_true] at same
        subst same
        exact idle_signaller before arranged condition (own.symm ▸ held)
      · simp [Point.produced]
  | woke condition at_ free =>
      refine plain_credited before _ worker _ credited rfl rfl rfl rfl ?_
      exact fun other _ holds => Or.inl (by rw [at_]; exact holds)
  | unlocked condition at_ =>
      rw [at_] at own
      refine plain_credited before _ worker _ credited rfl rfl rfl (passed_plain condition) ?_
      intro other mine holds
      refine Or.inl ?_
      rcases cleared_passed condition other (mine.trans own.symm) holds with rfl | old
      · simp [at_, Cleared]
      · simp only [Cleared] at old
        simp [at_, Cleared, old]
  | tookShovel at_ free | worked at_ | doneLocked at_ free =>
      refine plain_credited before _ worker _ credited rfl rfl rfl rfl ?_
      exact fun other _ holds => Or.inl (by rw [at_]; exact holds)
  | doneRead at_ =>
      refine moved_credited before _ worker _ credited rfl rfl rfl ?_ (by simp) ?_ (by simp) ?_
      · exact fun other _ holds => Or.inl (by rw [at_]; exact holds)
      · simp [Point.produced]
      · exact fun seen same => (Point.doneWriting.inj same).symm
  | doneWrote seen at_ => exact write_credited before worker seen credited at_
  | signalled condition at_ =>
      rw [at_] at own
      have making : (before.point (signaller condition)).produced = true := by
        rw [show signaller condition = worker from own, at_]
        rfl
      have here : (signal condition before).point worker = .signalling condition := by
        rw [signal_other condition before worker
          (fun same => waiter_signaller condition (same ▸ own.symm)), at_]
      refine moved_credited (signal condition before) _ worker _
        (signal_credited condition before credited making) rfl rfl rfl ?_ ?_ ?_ ?_ ?_
      · intro other _ holds
        cases condition <;> simp [signalled, Cleared] at holds
      · cases condition <;> simp [signalled]
      · exact fun _ => by rw [here]; rfl
      · cases condition <;> simp [signalled]
      · cases condition <;> simp [signalled]
  | doneUnlocked at_ =>
      refine plain_credited before _ worker _ credited rfl rfl rfl (unlocked_plain worker) ?_
      exact fun other _ holds => absurd holds (by simp [unlocked_uncleared])
  | returnedShovel at_ =>
      refine plain_credited before _ worker _ credited rfl rfl rfl (start_plain worker) ?_
      exact fun other _ holds => absurd holds (by simp [start_uncleared])

end Stocks

section Runs

structure Kept (counting : Counting) (state : State) : Prop where
  arranged : Arranged state
  credited : Credited counting state

theorem initial_kept (counting : Counting) : Kept counting initial :=
  ⟨initial_arranged, initial_credited⟩

theorem step_kept (counting : Counting) (before after : State) (worker : Worker)
    (kept : Kept counting before) (taken : step counting before worker = some after) :
    Kept counting after :=
  ⟨step_arranged counting before after worker kept.arranged taken,
    step_credited before after worker kept.arranged kept.credited taken⟩

/-- The difference of two counters as the guards compute it. -/
def difference (counting : Counting) (state : State) (left right : Counter) : Int :=
  counting.wrap (state.counter left - state.counter right)

theorem difference_exact (counting : Counting) (state : State) (left right : Counter)
    (credited : Credited counting state) (low : -16 ≤ (state.total left - state.total right : Int))
    (high : (state.total left - state.total right : Int) ≤ 16) :
    difference counting state left right = state.total left - state.total right := by
  rw [difference, credited.counted left, credited.counted right, wrap_sub]
  exact wrap_small counting _ low high

-- The counters are the totals as long as an `int` can hold them.
theorem counter_exact (counting : Counting) (state : State) (counter : Counter)
    (credited : Credited counting state)
    (small : counting = .exact ∨ state.total .holesDug < 2 ^ 31) :
    state.counter counter = state.total counter := by
  have bounds := ordered_bounds state.total credited.ordered
  rw [credited.counted counter]
  refine wrap_fits counting _ ?_
  rcases small with rfl | small
  · rfl
  · cases counting with
    | exact => rfl
    | int32 =>
        simp only [Counting.holds, decide_eq_true_eq]
        cases counter <;> omega

/-- The rules of the garden. The plain comparisons hold as long as the counters
have not run over, the differences always. -/
structure Tended (counting : Counting) (state : State) : Prop where
  plain : counting = .exact ∨ state.total .holesDug < 2 ^ 31 →
    state.counter .holesFilled ≤ state.counter .holesSeeded ∧
    state.counter .holesSeeded ≤ state.counter .holesDug ∧
    state.counter .holesDug - state.counter .holesSeeded ≤ 4 ∧
    state.counter .holesDug - state.counter .holesFilled ≤ 8
  unfilled : 0 ≤ difference counting state .holesSeeded .holesFilled
  unseeded : 0 ≤ difference counting state .holesDug .holesSeeded
  fourUnseeded : difference counting state .holesDug .holesSeeded ≤ 4
  eightUnfilled : difference counting state .holesDug .holesFilled ≤ 8
  seeding : (state.point .benjamin).between = true →
    1 ≤ difference counting state .holesDug .holesSeeded
  filling : (state.point .mary).between = true →
    1 ≤ difference counting state .holesSeeded .holesFilled
  oneShovel : ¬ (shovelling .newton (state.point .newton) = true ∧
    shovelling .mary (state.point .mary) = true)

/-- In every run, with exact or with 32-bit counters. -/
theorem garden_ordered (counting : Counting) (state : State)
    (reached : Reachable (step counting) (fun _ _ => True) initial state) :
    Tended counting state := by
  have kept := reachable_invariant (Kept counting) (initial_kept counting)
    (fun before worker after kept _ taken => step_kept counting before after worker kept taken) reached
  have bounds := ordered_bounds state.total kept.credited.ordered
  have unfilled := difference_exact counting state .holesSeeded .holesFilled kept.credited
    (by omega) (by omega)
  have unseeded := difference_exact counting state .holesDug .holesSeeded kept.credited
    (by omega) (by omega)
  have ahead := difference_exact counting state .holesDug .holesFilled kept.credited
    (by omega) (by omega)
  have clear : ∀ point : Point, point.between = true → ∀ condition, Cleared condition point = true := by
    intro point between condition
    cases point <;> simp [Point.between, Cleared] at between ⊢
  refine ⟨fun small => ?_, by omega, by omega, by omega, by omega, fun inside => ?_, fun inside => ?_,
    fun ⟨digging, filling⟩ => ?_⟩
  · rw [counter_exact counting state .holesFilled kept.credited small,
      counter_exact counting state .holesSeeded kept.credited small,
      counter_exact counting state .holesDug kept.credited small]
    omega
  · have stock := kept.credited.cleared .oneUnseeded (clear _ inside _)
    simp only [credit, gap, firstCounter, secondCounter] at stock
    omega
  · have stock := kept.credited.cleared .oneUnfilled (clear _ inside _)
    simp only [credit, gap, firstCounter, secondCounter] at stock
    omega
  · have newton := (kept.arranged.shovelled .newton).mp digging
    have mary := (kept.arranged.shovelled .mary).mp filling
    rw [newton] at mary
    cases mary

-- Newton digs the first hole.
theorem garden_ordered_first :
    ∃ state, replay (step .int32) (fun _ _ => True) initial (List.replicate 12 .newton) = some state ∧
      Tended .int32 state := by
  obtain ⟨state, played⟩ := Option.isSome_iff_exists.mp
    (show (replay (step .int32) (fun _ _ => True) initial (List.replicate 12 .newton)).isSome = true
      by decide +kernel)
  exact ⟨state, played, garden_ordered .int32 state (replayed _ _ played)⟩

end Runs

/-! The workers in turn, one hole after another: with `int` counters the number
of holes dug runs over. -/
section Overflow

def tally {Value : Type} (dug seeded filled : Value) : Counter → Value
  | .holesDug => dug
  | .holesSeeded => seeded
  | .holesFilled => filled

def quiet (counting : Counting) (dug seeded filled : Nat) : State :=
  ⟨none, none, fun counter => counting.wrap (tally dug seeded filled counter : Nat), start,
    tally dug seeded filled⟩

variable (counting : Counting) (n : Nat)

theorem open_gap (condition : Condition) (first second : Int) (low : 1 ≤ gap condition first second)
    (high : gap condition first second ≤ 8) :
    mustWait counting condition (counting.wrap first) (counting.wrap second) = false := by
  rw [← Bool.not_eq_true, mustWait_gap counting condition first second (by omega) high]
  omega

section Jobs
variable {counting} {state : State} {worker : Worker} (rest : List Worker)

theorem replay_next (after : State) (taken : step counting state worker = some after) :
    replay (step counting) (fun _ _ => True) state (worker :: rest) =
      replay (step counting) (fun _ _ => True) after rest := by
  simp only [replay, ↓reduceIte, taken, Option.bind_some]

/-- A test that does not wait. -/
theorem replay_passes (condition : Condition) (at_ : state.point worker = .reading condition)
    (open_ : mustWait counting condition (state.counter (firstCounter condition))
      (state.counter (secondCounter condition)) = false) :
    replay (step counting) (fun _ _ => True) state (worker :: worker :: rest) =
      replay (step counting) (fun _ _ => True) (goto worker (passed condition) state) rest := by
  rw [replay_next _ (goto worker (.comparing condition (state.counter (firstCounter condition))) state)
    (by simp [step, at_])]
  apply replay_next
  simp [step, goto, open_]

/-- The work and the increment of the `done` method, up to its first `signal`. -/
theorem replay_works (at_ : state.point worker = .working) (free : state.sequencer = none) :
    replay (step counting) (fun _ _ => True) state (worker :: worker :: worker :: worker :: rest) =
      replay (step counting) (fun _ _ => True) (goto worker (.signalling (firstSignal worker))
        (increment counting (ownCounter worker) (state.counter (ownCounter worker))
          { state with sequencer := worker })) rest := by
  rw [replay_next _ (goto worker .doneLocking state) (by simp [step, at_]),
    replay_next _ (goto worker .doneReading { state with sequencer := worker })
      (by simp [step, goto, free]),
    replay_next _ (goto worker (.doneWriting (state.counter (ownCounter worker)))
      { state with sequencer := worker }) (by simp [step, goto])]
  apply replay_next
  simp [step, goto, increment]

/-- A signal that no thread waits for. -/
theorem replay_unheard (condition : Condition) (at_ : state.point worker = .signalling condition)
    (idle : state.point (waiter condition) = start (waiter condition)) :
    replay (step counting) (fun _ _ => True) state (worker :: rest) =
      replay (step counting) (fun _ _ => True) (goto worker (signalled condition) state) rest := by
  have awake : state.point (waiter condition) ≠ .asleep condition false := by
    rw [idle]
    cases condition <;> simp [waiter, start]
  apply replay_next
  simp [step, at_, signal, awake]

end Jobs

/-- The end of a job: the worker's own counter and total have gone up, the rest is as before. -/
theorem job_done (worker : Worker) (before after : Counter → Nat)
    (more : Function.update before (ownCounter worker) (before (ownCounter worker) + 1) = after) :
    Function.update (fun counter => counting.wrap (before counter : Nat)) (ownCounter worker)
        (counting.wrap (counting.wrap (before (ownCounter worker) : Nat) + 1)) =
      (fun counter => counting.wrap (after counter : Nat)) ∧
    Function.update start worker (start worker) = start := by
  refine ⟨?_, Function.update_eq_self worker start⟩
  rw [← more, wrap_add]
  funext counter
  by_cases own : counter = ownCounter worker
  · rw [own, Function.update_self, Function.update_self, Int.natCast_add]
    rfl
  · rw [Function.update_of_ne own, Function.update_of_ne own]

theorem dig_quiet :
    replay (step counting) (fun _ _ => True) (quiet counting n n n) (List.replicate 12 .newton) =
      some (quiet counting (n + 1) n n) := by
  have four := open_gap counting .fourUnseeded n n (by simp [gap]) (by simp [gap])
  have eight := open_gap counting .eightUnfilled n n (by simp [gap]) (by simp [gap])
  have more : Function.update (tally n n n) (ownCounter .newton) (n + 1) = tally (n + 1) n n := by
    funext counter
    cases counter <;> rfl
  obtain ⟨counters, points⟩ := job_done counting .newton (tally n n n) _ more
  simp only [List.replicate]
  rw [replay_passes _ .fourUnseeded rfl four, replay_passes _ .eightUnfilled rfl eight,
    replay_next _ _ rfl, replay_works _ rfl rfl, replay_unheard _ .oneUnseeded rfl rfl,
    replay_next _ _ rfl, replay_next _ _ rfl, replay, Option.some.injEq]
  simp only [goto, increment, quiet, State.mk.injEq, true_and, Function.update_idem]
  exact ⟨counters, points, more⟩

theorem seed_quiet :
    replay (step counting) (fun _ _ => True) (quiet counting (n + 1) n n)
      (List.replicate 9 .benjamin) = some (quiet counting (n + 1) (n + 1) n) := by
  have one := open_gap counting .oneUnseeded (n + 1) n (by simp [gap]) (by simp [gap])
  have more : Function.update (tally (n + 1) n n) (ownCounter .benjamin) (n + 1) =
      tally (n + 1) (n + 1) n := by
    funext counter
    cases counter <;> rfl
  obtain ⟨counters, points⟩ := job_done counting .benjamin (tally (n + 1) n n) _ more
  simp only [List.replicate]
  rw [replay_passes _ .oneUnseeded rfl one, replay_works _ rfl rfl,
    replay_unheard _ .fourUnseeded rfl rfl, replay_unheard _ .oneUnfilled rfl rfl,
    replay_next _ _ rfl, replay, Option.some.injEq]
  simp only [goto, increment, quiet, State.mk.injEq, true_and, Function.update_idem]
  exact ⟨counters, points, more⟩

theorem fill_quiet :
    replay (step counting) (fun _ _ => True) (quiet counting (n + 1) (n + 1) n)
      (List.replicate 10 .mary) = some (quiet counting (n + 1) (n + 1) (n + 1)) := by
  have one := open_gap counting .oneUnfilled n (n + 1) (by simp [gap]) (by simp [gap])
  have more : Function.update (tally (n + 1) (n + 1) n) (ownCounter .mary) (n + 1) =
      tally (n + 1) (n + 1) (n + 1) := by
    funext counter
    cases counter <;> rfl
  obtain ⟨counters, points⟩ := job_done counting .mary (tally (n + 1) (n + 1) n) _ more
  simp only [List.replicate]
  rw [replay_passes _ .oneUnfilled rfl one, replay_next _ _ rfl, replay_works _ rfl rfl,
    replay_unheard _ .eightUnfilled rfl rfl, replay_next _ _ rfl, replay_next _ _ rfl, replay,
    Option.some.injEq]
  simp only [goto, increment, quiet, State.mk.injEq, true_and, Function.update_idem]
  exact ⟨counters, points, more⟩

theorem quiet_reachable : Reachable (step counting) (fun _ _ => True) initial (quiet counting n n n) := by
  induction n with
  | zero =>
      have begun : initial = quiet counting 0 0 0 := by
        have zero := wrap_small counting 0 (by omega) (by omega)
        simp only [initial, quiet, State.mk.injEq, true_and]
        constructor <;> funext counter <;> cases counter <;> simp [tally, zero]
      rw [← begun]
      exact .start
  | succ n ih =>
      have dug := replay_reachable _ _ _ _ _ _ ih (dig_quiet counting n)
      have seeded := replay_reachable _ _ _ _ _ _ dug (seed_quiet counting n)
      exact replay_reachable _ _ _ _ _ _ seeded (fill_quiet counting n)

theorem ahead_reachable :
    Reachable (step counting) (fun _ _ => True) initial (quiet counting (n + 1) n n) :=
  replay_reachable _ _ _ _ _ _ (quiet_reachable counting n) (dig_quiet counting n)

theorem int_order_breaks :
    ¬ ∀ state, Reachable (step .int32) (fun _ _ => True) initial state →
      state.counter .holesFilled ≤ state.counter .holesSeeded ∧
        state.counter .holesSeeded ≤ state.counter .holesDug := by
  intro ordered
  have order := (ordered _ (ahead_reachable .int32 2147483647)).2
  have dug : Counting.int32.wrap 2147483648 = -2147483648 := by decide
  have seeded : Counting.int32.wrap 2147483647 = 2147483647 := by decide
  simp [quiet, tally, dug, seeded] at order

end Overflow

end EE360P.GardenOrder
