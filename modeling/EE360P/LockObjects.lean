import EE360P.LockHindrances

/-! Several lock objects. A run is compared with the run one lock object could
have made alone, which plays only what is done at that lock. The two agree as
long as nobody at the lock is held up by threads at other locks only. -/

namespace EE360P.FairReadWriteLock
open JavaText GuardedRuns

variable {Thread Lock : Type}

/-- A thread at another lock is outside in the run of `lock` alone, where the
tickets have numbers of their own. -/
inductive Matches (lock : Lock) : Place Lock → Place Lock → Prop where
  | elsewhere {place : Place Lock} (away : place.lock ≠ some lock) : Matches lock place .outside
  | waiting (kind : Kind) (turn own : Int) :
      Matches lock (.waiting lock kind turn) (.waiting lock kind own)
  | holding (kind : Kind) : Matches lock (.holding lock kind) (.holding lock kind)

structure Mirrored (lock : Lock) (shared alone : Thread → Place Lock) : Prop where
  matching : ∀ thread, Matches lock (shared thread) (alone thread)
  order : ∀ left right turn own other rest,
    (shared left).turn = some turn → (alone left).turn = some own →
    (shared right).turn = some other → (alone right).turn = some rest → (turn < other ↔ own < rest)

def HeldUpHere (lock : Lock) (sites : Thread → Place Lock) (kind : Kind) (turn : Int) : Prop :=
  ∃ thread, (sites thread).lock = some lock ∧ (sites thread).hinders kind turn = true

def HeldUpAway (lock : Lock) (sites : Thread → Place Lock) (kind : Kind) (turn : Int) : Prop :=
  ∃ thread, (sites thread).lock ≠ some lock ∧ (sites thread).hinders kind turn = true

/-- Whoever at `lock` is held up by a thread at another lock is held up by a
thread at `lock` too. -/
def Fair (lock : Lock) (sites : Thread → Place Lock) : Prop := ∀ thread kind turn,
  sites thread = .waiting lock kind turn → HeldUpAway lock sites kind turn →
    HeldUpHere lock sites kind turn

/-- The same, not counting on the thread that is about to move. -/
def Undelayed (lock : Lock) (sites : Thread → Place Lock) (mover : Thread) (kind : Kind)
    (turn : Int) : Prop :=
  HeldUpAway lock sites kind turn →
    ∃ thread, thread ≠ mover ∧ (sites thread).lock = some lock ∧ (sites thread).hinders kind turn = true

section Places
variable {lock : Lock} {shared alone : Thread → Place Lock}

theorem hinders_matches (place own : Place Lock) (kind : Kind) (turn ticket : Int)
    (same : Matches lock place own)
    (agree : ∀ here there, place.turn = some here → own.turn = some there →
      (here < turn ↔ there < ticket)) :
    own.hinders kind ticket = true ↔ place.lock = some lock ∧ place.hinders kind turn = true := by
  cases same with
  | elsewhere away => simp [Place.hinders, away]
  | waiting wish here there =>
      simpa [Place.hinders, Place.lock] using (agree here there rfl rfl).symm
  | holding wish => simp [Place.hinders, Place.lock]

theorem here_alone (mirrored : Mirrored lock shared alone) (kind : Kind) (turn ticket : Int)
    (agree : ∀ thread here there, (shared thread).turn = some here →
      (alone thread).turn = some there → (here < turn ↔ there < ticket)) :
    (∃ thread, (alone thread).hinders kind ticket = true) ↔ HeldUpHere lock shared kind turn :=
  exists_congr fun thread =>
    hinders_matches _ _ kind turn ticket (mirrored.matching thread) (agree thread)

theorem hindered_split (kind : Kind) (turn : Int) :
    (∃ thread, (shared thread).hinders kind turn = true) ↔
      HeldUpHere lock shared kind turn ∨ HeldUpAway lock shared kind turn := by
  constructor
  · rintro ⟨thread, hinders⟩
    by_cases here : (shared thread).lock = some lock
    · exact Or.inl ⟨thread, here, hinders⟩
    · exact Or.inr ⟨thread, here, hinders⟩
  · rintro (⟨thread, _, hinders⟩ | ⟨thread, _, hinders⟩) <;> exact ⟨thread, hinders⟩

variable [DecidableEq Thread]

theorem mirrored_update (mirrored : Mirrored lock shared alone) (mover : Thread)
    (place own : Place Lock) (same : Matches lock place own)
    (order : ∀ turn ticket, place.turn = some turn → own.turn = some ticket →
      ∀ thread other rest, thread ≠ mover → (shared thread).turn = some other →
        (alone thread).turn = some rest → (turn < other ↔ ticket < rest) ∧ (other < turn ↔ rest < ticket)) :
    Mirrored lock (Function.update shared mover place) (Function.update alone mover own) := by
  refine ⟨fun thread => ?_, fun left right turn ticket other rest => ?_⟩
  · by_cases self : thread = mover
    · simpa [self] using same
    · simpa [self] using mirrored.matching thread
  · by_cases leftSelf : left = mover <;> by_cases rightSelf : right = mover
    · simp only [leftSelf, rightSelf, Function.update_self]
      intro first second third fourth
      rw [first] at third
      rw [second] at fourth
      cases third
      cases fourth
      simp
    · simp only [leftSelf, Function.update_self, Function.update_of_ne rightSelf]
      exact fun first second third fourth =>
        (order turn ticket first second right other rest rightSelf third fourth).1
    · simp only [rightSelf, Function.update_self, Function.update_of_ne leftSelf]
      exact fun first second third fourth =>
        (order other rest third fourth left turn ticket leftSelf first second).2
    · simp only [Function.update_of_ne leftSelf, Function.update_of_ne rightSelf]
      exact mirrored.order left right turn ticket other rest

-- What happens at another lock does not show in the run of `lock` alone.
theorem mirrored_away (mirrored : Mirrored lock shared alone) (mover : Thread) (place : Place Lock)
    (before : (shared mover).lock ≠ some lock) (after : place.lock ≠ some lock) :
    Mirrored lock (Function.update shared mover place) alone := by
  have idle : alone mover = .outside := by
    have same := mirrored.matching mover
    generalize shared mover = here, alone mover = there at same before
    cases same with
    | elsewhere => rfl
    | waiting => exact absurd rfl before
    | holding => exact absurd rfl before
  have moved := mirrored_update mirrored mover place .outside (.elsewhere after) (by simp [Place.turn])
  rwa [← idle, Function.update_eq_self] at moved

theorem fair_away (fair : Fair lock shared) (mover : Thread) (place : Place Lock)
    (before : (shared mover).lock ≠ some lock) (after : place.lock ≠ some lock)
    (harmless : ∀ thread kind turn, thread ≠ mover → shared thread = .waiting lock kind turn →
      place.hinders kind turn = true → HeldUpAway lock shared kind turn) :
    Fair lock (Function.update shared mover place) := by
  intro thread kind turn waiting away
  have other : thread ≠ mover := by
    rintro rfl
    rw [Function.update_self] at waiting
    exact after (waiting ▸ rfl)
  rw [Function.update_of_ne other] at waiting
  have old : HeldUpAway lock shared kind turn := by
    obtain ⟨blocker, apart, hinders⟩ := away
    by_cases self : blocker = mover
    · rw [self, Function.update_self] at hinders
      exact harmless thread kind turn other waiting hinders
    · rw [Function.update_of_ne self] at apart hinders
      exact ⟨blocker, apart, hinders⟩
  obtain ⟨blocker, here, hinders⟩ := fair thread kind turn waiting old
  have stays : blocker ≠ mover := by
    rintro rfl
    exact before here
  exact ⟨blocker, by rwa [Function.update_of_ne stays], by rwa [Function.update_of_ne stays]⟩

theorem away_stays (mover : Thread) (place : Place Lock) (kind : Kind) (turn : Int)
    (here : place.lock = some lock ∨ place = .outside)
    (away : HeldUpAway lock (Function.update shared mover place) kind turn) :
    HeldUpAway lock shared kind turn := by
  obtain ⟨blocker, apart, hinders⟩ := away
  by_cases self : blocker = mover
  · rw [self, Function.update_self] at apart hinders
    rcases here with there | rfl
    · exact absurd there apart
    · cases hinders
  · rw [Function.update_of_ne self] at apart hinders
    exact ⟨blocker, apart, hinders⟩

theorem here_stays (mover blocker : Thread) (place : Place Lock) (kind : Kind) (turn : Int)
    (other : blocker ≠ mover) (here : (shared blocker).lock = some lock)
    (hinders : (shared blocker).hinders kind turn = true) :
    HeldUpHere lock (Function.update shared mover place) kind turn :=
  ⟨blocker, by rwa [Function.update_of_ne other], by rwa [Function.update_of_ne other]⟩

-- A thread that leaves, or is already inside, waits for nothing any more.
theorem fair_here (mover : Thread) (place : Place Lock)
    (after : place.lock = some lock ∨ place = .outside) (done : place.turn = none)
    (undelayed : ∀ thread kind turn, thread ≠ mover → shared thread = .waiting lock kind turn →
      (place.lock = some lock ∧ place.hinders kind turn = true) ∨ Undelayed lock shared mover kind turn) :
    Fair lock (Function.update shared mover place) := by
  intro thread kind turn waiting away
  have other : thread ≠ mover := by
    rintro rfl
    rw [Function.update_self] at waiting
    simp [waiting, Place.turn] at done
  rw [Function.update_of_ne other] at waiting
  rcases undelayed thread kind turn other waiting with ⟨here, hinders⟩ | free
  · exact ⟨mover, by rwa [Function.update_self], by rwa [Function.update_self]⟩
  · obtain ⟨blocker, apart, here, hinders⟩ := free (away_stays mover place kind turn after away)
    exact here_stays mover blocker place kind turn apart here hinders

-- A thread that comes last hinders nobody who waits already.
theorem fair_joins (fair : Fair lock shared) (mover : Thread) (wish : Kind) (ticket : Int)
    (before : shared mover = .outside) (undelayed : Undelayed lock shared mover wish ticket) :
    Fair lock (Function.update shared mover (.waiting lock wish ticket)) := by
  intro thread kind turn waiting away
  have old := away_stays mover _ kind turn (Or.inl rfl) away
  by_cases self : thread = mover
  · rw [self, Function.update_self, Place.waiting.injEq] at waiting
    obtain ⟨_, rfl, rfl⟩ := waiting
    obtain ⟨blocker, apart, here, hinders⟩ := undelayed old
    exact here_stays mover blocker _ _ _ apart here hinders
  · rw [Function.update_of_ne self] at waiting
    obtain ⟨blocker, here, hinders⟩ := fair thread kind turn waiting old
    have apart : blocker ≠ mover := by
      rintro rfl
      rw [before] at here
      cases here
    exact here_stays mover blocker _ _ _ apart here hinders

end Places

/-! Ranges. While the ticket counter does not wrap, Java ints count as exact
integers do: `overallTurn` never passes it. -/
section Ranges

def draws : Action Thread Lock → Int
  | .beginRead _ _ => 1
  | .beginWrite _ _ => 1
  | _ => 0

/-- The ticket counter does not wrap in this step. -/
def unwrapped (counting : Counting) (state : State Thread Lock) (action : Action Thread Lock) : Bool :=
  counting.wrap (state.readOrWritesRequested + draws action) =
    state.readOrWritesRequested + draws action

theorem wrap_below (counting : Counting) (bound n : Int) (fits : counting.wrap bound = bound)
    (low : 0 ≤ n) (high : n ≤ bound) : counting.wrap n = n := by
  cases counting with
  | exact => rfl
  | int32 =>
      have below : bound < 2 ^ 31 := by
        have upper := Int.bmod_lt (x := bound) (m := 2 ^ 32) (by decide)
        simp only [Counting.wrap] at fits
        omega
      exact Int.bmod_eq_of_le (by omega) (by omega)

structure Proper (state : State Thread Lock) : Prop extends Ordered state, Counted state

theorem proper_bounds (state : State Thread Lock) (proper : Proper state) :
    0 ≤ state.overallTurn ∧ state.overallTurn ≤ state.readOrWritesRequested := by
  have turned := proper.turned
  have requested := proper.requested
  have short : state.completed.length ≤ state.drawn.length := by
    rw [proper.behind]
    exact List.length_take_le' _ _
  omega

variable [DecidableEq Thread] [DecidableEq Lock]

theorem test_unwrapped (counting : Counting) (state : State Thread Lock) (thread : Thread)
    (lock : Lock) (kind : Kind) (turn : Int)
    (fits : counting.wrap (state.overallTurn + 1) = state.overallTurn + 1) :
    testLoop counting thread lock kind turn state = testLoop .exact thread lock kind turn state := by
  simp only [testLoop, fits, exact_wrap]

theorem begin_unwrapped (counting : Counting) (bound : Int) (state : State Thread Lock)
    (proper : Proper state) (fits : counting.wrap bound = bound)
    (room : state.readOrWritesRequested + 1 ≤ bound) (kind : Kind) (thread : Thread) (lock : Lock) :
    beginKind counting kind thread lock state = beginKind .exact kind thread lock state := by
  have bounds := proper_bounds state proper
  have drawn := wrap_below counting bound (state.readOrWritesRequested + 1) fits (by omega) room
  have turn := wrap_below counting bound (state.overallTurn + 1) fits (by omega) (by omega)
  simp only [beginKind, drawn, exact_wrap]
  exact test_unwrapped counting _ thread lock kind _ turn

theorem step_unwrapped (counting : Counting) (bound : Int) (state : State Thread Lock)
    (proper : Proper state) (fits : counting.wrap bound = bound) (action : Action Thread Lock)
    (room : state.readOrWritesRequested + draws action ≤ bound) :
    step counting state action = step .exact state action := by
  cases action with
  | beginRead thread lock =>
      simp only [step, beginRead, begin_unwrapped counting bound state proper fits room]
  | beginWrite thread lock =>
      simp only [step, beginWrite, begin_unwrapped counting bound state proper fits room]
  | wake thread =>
      simp only [step]
      split
      · rename_i lock kind turn notified asleep
        have later := waiting_drawn state proper.toOrdered thread turn
          (by simp [places, asleep, Phase.place, Place.turn])
        have early := (proper.pending ⟨thread, kind, turn⟩).mp ⟨lock, notified, asleep⟩
        obtain ⟨n, there, late⟩ := early
        have number := proper.numbered n _ there
        have turned := proper.turned
        simp only [draws] at room number
        rw [test_unwrapped counting state thread lock kind turn
          (wrap_below counting bound _ fits (by omega) (by omega))]
      · rfl
  | endRead thread lock => rfl
  | endWrite thread lock => rfl

theorem test_requested (counting : Counting) (state : State Thread Lock) (thread : Thread)
    (lock : Lock) (kind : Kind) (turn : Int) :
    (testLoop counting thread lock kind turn state).readOrWritesRequested =
      state.readOrWritesRequested := by
  unfold testLoop
  split
  · rfl
  · simp [notifyAll, setPhase]

theorem step_proper (before after : State Thread Lock) (action : Action Thread Lock)
    (proper : Proper before) (taken : step .exact before action = some after) : Proper after :=
  { toOrdered := step_ordered before after action proper.toOrdered taken
    toCounted := step_counted .exact before after action proper.toCounted taken }

end Ranges

structure Aligned (lock : Lock) (state alone : State Thread Lock) : Prop where
  shared : Proper state
  single : Proper alone
  fewer : alone.readOrWritesRequested ≤ state.readOrWritesRequested
  mirrored : Mirrored lock (places state) (places alone)
  fair : Fair lock (places state)

section Moves
variable {lock : Lock} {state alone : State Thread Lock}

theorem conditions_agree (aligned : Aligned lock state alone) (kind : Kind) (turn ticket : Int)
    (drawn : turn ≤ state.readOrWritesRequested) (own : ticket ≤ alone.readOrWritesRequested)
    (agree : ∀ thread here there, (places state thread).turn = some here →
      (places alone thread).turn = some there → (here < turn ↔ there < ticket))
    (fair : HeldUpAway lock (places state) kind turn → HeldUpHere lock (places state) kind turn) :
    mustWait state kind turn = mustWait alone kind ticket := by
  have split : _ ↔ HeldUpHere lock (places state) kind turn ∨ HeldUpAway lock (places state) kind turn :=
    hindered_split kind turn
  rw [Bool.eq_iff_iff, mustWait_hindered state aligned.shared.toOrdered aligned.shared.toCounted kind
    turn drawn, mustWait_hindered alone aligned.single.toOrdered aligned.single.toCounted kind ticket own,
    here_alone aligned.mirrored kind turn ticket agree, split]
  exact or_iff_left_of_imp fair

theorem waiting_agree (aligned : Aligned lock state alone) (thread : Thread) (kind : Kind)
    (turn own : Int) (asleep : places state thread = .waiting lock kind turn)
    (there : places alone thread = .waiting lock kind own) :
    mustWait state kind turn = mustWait alone kind own := by
  have first : (places state thread).turn = some turn := by rw [asleep]; rfl
  have second : (places alone thread).turn = some own := by rw [there]; rfl
  apply conditions_agree aligned kind turn own
  · exact Int.le_of_lt (waiting_drawn state aligned.shared.toOrdered thread turn first)
  · exact Int.le_of_lt (waiting_drawn alone aligned.single.toOrdered thread own second)
  · intro other here elsewhere third fourth
    exact aligned.mirrored.order other thread here elsewhere turn own third fourth first second
  · exact aligned.fair thread kind turn asleep

theorem mirrored_outside (aligned : Aligned lock state alone) (thread : Thread)
    (outside : state.phase thread = .outside) : alone.phase thread = .outside := by
  have same := aligned.mirrored.matching thread
  rw [← place_outside]
  have here : places state thread = .outside := (place_outside _).mpr outside
  generalize placed : places alone thread = there at same
  rw [here] at same
  cases same
  exact placed

theorem mirrored_waiting (aligned : Aligned lock state alone) (thread : Thread) (kind : Kind)
    (turn : Int) (asleep : places state thread = .waiting lock kind turn) :
    ∃ own, places alone thread = .waiting lock kind own := by
  have same := aligned.mirrored.matching thread
  generalize placed : places alone thread = there at same
  rw [asleep] at same
  cases same with
  | elsewhere away => exact absurd rfl away
  | waiting => exact ⟨_, rfl⟩

theorem mirrored_holding (aligned : Aligned lock state alone) (thread : Thread) (kind : Kind) :
    state.phase thread = .holding lock kind ↔ alone.phase thread = .holding lock kind := by
  have same := aligned.mirrored.matching thread
  rw [← place_holding, ← place_holding]
  change places state thread = _ ↔ places alone thread = _
  generalize places state thread = here, places alone thread = there at same
  cases same with
  | elsewhere away =>
      constructor
      · rintro rfl
        exact absurd rfl away
      · intro holding
        cases holding
  | waiting => simp
  | holding => rfl

-- A call that goes in at once finds no other call waiting.
theorem admitted_alone (proper : Proper state) (kind : Kind)
    (free : mustWait state kind state.readOrWritesRequested = false) (thread : Thread) (turn : Int) :
    (places state thread).turn ≠ some turn := by
  intro waiting
  have later := waiting_drawn state proper.toOrdered thread turn waiting
  have hindered := mustWait_hindered state proper.toOrdered proper.toCounted kind
    state.readOrWritesRequested (Int.le_refl _)
  have blocked : mustWait state kind state.readOrWritesRequested = true := by
    refine hindered.mpr ⟨thread, ?_⟩
    cases place : places state thread with
    | outside => simp [place, Place.turn] at waiting
    | holding => simp [place, Place.turn] at waiting
    | waiting own wish ticket =>
        simp only [place, Place.turn, Option.some.injEq] at waiting
        simp [Place.hinders, waiting, later]
  rw [free] at blocked
  cases blocked

variable [DecidableEq Thread]

theorem leave_aligned (aligned : Aligned lock state alone) (thread : Thread)
    (after left : State Thread Lock) (shared : Proper after) (single : Proper left)
    (separate : ∀ other wish ticket, other ≠ thread → places state other = .waiting lock wish ticket →
      Undelayed lock (places state) thread wish ticket)
    (moved : places after = Function.update (places state) thread .outside)
    (also : places left = Function.update (places alone) thread .outside)
    (requested : after.readOrWritesRequested = state.readOrWritesRequested)
    (drawn : left.readOrWritesRequested = alone.readOrWritesRequested) :
    Aligned lock after left := by
  refine ⟨shared, single, ?_, ?_, ?_⟩
  · rw [requested, drawn]
    exact aligned.fewer
  · rw [moved, also]
    apply mirrored_update aligned.mirrored thread _ _ (.elsewhere (by simp [Place.lock]))
    intro turn ticket here
    cases here
  · rw [moved]
    exact fair_here thread _ (Or.inr rfl) rfl fun other wish ticket apart waiting =>
      Or.inr (separate other wish ticket apart waiting)

/-- What a thread does at another lock. -/
theorem elsewhere_aligned (aligned : Aligned lock state alone) (thread : Thread)
    (after : State Thread Lock) (shared : Proper after) (place : Place Lock)
    (moved : places after = Function.update (places state) thread place)
    (requested : state.readOrWritesRequested ≤ after.readOrWritesRequested)
    (before : (places state thread).lock ≠ some lock) (apart : place.lock ≠ some lock)
    (harmless : ∀ other kind turn, other ≠ thread → places state other = .waiting lock kind turn →
      place.hinders kind turn = true → HeldUpAway lock (places state) kind turn) :
    Aligned lock after alone := by
  refine ⟨shared, aligned.single, Int.le_trans aligned.fewer requested, ?_, ?_⟩
  · exact moved ▸ mirrored_away aligned.mirrored thread place before apart
  · exact moved ▸ fair_away aligned.fair thread place before apart harmless

variable [DecidableEq Lock]

theorem begin_aligned (aligned : Aligned lock state alone) (kind : Kind) (thread : Thread)
    (outside : state.phase thread = .outside)
    (undelayed : Undelayed lock (places state) thread kind state.readOrWritesRequested)
    (shared : Proper (beginKind .exact kind thread lock state))
    (single : Proper (beginKind .exact kind thread lock alone)) :
    Aligned lock (beginKind .exact kind thread lock state) (beginKind .exact kind thread lock alone) := by
  have same : mustWait state kind state.readOrWritesRequested =
      mustWait alone kind alone.readOrWritesRequested := by
    apply conditions_agree aligned kind _ _ (Int.le_refl _) (Int.le_refl _)
    · intro other here there first second
      have before := waiting_drawn state aligned.shared.toOrdered other here first
      have after := waiting_drawn alone aligned.single.toOrdered other there second
      exact iff_of_true before after
    · intro away
      obtain ⟨blocker, _, here, hinders⟩ := undelayed away
      exact ⟨blocker, here, hinders⟩
  have nowhere : places state thread = .outside := (place_outside _).mpr outside
  refine ⟨shared, single, ?_, ?_, ?_⟩
  · simpa [beginKind, test_requested] using aligned.fewer
  · rw [begin_places, begin_places, ← same]
    apply mirrored_update aligned.mirrored
    · split
      · exact .waiting kind _ _
      · exact .holding kind
    · split
      · rintro turn ticket here there other first second apart third fourth
        cases here
        cases there
        have before := waiting_drawn state aligned.shared.toOrdered other first third
        have after := waiting_drawn alone aligned.single.toOrdered other second fourth
        constructor <;> omega
      · intro turn ticket here
        cases here
  · rw [begin_places]
    cases free : mustWait state kind state.readOrWritesRequested with
    | true => exact fair_joins aligned.fair thread kind _ nowhere undelayed
    | false =>
        refine fair_here thread _ (Or.inl rfl) rfl fun other wish turn _ waiting => ?_
        exact absurd (show (places state other).turn = some turn by rw [waiting]; rfl)
          (admitted_alone aligned.shared kind free other turn)

theorem wake_aligned (aligned : Aligned lock state alone) (kind : Kind) (thread : Thread)
    (turn own : Int) (asleep : places state thread = .waiting lock kind turn)
    (there : places alone thread = .waiting lock kind own)
    (separate : mustWait state kind turn = false → ∀ other wish ticket, other ≠ thread →
      places state other = .waiting lock wish ticket →
        kind = .write ∨ wish = .write ∨ Undelayed lock (places state) thread wish ticket)
    (shared : Proper (testLoop .exact thread lock kind turn state))
    (single : Proper (testLoop .exact thread lock kind own alone)) :
    Aligned lock (testLoop .exact thread lock kind turn state)
      (testLoop .exact thread lock kind own alone) := by
  have same := waiting_agree aligned thread kind turn own asleep there
  refine ⟨shared, single, ?_, ?_, ?_⟩
  · simpa [test_requested] using aligned.fewer
  · rw [test_places, test_places, ← same]
    split
    · rw [← asleep, ← there, Function.update_eq_self, Function.update_eq_self]
      exact aligned.mirrored
    · apply mirrored_update aligned.mirrored _ _ _ (.holding kind)
      intro ticket number here
      cases here
  · rw [test_places]
    cases free : mustWait state kind turn with
    | true =>
        simp only [↓reduceIte, ← asleep, Function.update_eq_self]
        exact aligned.fair
    | false =>
        refine fair_here thread _ (Or.inl rfl) rfl fun other wish ticket apart waiting => ?_
        rcases separate free other wish ticket apart waiting with rfl | rfl | undelayed
        · exact Or.inl ⟨rfl, by simp [Place.hinders]⟩
        · exact Or.inl ⟨rfl, by simp [Place.hinders]⟩
        · exact Or.inr undelayed

omit [DecidableEq Lock] in
theorem leave_elsewhere (aligned : Aligned lock state alone) (thread : Thread) (own : Lock)
    (kind : Kind) (other : own ≠ lock) (holding : state.phase thread = .holding own kind)
    (after : State Thread Lock) (shared : Proper after)
    (moved : places after = Function.update (places state) thread .outside)
    (requested : after.readOrWritesRequested = state.readOrWritesRequested) :
    Aligned lock after alone := by
  have inside : places state thread = .holding own kind := (place_holding _ _ _).mpr holding
  apply elsewhere_aligned aligned thread after shared .outside moved (Int.le_of_eq requested.symm)
  · simpa [inside, Place.lock] using other
  · simp [Place.lock]
  · intro waiter wish turn _ _ hinders
    cases hinders

theorem begin_elsewhere (aligned : Aligned lock state alone) (kind : Kind) (thread : Thread)
    (own : Lock) (other : own ≠ lock) (outside : state.phase thread = .outside)
    (shared : Proper (beginKind .exact kind thread own state)) :
    Aligned lock (beginKind .exact kind thread own state) alone := by
  have nowhere : places state thread = .outside := (place_outside _).mpr outside
  apply elsewhere_aligned aligned thread _ shared _ (begin_places .exact state thread own kind)
  · simp only [beginKind, test_requested, exact_wrap]
    omega
  · simp [nowhere, Place.lock]
  · split <;> simpa [Place.lock] using other
  · intro waiter wish turn _ waiting hinders
    have ticket : (places state waiter).turn = some turn := by rw [waiting]; rfl
    cases free : mustWait state kind state.readOrWritesRequested with
    | true =>
        have later := waiting_drawn state aligned.shared.toOrdered waiter turn ticket
        simp only [free, ↓reduceIte, Place.hinders, decide_eq_true_eq] at hinders
        omega
    | false => exact absurd ticket (admitted_alone aligned.shared kind free waiter turn)

-- Whoever goes in at another lock has held up every sleeper before.
theorem wake_elsewhere (aligned : Aligned lock state alone) (kind : Kind) (thread : Thread)
    (own : Lock) (turn : Int) (other : own ≠ lock) (asleep : places state thread = .waiting own kind turn)
    (shared : Proper (testLoop .exact thread own kind turn state)) :
    Aligned lock (testLoop .exact thread own kind turn state) alone := by
  have apart : (places state thread).lock ≠ some lock := by simpa [asleep, Place.lock] using other
  have first : (places state thread).turn = some turn := by rw [asleep]; rfl
  apply elsewhere_aligned aligned thread _ shared _ (test_places .exact state thread own kind turn)
  · simp [test_requested]
  · exact apart
  · split <;> simpa [Place.lock] using other
  · intro waiter wish ticket different waiting hinders
    have second : (places state waiter).turn = some ticket := by rw [waiting]; rfl
    cases free : mustWait state kind turn with
    | true =>
        refine ⟨thread, apart, ?_⟩
        simpa [free, asleep] using hinders
    | false =>
        refine ⟨thread, apart, ?_⟩
        have drawn := waiting_drawn state aligned.shared.toOrdered thread turn first
        have unhindered := mt (mustWait_hindered state aligned.shared.toOrdered
          aligned.shared.toCounted kind turn (Int.le_of_lt drawn)).mpr (by simp [free])
        have notEarlier : ¬ ticket < turn := fun smaller =>
          unhindered ⟨waiter, by simpa [waiting, Place.hinders] using smaller⟩
        have notEqual : ticket ≠ turn := by
          rintro rfl
          exact different (waiting_distinct state aligned.shared.toOrdered waiter thread _ second first)
        simp only [asleep, Place.hinders, decide_eq_true_eq]
        omega

end Moves

section Runs
variable [DecidableEq Thread] [DecidableEq Lock] (counting : Counting) (lock : Lock)

def aimed (state : State Thread Lock) : Action Thread Lock → Bool
  | .beginRead _ own => own = lock
  | .beginWrite _ own => own = lock
  | .wake thread => (places state thread).lock = some lock
  | .endRead _ own => own = lock
  | .endWrite _ own => own = lock

/-- Plays what is done at `lock` in the run of `lock` alone, and erases the rest. -/
def erase (state : State Thread Lock) (action : Action Thread Lock)
    (notes : Option (State Thread Lock)) : Option (State Thread Lock) :=
  if aimed lock state action then notes.bind fun alone => step counting alone action else notes

/-- Whoever this step leaves waiting at `lock`, with nobody else at `lock` in its
way, is not held up by a thread at another lock. -/
def Separate (state : State Thread Lock) : Action Thread Lock → Prop
  | .beginRead thread own =>
      own = lock → Undelayed lock (places state) thread .read state.readOrWritesRequested
  | .beginWrite thread own =>
      own = lock → Undelayed lock (places state) thread .write state.readOrWritesRequested
  | .wake thread => ∀ kind turn, places state thread = .waiting lock kind turn →
      mustWait state kind turn = false → ∀ other wish ticket, other ≠ thread →
        places state other = .waiting lock wish ticket →
          kind = .write ∨ wish = .write ∨ Undelayed lock (places state) thread wish ticket
  | .endRead thread own => own = lock → ∀ other wish ticket, other ≠ thread →
      places state other = .waiting lock wish ticket → Undelayed lock (places state) thread wish ticket
  | .endWrite thread own => own = lock → ∀ other wish ticket, other ≠ thread →
      places state other = .waiting lock wish ticket → Undelayed lock (places state) thread wish ticket

/-- The run of `lock` alone has got as far: the same threads hold it, and those
that wait find their loop condition the same. -/
def Independent (state : State Thread Lock) (notes : Option (State Thread Lock)) : Prop :=
  ∃ alone, notes = some alone ∧
    Reachable (step counting) (fun before action => aimed lock before action = true) initial alone ∧
    (∀ thread kind, state.phase thread = .holding lock kind ↔ alone.phase thread = .holding lock kind) ∧
    (∀ thread kind turn notified, state.phase thread = .waiting lock kind turn notified →
      ∃ own told, alone.phase thread = .waiting lock kind own told ∧
        mustWait state kind turn = mustWait alone kind own) ∧
    ∀ thread kind own told, alone.phase thread = .waiting lock kind own told →
      ∃ turn notified, state.phase thread = .waiting lock kind turn notified

omit lock in
theorem endRead_requested (thread : Thread) (lock : Lock) (state : State Thread Lock) :
    (endRead thread lock state).readOrWritesRequested = state.readOrWritesRequested := by
  simp only [endRead]
  split <;> rfl

omit lock in
theorem endWrite_requested (thread : Thread) (lock : Lock) (state : State Thread Lock) :
    (endWrite thread lock state).readOrWritesRequested = state.readOrWritesRequested := by
  simp only [endWrite]
  split <;> rfl

variable {lock}

/-- An action at `lock` is an action of `lock` alone, any other one does not show. -/
theorem step_aligned (state after alone : State Thread Lock) (action : Action Thread Lock)
    (aligned : Aligned lock state alone) (separate : Separate lock state action)
    (taken : step .exact state action = some after) :
    if aimed lock state action = true then
      aimed lock alone action = true ∧ ∃ left, step .exact alone action = some left ∧
        Aligned lock after left
    else Aligned lock after alone := by
  have shared := step_proper state after action aligned.shared taken
  cases step_stepped .exact state after action taken with
  | beganRead thread own outside =>
      by_cases here : own = lock
      · subst here
        have entered : step .exact alone (.beginRead thread own) =
            some (beginRead .exact thread own alone) := if_pos (mirrored_outside aligned thread outside)
        simp only [aimed, decide_true, ↓reduceIte]
        exact ⟨trivial, _, entered, begin_aligned aligned .read thread outside (separate rfl) shared
          (step_proper alone _ _ aligned.single entered)⟩
      · simp only [aimed, here, decide_false, Bool.false_eq_true, ↓reduceIte]
        exact begin_elsewhere aligned .read thread own here outside shared
  | beganWrite thread own outside =>
      by_cases here : own = lock
      · subst here
        have entered : step .exact alone (.beginWrite thread own) =
            some (beginWrite .exact thread own alone) := if_pos (mirrored_outside aligned thread outside)
        simp only [aimed, decide_true, ↓reduceIte]
        exact ⟨trivial, _, entered, begin_aligned aligned .write thread outside (separate rfl) shared
          (step_proper alone _ _ aligned.single entered)⟩
      · simp only [aimed, here, decide_false, Bool.false_eq_true, ↓reduceIte]
        exact begin_elsewhere aligned .write thread own here outside shared
  | woke thread own kind turn notified asleep =>
      have place : places state thread = .waiting own kind turn :=
        (place_waiting _ _ _ _).mpr ⟨notified, asleep⟩
      by_cases here : own = lock
      · subst here
        obtain ⟨ticket, there⟩ := mirrored_waiting aligned thread kind turn place
        obtain ⟨told, sleeping⟩ := (place_waiting _ _ _ _).mp there
        have entered : step .exact alone (.wake thread) =
            some (testLoop .exact thread own kind ticket alone) := by
          simp only [step, sleeping]
        simp only [aimed, place, there, Place.lock, decide_true, ↓reduceIte]
        exact ⟨trivial, _, entered, wake_aligned aligned kind thread turn ticket place there
          (separate kind turn place) shared (step_proper alone _ _ aligned.single entered)⟩
      · simpa [aimed, place, Place.lock, here] using
          wake_elsewhere aligned kind thread own turn here place shared
  | endedRead thread own holding =>
      by_cases here : own = lock
      · subst here
        have entered : step .exact alone (.endRead thread own) = some (endRead thread own alone) :=
          if_pos ((mirrored_holding aligned thread .read).mp holding)
        simp only [aimed, decide_true, ↓reduceIte]
        exact ⟨trivial, _, entered, leave_aligned aligned thread _ _ shared
          (step_proper alone _ _ aligned.single entered) (separate rfl) (endRead_places state thread own)
          (endRead_places alone thread own) (endRead_requested thread own state)
          (endRead_requested thread own alone)⟩
      · simp only [aimed, here, decide_false, Bool.false_eq_true, ↓reduceIte]
        exact leave_elsewhere aligned thread own .read here holding _ shared
          (endRead_places state thread own) (endRead_requested thread own state)
  | endedWrite thread own holding =>
      by_cases here : own = lock
      · subst here
        have entered : step .exact alone (.endWrite thread own) = some (endWrite thread own alone) :=
          if_pos ((mirrored_holding aligned thread .write).mp holding)
        simp only [aimed, decide_true, ↓reduceIte]
        exact ⟨trivial, _, entered, leave_aligned aligned thread _ _ shared
          (step_proper alone _ _ aligned.single entered) (separate rfl) (endWrite_places state thread own)
          (endWrite_places alone thread own) (endWrite_requested thread own state)
          (endWrite_requested thread own alone)⟩
      · simp only [aimed, here, decide_false, Bool.false_eq_true, ↓reduceIte]
        exact leave_elsewhere aligned thread own .write here holding _ shared
          (endWrite_places state thread own) (endWrite_requested thread own state)

variable (lock)

/-- The two runs, side by side, while nothing at another lock gets in the way. -/
def Beside (both : State Thread Lock × Option (State Thread Lock)) : Prop :=
  ∃ alone, both.2 = some alone ∧
    Reachable (step counting) (fun before action => aimed lock before action = true) initial alone ∧
    Aligned lock both.1 alone

omit [DecidableEq Thread] [DecidableEq Lock] in
theorem initial_aligned : Aligned lock (initial : State Thread Lock) initial where
  shared := { toOrdered := initial_ordered, toCounted := initial_counted }
  single := { toOrdered := initial_ordered, toCounted := initial_counted }
  fewer := Int.le_refl _
  mirrored := ⟨fun _ => .elsewhere (by simp [places, initial, Phase.place, Place.lock]),
    by simp [places, initial, Phase.place, Place.turn]⟩
  fair := by
    intro thread kind turn waiting
    cases waiting

theorem step_beside (before after : State Thread Lock × Option (State Thread Lock))
    (action : Action Thread Lock) (beside : Beside counting lock before)
    (permitted : unwrapped counting before.1 action = true ∧ Separate lock before.1 action)
    (taken : observed (step counting) (erase counting lock) before action = some after) :
    Beside counting lock after := by
  obtain ⟨state, notes⟩ := before
  obtain ⟨alone, rfl, reached, aligned⟩ := beside
  obtain ⟨next, following⟩ := after
  obtain ⟨moved, noted⟩ := observed_taken _ _ _ _ _ taken
  simp only at moved noted
  have fits := of_decide_eq_true permitted.1
  rw [step_unwrapped counting _ state aligned.shared fits action (Int.le_refl _)] at moved
  have kept := step_aligned state next alone action aligned permitted.2 moved
  unfold erase at noted
  split at kept
  · rename_i here
    obtain ⟨also, left, played, kept⟩ := kept
    have exactly := step_unwrapped counting _ alone aligned.single fits action
      (Int.add_le_add_right aligned.fewer _)
    rw [← exactly] at played
    refine ⟨left, ?_, .next action reached also played, kept⟩
    simpa [here, played] using noted
  · rename_i away
    exact ⟨alone, by simpa [away] using noted, reached, kept⟩

theorem beside_independent (state : State Thread Lock) (notes : Option (State Thread Lock))
    (beside : Beside counting lock (state, notes)) : Independent counting lock state notes := by
  obtain ⟨alone, noted, reached, aligned⟩ := beside
  refine ⟨alone, noted, reached, mirrored_holding aligned, ?_, ?_⟩
  · intro thread kind turn notified asleep
    have place : places state thread = .waiting lock kind turn :=
      (place_waiting _ _ _ _).mpr ⟨notified, asleep⟩
    obtain ⟨own, there⟩ := mirrored_waiting aligned thread kind turn place
    obtain ⟨told, sleeping⟩ := (place_waiting _ _ _ _).mp there
    exact ⟨own, told, sleeping, waiting_agree aligned thread kind turn own place there⟩
  · intro thread kind own told sleeping
    have there : places alone thread = .waiting lock kind own :=
      (place_waiting _ _ _ _).mpr ⟨told, sleeping⟩
    have same := aligned.mirrored.matching thread
    generalize placed : places state thread = here at same
    rw [there] at same
    cases same
    obtain ⟨notified, asleep⟩ := (place_waiting _ _ _ _).mp placed
    exact ⟨_, notified, asleep⟩

/-- In every run in which no thread at `lock` is ever held up by threads at other
locks only, what happens at the other locks makes no difference at `lock`. -/
theorem lock_independent (state : State Thread Lock) (notes : Option (State Thread Lock))
    (reached : Reachable (observed (step counting) (erase counting lock))
      (fun both action => unwrapped counting both.1 action = true ∧ Separate lock both.1 action)
      (initial, some initial) (state, notes)) : Independent counting lock state notes := by
  have beside := reachable_invariant (Beside counting lock)
    ⟨initial, rfl, .start, initial_aligned lock⟩
    (fun before action after beside permitted taken =>
      step_beside counting lock before after action beside permitted taken) reached
  exact beside_independent counting lock state notes beside

-- Readers at two lock objects do not meet.
theorem lock_independent_readers :
    unwrapped .int32 (initial : State Bool Bool) (.beginRead false false) = true ∧
      ∃ state notes, Independent .int32 true (state : State Bool Bool) notes ∧
        state.phase true = .holding true .read := by
  refine ⟨by decide, _, _, lock_independent .int32 true _ _ (.next (.beginRead true true)
    (.next (.beginRead false false) .start ⟨by decide, ?_⟩ rfl) ⟨by decide, ?_⟩ rfl), rfl⟩
  · intro same
    cases same
  · rintro - ⟨thread, apart, hinders⟩
    cases thread
    · cases hinders
    · cases hinders

/-- A writer inside one lock object keeps a reader out of another one. -/
theorem lock_dependent : ∃ state notes,
    Reachable (observed (step .int32) (erase .int32 true)) (fun _ _ => True)
      ((initial : State Bool Bool), some initial) (state, notes) ∧
    ¬ Independent .int32 true state notes := by
  refine ⟨_, _, .next (.beginRead true true) (.next (.beginWrite false false) .start trivial rfl)
    trivial rfl, ?_⟩
  rintro ⟨alone, noted, _, held, _⟩
  cases noted
  have outside := (held true .read).mpr rfl
  cases outside

end Runs

end EE360P.FairReadWriteLock
