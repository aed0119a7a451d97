import EE360P.LockWakeups

/-! Who keeps whom waiting. The counters of the lock say no more than where the
threads are: a call must wait exactly when a thread inside is in its way or a
smaller ticket waits, and that thread may be at any lock object, since the
counters are static. -/

namespace EE360P.FairReadWriteLock
open JavaText GuardedRuns

variable {Thread Lock : Type}

/-- What a phase says to the other threads. -/
inductive Place (Lock : Type) where
  | outside
  | waiting (lock : Lock) (kind : Kind) (thisThreadTurn : Int)
  | holding (lock : Lock) (kind : Kind)
  deriving DecidableEq, Repr

def Phase.place : Phase Lock → Place Lock
  | .outside => .outside
  | .waiting lock kind turn _ => .waiting lock kind turn
  | .holding lock kind => .holding lock kind

def Place.lock : Place Lock → Option Lock
  | .outside => none
  | .waiting lock _ _ => some lock
  | .holding lock _ => some lock

def Place.turn : Place Lock → Option Int
  | .waiting _ _ turn => some turn
  | _ => none

/-- Whether a thread at this place keeps a call with this ticket waiting. -/
def Place.hinders (kind : Kind) (turn : Int) : Place Lock → Bool
  | .outside => false
  | .waiting _ _ own => own < turn
  | .holding _ own => own = .write || kind = .write

def places (state : State Thread Lock) (thread : Thread) : Place Lock := (state.phase thread).place

section Places

theorem place_outside (phase : Phase Lock) : phase.place = .outside ↔ phase = .outside := by
  cases phase <;> simp [Phase.place]

theorem place_holding (phase : Phase Lock) (lock : Lock) (kind : Kind) :
    phase.place = .holding lock kind ↔ phase = .holding lock kind := by
  cases phase <;> simp [Phase.place]

theorem place_waiting (phase : Phase Lock) (lock : Lock) (kind : Kind) (turn : Int) :
    phase.place = .waiting lock kind turn ↔ ∃ notified, phase = .waiting lock kind turn notified := by
  cases phase <;> simp [Phase.place]

@[simp] theorem places_notifyAll [DecidableEq Lock] (lock : Lock) (state : State Thread Lock) :
    places (notifyAll lock state) = places state := by
  funext thread
  simp only [places, notifyAll]
  cases state.phase thread <;> rfl

@[simp] theorem places_setPhase [DecidableEq Thread] (thread : Thread) (phase : Phase Lock)
    (state : State Thread Lock) :
    places (setPhase thread phase state) = Function.update (places state) thread phase.place := by
  funext other
  by_cases self : other = thread
  · simp [places, setPhase, self]
  · simp [places, setPhase, self]

@[simp] theorem places_countIn (kind : Kind) (state : State Thread Lock) :
    places (countIn kind state) = places state := by
  funext thread
  simp [places]

variable [DecidableEq Thread] [DecidableEq Lock] (counting : Counting)

theorem test_places (state : State Thread Lock) (thread : Thread) (lock : Lock) (kind : Kind)
    (turn : Int) : places (testLoop counting thread lock kind turn state) =
      Function.update (places state) thread
        (if mustWait state kind turn then .waiting lock kind turn else .holding lock kind) := by
  unfold testLoop
  split
  · simp [Phase.place]
  · simp only [places_notifyAll, places_setPhase, places_countIn, Phase.place]
    rfl

theorem begin_places (state : State Thread Lock) (thread : Thread) (lock : Lock) (kind : Kind) :
    places (beginKind counting kind thread lock state) = Function.update (places state) thread
      (if mustWait state kind state.readOrWritesRequested then
        .waiting lock kind state.readOrWritesRequested else .holding lock kind) :=
  test_places counting _ thread lock kind _

theorem endRead_places (state : State Thread Lock) (thread : Thread) (lock : Lock) :
    places (endRead thread lock state) = Function.update (places state) thread .outside := by
  simp only [endRead]
  split
  · rw [places_notifyAll, places_setPhase]
    rfl
  · rw [places_setPhase]
    rfl

theorem endWrite_places (state : State Thread Lock) (thread : Thread) (lock : Lock) :
    places (endWrite thread lock state) = Function.update (places state) thread .outside := by
  simp only [endWrite]
  split
  · rw [places_notifyAll, places_setPhase]
    rfl
  · rw [places_setPhase]
    rfl

end Places

section Hindrance

theorem hinders_inside (place : Place Lock) (kind : Kind) (turn : Int) (lock : Lock) (own : Kind)
    (holding : place = .holding lock own) :
    place.hinders kind turn = true ↔ own = .write ∨ kind = .write := by
  simp [holding, Place.hinders]

theorem tally_some (state : State Thread Lock) (kind : Kind) (count : Int)
    (tally : Tally state kind count) : 0 < count ↔ ∃ thread, Holds state kind thread := by
  obtain ⟨inside, members, total⟩ := tally
  rw [total, Int.natCast_pos, Finset.card_pos]
  exact ⟨fun ⟨thread, member⟩ => ⟨thread, (members thread).mp member⟩,
    fun ⟨thread, holds⟩ => ⟨thread, (members thread).mpr holds⟩⟩

theorem violated_hindered (state : State Thread Lock) (counted : Counted state) (kind : Kind) :
    violated state kind = true ↔
      ∃ thread own, Holds state own thread ∧ (own = .write ∨ kind = .write) := by
  have readers := tally_some state .read _ counted.readers
  have writers := tally_some state .write _ counted.writers
  cases kind with
  | read =>
      simp only [violated, readRequirementsViolated, gt_iff_lt, decide_eq_true_eq, writers]
      constructor
      · rintro ⟨thread, holds⟩
        exact ⟨thread, .write, holds, Or.inl rfl⟩
      · rintro ⟨thread, own, holds, rfl | wrong⟩
        · exact ⟨thread, holds⟩
        · cases wrong
  | write =>
      simp only [violated, writeRequirementsViolated, gt_iff_lt, Bool.or_eq_true, decide_eq_true_eq,
        readers, writers]
      constructor
      · rintro (⟨thread, holds⟩ | ⟨thread, holds⟩)
        · exact ⟨thread, .read, holds, Or.inr trivial⟩
        · exact ⟨thread, .write, holds, Or.inr trivial⟩
      · rintro ⟨thread, own, holds, _⟩
        cases own with
        | read => exact Or.inl ⟨thread, holds⟩
        | write => exact Or.inr ⟨thread, holds⟩

theorem waiting_ticket (state : State Thread Lock) (thread : Thread) (turn : Int)
    (waiting : (places state thread).turn = some turn) :
    ∃ kind, Waits state ⟨thread, kind, turn⟩ := by
  unfold places at waiting
  cases phase : state.phase thread with
  | outside => simp [phase, Phase.place, Place.turn] at waiting
  | holding => simp [phase, Phase.place, Place.turn] at waiting
  | waiting lock kind own notified =>
      simp only [phase, Phase.place, Place.turn, Option.some.injEq] at waiting
      exact ⟨kind, lock, notified, waiting ▸ phase⟩

theorem turn_hindered (state : State Thread Lock) (ordered : Ordered state) (turn : Int)
    (drawn : turn ≤ state.readOrWritesRequested) :
    state.overallTurn < turn ↔ ∃ thread own, (places state thread).turn = some own ∧ own < turn := by
  have turned := ordered.turned
  have requested := ordered.requested
  constructor
  · intro later
    have inside : state.completed.length < state.drawn.length := by omega
    obtain ⟨first, here⟩ : ∃ first, state.drawn[state.completed.length]? = some first :=
      ⟨_, List.getElem?_eq_getElem inside⟩
    have number := ordered.numbered _ first here
    obtain ⟨lock, notified, asleep⟩ := (ordered.pending first).mpr ⟨_, here, Nat.le_refl _⟩
    exact ⟨first.thread, first.turn, by simp [places, asleep, Phase.place, Place.turn], by omega⟩
  · rintro ⟨thread, own, waiting, smaller⟩
    obtain ⟨kind, waits⟩ := waiting_ticket state thread own waiting
    obtain ⟨n, there, late⟩ := (ordered.pending _).mp waits
    have number := ordered.numbered n _ there
    simp only at number
    omega

/-- The loop condition in terms of the other threads. -/
theorem mustWait_hindered (state : State Thread Lock) (ordered : Ordered state)
    (counted : Counted state) (kind : Kind) (turn : Int)
    (drawn : turn ≤ state.readOrWritesRequested) :
    mustWait state kind turn = true ↔ ∃ thread, (places state thread).hinders kind turn = true := by
  rw [mustWait, Bool.or_eq_true, decide_eq_true_eq, violated_hindered state counted,
    turn_hindered state ordered turn drawn]
  constructor
  · rintro (⟨thread, own, ⟨lock, holding⟩, conflict⟩ | ⟨thread, own, waiting, smaller⟩)
    · exact ⟨thread, (hinders_inside _ kind turn lock own
        ((place_holding _ _ _).mpr holding)).mpr conflict⟩
    · refine ⟨thread, ?_⟩
      cases place : places state thread with
      | outside => simp [place, Place.turn] at waiting
      | holding => simp [place, Place.turn] at waiting
      | waiting lock wish ticket =>
          simp only [place, Place.turn, Option.some.injEq] at waiting
          simpa [Place.hinders, waiting] using smaller
  · rintro ⟨thread, hinders⟩
    cases place : places state thread with
    | outside => simp [place, Place.hinders] at hinders
    | holding lock own =>
        exact Or.inl ⟨thread, own, ⟨lock, (place_holding _ _ _).mp place⟩,
          (hinders_inside _ kind turn lock own place).mp hinders⟩
    | waiting lock wish ticket =>
        exact Or.inr ⟨thread, ticket, by simp [place, Place.turn],
          by simpa [place, Place.hinders] using hinders⟩

-- Every ticket that waits was drawn before now, and two threads never share one.
theorem waiting_drawn (state : State Thread Lock) (ordered : Ordered state) (thread : Thread)
    (turn : Int) (waiting : (places state thread).turn = some turn) :
    turn < state.readOrWritesRequested := by
  obtain ⟨kind, waits⟩ := waiting_ticket state thread turn waiting
  obtain ⟨n, there, _⟩ := (ordered.pending _).mp waits
  have number := ordered.numbered n _ there
  have inside := (List.getElem?_eq_some_iff.mp there).1
  have requested := ordered.requested
  simp only at number
  omega

theorem waiting_distinct (state : State Thread Lock) (ordered : Ordered state)
    (left right : Thread) (turn : Int) (first : (places state left).turn = some turn)
    (second : (places state right).turn = some turn) : left = right := by
  obtain ⟨_, leftWaits⟩ := waiting_ticket state left turn first
  obtain ⟨_, rightWaits⟩ := waiting_ticket state right turn second
  obtain ⟨n, here, _⟩ := (ordered.pending _).mp leftWaits
  obtain ⟨m, there, _⟩ := (ordered.pending _).mp rightWaits
  have same : n = m := by
    have leftNumber := ordered.numbered n _ here
    have rightNumber := ordered.numbered m _ there
    simp only at leftNumber rightNumber
    omega
  rw [same, there] at here
  exact (congrArg Ticket.thread (Option.some.inj here)).symm

end Hindrance

end EE360P.FairReadWriteLock
