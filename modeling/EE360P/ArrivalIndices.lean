import EE360P.MonitorBarrier

/-! What `MonitorCyclicBarrier.await` returns. A call decrements the vacancies when
it enters and reads them when it leaves the monitor. The last call of a round has
refilled them by then, so no call ever finds them at 0. -/

namespace EE360P.MonitorBarrier
open JavaText ListEntries GuardedRuns

variable {Thread : Type}

section Rounds
variable (size : Nat)

/-- The calls of a round, in the order of entering the monitor. -/
def roundCalls (state : State Thread) (round : Nat) : List (Call Thread) :=
  (state.calls.drop (round * size)).take size

/-- The round is over, and its calls have returned these values. -/
def RoundReturned (state : State Thread) (round : Nat) (values : List Int) : Prop :=
  values.length = size ∧ (roundCalls size state round).map Call.phase = values.map .returned

instance (state : State Thread) (round : Nat) (values : List Int) :
    Decidable (RoundReturned size state round values) := inferInstanceAs (Decidable (_ ∧ _))

/-- The values are 0 to `size - 1`, each once, and the last caller to arrive gets 0. -/
def ArrivalIndices (values : List Int) : Prop :=
  values.Perm ((List.range size).map Int.ofNat) ∧ values.getLast? = some 0

instance (values : List Int) : Decidable (ArrivalIndices size values) :=
  inferInstanceAs (Decidable (_ ∧ _))

structure Counted (state : State Thread) : Prop where
  sized : state.barrierSize = size
  vacancies : state.currentBarrierVacancies = size - (state.calls.length % size : Nat)
  seen : ∀ (number : Nat) thread value, state.calls[number]? = some ⟨thread, .returned value⟩ →
    1 ≤ value ∧ value ≤ size
  last : ∀ (number : Nat) call, state.calls[number]? = some call → (number + 1) % size = 0 →
    call.phase = .returned size

theorem initial_counted : Counted size (initial size : State Thread) := by
  constructor <;> simp [initial]

end Rounds

section Sections
variable {size : Nat} (counting : Counting)

theorem last_counted (thread : Thread) (state : State Thread) (positive : 1 ≤ size)
    (counted : Counted size state) (last : state.calls.length % size + 1 = size) :
    Counted size (await counting thread state) := by
  have nextPlace := (group_last state.calls.length last).2
  rw [await_last counting thread state counted.vacancies last]
  simp only [enter, tripBarrier, updateResets, resetCurrentBarrierCapacity, counted.sized]
  constructor
  · rfl
  · simp [nextPlace]
  · intro number other value entered
    rcases (snoc_entry _ _ _ _).mp entered with earlier | ⟨_, own⟩
    · exact counted.seen number other value ((woken_returned _ _ _ _).mp earlier)
    · cases own
      omega
  · intro number call entered closing
    rcases (snoc_entry _ _ _ _).mp entered with earlier | ⟨_, own⟩
    · simp only [List.getElem?_map, Option.map_eq_some_iff] at earlier
      obtain ⟨before, present, rfl⟩ := earlier
      rw [counted.last number before present closing, Phase.wakened]
    · exact own ▸ rfl

theorem inner_counted (thread : Thread) (state : State Thread) (positive : 1 ≤ size)
    (counted : Counted size state) (inner : state.calls.length % size + 1 ≠ size) :
    Counted size (await counting thread state) := by
  have nextPlace := (group_inner state.calls.length positive inner).2
  have vacancies := counted.vacancies
  rw [await_inner counting thread state vacancies inner, enter]
  constructor
  · exact counted.sized
  · simp only [List.length_append, List.length_singleton, nextPlace, vacancies]
    omega
  · intro number other value entered
    rcases (snoc_entry _ _ _ _).mp entered with earlier | ⟨_, own⟩
    · exact counted.seen number other value earlier
    · cases own
  · intro number call entered closing
    rcases (snoc_entry _ _ _ _).mp entered with earlier | ⟨place, _⟩
    · exact counted.last number call earlier closing
    · rw [place, nextPlace] at closing
      cases closing

/-- A sleeper that leaves finds between 1 and `size` vacancies. -/
theorem wake_counted (thread : Thread) (state : State Thread) (number : Nat) (snapshot : Int)
    (notified : Bool) (positive : 1 ≤ size) (counted : Counted size state)
    (asleep : state.calls[number]? = some ⟨thread, .waiting snapshot notified⟩) :
    Counted size { state with
      calls := state.calls.set number ⟨thread, testLoop state snapshot⟩ } := by
  constructor
  · exact counted.sized
  · simpa using counted.vacancies
  · intro other sleeper value found
    rcases set_entry _ _ _ _ _ found with ⟨_, own⟩ | earlier
    · simp only [testLoop] at own
      split at own
      · cases own
      · cases own
        have bounded := Nat.mod_lt state.calls.length positive
        have vacancies := counted.vacancies
        omega
    · exact counted.seen other sleeper value earlier
  · intro other call found closing
    rcases set_entry _ _ _ _ _ found with ⟨rfl, _⟩ | earlier
    · have returned := counted.last other _ asleep closing
      cases returned
    · exact counted.last other call earlier closing

theorem step_counted [DecidableEq Thread] (positive : 1 ≤ size) (before after : State Thread)
    (action : Action Thread) (counted : Counted size before)
    (taken : step counting before action = some after) : Counted size after := by
  cases action with
  | await thread =>
      simp only [step, Option.ite_none_left_eq_some, Option.some.injEq] at taken
      obtain ⟨_, rfl⟩ := taken
      by_cases last : before.calls.length % size + 1 = size
      · exact last_counted counting thread before positive counted last
      · exact inner_counted counting thread before positive counted last
  | wake number =>
      simp only [step] at taken
      split at taken
      · rename_i thread snapshot notified asleep
        cases taken
        exact wake_counted thread before number snapshot notified positive counted asleep
      · cases taken

end Sections

section Values
variable {size : Nat}

theorem round_entry (state : State Thread) (round place : Nat) (values : List Int) (value : Int)
    (ended : RoundReturned size state round values) (found : values[place]? = some value) :
    ∃ thread, state.calls[round * size + place]? = some ⟨thread, .returned value⟩ := by
  have inside : place < size := ended.1 ▸ (List.getElem?_eq_some_iff.mp found).1
  have phases := congrArg (fun phases => phases[place]?) ended.2
  simp only [List.getElem?_map, found, Option.map_some, roundCalls, List.getElem?_take,
    if_pos inside, List.getElem?_drop, Option.map_eq_some_iff] at phases
  obtain ⟨⟨thread, phase⟩, present, same⟩ := phases
  exact ⟨thread, same ▸ present⟩

theorem refilled_values (positive : 1 ≤ size) (state : State Thread) (counted : Counted size state)
    (round : Nat) (values : List Int) (ended : RoundReturned size state round values) :
    values.getLast? = some (size : Int) ∧ ∀ value ∈ values, 1 ≤ value ∧ value ≤ size := by
  constructor
  · have inside : size - 1 < values.length := by
      have sized := ended.1
      omega
    have found := List.getElem?_eq_getElem inside
    obtain ⟨thread, present⟩ := round_entry state round (size - 1) values _ ended found
    have closing : (round * size + (size - 1) + 1) % size = 0 := by
      rw [Nat.add_assoc, Nat.sub_add_cancel positive, Nat.mul_add_mod_self_right, Nat.mod_self]
    have own := counted.last _ _ present closing
    simp only [Phase.returned.injEq] at own
    rw [List.getLast?_eq_getElem?, ended.1, found, own]
  · intro value member
    obtain ⟨place, found⟩ := List.mem_iff_getElem?.mp member
    obtain ⟨thread, present⟩ := round_entry state round place values value ended found
    exact counted.seen _ thread value present

end Values

/-! Rounds that end: one thread for each place enters, and then all sleepers run. -/
section Filling
variable (size : Nat) (counting : Counting)

def filling (entered : Nat) : State Nat :=
  ⟨size, size - entered, 0, (List.range entered).map fun thread => ⟨thread, .waiting 0 false⟩⟩

def emptying (woken : Nat) : State Nat :=
  ⟨size, size, counting.wrap 1, (List.range (size - 1)).map (fun thread =>
    ⟨thread, if thread < woken then .returned size else .waiting 0 true⟩) ++
      [⟨size - 1, .returned size⟩]⟩

variable {size}

theorem filling_free (entered : Nat) :
    ((filling size entered).calls.any fun call => call.thread = entered && Asleep call) = false := by
  rw [List.any_eq_false]
  intro call member
  obtain ⟨thread, earlier, rfl⟩ := List.mem_map.mp member
  have other : thread ≠ entered := Nat.ne_of_lt (List.mem_range.mp earlier)
  simp [other]

theorem filling_reached (entered : Nat) (inner : entered < size) :
    Reachable (step counting) (fun _ _ => True) (initial size) (filling size entered) := by
  induction entered with
  | zero =>
      have start : filling size 0 = initial size := by simp [filling, initial]
      exact start ▸ .start
  | succ entered ih =>
      refine .next (.await entered) (ih (by omega)) trivial ?_
      have place : (filling size entered).calls.length % size = entered := by
        simp [filling, Nat.mod_eq_of_lt (show entered < size by omega)]
      have entering := await_inner counting entered (filling size entered)
        (by rw [place]; rfl) (by omega)
      simp only [step, filling_free, Bool.false_eq_true, ↓reduceIte, entering, Option.some.injEq]
      simp [enter, filling, List.range_succ]
      omega

theorem emptying_start (positive : 1 ≤ size) :
    Reachable (step counting) (fun _ _ => True) (initial size) (emptying size counting 0) := by
  refine .next (.await (size - 1)) (filling_reached counting (size - 1) (by omega)) trivial ?_
  have place : (filling size (size - 1)).calls.length % size = size - 1 := by
    simp [filling, Nat.mod_eq_of_lt (show size - 1 < size by omega)]
  have entering := await_last counting (size - 1) (filling size (size - 1))
    (by rw [place]; rfl) (by omega)
  simp only [step, filling_free, Bool.false_eq_true, ↓reduceIte, entering, Option.some.injEq]
  simp [enter, tripBarrier, updateResets, resetCurrentBarrierCapacity, filling, emptying,
    Phase.wakened]

theorem emptying_reached (positive : 1 ≤ size) (woken : Nat) (inner : woken < size) :
    Reachable (step counting) (fun _ _ => True) (initial size) (emptying size counting woken) := by
  induction woken with
  | zero => exact emptying_start counting positive
  | succ woken ih =>
      refine .next (.wake woken) (ih (by omega)) trivial ?_
      have early : woken < size - 1 := by omega
      have place : (emptying size counting woken).calls[woken]? = some ⟨woken, .waiting 0 true⟩ := by
        rw [emptying, List.getElem?_append_left (by simpa using early)]
        simp [early]
      have tripped : mustSleep (emptying size counting woken) 0 = false := by
        cases counting <;> rfl
      simp only [step, place, testLoop, tripped, Bool.false_eq_true, ↓reduceIte, Option.some.injEq]
      simp only [emptying, State.mk.injEq, true_and]
      rw [List.set_append_left _ _ (by simpa using early), List.append_cancel_right_eq]
      apply List.ext_getElem (by simp)
      intro thread _ _
      rw [List.getElem_set]
      by_cases own : woken = thread
      · simp [own]
      · have same : (thread < woken + 1) = (thread < woken) := propext (by omega)
        simp only [own, ↓reduceIte, List.getElem_map, List.getElem_range, same]

/-- For every size there is a run in which a round is over. -/
theorem round_ends (positive : 1 ≤ size) : ∃ state values,
    Reachable (step counting) (fun _ _ => True) (initial size : State Nat) state ∧
      RoundReturned size state 0 values := by
  refine ⟨_, List.replicate size (size : Int),
    emptying_reached counting positive (size - 1) (by omega), List.length_replicate, ?_⟩
  rw [List.map_replicate, List.eq_replicate_iff]
  constructor
  · simp only [roundCalls, emptying, Nat.zero_mul, List.drop_zero, List.length_map,
      List.length_take, List.length_append, List.length_range, List.length_singleton]
    omega
  · intro phase member
    obtain ⟨call, present, rfl⟩ := List.mem_map.mp member
    rw [roundCalls, Nat.zero_mul, List.drop_zero] at present
    rcases List.mem_append.mp (List.mem_of_mem_take present) with early | last
    · obtain ⟨thread, earlier, rfl⟩ := List.mem_map.mp early
      exact if_pos (List.mem_range.mp earlier)
    · rw [List.mem_singleton.mp last]

end Filling

section Runs
variable [DecidableEq Thread]

/-- In every run and every round of it that is over, the last caller has returned
`size` and no caller 0: the values are never the arrival indices. Every size has such
a round. -/
theorem await_sees_refill (counting : Counting) (size : Nat) (positive : 1 ≤ size) :
    (∀ state : State Thread,
      Reachable (step counting) (fun _ _ => True) (initial size) state →
        ∀ round values, RoundReturned size state round values →
          values.getLast? = some (size : Int) ∧ (∀ value ∈ values, 1 ≤ value ∧ value ≤ size) ∧
            ¬ ArrivalIndices size values) ∧
    ∃ (state : State Nat) (values : List Int),
      Reachable (step counting) (fun _ _ => True) (initial size) state ∧
        RoundReturned size state 0 values := by
  refine ⟨fun state reached round values ended => ?_, round_ends counting positive⟩
  have counted := reachable_invariant (Counted size) (initial_counted size)
    (fun before action after counted _ taken =>
      step_counted counting positive before after action counted taken) reached
  obtain ⟨last, bounds⟩ := refilled_values positive state counted round values ended
  refine ⟨last, bounds, ?_⟩
  rintro ⟨_, zero⟩
  rw [last, Option.some.injEq] at zero
  omega

-- The first caller runs again only after a third one has entered the next round.
theorem await_sees_refill_overtaken :
    1 ≤ 2 ∧ ∃ state : State Nat, Reachable (step .exact) (fun _ _ => True) (initial 2) state ∧
      RoundReturned 2 state 0 [1, 2] ∧ [(1 : Int), 2].getLast? = some 2 ∧
      (∀ value ∈ [(1 : Int), 2], 1 ≤ value ∧ value ≤ 2) ∧ ¬ ArrivalIndices 2 [1, 2] := by
  refine ⟨by decide, ?_⟩
  obtain ⟨state, played, ended⟩ : ∃ state, replay (step .exact) (fun _ _ => True)
      (initial (2 : Nat)) [.await 0, .await 1, .await 2, .wake 0] = some state ∧
      RoundReturned 2 state 0 [1, 2] := ⟨_, rfl, by decide⟩
  have reached := replayed _ _ played
  have sees := (await_sees_refill .exact 2 (by decide)).1 state reached 0 [1, 2] ended
  exact ⟨state, reached, ended, sees⟩

/-- Two threads meet, and both calls return 2. -/
theorem round_returns_sizes : ∃ state : State Nat,
    Reachable (step .exact) (fun _ _ => True) (initial (2 : Nat)) state ∧
      RoundReturned 2 state 0 [2, 2] ∧ ¬ ArrivalIndices 2 [2, 2] := by
  obtain ⟨state, played, ended⟩ : ∃ state, replay (step .exact) (fun _ _ => True)
      (initial (2 : Nat)) [.await 0, .await 1, .wake 0] = some state ∧
      RoundReturned 2 state 0 [2, 2] := ⟨_, rfl, by decide⟩
  exact ⟨state, replayed _ _ played, ended, by decide⟩

end Runs

end EE360P.MonitorBarrier
