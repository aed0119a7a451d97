import EE360P.ForkedTasks
import EE360P.SortedRanges

/-! `PSort` on its executor. A `SubArray` task keeps its worker until the `get` of
its last fork returns, so a call needs as many workers as tasks are nested in one
another. How deep they are nested is decided by the partitions: an array whose
middle entry is the largest one at every level loses a single entry at each. Sums of
indices are Java `int`s, so far behind in a long array a pivot choice throws. -/

namespace EE360P.PSort
open JavaText SortedPrefixes ForkedTasks

variable {Value : Type} [LinearOrder Value]

section Tasks

/-- `Executors.newFixedThreadPool(10000)` -/
def executorWorkers : Nat := 10000

/-- `SubArray.run` up to its `submit` calls: the array that it leaves, and the ranges
that it submits, waiting for each of them in turn. -/
def work (task : Int × Int) (subArray : List Value) : List Value × List (Int × Int) :=
  let (begin, end_) := task
  if isEdgeCase subArray begin end_ then (subArray, [])
  else if (end_ - begin).natAbs < 4 then (get (insertSort begin end_ subArray), [])
  else
    match read subArray (midpointOf .int32 begin end_) with
    | none => (subArray, [])
    | some pivotValue =>
        match partition pivotValue begin end_ subArray with
        | .error thrown => (thrown, [])
        | .ok (lowerBound, upperBound, parted) =>
            (parted, (if begin < upperBound then [(begin, upperBound)] else []) ++
              if end_ > lowerBound then [(lowerBound, end_)] else [])

/-- What `parallelSort` submits, and waits for without a worker of the pool. -/
def submitted (array : List Value) (begin end_ : Int) : Stage (Int × Int) :=
  if isEdgeCase array begin end_ then .finished else .queued (begin, end_ - 1)

/-- How many ranges are nested in one another when a range is parted down to ranges of
at most four entries, each greater part once the lesser part is in order. -/
def nesting (begin end_ : Int) (subArray : List Value) : Nat :=
  if isEdgeCase subArray begin end_ then 1
  else if (end_ - begin).natAbs < 4 then 1
  else
    match read subArray (midpointOf .int32 begin end_) with
    | none => 1
    | some pivotValue =>
        match partition pivotValue begin end_ subArray with
        | .error _ => 1
        | .ok (lowerBound, upperBound, parted) =>
            if _narrow : begin < lowerBound ∧ upperBound < end_ then
              1 + max (if begin < upperBound then nesting begin upperBound parted else 0)
                (if end_ > lowerBound then
                  nesting lowerBound end_ (sortRange begin.toNat (upperBound + 1).toNat parted)
                else 0)
            else 1
termination_by (end_ - begin).toNat
decreasing_by
  all_goals omega

theorem work_edge (begin end_ : Int) (subArray : List Value) (narrow : end_ ≤ begin) :
    work (begin, end_) subArray = (subArray, []) := by
  simp [work, isEdgeCase, narrow]

theorem nesting_edge (begin end_ : Int) (subArray : List Value) (narrow : end_ ≤ begin) :
    nesting begin end_ subArray = 1 := by
  rw [nesting]
  simp [isEdgeCase, narrow]

section Ranges
variable (begin end_ : Nat) (subArray : List Value) (within : end_ < subArray.length)
include within

theorem work_short (wide : begin < end_) (short : end_ < begin + 4) :
    work ((begin : Int), (end_ : Int)) subArray = (get (insertSort begin end_ subArray), []) := by
  have small : ((end_ : Int) - begin).natAbs < 4 := by omega
  simp [work, inner_case begin end_ subArray within wide, small]

theorem nesting_short (wide : begin < end_) (short : end_ < begin + 4) :
    nesting begin end_ subArray = 1 := by
  have small : ((end_ : Int) - begin).natAbs < 4 := by omega
  rw [nesting]
  simp [inner_case begin end_ subArray within wide, small]

section Far
variable (far : midpointOf .int32 begin end_ < 0) (long : begin + 4 ≤ end_)
include far long

theorem work_far : work ((begin : Int), (end_ : Int)) subArray = (subArray, []) := by
  have large : ¬ ((end_ : Int) - begin).natAbs < 4 := by omega
  have missing : read subArray (midpointOf .int32 begin end_) = none := by
    rw [read, if_neg (by omega)]
  simp only [work, inner_case begin end_ subArray within (by omega), Bool.false_eq_true, large, ↓reduceIte,
    missing]

theorem nesting_far : nesting begin end_ subArray = 1 := by
  have large : ¬ ((end_ : Int) - begin).natAbs < 4 := by omega
  have missing : read subArray (midpointOf .int32 begin end_) = none := by
    rw [read, if_neg (by omega)]
  rw [nesting]
  simp only [inner_case begin end_ subArray within (by omega), Bool.false_eq_true, large, ↓reduceIte, missing]

end Far

section Long
variable (fits : Fits .int32 begin end_) (long : begin + 4 ≤ end_) (pivotValue : Value) (lower upper : Int)
variable (parted : List Value) (found : read subArray (midpointOf .int32 begin end_) = some pivotValue)
variable (splits : partition pivotValue begin end_ subArray = .ok (lower, upper, parted))
include long found splits

theorem work_long : work ((begin : Int), (end_ : Int)) subArray =
    (parted, (if (begin : Int) < upper then [((begin : Int), upper)] else []) ++
      if lower < end_ then [(lower, (end_ : Int))] else []) := by
  have large : ¬ ((end_ : Int) - begin).natAbs < 4 := by omega
  simp only [work, inner_case begin end_ subArray within (by omega), Bool.false_eq_true, large,
    ↓reduceIte, found, splits, gt_iff_lt]

include fits in
theorem nesting_long : nesting begin end_ subArray =
    1 + max (if (begin : Int) < upper then nesting begin upper parted else 0)
      (if lower < end_ then nesting lower end_ (sortRange begin (upper + 1).toNat parted) else 0) := by
  have large : ¬ ((end_ : Int) - begin).natAbs < 4 := by omega
  have narrow := run_narrows .int32 subArray begin end_ lower upper pivotValue parted fits (by omega) found
    splits
  rw [nesting]
  simp only [inner_case begin end_ subArray within (by omega), Bool.false_eq_true, large, ↓reduceIte, found,
    splits, narrow, and_self, ↓reduceDIte, gt_iff_lt, Int.toNat_natCast]

end Long

end Ranges

end Tasks

section Nesting

theorem sortRange_length (first stop : Nat) (values : List Value) (order : first ≤ stop)
    (within : stop ≤ values.length) : (sortRange first stop values).length = values.length := by
  simp only [sortRange, List.length_append, List.length_take, List.length_insertionSort,
    List.length_drop]
  omega

/-- A range is parted at least one entry off at every level, down to four entries. -/
theorem nesting_bound (size : Nat) : ∀ (begin end_ : Nat) (subArray : List Value),
    end_ - begin = size → end_ < subArray.length → subArray.length < 2 ^ 31 →
    nesting begin end_ subArray ≤ max 1 (end_ - begin - 2) := by
  induction size using Nat.strongRecOn with
  | ind size ih =>
      intro begin end_ subArray measure within held
      rcases Nat.lt_or_ge begin end_ with wide | narrow
      · rcases Nat.lt_or_ge end_ (begin + 4) with short | long
        · rw [nesting_short begin end_ subArray within wide short]
          exact Nat.le_max_left _ _
        · rcases Nat.lt_or_ge (begin + end_) (2 ^ 31) with near | beyond
          · have fits := int32_sum begin end_ near
            obtain ⟨pivotValue, lower, upper, parted, found, done, splits⟩ :=
              task_splits .int32 begin end_ subArray within fits long
            have bounds := splits.bounds
            have length := splits.shuffled.same.length_eq
            have lesser : (if (begin : Int) < upper then nesting begin upper parted else 0) ≤
                end_ - begin - 3 := by
              split
              · rename_i inner
                obtain ⟨last, rfl⟩ := Int.eq_ofNat_of_zero_le (show 0 ≤ upper by omega)
                have bound := ih (last - begin) (by omega) begin last parted rfl (by omega) (by omega)
                omega
              · exact Nat.zero_le _
            have greater : (if (lower : Int) < end_ then
                nesting lower end_ (sortRange begin (upper + 1).toNat parted) else 0) ≤
                end_ - begin - 3 := by
              split
              · rename_i inner
                have sorted := sortRange_length begin (upper + 1).toNat parted (by omega) (by omega)
                have bound := ih (end_ - lower) (by omega) lower end_
                  (sortRange begin (upper + 1).toNat parted) rfl (by omega) (by omega)
                omega
              · exact Nat.zero_le _
            rw [nesting_long begin end_ subArray within fits long pivotValue lower upper parted found done]
            omega
          · rw [nesting_far begin end_ subArray within (midpoint_overflows begin end_ beyond (by omega)) long]
            exact Nat.le_max_left _ _
      · rw [nesting_edge begin end_ subArray (by omega)]
        exact Nat.le_max_left _ _

-- A range behind which no sum fits is not parted, whatever is in it.
theorem nesting_behind (begin end_ : Nat) (subArray : List Value) (within : end_ < subArray.length)
    (held : subArray.length < 2 ^ 31) (far : 2 ^ 31 ≤ begin + end_) : nesting begin end_ subArray = 1 := by
  rcases Nat.lt_or_ge begin end_ with wide | narrow
  · rcases Nat.lt_or_ge end_ (begin + 4) with short | long
    · exact nesting_short begin end_ subArray within wide short
    · exact nesting_far begin end_ subArray within (midpoint_overflows begin end_ far (by omega)) long
  · exact nesting_edge begin end_ subArray (by omega)

theorem fork_nests (begin : Nat) (end_ : Int) (subArray : List Value)
    (nests : ∀ last : Nat, end_ = last → begin < last →
      Nests work [((begin : Int), (last : Int))] subArray (nesting begin last subArray)
        (get (run .int32 begin last subArray))) :
    Nests work (if (begin : Int) < end_ then [((begin : Int), end_)] else []) subArray
      (if (begin : Int) < end_ then nesting begin end_ subArray else 0)
      (forked .int32 begin end_ subArray) := by
  rcases fork_cases begin end_ with narrow | ⟨last, rfl, wide⟩
  · rw [if_neg (by omega), if_neg (by omega), fork_none .int32 begin end_ subArray narrow]
    exact .none subArray
  · rw [if_pos (by omega), if_pos (by omega), fork_runs .int32 begin last subArray wide]
    exact nests last rfl wide

section Behind
variable {begin end_ lower : Nat} {upper : Int} {pivotValue : Value} {subArray parted : List Value}
variable (splits : Splits begin end_ lower upper pivotValue subArray parted)
variable (within : end_ < subArray.length) (ready : Ready begin (end_ + 1) subArray)
variable (near : lower + end_ < 2 ^ 31)
include splits within ready near

-- Where the greater part can be parted, every sum of the lesser part fits, so that it is sorted.
theorem lesser_sorts :
    SortsPrefix (upper + 1).toNat parted (forked .int32 begin upper parted) := by
  have bounds := splits.bounds
  have meets := splits.meets
  have length := splits.shuffled.same.length_eq
  have start := ready_shuffled ready splits.shuffled
  refine fork_sorts .int32 begin upper parted (by omega) (by omega) (ready_fewer start (by omega))
    fun last same inner => run_sorts .int32 _ begin last rfl (by omega) fun first stop wide inside => ?_
  exact int32_sum first stop (by omega)

theorem lesser_sorted :
    forked .int32 begin upper parted = sortRange begin (upper + 1).toNat parted := by
  have bounds := splits.bounds
  have start := ready_shuffled ready splits.shuffled
  exact ready_sorts (ready_fewer start (by omega)) (lesser_sorts splits within ready near) (by omega)

theorem greater_waits : Ready lower (end_ + 1) (forked .int32 begin upper parted) := by
  have bounds := splits.bounds
  have meets := splits.meets
  exact greater_ready (ready_shuffled ready splits.shuffled) splits.halves (by omega) (by omega) (by omega)
    (lesser_sorts splits within ready near)

omit ready near in
theorem lesser_length (held : subArray.length < 2 ^ 31) :
    (forked .int32 begin upper parted).length = parted.length := by
  have bounds := splits.bounds
  have length := splits.shuffled.same.length_eq
  rcases fork_cases begin upper with narrow | ⟨last, rfl, wide⟩
  · rw [fork_none .int32 begin upper parted narrow]
  · rw [fork_runs .int32 begin last parted wide]
    exact (leaves_sinks (run_works _ begin last rfl wide parted (by omega) (by omega))).same.length_eq

omit near in
theorem greater_nesting (held : subArray.length < 2 ^ 31) :
    nesting lower end_ (sortRange begin (upper + 1).toNat parted) =
      nesting lower end_ (forked .int32 begin upper parted) := by
  rcases Nat.lt_or_ge (lower + end_) (2 ^ 31) with near | beyond
  · rw [lesser_sorted splits within ready near]
  · have bounds := splits.bounds
    have length := splits.shuffled.same.length_eq
    have after := lesser_length splits within held
    have sorted := sortRange_length begin (upper + 1).toNat parted (by omega) (by omega)
    rw [nesting_behind lower end_ _ (by omega) (by omega) beyond,
      nesting_behind lower end_ _ (by omega) (by omega) beyond]

end Behind

/-- The tasks of a range that is ready are nested as its partitions are. A range that is too
far behind to be parted need not be ready. -/
theorem run_nests (size : Nat) : ∀ (begin end_ : Nat) (subArray : List Value),
    end_ - begin = size → end_ < subArray.length → subArray.length < 2 ^ 31 →
    (begin + end_ < 2 ^ 31 → Ready begin (end_ + 1) subArray) →
    Nests work [((begin : Int), (end_ : Int))] subArray (nesting begin end_ subArray)
      (get (run .int32 begin end_ subArray)) := by
  induction size using Nat.strongRecOn with
  | ind size ih =>
      intro begin end_ subArray measure within held ready
      rcases Nat.lt_or_ge begin end_ with wide | narrow
      · rcases Nat.lt_or_ge end_ (begin + 4) with short | long
        · rw [nesting_short begin end_ subArray within wide short,
            run_short .int32 begin end_ subArray within wide short]
          apply nests_single
          rw [work_short begin end_ subArray within wide short]
          exact .none _
        · rcases Nat.lt_or_ge (begin + end_) (2 ^ 31) with near | beyond
          · have fits := int32_sum begin end_ near
            obtain ⟨pivotValue, lower, upper, parted, found, done, splits⟩ :=
              task_splits .int32 begin end_ subArray within fits long
            have bounds := splits.bounds
            have length := splits.shuffled.same.length_eq
            have start := ready_shuffled (ready near) splits.shuffled
            have lesser := fork_nests begin upper parted
              fun last same inner => ih (last - begin) (by omega) begin last parted rfl (by omega) (by omega)
                fun _ => ready_fewer start (by omega)
            have after := lesser_length splits within held
            have greater := fork_nests lower end_ (forked .int32 begin upper parted)
              fun last same inner => ih (last - lower) (by omega) lower last _ rfl (by omega) (by omega)
                fun early => by
                  cases Int.ofNat_inj.mp same
                  exact greater_waits splits within (ready near) early
            rw [← greater_nesting splits within (ready near) held] at greater
            rw [nesting_long begin end_ subArray within fits long pivotValue lower upper parted found done,
              run_long .int32 begin end_ subArray within fits long pivotValue lower upper parted found done,
              Nat.add_comm]
            apply nests_single
            rw [work_long begin end_ subArray within long pivotValue lower upper parted found done]
            exact nests_append lesser greater
          · have throws := midpoint_overflows begin end_ beyond (by omega)
            rw [nesting_far begin end_ subArray within throws long,
              run_far .int32 begin end_ subArray within throws long]
            apply nests_single
            rw [work_far begin end_ subArray within throws long]
            exact .none _
      · rw [nesting_edge begin end_ subArray (by omega), run_edge .int32 begin end_ subArray (by omega)]
        apply nests_single
        rw [work_edge begin end_ subArray (by omega)]
        exact .none _

end Nesting

section Rounds
variable {subArray swapped : List Value} {pivotValue : Value} {lowerBound upperBound lower upper : Int}

theorem partition_met (met : upperBound ≤ lowerBound) :
    partition pivotValue lowerBound upperBound subArray = .ok (lowerBound, upperBound, subArray) := by
  rw [partition, if_neg (by omega)]

section Apart
variable (apart : lowerBound < upperBound) (climbed : climb subArray pivotValue lowerBound = some lower)
variable (descended : descend subArray pivotValue upperBound = some upper)
include apart climbed descended

theorem partition_swaps (meets : lower ≤ upper) (done : swap lower upper subArray = some swapped) :
    partition pivotValue lowerBound upperBound subArray =
      partition pivotValue (lower + 1) (upper - 1) swapped := by
  rw [partition, if_pos apart]
  split
  · rename_i missing
    cases missing.symm.trans climbed
  · rename_i low rises
    cases rises.symm.trans climbed
    split
    · rename_i missing
      cases missing.symm.trans descended
    · rename_i high falls
      cases falls.symm.trans descended
      simp only [meets, ↓reduceIte, done]

theorem partition_crosses (crossed : upper < lower) :
    partition pivotValue lowerBound upperBound subArray = .ok (lower, upper, subArray) := by
  rw [partition, if_pos apart]
  split
  · rename_i missing
    cases missing.symm.trans climbed
  · rename_i low rises
    cases rises.symm.trans climbed
    split
    · rename_i missing
      cases missing.symm.trans descended
    · rename_i high falls
      cases falls.symm.trans descended
      rw [if_neg (by omega), partition_met (by omega)]

end Apart

theorem climb_to (stop : Int) (value : Value) (found : read subArray stop = some value)
    (large : pivotValue ≤ value) (low : 0 ≤ lowerBound) (before : lowerBound ≤ stop)
    (less : ∀ i entry, lowerBound ≤ i → i < stop → read subArray i = some entry → entry < pivotValue) :
    climb subArray pivotValue lowerBound = some stop := by
  obtain ⟨reached, own, climbed, here, most, _⟩ :=
    climb_stops lowerBound stop value found large low before
  have rising := climb_rises subArray pivotValue lowerBound reached climbed
  have under := climb_below lowerBound reached stop value climbed found large before
  have last : reached = stop := by
    by_contra early
    exact absurd most (not_le.mpr (less reached own rising (by omega) here))
  exact last ▸ climbed

theorem descend_here (value : Value) (found : read subArray upperBound = some value)
    (small : value ≤ pivotValue) : descend subArray pivotValue upperBound = some upperBound := by
  rw [descend]
  split
  · rename_i missing
    cases missing.symm.trans found
  · rename_i own here
    cases here.symm.trans found
    rw [if_neg (not_lt.mpr small)]

/-- Where the middle entry is the largest, it changes places with the last one. -/
theorem partition_largest (middle last : Nat) (inside : middle < last)
    (within : last < subArray.length)
    (found : subArray[middle]? = some pivotValue)
    (largest : ∀ i value, i ≤ last → i ≠ middle → subArray[i]? = some value → value < pivotValue)
    (done : swap middle last subArray = some swapped) :
    ∃ lower, partition pivotValue (0 : Nat) last subArray = .ok (lower, (last : Int) - 1, swapped) := by
  have entry := fun i => swap_read subArray swapped middle last i done
  have less : ∀ (i : Int) value, i ≤ last → i ≠ middle → read subArray i = some value →
      value < pivotValue := by
    intro i value early apart here
    obtain ⟨place, rfl⟩ := Int.eq_ofNat_of_zero_le (read_inside subArray i value here).1
    exact largest place value (by omega) (by omega) (by rwa [read_nat] at here)
  obtain ⟨final, atLast⟩ := read_some subArray last (by omega) (by omega)
  have climbed : climb subArray pivotValue (0 : Nat) = some (middle : Int) :=
    climb_to middle pivotValue (by rwa [read_nat]) (le_refl _) (by omega) (by omega)
      fun i value _ early here => less i value (by omega) (by omega) here
  have descended : descend subArray pivotValue last = some (last : Int) :=
    descend_here final atLast (le_of_lt (less last final (Int.le_refl _) (by omega) atLast))
  rw [partition_swaps (by omega) climbed descended (by omega) done]
  by_cases apart : (middle : Int) + 1 < last - 1
  · have moved : ∀ (i : Int) value, i < last → read swapped i = some value → value < pivotValue := by
      intro i value early here
      rw [entry, if_neg (by omega)] at here
      by_cases place : i = middle
      · rw [if_pos place] at here
        exact less last value (Int.le_refl _) (by omega) here
      · rw [if_neg place] at here
        exact less i value (by omega) place here
    have atEnd : read swapped last = some pivotValue := by
      rw [entry, if_pos rfl, read_nat, found]
    have stops : (last : Int) < swapped.length := (read_inside swapped last pivotValue atEnd).2
    obtain ⟨before, here⟩ := read_some swapped (last - 1) (by omega) (by omega)
    have rises : climb swapped pivotValue (middle + 1) = some (last : Int) :=
      climb_to last pivotValue atEnd (le_refl _) (by omega) (by omega)
        fun i value _ early there => moved i value early there
    have falls := descend_here before here (le_of_lt (moved (last - 1) before (by omega) here))
    exact ⟨last, partition_crosses apart rises falls (by omega)⟩
  · exact ⟨middle + 1, partition_met (by omega)⟩

end Rounds

section WorstCase

/-- Arrays whose middle entry is the largest one, and whose first entries are such an
array again once it has gone to the end. -/
def worstCase : Nat → List Int
  | 0 => []
  | size + 1 =>
      (worstCase size).set (size / 2) size ++ [(worstCase size).getD (size / 2) size]

example : worstCase 6 = [1, 3, 5, 2, 0, 4] := by decide

theorem worstCase_length (size : Nat) : (worstCase size).length = size := by
  induction size with
  | zero => rfl
  | succ size ih => rw [worstCase, List.length_append, List.length_set, ih, List.length_singleton]

/-- One size more: two entries have changed places. -/
theorem worstCase_entry (size : Nat) (positive : 0 < size) (rest : List Int) (i : Nat) :
    (worstCase (size + 1) ++ rest)[i]? =
      if i = size / 2 then some (size : Int) else if i = size then (worstCase size)[size / 2]?
      else (worstCase size ++ (size : Int) :: rest)[i]? := by
  have length := worstCase_length size
  obtain ⟨middle, here⟩ : ∃ middle, (worstCase size)[size / 2]? = some middle :=
    ⟨_, List.getElem?_eq_getElem (by omega)⟩
  rw [worstCase, List.append_assoc, List.singleton_append, List.getElem?_append, List.length_set, length,
    List.getElem?_set, List.getD_eq_getElem?_getD, here, Option.getD_some]
  by_cases front : i < size
  · rw [if_pos front, List.getElem?_append_left (by omega)]
    by_cases place : i = size / 2
    · simp [place, length, show size / 2 < size by omega]
    · simp [place, Ne.symm place, show i ≠ size by omega]
  · rw [if_neg front, if_neg (show i ≠ size / 2 by omega), List.getElem?_append_right (by omega), length]
    by_cases last : i = size
    · simp [last]
    · obtain ⟨more, rfl⟩ := Nat.exists_eq_add_of_lt (show size < i by omega)
      simp [last, show size + more + 1 - size = more + 1 by omega]

theorem worstCase_small (size : Nat) (i : Nat) (value : Int)
    (found : (worstCase size)[i]? = some value) : value < size := by
  induction size generalizing i value with
  | zero => cases found
  | succ size ih =>
      rcases Nat.eq_zero_or_pos size with rfl | positive
      · have only : value ∈ [(0 : Int)] := List.mem_of_getElem? found
        simp only [List.mem_singleton] at only
        omega
      · have inside := (List.getElem?_eq_some_iff.mp found).1
        rw [worstCase_length] at inside
        have entry := worstCase_entry size positive [] i
        rw [List.append_nil, found] at entry
        split at entry
        · cases entry
          omega
        · split at entry
          · have small := ih _ _ entry.symm
            omega
          · have length := worstCase_length size
            rw [List.getElem?_append_left (by omega)] at entry
            have small := ih _ _ entry.symm
            omega

section Step
variable (size : Nat) (positive : 0 < size) (rest : List Int)
include positive

theorem worstCase_swap : swap (size / 2 : Nat) (size : Nat) (worstCase (size + 1) ++ rest) =
    some (worstCase size ++ (size : Int) :: rest) := by
  have length := worstCase_length size
  have entry := worstCase_entry size positive rest
  obtain ⟨moved, there⟩ : ∃ moved, (worstCase size)[size / 2]? = some moved :=
    ⟨_, List.getElem?_eq_getElem (by omega)⟩
  have middle : (worstCase (size + 1) ++ rest)[size / 2]? = some (size : Int) := by
    rw [entry, if_pos rfl]
  have last : (worstCase (size + 1) ++ rest)[size]? = some moved := by
    rw [entry, if_neg (by omega), if_pos rfl, there]
  obtain ⟨swapped, done⟩ : ∃ swapped, swap (size / 2 : Nat) (size : Nat)
      (worstCase (size + 1) ++ rest) = some swapped := by
    simp only [swap, read_nat, middle, last]
    exact ⟨_, rfl⟩
  rw [done]
  apply congrArg some
  apply List.ext_getElem?
  intro i
  rw [swap_entry _ swapped _ _ done]
  by_cases atLast : i = size
  · rw [if_pos atLast, middle, atLast, List.getElem?_append_right (by omega), length, Nat.sub_self]
    rfl
  · rw [if_neg atLast]
    by_cases atMiddle : i = size / 2
    · rw [if_pos atMiddle, last, atMiddle, List.getElem?_append_left (by omega), there]
    · rw [if_neg atMiddle, entry, if_neg atMiddle, if_neg atLast]

theorem worstCase_parts : ∃ lower, partition (size : Int) (0 : Nat) (size : Nat)
    (worstCase (size + 1) ++ rest) =
      .ok (lower, (size : Int) - 1, worstCase size ++ (size : Int) :: rest) := by
  have length := worstCase_length size
  have entry := worstCase_entry size positive rest
  apply partition_largest (size / 2) size (by omega)
  · rw [List.length_append, worstCase_length]
    omega
  · rw [entry, if_pos rfl]
  · intro i value early apart found
    rw [entry, if_neg apart] at found
    split at found
    · exact worstCase_small size _ value found
    · rw [List.getElem?_append_left (by omega)] at found
      exact worstCase_small size i value found
  · exact worstCase_swap size positive rest

end Step

theorem worstCase_nesting (size : Nat) (more : 4 ≤ size) : size < 2 ^ 31 → ∀ rest : List Int,
    size - 3 ≤ nesting (0 : Nat) (size - 1 : Nat) (worstCase size ++ rest) := by
  induction size, more using Nat.le_induction with
  | base =>
      intro _ rest
      rw [nesting_short 0 3 _ (by rw [List.length_append, worstCase_length]; omega) (by omega) (by omega)]
  | succ size more ih =>
      intro held rest
      have within : size < (worstCase (size + 1) ++ rest).length := by
        rw [List.length_append, worstCase_length]
        omega
      have fits := int32_sum 0 size (by omega)
      have middle : midpointOf .int32 (0 : Nat) (size : Nat) = (size / 2 : Nat) := by
        rw [midpointOf, fits, Int.tdiv_eq_ediv_of_nonneg (by omega)]
        omega
      have found : read (worstCase (size + 1) ++ rest) (midpointOf .int32 (0 : Nat) (size : Nat)) =
          some (size : Int) := by
        rw [middle, read_nat, worstCase_entry size (by omega) rest, if_pos rfl]
      obtain ⟨lower, parts⟩ := worstCase_parts size (by omega) rest
      have deeper := ih (by omega) ((size : Int) :: rest)
      have last : (size : Int) - 1 = (size - 1 : Nat) := by omega
      rw [last] at parts
      rw [Nat.add_sub_cancel, nesting_long 0 size _ within fits (by omega) _ lower _ _ found parts,
        if_pos (by omega)]
      omega

end WorstCase

section Calls
variable (array : List Value) (held : array.length < 2 ^ 31)

/-- Whatever a call comes to, no queued task waits for workers that all wait. -/
def NeverStarves : Prop :=
  ∀ state, Steps work executorWorkers (array, submitted array 0 array.length) state →
    ¬ Starved executorWorkers state.2

/-- Whatever a call comes to, it goes on to its end, with the array as the tasks leave it. -/
def AlwaysEnds : Prop :=
  ∀ state, Steps work executorWorkers (array, submitted array 0 array.length) state →
    Steps work executorWorkers state (parallelSort .int32 array 0 array.length, .finished)

include held in
theorem call_nests (some : 0 < array.length) :
    submitted array 0 array.length = .queued (0, (array.length : Int) - 1) ∧
      Nests work [(0, (array.length : Int) - 1)] array (nesting 0 (array.length - 1) array)
        (parallelSort .int32 array 0 array.length) := by
  have inner : isEdgeCase array 0 array.length = false := by
    simp only [isEdgeCase, Bool.or_eq_false_iff, decide_eq_false_iff_not]
    omega
  have last : (array.length : Int) - 1 = (array.length - 1 : Nat) := by omega
  have nests := run_nests _ 0 (array.length - 1) array rfl (by omega) held fun _ => ready_start _ array
  rw [submitted, parallelSort, inner, last]
  exact ⟨rfl, nests⟩

theorem call_empty (none : array.length = 0) (state : List Value × Stage (Int × Int))
    (reached : Steps work executorWorkers (array, submitted array 0 array.length) state) :
    state = (parallelSort .int32 array 0 array.length, .finished) := by
  have edge : isEdgeCase array 0 array.length = true := by simp [isEdgeCase, none]
  rw [submitted, edge] at reached
  rw [parallelSort, edge]
  rcases reached.cases_head with same | ⟨next, step, _⟩
  · exact same.symm
  · exact absurd step (finished_stuck _ _ _)

include held in
theorem never_ends (deep : executorWorkers < nesting 0 (array.length - 1) array) :
    ¬ NeverStarves array ∧ ¬ AlwaysEnds array := by
  have some : 0 < array.length := by
    by_contra none
    have edge := nesting_edge 0 ((array.length : Int) - 1) array (by omega)
    rw [edge] at deep
    exact absurd deep (by decide)
  obtain ⟨same, nests⟩ := call_nests array held some
  unfold NeverStarves AlwaysEnds
  rw [same, never_starved _ executorWorkers nests, always_completes _ executorWorkers nests]
  omega

/-- A call never starves its pool, and always ends, exactly when its partitions are nested
at most as deep as the pool has workers. -/
theorem pool_suffices (held : array.length < 2 ^ 31) :
    (NeverStarves array ↔ nesting 0 (array.length - 1) array ≤ executorWorkers) ∧
      (AlwaysEnds array ↔ nesting 0 (array.length - 1) array ≤ executorWorkers) := by
  rcases Nat.eq_zero_or_pos array.length with none | some
  · have edge := nesting_edge 0 ((array.length : Int) - 1) array (by omega)
    have few : nesting 0 (array.length - 1) array ≤ executorWorkers := by
      rw [edge]
      decide
    refine ⟨⟨fun _ => few, fun _ state reached => ?_⟩, ⟨fun _ => few, fun _ state reached => ?_⟩⟩
    · rw [call_empty array none state reached]
      exact fun starved => starved.2
    · rw [call_empty array none state reached]
  · obtain ⟨same, nests⟩ := call_nests array held some
    unfold NeverStarves AlwaysEnds
    rw [same]
    exact ⟨never_starved _ executorWorkers nests, always_completes _ executorWorkers nests⟩

include held in
/-- Arrays this short never need more workers. -/
theorem short_fits (short : array.length ≤ executorWorkers + 3) :
    nesting 0 (array.length - 1) array ≤ executorWorkers := by
  rcases Nat.eq_zero_or_pos array.length with none | some
  · rw [nesting_edge 0 ((array.length : Int) - 1) array (by omega)]
    decide
  · have bound := nesting_bound _ 0 (array.length - 1) array rfl (by omega) held
    have last : (array.length : Int) - 1 = (array.length - 1 : Nat) := by omega
    have workers : 1 ≤ executorWorkers := by decide
    rw [last]
    exact le_trans bound (by omega)

end Calls

theorem pool_suffices_deep : (worstCase 10004).length < 2 ^ 31 ∧
    (NeverStarves (worstCase 10004) ↔
      nesting 0 ((worstCase 10004).length - 1) (worstCase 10004) ≤ executorWorkers) ∧
    (AlwaysEnds (worstCase 10004) ↔
      nesting 0 ((worstCase 10004).length - 1) (worstCase 10004) ≤ executorWorkers) := by
  have held : (worstCase 10004).length < 2 ^ 31 := by
    rw [worstCase_length]
    decide
  exact ⟨held, pool_suffices (worstCase 10004) held⟩

theorem long_starves (size : Nat) (long : executorWorkers + 4 ≤ size) (held : size < 2 ^ 31) :
    ¬ NeverStarves (worstCase size) ∧ ¬ AlwaysEnds (worstCase size) := by
  have deep := worstCase_nesting size (by omega) held []
  have last : ((worstCase size).length : Int) - 1 = (size - 1 : Nat) := by
    rw [worstCase_length]
    omega
  apply never_ends (worstCase size) (by rwa [worstCase_length])
  rw [last]
  rw [List.append_nil] at deep
  exact lt_of_lt_of_le (by omega) deep

-- The first length at which an array can need more workers than there are.
theorem pool_starves : (worstCase 10004).length = 10004 ∧ ¬ NeverStarves (worstCase 10004) ∧
    ¬ AlwaysEnds (worstCase 10004) :=
  ⟨worstCase_length 10004, long_starves 10004 (by decide) (by decide)⟩

end EE360P.PSort
