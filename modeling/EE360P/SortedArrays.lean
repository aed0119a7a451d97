import Mathlib.Data.List.Induction
import EE360P.ParallelSort
import EE360P.SortedPrefixes

/-! `PSort` sorts whole arrays. `insertSort` walks down to index 0, so a range may
only be sorted once everything before it is in order and not larger: that holds
for the first range, and each fork keeps it for the next one, because the task of
the lesser part has ended before the greater part is submitted. -/

namespace EE360P.PSort
open JavaText SortedPrefixes

variable {Value : Type}

section Access

@[simp] theorem read_nat (subArray : List Value) (index : Nat) :
    read subArray index = subArray[index]? := by
  simp [read]

@[simp] theorem read_succ (subArray : List Value) (index : Nat) :
    read subArray ((index : Int) + 1) = subArray[index + 1]? :=
  read_nat subArray (index + 1)

theorem swap_entry (subArray swapped : List Value) (begin end_ : Nat)
    (done : swap begin end_ subArray = some swapped) (i : Nat) :
    swapped[i]? = if i = end_ then subArray[begin]? else if i = begin then subArray[end_]?
      else subArray[i]? := by
  simp only [swap, read_nat, Int.toNat_natCast] at done
  split at done
  · rename_i temp other first second
    cases done
    have inside := (List.getElem?_eq_some_iff.mp first).1
    have bound := (List.getElem?_eq_some_iff.mp second).1
    by_cases atEnd : i = end_
    · subst atEnd
      simp [first, bound]
    · by_cases atBegin : i = begin
      · subst atBegin
        rw [List.getElem?_set_ne (Ne.symm atEnd), List.getElem?_set_self inside, if_neg atEnd, if_pos rfl,
          second]
      · simp [atEnd, atBegin, List.getElem?_set_ne (Ne.symm atEnd), List.getElem?_set_ne (Ne.symm atBegin)]
  · cases done

theorem swap_perm (subArray swapped : List Value) (begin end_ : Nat)
    (done : swap begin end_ subArray = some swapped) : swapped.Perm subArray := by
  simp only [swap, read_nat, Int.toNat_natCast] at done
  split at done
  · rename_i temp other first second
    cases done
    obtain ⟨inside, rfl⟩ := List.getElem?_eq_some_iff.mp first
    obtain ⟨bound, rfl⟩ := List.getElem?_eq_some_iff.mp second
    exact List.set_set_perm inside bound
  · cases done

theorem swap_shuffles (subArray swapped : List Value) (begin end_ first stop : Nat)
    (done : swap begin end_ subArray = some swapped) (low : first ≤ begin) (early : begin < stop)
    (high : first ≤ end_) (late : end_ < stop) : Shuffled first stop subArray swapped := by
  refine ⟨swap_perm subArray swapped begin end_ done, fun i away => ?_, fun i value behind before found => ?_⟩
  · rw [swap_entry subArray swapped begin end_ done, if_neg (by omega), if_neg (by omega)]
  · rw [swap_entry subArray swapped begin end_ done] at found
    split at found
    · exact ⟨begin, low, early, found⟩
    · split at found
      · exact ⟨end_, high, late, found⟩
      · exact ⟨i, behind, before, found⟩

theorem swap_inside (subArray swapped : List Value) (begin end_ : Int)
    (done : swap begin end_ subArray = some swapped) : 0 ≤ begin ∧ 0 ≤ end_ := by
  unfold swap at done
  split at done
  · rename_i temp other first second
    exact ⟨(read_inside subArray begin temp first).1, (read_inside subArray end_ other second).1⟩
  · cases done

theorem swap_read (subArray swapped : List Value) (begin end_ i : Int)
    (done : swap begin end_ subArray = some swapped) :
    read swapped i = if i = end_ then read subArray begin else if i = begin then read subArray end_
      else read subArray i := by
  obtain ⟨low, high⟩ := swap_inside subArray swapped begin end_ done
  obtain ⟨first, rfl⟩ := Int.eq_ofNat_of_zero_le low
  obtain ⟨second, rfl⟩ := Int.eq_ofNat_of_zero_le high
  by_cases inside : 0 ≤ i
  · obtain ⟨place, rfl⟩ := Int.eq_ofNat_of_zero_le inside
    simp only [read_nat, Int.natCast_inj]
    exact swap_entry subArray swapped first second done place
  · rw [if_neg (by omega), if_neg (by omega)]
    simp [read, inside]

theorem swap_adjacent (before rest : List Value) (last value : Value) :
    swap ((before.length : Int) + 1) before.length (before ++ last :: value :: rest) =
      some (before ++ value :: last :: rest) := by
  have place : ((before.length : Int) + 1).toNat = before.length + 1 := by omega
  simp [swap, place]

end Access

section Insertion
variable [LinearOrder Value]

-- The value sinks through the sorted entries before it; what it has passed stays above it.
theorem switch_sinks (before : List Value) : ∀ (value : Value) (passed rest : List Value),
    before.Pairwise (· ≤ ·) → (value :: passed).Pairwise (· ≤ ·) →
    (∀ low ∈ before, ∀ high ∈ passed, low ≤ high) →
    ∃ sorted, switchDown before.length (before ++ value :: (passed ++ rest)) = .ok (sorted ++ rest) ∧
      sorted.Pairwise (· ≤ ·) ∧ sorted.Perm (before ++ value :: passed) := by
  induction before using List.reverseRecOn with
  | nil =>
      intro value passed rest _ sorted _
      exact ⟨value :: passed, rfl, sorted, List.Perm.refl _⟩
  | append_singleton before last ih =>
      intro value passed rest ordered sorted apart
      have parts := List.pairwise_append.mp ordered
      have largest : ∀ low ∈ before, low ≤ last := fun low member =>
        parts.2.2 low member last (List.mem_singleton_self last)
      have above : ∀ high ∈ passed, last ≤ high := fun high member =>
        apart last (List.mem_append_right _ (List.mem_singleton_self last)) high member
      have shape : before ++ [last] ++ value :: (passed ++ rest) =
          before ++ last :: value :: (passed ++ rest) := by simp
      have length : (before ++ [last]).length = before.length + 1 := by simp
      have here : (before ++ last :: value :: (passed ++ rest))[before.length + 1]? = some value := by simp
      have there : (before ++ last :: value :: (passed ++ rest))[before.length]? = some last := by simp
      rw [length, shape, switchDown]
      simp only [read_succ, read_nat, here, there]
      by_cases smaller : value < last
      · simp only [smaller, ↓reduceIte, swap_adjacent]
        have next : (value :: last :: passed).Pairwise (· ≤ ·) := by
          have tail := List.pairwise_cons.mp sorted
          refine List.pairwise_cons.mpr ⟨?_, List.pairwise_cons.mpr ⟨above, tail.2⟩⟩
          exact List.forall_mem_cons.mpr ⟨le_of_lt smaller, tail.1⟩
        obtain ⟨result, done, ordered, same⟩ := ih value (last :: passed) rest parts.1 next
          fun low member => List.forall_mem_cons.mpr ⟨largest low member,
            apart low (List.mem_append_left _ member)⟩
        refine ⟨result, done, ordered, same.trans ?_⟩
        rw [List.append_assoc]
        exact (List.Perm.swap last value passed).append_left before
      · simp only [smaller, ↓reduceIte]
        have most : last ≤ value := not_lt.mp smaller
        have next : (last :: value :: passed).Pairwise (· ≤ ·) :=
          List.pairwise_cons.mpr ⟨List.forall_mem_cons.mpr ⟨most, above⟩, sorted⟩
        obtain ⟨result, done, ordered, same⟩ := ih last (value :: passed) rest parts.1 next
          fun low member => List.forall_mem_cons.mpr ⟨le_trans (largest low member) most,
            apart low (List.mem_append_left _ member)⟩
        refine ⟨result, done, ordered, ?_⟩
        rwa [List.append_assoc]

theorem switch_sorts (subArray : List Value) (runner : Nat) (inside : runner < subArray.length)
    (sorted : (subArray.take runner).Pairwise (· ≤ ·)) :
    ∃ switched, switchDown runner subArray = .ok switched ∧ SortsPrefix (runner + 1) subArray switched := by
  have split : subArray = subArray.take runner ++ subArray[runner] :: ([] ++ subArray.drop (runner + 1)) := by
    rw [List.nil_append, ← List.drop_eq_getElem_cons inside, List.take_append_drop]
  have length : (subArray.take runner).length = runner := List.length_take_of_le (Nat.le_of_lt inside)
  obtain ⟨result, done, ordered, same⟩ := switch_sinks (subArray.take runner) subArray[runner] []
    (subArray.drop (runner + 1)) sorted (List.pairwise_singleton _ _) (by simp)
  rw [length, ← split] at done
  have count : result.length = runner + 1 := by
    rw [same.length_eq, List.length_append, length]
    rfl
  have before : subArray.take (runner + 1) = subArray.take runner ++ [subArray[runner]] := by
    rw [List.take_add_one, List.getElem?_eq_getElem inside]
    rfl
  refine ⟨_, done, ?_, ?_, ?_⟩
  · rwa [List.take_left' count]
  · rwa [List.take_left' count, before]
  · rw [List.drop_left' count]

theorem runUp_sorts (left : Nat) : ∀ (runner : Nat) (subArray : List Value),
    runner + left ≤ subArray.length → (subArray.take runner).Pairwise (· ≤ ·) →
    ∃ sorted, runUp left runner subArray = .ok sorted ∧ SortsPrefix (runner + left) subArray sorted := by
  induction left with
  | zero => exact fun runner subArray _ sorted => ⟨subArray, rfl, prefix_done sorted⟩
  | succ left ih =>
      intro runner subArray within sorted
      obtain ⟨switched, done, first⟩ := switch_sorts subArray runner (by omega) sorted
      have length := prefix_length first
      obtain ⟨result, finished, rest⟩ := ih (runner + 1) switched (by omega) first.sorted
      have wider : runner + 1 + left = runner + (left + 1) := by omega
      refine ⟨result, ?_, prefix_trans _ switched first (by omega) (wider ▸ rest)⟩
      simpa [runUp, done] using finished

/-- A short range is sorted by insertion. -/
theorem insertSort_sorts (begin end_ : Nat) (subArray : List Value) (wide : begin ≤ end_)
    (within : end_ < subArray.length) (ready : Ready begin (end_ + 1) subArray) :
    ∃ sorted, insertSort begin end_ subArray = .ok sorted ∧ SortsPrefix (end_ + 1) subArray sorted := by
  have first : (subArray.take (begin + 1)).Pairwise (· ≤ ·) :=
    (ready_short (ready_fewer ready (show begin + 1 ≤ end_ + 1 by omega)) (Nat.le_refl _)).sorted
  have rounds : ((end_ : Int) - begin).toNat = end_ - begin := by omega
  obtain ⟨sorted, done, sorts⟩ := runUp_sorts (end_ - begin) (begin + 1) subArray (by omega) first
  have whole : begin + 1 + (end_ - begin) = end_ + 1 := by omega
  refine ⟨sorted, ?_, whole ▸ sorts⟩
  simpa [insertSort, rounds] using done

end Insertion

section Partition
variable [LinearOrder Value] {subArray : List Value} {pivotValue : Value}

theorem climb_stops (lowerBound sentinel : Int) (value : Value)
    (found : read subArray sentinel = some value) (large : pivotValue ≤ value)
    (low : 0 ≤ lowerBound) (before : lowerBound ≤ sentinel) :
    ∃ stop own, climb subArray pivotValue lowerBound = some stop ∧ read subArray stop = some own ∧
      pivotValue ≤ own ∧ ∀ i passed, lowerBound ≤ i → i < stop → read subArray i = some passed →
        passed ≤ pivotValue := by
  have inside := read_inside subArray sentinel value found
  fun_induction climb subArray pivotValue lowerBound with
  | case1 lowerBound missing =>
      obtain ⟨entry, here⟩ := read_some subArray lowerBound low (by omega)
      rw [missing] at here
      cases here
  | case2 lowerBound entry here smaller ih =>
      have different : lowerBound ≠ sentinel := by
        rintro rfl
        cases here.symm.trans found
        exact absurd smaller (not_lt.mpr large)
      obtain ⟨stop, own, stopped, there, bound, passes⟩ := ih (by omega) (by omega)
      refine ⟨stop, own, stopped, there, bound, fun i passed behind early at_ => ?_⟩
      by_cases first : i = lowerBound
      · subst first
        cases here.symm.trans at_
        exact le_of_lt smaller
      · exact passes i passed (by omega) early at_
  | case3 lowerBound entry here larger =>
      exact ⟨lowerBound, entry, rfl, here, not_lt.mp larger, fun i passed behind early =>
        absurd early (by omega)⟩

theorem descend_stops (upperBound sentinel : Int) (value : Value)
    (found : read subArray sentinel = some value) (small : value ≤ pivotValue)
    (high : upperBound < subArray.length) (behind : sentinel ≤ upperBound) :
    ∃ stop own, descend subArray pivotValue upperBound = some stop ∧ read subArray stop = some own ∧
      own ≤ pivotValue ∧ ∀ i passed, stop < i → i ≤ upperBound → read subArray i = some passed →
        pivotValue ≤ passed := by
  have inside := read_inside subArray sentinel value found
  fun_induction descend subArray pivotValue upperBound with
  | case1 upperBound missing =>
      obtain ⟨entry, here⟩ := read_some subArray upperBound (by omega) high
      rw [missing] at here
      cases here
  | case2 upperBound entry here greater ih =>
      have different : upperBound ≠ sentinel := by
        rintro rfl
        cases here.symm.trans found
        exact absurd greater (not_lt.mpr small)
      obtain ⟨stop, own, stopped, there, bound, passes⟩ := ih (by omega) (by omega)
      refine ⟨stop, own, stopped, there, bound, fun i passed late early at_ => ?_⟩
      by_cases first : i = upperBound
      · subst first
        cases here.symm.trans at_
        exact le_of_lt greater
      · exact passes i passed late (by omega) at_
  | case3 upperBound entry here less =>
      exact ⟨upperBound, entry, rfl, here, not_lt.mp less, fun i passed late early =>
        absurd late (by omega)⟩

theorem climb_passes (lowerBound stop : Int) (stopped : climb subArray pivotValue lowerBound = some stop)
    (i : Int) (passed : Value) (behind : lowerBound ≤ i) (early : i < stop)
    (found : read subArray i = some passed) : passed < pivotValue := by
  fun_induction climb subArray pivotValue lowerBound with
  | case1 => cases stopped
  | case2 lowerBound entry here smaller ih =>
      by_cases first : i = lowerBound
      · subst first
        cases here.symm.trans found
        exact smaller
      · exact ih stopped (by omega)
  | case3 lowerBound entry here =>
      cases stopped
      omega

theorem descend_passes (upperBound stop : Int)
    (stopped : descend subArray pivotValue upperBound = some stop) (i : Int) (passed : Value)
    (late : stop < i) (early : i ≤ upperBound) (found : read subArray i = some passed) :
    pivotValue < passed := by
  fun_induction descend subArray pivotValue upperBound with
  | case1 => cases stopped
  | case2 upperBound entry here greater ih =>
      by_cases first : i = upperBound
      · subst first
        cases here.symm.trans found
        exact greater
      · exact ih stopped (by omega)
  | case3 upperBound entry here =>
      cases stopped
      omega

/-- The bounds of the outer loop: what they have passed is on its side of the
pivot, and while they have not met, each has something to stop at. -/
structure Scanning (first stop : Nat) (pivotValue : Value) (lowerBound upperBound : Int)
    (subArray : List Value) : Prop where
  within : stop ≤ subArray.length
  bounds : first ≤ lowerBound ∧ lowerBound ≤ stop ∧ first ≤ upperBound + 1 ∧ upperBound < stop
  small : ∀ (i : Int) value, first ≤ i → i < lowerBound → read subArray i = some value →
    value ≤ pivotValue
  large : ∀ (i : Int) value, upperBound < i → i < stop → read subArray i = some value →
    pivotValue ≤ value
  above : lowerBound < upperBound → ∃ (i : Int) (value : Value), lowerBound ≤ i ∧ i < stop ∧
    read subArray i = some value ∧ pivotValue ≤ value
  below : lowerBound < upperBound → ∃ (i : Int) (value : Value), first ≤ i ∧ i ≤ upperBound ∧
    read subArray i = some value ∧ value ≤ pivotValue

variable {first stop : Nat} {lowerBound upperBound : Int}

/-- One round of the outer loop, up to the test for the swap. -/
structure Round (first stop : Nat) (pivotValue : Value) (lowerBound upperBound lower upper : Int)
    (subArray : List Value) : Prop where
  lowers : lowerBound ≤ lower ∧ lower < stop
  uppers : first ≤ upper ∧ upper ≤ upperBound
  left : ∃ value, read subArray lower = some value ∧ pivotValue ≤ value
  right : ∃ value, read subArray upper = some value ∧ value ≤ pivotValue
  rises : ∀ i passed, lowerBound ≤ i → i < lower → read subArray i = some passed → passed ≤ pivotValue
  falls : ∀ i passed, upper < i → i ≤ upperBound → read subArray i = some passed → pivotValue ≤ passed

theorem round_stops (scanning : Scanning first stop pivotValue lowerBound upperBound subArray)
    (apart : lowerBound < upperBound) : ∃ lower upper,
      climb subArray pivotValue lowerBound = some lower ∧
      descend subArray pivotValue upperBound = some upper ∧
      Round first stop pivotValue lowerBound upperBound lower upper subArray := by
  have bounds := scanning.bounds
  have within := scanning.within
  obtain ⟨high, above, behind, inside, found, large⟩ := scanning.above apart
  obtain ⟨low, below, late, early, there, small⟩ := scanning.below apart
  obtain ⟨lower, left, climbed, atLower, most, rises⟩ :=
    climb_stops lowerBound high above found large (by omega) behind
  obtain ⟨upper, right, descended, atUpper, least, falls⟩ :=
    descend_stops upperBound low below there small (by omega) early
  have rising := climb_rises subArray pivotValue lowerBound lower climbed
  have falling := descend_falls subArray pivotValue upperBound upper descended
  have stopped := climb_below lowerBound lower high above climbed found large behind
  have ended := descend_above upperBound upper low below descended there small early
  exact ⟨lower, upper, climbed, descended, ⟨rising, by omega⟩, ⟨by omega, falling⟩,
    ⟨left, atLower, most⟩, ⟨right, atUpper, least⟩, rises, falls⟩

theorem swap_shuffled (scanning : Scanning first stop pivotValue lowerBound upperBound subArray)
    {lower upper : Int} (round : Round first stop pivotValue lowerBound upperBound lower upper subArray)
    (meets : lower ≤ upper) {swapped : List Value} (done : swap lower upper subArray = some swapped) :
    Shuffled first stop subArray swapped := by
  have lowers := round.lowers
  have uppers := round.uppers
  have bounds := scanning.bounds
  obtain ⟨low, high⟩ := swap_inside subArray swapped lower upper done
  obtain ⟨begin, rfl⟩ := Int.eq_ofNat_of_zero_le low
  obtain ⟨end_, rfl⟩ := Int.eq_ofNat_of_zero_le high
  exact swap_shuffles subArray swapped begin end_ first stop done (by omega) (by omega) (by omega)
    (by omega)

theorem scanning_crossed (scanning : Scanning first stop pivotValue lowerBound upperBound subArray)
    {lower upper : Int} (round : Round first stop pivotValue lowerBound upperBound lower upper subArray)
    (crossed : upper < lower) : Scanning first stop pivotValue lower upper subArray := by
  have lowers := round.lowers
  have uppers := round.uppers
  have bounds := scanning.bounds
  refine ⟨scanning.within, by omega, ?_, ?_, fun apart => by omega, fun apart => by omega⟩
  · intro i value behind early found
    by_cases old : i < lowerBound
    · exact scanning.small i value behind old found
    · exact round.rises i value (by omega) early found
  · intro i value late inside found
    by_cases old : upperBound < i
    · exact scanning.large i value old inside found
    · exact round.falls i value late (by omega) found

theorem scanning_swapped (scanning : Scanning first stop pivotValue lowerBound upperBound subArray)
    {lower upper : Int} (round : Round first stop pivotValue lowerBound upperBound lower upper subArray)
    (meets : lower ≤ upper) {swapped : List Value} (done : swap lower upper subArray = some swapped) :
    Scanning first stop pivotValue (lower + 1) (upper - 1) swapped := by
  have lowers := round.lowers
  have uppers := round.uppers
  have bounds := scanning.bounds
  obtain ⟨left, here, large⟩ := round.left
  obtain ⟨right, there, small⟩ := round.right
  have entry := fun i => swap_read subArray swapped lower upper i done
  have atUpper : read swapped upper = some left := by rw [entry, if_pos rfl, here]
  have atLower : read swapped lower = some right := by
    rw [entry]
    by_cases same : lower = upper
    · rw [if_pos same, same, there]
    · rw [if_neg same, if_pos rfl, there]
  have length := (swap_shuffled scanning round meets done).same.length_eq
  refine ⟨length ▸ scanning.within, by omega, ?_, ?_, fun apart => ⟨upper, left, by omega, by omega,
    atUpper, large⟩, fun apart => ⟨lower, right, by omega, by omega, atLower, small⟩⟩
  · intro i value behind early found
    by_cases last : i = lower
    · rw [last, atLower] at found
      exact Option.some.inj found ▸ small
    · rw [entry, if_neg (by omega), if_neg last] at found
      by_cases old : i < lowerBound
      · exact scanning.small i value behind old found
      · exact round.rises i value (by omega) (by omega) found
  · intro i value late inside found
    by_cases last : i = upper
    · rw [last, atUpper] at found
      exact Option.some.inj found ▸ large
    · rw [entry, if_neg last, if_neg (by omega)] at found
      by_cases old : upperBound < i
      · exact scanning.large i value old inside found
      · exact round.falls i value (by omega) (by omega) found

/-- The outer loop ends, and leaves the range parted. -/
theorem partition_parts (scanning : Scanning first stop pivotValue lowerBound upperBound subArray) :
    ∃ lower upper after, partition pivotValue lowerBound upperBound subArray = .ok (lower, upper, after) ∧
      upper ≤ lower ∧ Scanning first stop pivotValue lower upper after ∧
      Shuffled first stop subArray after := by
  fun_induction partition pivotValue lowerBound upperBound subArray with
  | case1 lowerBound upperBound subArray apart missing =>
      obtain ⟨lower, upper, climbed, _, _⟩ := round_stops scanning apart
      rw [missing] at climbed
      cases climbed
  | case2 lowerBound upperBound subArray apart lower _ missing =>
      obtain ⟨low, upper, _, descended, _⟩ := round_stops scanning apart
      rw [missing] at descended
      cases descended
  | case3 lowerBound upperBound subArray apart lower climbed upper descended meets missing =>
      obtain ⟨low, high, first, second, round⟩ := round_stops scanning apart
      cases climbed.symm.trans first
      cases descended.symm.trans second
      obtain ⟨left, atLower, _⟩ := round.left
      obtain ⟨right, atUpper, _⟩ := round.right
      simp [swap, atLower, atUpper] at missing
  | case4 lowerBound upperBound subArray apart lower climbed upper descended meets swapped done ih =>
      obtain ⟨low, high, first, second, round⟩ := round_stops scanning apart
      cases climbed.symm.trans first
      cases descended.symm.trans second
      obtain ⟨low, high, after, parted, met, ended, shuffled⟩ :=
        ih (scanning_swapped scanning round meets done)
      exact ⟨low, high, after, parted, met, ended,
        shuffled_trans swapped (swap_shuffled scanning round meets done) shuffled⟩
  | case5 lowerBound upperBound subArray apart lower climbed upper descended crossed ih =>
      obtain ⟨low, high, first, second, round⟩ := round_stops scanning apart
      cases climbed.symm.trans first
      cases descended.symm.trans second
      exact ih (scanning_crossed scanning round (Int.not_le.mp crossed))
  | case6 lowerBound upperBound subArray met =>
      exact ⟨lowerBound, upperBound, subArray, rfl, by omega, scanning, shuffled_refl first stop subArray⟩

-- An entry between bounds that have crossed would be less and greater than the pivot.
theorem round_crosses (scanning : Scanning first stop pivotValue lowerBound upperBound subArray)
    {lower upper : Int} (climbed : climb subArray pivotValue lowerBound = some lower)
    (descended : descend subArray pivotValue upperBound = some upper)
    (round : Round first stop pivotValue lowerBound upperBound lower upper subArray)
    (apart : lowerBound < upperBound) : lower ≤ upper + 1 := by
  have within := scanning.within
  have bounds := scanning.bounds
  have lowers := round.lowers
  have uppers := round.uppers
  have low : lowerBound ≤ upper + 1 := by
    by_cases start : lowerBound = first
    · omega
    · obtain ⟨value, found⟩ := read_some subArray (lowerBound - 1) (by omega) (by omega)
      have small := scanning.small (lowerBound - 1) value (by omega) (by omega) found
      have above := descend_above upperBound upper (lowerBound - 1) value descended found small (by omega)
      omega
  have high : lower ≤ upperBound + 1 := by
    by_cases start : upperBound + 1 = stop
    · omega
    · obtain ⟨value, found⟩ := read_some subArray (upperBound + 1) (by omega) (by omega)
      have large := scanning.large (upperBound + 1) value (by omega) (by omega) found
      exact climb_below lowerBound lower (upperBound + 1) value climbed found large (by omega)
  by_contra far
  obtain ⟨value, found⟩ := read_some subArray (upper + 1) (by omega) (by omega)
  have less := climb_passes lowerBound lower climbed (upper + 1) value low (by omega) found
  have greater := descend_passes upperBound upper descended (upper + 1) value (by omega) (by omega) found
  exact lt_asymm less greater

/-- The bounds end next to each other, with at most one entry between them. -/
theorem partition_closes (scanning : Scanning first stop pivotValue lowerBound upperBound subArray)
    (near : lowerBound ≤ upperBound + 2) {lower upper : Int} {after : List Value}
    (parted : partition pivotValue lowerBound upperBound subArray = .ok (lower, upper, after)) :
    lower ≤ upper + 2 := by
  fun_induction partition pivotValue lowerBound upperBound subArray with
  | case1 => cases parted
  | case2 => cases parted
  | case3 => cases parted
  | case4 lowerBound upperBound subArray apart low climbed high descended meets swapped done ih =>
      obtain ⟨_, _, first, second, round⟩ := round_stops scanning apart
      cases climbed.symm.trans first
      cases descended.symm.trans second
      exact ih (scanning_swapped scanning round meets done) (by omega) parted
  | case5 lowerBound upperBound subArray apart low climbed high descended crossed ih =>
      obtain ⟨_, _, first, second, round⟩ := round_stops scanning apart
      cases climbed.symm.trans first
      cases descended.symm.trans second
      have near := round_crosses scanning climbed descended round apart
      exact ih (scanning_crossed scanning round (Int.not_le.mp crossed)) (by omega) parted
  | case6 =>
      cases parted
      exact near

theorem scanning_start (counting : Counting) (begin end_ : Nat) (fits : Fits counting begin end_)
    (wide : begin < end_) (within : end_ < subArray.length)
    (found : read subArray (midpointOf counting begin end_) = some pivotValue) :
    Scanning begin (end_ + 1) pivotValue begin end_ subArray := by
  have middle := midpoint_inside counting begin end_ fits (by omega)
  refine ⟨within, by omega, fun i value behind early => by omega, fun i value late inside => by omega,
    fun _ => ⟨_, pivotValue, middle.1, by omega, found, le_refl _⟩,
    fun _ => ⟨_, pivotValue, middle.1, middle.2, found, le_refl _⟩⟩

theorem scanning_parted (scanning : Scanning first stop pivotValue lowerBound upperBound subArray) :
    Parted first lowerBound.toNat (upperBound + 1).toNat stop pivotValue subArray := by
  have bounds := scanning.bounds
  constructor
  · intro i value behind early found
    exact scanning.small i value (by omega) (by omega) (by rwa [read_nat])
  · intro i value late inside found
    exact scanning.large i value (by omega) (by omega) (by rwa [read_nat])

end Partition

section Tasks
variable [LinearOrder Value] (counting : Counting)

/-- A part after its fork has ended. A part of at most one entry is not forked. -/
def forked (begin end_ : Int) (subArray : List Value) : List Value :=
  if begin < end_ then get (run counting begin end_ subArray) else subArray

theorem fork_none (begin end_ : Int) (subArray : List Value) (narrow : end_ ≤ begin) :
    forked counting begin end_ subArray = subArray := by
  rw [forked, if_neg (by omega)]

theorem fork_runs (begin end_ : Nat) (subArray : List Value) (wide : begin < end_) :
    forked counting begin end_ subArray = get (run counting begin end_ subArray) := by
  rw [forked, if_pos (by omega)]

theorem fork_cases (begin : Nat) (end_ : Int) :
    end_ ≤ begin ∨ ∃ last : Nat, end_ = last ∧ begin < last := by
  rcases Int.lt_or_le begin end_ with wide | narrow
  · obtain ⟨last, rfl⟩ := Int.eq_ofNat_of_zero_le (show 0 ≤ end_ by omega)
    exact Or.inr ⟨last, rfl, by omega⟩
  · exact Or.inl narrow

/-- What a task on a long range has done before it forks: each entry has gone to the
side of the pivot it belongs to, and at most one entry is left between the parts. -/
structure Splits (begin end_ lower : Nat) (upper : Int) (pivotValue : Value)
    (subArray parted : List Value) : Prop where
  bounds : begin < lower ∧ lower ≤ end_ + 1 ∧ begin ≤ upper + 1 ∧ upper < end_
  meets : upper ≤ lower ∧ lower ≤ upper + 2
  shuffled : Shuffled begin (end_ + 1) subArray parted
  halves : Parted begin lower (upper + 1).toNat (end_ + 1) pivotValue parted

theorem run_edge (begin end_ : Int) (subArray : List Value) (narrow : end_ ≤ begin) :
    run counting begin end_ subArray = .ok subArray := by
  rw [run]
  simp [isEdgeCase, narrow]

section Ranges
variable (begin end_ : Nat) (subArray : List Value) (within : end_ < subArray.length)
include within

omit [LinearOrder Value] in
theorem inner_case (wide : begin < end_) : isEdgeCase subArray begin end_ = false := by
  simp only [isEdgeCase, Bool.or_eq_false_iff, decide_eq_false_iff_not]
  omega

theorem run_short (wide : begin < end_) (short : end_ < begin + 4) :
    run counting begin end_ subArray = insertSort begin end_ subArray := by
  have small : ((end_ : Int) - begin).natAbs < 4 := by omega
  rw [run]
  simp [inner_case begin end_ subArray within wide, small]

theorem task_splits (fits : Fits counting begin end_) (long : begin + 4 ≤ end_) :
    ∃ pivotValue lower upper parted, read subArray (midpointOf counting begin end_) = some pivotValue ∧
    partition pivotValue begin end_ subArray = .ok ((lower : Nat), upper, parted) ∧
    Splits begin end_ lower upper pivotValue subArray parted := by
  have middle := midpoint_inside counting begin end_ fits (by omega)
  obtain ⟨pivotValue, found⟩ := read_some subArray (midpointOf counting begin end_) (by omega) (by omega)
  have start := scanning_start counting begin end_ fits (by omega) within found
  obtain ⟨lower, upper, after, parted, met, scanning, shuffled⟩ := partition_parts start
  have narrow := run_narrows counting subArray begin end_ lower upper pivotValue after fits (by omega) found
    parted
  have near := partition_closes start (by omega) parted
  have bounds := scanning.bounds
  have halves := scanning_parted scanning
  obtain ⟨low, rfl⟩ := Int.eq_ofNat_of_zero_le (show 0 ≤ lower by omega)
  exact ⟨pivotValue, low, upper, after, found, parted, by omega, by omega, shuffled, halves⟩

theorem run_long (fits : Fits counting begin end_) (long : begin + 4 ≤ end_) (pivotValue : Value)
    (lower : Nat) (upper : Int) (parted : List Value)
    (found : read subArray (midpointOf counting begin end_) = some pivotValue)
    (splits : partition pivotValue begin end_ subArray = .ok ((lower : Nat), upper, parted)) :
    run counting begin end_ subArray =
      .ok (forked counting lower end_ (forked counting begin upper parted)) := by
  have large : ¬ ((end_ : Int) - begin).natAbs < 4 := by omega
  have narrow := run_narrows counting subArray begin end_ lower upper pivotValue parted fits (by omega) found
    splits
  rw [run]
  simp only [inner_case begin end_ subArray within (by omega), Bool.false_eq_true, large, ↓reduceIte, found,
    splits, narrow, and_self, ↓reduceDIte]
  rfl

/-- A task whose pivot choice throws leaves the array as it is. -/
theorem run_far (far : midpointOf counting begin end_ < 0) (long : begin + 4 ≤ end_) :
    run counting begin end_ subArray = .error subArray := by
  have large : ¬ ((end_ : Int) - begin).natAbs < 4 := by omega
  have missing : read subArray (midpointOf counting begin end_) = none := by
    rw [read, if_neg (by omega)]
  rw [run]
  simp only [inner_case begin end_ subArray within (by omega), Bool.false_eq_true, large, ↓reduceIte, missing]

end Ranges

/-- No sum of the ends of a range up to `last` wraps. -/
def AllFit (last : Nat) : Prop := ∀ begin end_ : Nat, begin < end_ → end_ ≤ last → Fits counting begin end_

variable (Value) in
/-- A task that sorts its range sorts the array up to the end of the range. -/
def Sorts (begin end_ : Nat) : Prop := ∀ subArray : List Value, end_ < subArray.length →
  Ready begin (end_ + 1) subArray →
    ∃ sorted, run counting begin end_ subArray = .ok sorted ∧ SortsPrefix (end_ + 1) subArray sorted

theorem fork_sorts (begin : Nat) (end_ : Int) (subArray : List Value) (low : begin ≤ end_ + 1)
    (within : end_ < subArray.length) (ready : Ready begin (end_ + 1).toNat subArray)
    (sorts : ∀ last : Nat, end_ = last → (begin : Int) < end_ → Sorts Value counting begin last) :
    SortsPrefix (end_ + 1).toNat subArray (forked counting begin end_ subArray) := by
  rcases fork_cases begin end_ with narrow | ⟨last, rfl, wide⟩
  · rw [fork_none counting begin end_ subArray narrow]
    exact ready_short ready (by omega)
  · have place : ((last : Int) + 1).toNat = last + 1 := by omega
    rw [place] at ready ⊢
    obtain ⟨sorted, done, prefixed⟩ := sorts last rfl (by omega) subArray (by omega) ready
    rw [fork_runs counting begin last subArray wide, done]
    exact prefixed

theorem forks_sort (begin end_ lower : Nat) (upper : Int) (subArray parted : List Value)
    (pivotValue : Value) (splits : Splits begin end_ lower upper pivotValue subArray parted)
    (within : end_ < subArray.length) (ready : Ready begin (end_ + 1) subArray)
    (lesser : ∀ last : Nat, upper = last → (begin : Int) < upper → Sorts Value counting begin last)
    (greater : lower < end_ → Sorts Value counting lower end_) :
    SortsPrefix (end_ + 1) subArray (forked counting lower end_ (forked counting begin upper parted)) := by
  have bounds := splits.bounds
  have meets := splits.meets
  have same := splits.shuffled.same.length_eq
  have start := ready_shuffled ready splits.shuffled
  have first := fork_sorts counting begin upper parted (by omega) (by omega)
    (ready_fewer start (by omega)) lesser
  have next := greater_ready start splits.halves (by omega) (by omega) (by omega) first
  have length := prefix_length first
  have second := fork_sorts counting lower end_ _ (by omega) (by omega) next fun last same wide => by
    have equal : last = end_ := by omega
    exact equal ▸ greater (by omega)
  exact shuffled_sorts parted splits.shuffled (prefix_trans (end_ + 1) _ first (by omega) second)

theorem run_sorts (size : Nat) : ∀ begin end_ : Nat, end_ - begin = size → begin ≤ end_ →
    AllFit counting end_ → Sorts Value counting begin end_ := by
  induction size using Nat.strongRecOn with
  | ind size ih =>
      intro begin end_ measure order fits subArray within ready
      rcases Nat.lt_or_ge end_ (begin + 1) with narrow | wide
      · exact ⟨subArray, run_edge counting begin end_ subArray (by omega), ready_short ready (by omega)⟩
      · rcases Nat.lt_or_ge end_ (begin + 4) with short | long
        · rw [run_short counting begin end_ subArray within wide short]
          exact insertSort_sorts begin end_ subArray order within ready
        · have sum := fits begin end_ (by omega) (Nat.le_refl _)
          obtain ⟨pivotValue, lower, upper, parted, found, done, splits⟩ :=
            task_splits counting begin end_ subArray within sum long
          have bounds := splits.bounds
          refine ⟨_, run_long counting begin end_ subArray within sum long pivotValue lower upper parted found
            done, ?_⟩
          exact forks_sort counting begin end_ lower upper subArray parted pivotValue splits within ready
            (fun last same inner => ih (last - begin) (by omega) begin last rfl (by omega)
              fun first stop wide inside => fits first stop wide (by omega))
            (fun inner => ih (end_ - lower) (by omega) lower end_ rfl (by omega) fits)

/-- Every array is sorted in the end. -/
theorem parallelSort_sorts (array : List Value) :
    (parallelSort .exact array 0 array.length).Pairwise (· ≤ ·) ∧
      (parallelSort .exact array 0 array.length).Perm array := by
  unfold parallelSort
  split
  · rename_i edge
    have empty : array = [] := by
      simp only [isEdgeCase, Bool.or_eq_true, decide_eq_true_eq] at edge
      exact List.eq_nil_of_length_eq_zero (by omega)
    subst empty
    exact ⟨List.Pairwise.nil, List.Perm.nil⟩
  · rename_i inner
    have some := edge_case array 0 array.length inner
    have last : (array.length : Int) - 1 = (array.length - 1 : Nat) := by omega
    have all : array.length - 1 + 1 = array.length := by omega
    obtain ⟨sorted, done, sorts⟩ := run_sorts .exact (array.length - 1) 0 (array.length - 1) rfl
      (Nat.zero_le _) (fun begin end_ _ _ => exact_fits begin end_) array (by omega) (ready_start _ array)
    rw [all] at sorts
    rw [last]
    simp only [Int.natCast_zero] at done
    rw [done]
    exact prefix_whole sorts (Nat.le_refl _)

end Tasks

end EE360P.PSort
