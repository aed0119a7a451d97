import EE360P.SortedArrays
import EE360P.StraightRuns

/-! The partition of `SubArray.run` one access at a time, with its indices as Java
ints. -/

namespace EE360P.PSort
open JavaText StraightRuns

variable {Value : Type}

/-- `testing` is before the test of the outer loop, `climbing` and `descending` before a
test of the inner ones, `comparing` before `lowerBound <= upperBound` and `forking`
behind the loops. -/
inductive Point where
  | testing
  | climbing
  | descending
  | comparing
  | forking
  deriving DecidableEq, Repr

structure Scan (Value : Type) where
  point : Point
  lowerBound : Int
  upperBound : Int
  subArray : List Value
  deriving DecidableEq, Repr

/-- The index that the inner loop evaluates next. -/
def evaluated (scan : Scan Value) : Option Int :=
  match scan.point with
  | .climbing => some scan.lowerBound
  | .descending => some scan.upperBound
  | _ => none

section Steps
variable [LinearOrder Value] (counting : Counting) (pivotValue : Value)

/-- No step is left behind the loops, or where an access outside the array throws. -/
def scanStep (scan : Scan Value) : Option (Scan Value) :=
  match scan.point with
  | .testing =>
      some { scan with point := if scan.lowerBound < scan.upperBound then .climbing else .forking }
  | .climbing =>
      (read scan.subArray scan.lowerBound).map fun value =>
        if value < pivotValue then { scan with lowerBound := counting.wrap (scan.lowerBound + 1) }
        else { scan with point := .descending }
  | .descending =>
      (read scan.subArray scan.upperBound).map fun value =>
        if value > pivotValue then { scan with upperBound := counting.wrap (scan.upperBound - 1) }
        else { scan with point := .comparing }
  | .comparing =>
      if scan.lowerBound ≤ scan.upperBound then
        (swap scan.lowerBound scan.upperBound scan.subArray).map fun swapped =>
          ⟨.testing, counting.wrap (scan.lowerBound + 1), counting.wrap (scan.upperBound - 1), swapped⟩
      else some { scan with point := .testing }
  | .forking => none

end Steps

/-- What the partition is to do: it evaluates indices of its range only, its loops end,
and both ranges that it leaves are shorter. -/
structure Progresses [LinearOrder Value] (begin end_ : Int) (subArray : List Value) : Prop where
  pivot : begin ≤ midpointOf .int32 begin end_ ∧ midpointOf .int32 begin end_ ≤ end_
  scans : ∃ pivotValue, read subArray (midpointOf .int32 begin end_) = some pivotValue ∧
    (∀ scan, Steps (scanStep .int32 pivotValue) ⟨.testing, begin, end_, subArray⟩ scan →
      ∀ index ∈ evaluated scan, begin ≤ index ∧ index ≤ end_) ∧
    ∃ final, Steps (scanStep .int32 pivotValue) ⟨.testing, begin, end_, subArray⟩ final ∧
      final.point = .forking ∧ final.upperBound - begin < end_ - begin ∧
      end_ - final.lowerBound < end_ - begin

section Runs
variable [LinearOrder Value] (pivotValue : Value) (first stop : Nat)

/-- The scan evaluates an index of the range, if any. -/
def Inside (scan : Scan Value) : Prop := ∀ index ∈ evaluated scan, first ≤ index ∧ index < stop

variable {first stop} {lowerBound upperBound : Int} {subArray : List Value}

omit [LinearOrder Value] in
theorem idle_inside (scan : Scan Value) (idle : evaluated scan = none) : Inside first stop scan := by
  intro index own
  rw [idle] at own
  cases own

omit [LinearOrder Value] in
theorem climbing_inside (low : first ≤ lowerBound) (high : lowerBound < stop) :
    Inside first stop (⟨.climbing, lowerBound, upperBound, subArray⟩ : Scan Value) := by
  intro index own
  cases own
  exact ⟨low, high⟩

omit [LinearOrder Value] in
theorem descending_inside (low : first ≤ upperBound) (high : upperBound < stop) :
    Inside first stop (⟨.descending, lowerBound, upperBound, subArray⟩ : Scan Value) := by
  intro index own
  cases own
  exact ⟨low, high⟩

variable {pivotValue} {final : Scan Value} (held : stop < 2 ^ 31)
include held

/-- The first inner loop comes to where `climb` stops. -/
theorem climb_comes (reached : Int) (low : first ≤ lowerBound) (high : reached < stop)
    (stopped : climb subArray pivotValue lowerBound = some reached)
    (rest : Comes (scanStep .int32 pivotValue) (Inside first stop) final
      ⟨.descending, reached, upperBound, subArray⟩) :
    Comes (scanStep .int32 pivotValue) (Inside first stop) final
      ⟨.climbing, lowerBound, upperBound, subArray⟩ := by
  fun_induction climb subArray pivotValue lowerBound with
  | case1 => cases stopped
  | case2 lowerBound value found smaller ih =>
      have later := climb_rises subArray pivotValue (lowerBound + 1) reached stopped
      have next := int32_fits (lowerBound + 1) (by omega) (by omega)
      refine .next (climbing_inside low (by omega)) ?_ (ih (by omega) stopped)
      simp [scanStep, found, smaller, next]
  | case3 lowerBound value found larger =>
      cases stopped
      refine .next (climbing_inside low high) ?_ rest
      simp [scanStep, found, larger]

/-- The second inner loop comes to where `descend` stops. -/
theorem descend_comes (reached : Int) (low : first ≤ reached) (high : upperBound < stop)
    (stopped : descend subArray pivotValue upperBound = some reached)
    (rest : Comes (scanStep .int32 pivotValue) (Inside first stop) final
      ⟨.comparing, lowerBound, reached, subArray⟩) :
    Comes (scanStep .int32 pivotValue) (Inside first stop) final
      ⟨.descending, lowerBound, upperBound, subArray⟩ := by
  fun_induction descend subArray pivotValue upperBound with
  | case1 => cases stopped
  | case2 upperBound value found greater ih =>
      have later := descend_falls subArray pivotValue (upperBound - 1) reached stopped
      have next := int32_fits (upperBound - 1) (by omega) (by omega)
      refine .next (descending_inside (by omega) high) ?_ (ih (by omega) stopped)
      simp [scanStep, found, greater, next]
  | case3 upperBound value found less =>
      cases stopped
      refine .next (descending_inside low high) ?_ rest
      simp [scanStep, found, less]

/-- One round of the outer loop, up to the test for the swap. -/
theorem round_comes (lower upper : Int) (apart : lowerBound < upperBound)
    (scanning : Scanning first stop pivotValue lowerBound upperBound subArray)
    (climbed : climb subArray pivotValue lowerBound = some lower)
    (descended : descend subArray pivotValue upperBound = some upper)
    (round : Round first stop pivotValue lowerBound upperBound lower upper subArray)
    (rest : Comes (scanStep .int32 pivotValue) (Inside first stop) final
      ⟨.comparing, lower, upper, subArray⟩) :
    Comes (scanStep .int32 pivotValue) (Inside first stop) final
      ⟨.testing, lowerBound, upperBound, subArray⟩ := by
  have bounds := scanning.bounds
  have falls := descend_comes held upper round.uppers.1 bounds.2.2.2 descended rest
  have climbs := climb_comes held lower bounds.1 round.lowers.2 climbed falls
  refine .next (idle_inside _ rfl) ?_ climbs
  simp [scanStep, apart]

/-- The loops come to what `partition` computes, and evaluate indices of the range only. -/
theorem partition_comes (lower upper : Int) (after : List Value)
    (scanning : Scanning first stop pivotValue lowerBound upperBound subArray)
    (parted : partition pivotValue lowerBound upperBound subArray = .ok (lower, upper, after)) :
    Comes (scanStep .int32 pivotValue) (Inside first stop) ⟨.forking, lower, upper, after⟩
      ⟨.testing, lowerBound, upperBound, subArray⟩ := by
  fun_induction partition pivotValue lowerBound upperBound subArray with
  | case1 => cases parted
  | case2 => cases parted
  | case3 => cases parted
  | case4 lowerBound upperBound subArray apart low climbed high descended meets swapped done ih =>
      obtain ⟨_, _, once, again, round⟩ := round_stops scanning apart
      cases climbed.symm.trans once
      cases descended.symm.trans again
      have rest := ih (scanning_swapped scanning round meets done) parted
      have bounds := scanning.bounds
      have lowers := round.lowers
      have uppers := round.uppers
      have rises := int32_fits (low + 1) (by omega) (by omega)
      have falls := int32_fits (high - 1) (by omega) (by omega)
      refine round_comes held low high apart scanning climbed descended round
        (.next (idle_inside _ rfl) ?_ rest)
      simp [scanStep, meets, done, rises, falls]
  | case5 lowerBound upperBound subArray apart low climbed high descended crossed ih =>
      obtain ⟨_, _, once, again, round⟩ := round_stops scanning apart
      cases climbed.symm.trans once
      cases descended.symm.trans again
      have rest := ih (scanning_crossed scanning round (Int.not_le.mp crossed)) parted
      refine round_comes held low high apart scanning climbed descended round
        (.next (idle_inside _ rfl) ?_ rest)
      simp [scanStep, crossed]
  | case6 lowerBound upperBound subArray met =>
      cases parted
      refine .next (idle_inside _ rfl) ?_ (.there (idle_inside _ rfl))
      simp [scanStep, met]

end Runs

section Ranges
variable [LinearOrder Value] (begin end_ : Nat) (subArray : List Value)

variable (held : subArray.length < 2 ^ 31) (within : end_ < subArray.length)
include held within

theorem progresses_below (long : begin + 4 ≤ end_) (fits : begin + end_ < 2 ^ 31) :
    Progresses (begin : Int) (end_ : Int) subArray := by
  have sum := int32_sum begin end_ fits
  have middle := midpoint_inside .int32 begin end_ sum (by omega)
  obtain ⟨pivotValue, lower, upper, parted, found, done, splits⟩ :=
    task_splits .int32 begin end_ subArray within sum long
  have start := scanning_start .int32 begin end_ sum (by omega) within found
  have comes := partition_comes (by omega) lower upper parted start done
  have bounds := splits.bounds
  refine ⟨middle, pivotValue, found, ?_, _, comes_steps comes, rfl, ?_, ?_⟩
  · intro scan reached index own
    have inside := comes_good rfl comes scan reached index own
    omega
  · change upper - begin < end_ - begin
    omega
  · change end_ - (lower : Int) < end_ - begin
    omega

/-- On every range that `run` parts, the partition evaluates indices of the range only,
ends, and leaves shorter ranges, if and only if the sum of its ends is an int. -/
theorem partition_progresses (long : begin + 4 ≤ end_) :
    Progresses (begin : Int) (end_ : Int) subArray ↔ begin + end_ < 2 ^ 31 := by
  constructor
  · intro progresses
    by_contra beyond
    have negative := midpoint_overflows begin end_ (by omega) (by omega)
    have low := progresses.pivot.1
    omega
  · exact progresses_below begin end_ subArray held within long

/-- Ranges of arrays of at most 2 ^ 30 entries are never too far behind. -/
theorem short_progresses (long : begin + 4 ≤ end_) (short : subArray.length ≤ 2 ^ 30) :
    Progresses (begin : Int) (end_ : Int) subArray :=
  progresses_below begin end_ subArray held within long (by omega)

end Ranges

theorem partition_progresses_five :
    [(5 : Int), 1, 4, 2, 3].length < 2 ^ 31 ∧ 4 < [(5 : Int), 1, 4, 2, 3].length ∧ 0 + 4 ≤ 4 ∧
      Progresses ((0 : Nat) : Int) ((4 : Nat) : Int) [(5 : Int), 1, 4, 2, 3] :=
  ⟨by decide, by decide, by decide,
    (partition_progresses 0 4 [5, 1, 4, 2, 3] (by decide) (by decide) (by decide)).mpr (by decide)⟩

-- The two halves of the sum are 2 ^ 30 and more: it wraps, and the pivot choice throws.
theorem far_partition_throws :
    4 + 1073741824 ≤ 1073741828 ∧
      1073741828 < (List.replicate 1073741829 (0 : Int)).length ∧
      (List.replicate 1073741829 (0 : Int)).length < 2 ^ 31 ∧
      ¬ Progresses 1073741824 1073741828 (List.replicate 1073741829 (0 : Int)) := by
  rw [List.length_replicate]
  refine ⟨by decide, by decide, by decide, fun progresses => ?_⟩
  have negative := midpoint_overflows 1073741824 1073741828 (by decide) (by decide)
  exact absurd (Int.le_trans (by decide) progresses.pivot.1) (Int.not_le.mpr negative)

end EE360P.PSort
