import Mathlib.Order.Lattice
import EE360P.JavaText

/-! project1/q1 `PSort`. A task runs to completion before the `get` of its
future returns, so the forked tasks run one after the other on the shared array.
An access outside the array throws: the task ends, its parent catches the
exception and goes on with the array as the task has left it. The sum of two indices
may be exact or a Java `int`. -/

namespace EE360P.PSort
open JavaText

variable {Value : Type}

section Access

/-- `none` stands for `ArrayIndexOutOfBoundsException`. -/
def read (subArray : List Value) (index : Int) : Option Value :=
  if 0 ≤ index then subArray[index.toNat]? else none

def swap (begin end_ : Int) (subArray : List Value) : Option (List Value) :=
  match read subArray begin, read subArray end_ with
  | some temp, some other => some ((subArray.set begin.toNat other).set end_.toNat temp)
  | _, _ => none

theorem read_inside (subArray : List Value) (index : Int) (value : Value)
    (found : read subArray index = some value) : 0 ≤ index ∧ index < subArray.length := by
  unfold read at found
  split at found
  · have inside := (List.getElem?_eq_some_iff.mp found).1
    omega
  · cases found

theorem read_some (subArray : List Value) (index : Int) (low : 0 ≤ index)
    (high : index < subArray.length) : ∃ value, read subArray index = some value := by
  have inside : index.toNat < subArray.length := by omega
  exact ⟨subArray[index.toNat], by simp [read, low, inside]⟩

end Access

section Loops
variable [LinearOrder Value]

/-- `while (subArray[lowerBound] < pivotValue) lowerBound++` -/
def climb (subArray : List Value) (pivotValue : Value) (lowerBound : Int) : Option Int :=
  match found : read subArray lowerBound with
  | none => none
  | some value =>
      if value < pivotValue then climb subArray pivotValue (lowerBound + 1) else some lowerBound
termination_by (subArray.length - lowerBound).toNat
decreasing_by
  have inside := read_inside subArray lowerBound value found
  omega

/-- `while (subArray[upperBound] > pivotValue) upperBound--` -/
def descend (subArray : List Value) (pivotValue : Value) (upperBound : Int) : Option Int :=
  match found : read subArray upperBound with
  | none => none
  | some value =>
      if value > pivotValue then descend subArray pivotValue (upperBound - 1) else some upperBound
termination_by (upperBound + 1).toNat
decreasing_by
  have inside := read_inside subArray upperBound value found
  omega

theorem climb_rises (subArray : List Value) (pivotValue : Value) (lowerBound stop : Int)
    (stopped : climb subArray pivotValue lowerBound = some stop) : lowerBound ≤ stop := by
  fun_induction climb subArray pivotValue lowerBound with
  | case1 => cases stopped
  | case2 lowerBound value found smaller ih =>
      have later := ih stopped
      omega
  | case3 lowerBound value found =>
      cases stopped
      exact Int.le_refl _

theorem descend_falls (subArray : List Value) (pivotValue : Value) (upperBound stop : Int)
    (stopped : descend subArray pivotValue upperBound = some stop) : stop ≤ upperBound := by
  fun_induction descend subArray pivotValue upperBound with
  | case1 => cases stopped
  | case2 upperBound value found greater ih =>
      have later := ih stopped
      omega
  | case3 upperBound value found =>
      cases stopped
      exact Int.le_refl _

/-- The outer loop of `run`; an error carries the array as the exception leaves it. -/
def partition (pivotValue : Value) (lowerBound upperBound : Int) (subArray : List Value) :
    Except (List Value) (Int × Int × List Value) :=
  if lowerBound < upperBound then
    match _rises : climb subArray pivotValue lowerBound with
    | none => .error subArray
    | some lower =>
        match _falls : descend subArray pivotValue upperBound with
        | none => .error subArray
        | some upper =>
            if lower ≤ upper then
              match swap lower upper subArray with
              | none => .error subArray
              | some swapped => partition pivotValue (lower + 1) (upper - 1) swapped
            else partition pivotValue lower upper subArray
  else .ok (lowerBound, upperBound, subArray)
termination_by (upperBound - lowerBound).toNat
decreasing_by
  all_goals
    have rising := climb_rises subArray pivotValue lowerBound lower _rises
    have falling := descend_falls subArray pivotValue upperBound upper _falls
    omega

/-- `for (int switcher = runner; switcher > 0; switcher--)` -/
def switchDown : Nat → List Value → Except (List Value) (List Value)
  | 0, subArray => .ok subArray
  | switcher + 1, subArray =>
      match read subArray (switcher + 1), read subArray switcher with
      | some here, some before =>
          if here < before then
            match swap (switcher + 1) switcher subArray with
            | none => .error subArray
            | some swapped => switchDown switcher swapped
          else switchDown switcher subArray
      | _, _ => .error subArray

/-- `for (int runner = begin + 1; runner < end + 1; runner++)`, with `left` rounds to go. -/
def runUp : Nat → Int → List Value → Except (List Value) (List Value)
  | 0, _, subArray => .ok subArray
  | left + 1, runner, subArray =>
      match switchDown runner.toNat subArray with
      | .error thrown => .error thrown
      | .ok switched => runUp left (runner + 1) switched

def insertSort (begin end_ : Int) (subArray : List Value) : Except (List Value) (List Value) :=
  runUp (end_ - begin).toNat (begin + 1) subArray

end Loops

section Narrowing
variable [LinearOrder Value] {subArray : List Value} {pivotValue : Value}

theorem climb_below (lowerBound stop sentinel : Int) (value : Value)
    (stopped : climb subArray pivotValue lowerBound = some stop)
    (found : read subArray sentinel = some value) (large : pivotValue ≤ value)
    (before : lowerBound ≤ sentinel) : stop ≤ sentinel := by
  fun_induction climb subArray pivotValue lowerBound with
  | case1 => cases stopped
  | case2 lowerBound own here smaller ih =>
      apply ih stopped
      have different : lowerBound ≠ sentinel := by
        rintro rfl
        cases here.symm.trans found
        exact absurd smaller (not_lt.mpr large)
      omega
  | case3 lowerBound own here =>
      cases stopped
      exact before

theorem descend_above (upperBound stop sentinel : Int) (value : Value)
    (stopped : descend subArray pivotValue upperBound = some stop)
    (found : read subArray sentinel = some value) (small : value ≤ pivotValue)
    (behind : sentinel ≤ upperBound) : sentinel ≤ stop := by
  fun_induction descend subArray pivotValue upperBound with
  | case1 => cases stopped
  | case2 upperBound own here greater ih =>
      apply ih stopped
      have different : upperBound ≠ sentinel := by
        rintro rfl
        cases here.symm.trans found
        exact absurd greater (not_lt.mpr small)
      omega
  | case3 upperBound own here =>
      cases stopped
      exact behind

theorem partition_shrinks (lowerBound upperBound lower upper : Int) (after : List Value)
    (parted : partition pivotValue lowerBound upperBound subArray = .ok (lower, upper, after)) :
    lowerBound ≤ lower ∧ upper ≤ upperBound := by
  fun_induction partition pivotValue lowerBound upperBound subArray with
  | case1 => cases parted
  | case2 => cases parted
  | case3 => cases parted
  | case4 lowerBound upperBound subArray _ low rises high falls _ _ _ ih =>
      have rising := climb_rises _ _ _ _ rises
      have falling := descend_falls _ _ _ _ falls
      have inner := ih parted
      omega
  | case5 lowerBound upperBound subArray _ low rises high falls _ ih =>
      have rising := climb_rises _ _ _ _ rises
      have falling := descend_falls _ _ _ _ falls
      have inner := ih parted
      omega
  | case6 =>
      cases parted
      exact ⟨Int.le_refl _, Int.le_refl _⟩

-- The pivot stops both bounds in the first round, which then swaps.
theorem partition_narrows (lowerBound upperBound middle lower upper : Int) (after : List Value)
    (found : read subArray middle = some pivotValue) (before : lowerBound ≤ middle)
    (behind : middle ≤ upperBound) (wide : lowerBound < upperBound)
    (parted : partition pivotValue lowerBound upperBound subArray = .ok (lower, upper, after)) :
    lowerBound < lower ∧ upper < upperBound := by
  rw [partition] at parted
  simp only [wide, ↓reduceIte] at parted
  split at parted
  · cases parted
  · rename_i low rises
    split at parted
    · cases parted
    · rename_i high falls
      have rising := climb_rises _ _ _ _ rises
      have falling := descend_falls _ _ _ _ falls
      have below := climb_below _ _ middle _ rises found (le_refl _) before
      have above := descend_above _ _ middle _ falls found (le_refl _) behind
      have meets : low ≤ high := by omega
      simp only [meets, ↓reduceIte] at parted
      split at parted
      · cases parted
      · have inner := partition_shrinks _ _ _ _ _ parted
        omega

end Narrowing

section Tasks
variable [LinearOrder Value] (counting : Counting)

def isEdgeCase (array : List Value) (begin end_ : Int) : Bool :=
  array.length = 0 || begin ≥ end_

def midpointOf (begin end_ : Int) : Int := (counting.wrap (begin + end_)).tdiv 2

/-- The sum of `midpointOf` does not wrap. -/
def Fits (begin end_ : Int) : Prop := counting.wrap (begin + end_) = begin + end_

/-- `Future.get`, whose exception the caller catches. -/
def get : Except (List Value) (List Value) → List Value
  | .ok subArray => subArray
  | .error thrown => thrown

-- Integer division by 2 rounds towards 0.
theorem half_mirrored (sum : Int) (negative : sum ≤ 0) : sum.tdiv 2 = -(-sum / 2) := by
  rw [← Int.tdiv_eq_ediv_of_nonneg (by omega), Int.neg_tdiv, Int.neg_neg]

theorem midpoint_inside (begin end_ : Int) (fits : Fits counting begin end_) (wide : begin < end_) :
    begin ≤ midpointOf counting begin end_ ∧ midpointOf counting begin end_ ≤ end_ := by
  rw [midpointOf, fits]
  rcases Int.le_total 0 (begin + end_) with positive | negative
  · rw [Int.tdiv_eq_ediv_of_nonneg positive]
    omega
  · rw [half_mirrored (begin + end_) negative]
    omega

section Sums
variable (begin end_ : Nat)

theorem exact_fits : Fits .exact begin end_ := rfl

theorem int32_sum (small : begin + end_ < 2 ^ 31) : Fits .int32 begin end_ :=
  int32_fits _ (by omega) (by omega)

/-- Any other sum of two indices wraps to a negative one. -/
theorem midpoint_overflows (beyond : 2 ^ 31 ≤ begin + end_) (below : begin + end_ + 1 < 2 ^ 32) :
    midpointOf .int32 begin end_ < 0 := by
  rw [midpointOf, int32_overflows _ (by omega) (by omega), half_mirrored _ (by omega)]
  omega

end Sums

omit [LinearOrder Value] in
theorem edge_case (array : List Value) (begin end_ : Int)
    (inner : ¬ isEdgeCase array begin end_ = true) : begin < end_ := by
  simp only [isEdgeCase, Bool.or_eq_true, decide_eq_true_eq, not_or] at inner
  omega

theorem run_narrows (array : List Value) (begin end_ lowerBound upperBound : Int)
    (pivotValue : Value) (after : List Value) (fits : Fits counting begin end_) (wide : begin < end_)
    (found : read array (midpointOf counting begin end_) = some pivotValue)
    (parted : partition pivotValue begin end_ array = .ok (lowerBound, upperBound, after)) :
    begin < lowerBound ∧ upperBound < end_ := by
  have middle := midpoint_inside counting begin end_ fits wide
  exact partition_narrows begin end_ _ _ _ _ found middle.1 middle.2 wide parted

/-- `SubArray.run`. -/
def run (begin end_ : Int) (subArray : List Value) : Except (List Value) (List Value) :=
  if isEdgeCase subArray begin end_ then .ok subArray
  else if (end_ - begin).natAbs < 4 then insertSort begin end_ subArray
  else
    match read subArray (midpointOf counting begin end_) with
    | none => .error subArray
    | some pivotValue =>
        match partition pivotValue begin end_ subArray with
        | .error thrown => .error thrown
        | .ok (lowerBound, upperBound, parted) =>
            -- Both parts are shorter wherever the indices are ints; only the recursion needs the test.
            if _narrow : begin < lowerBound ∧ upperBound < end_ then
              let lesser := if begin < upperBound then get (run begin upperBound parted) else parted
              let greater := if end_ > lowerBound then get (run lowerBound end_ lesser) else lesser
              .ok greater
            else .error parted
termination_by (end_ - begin).toNat
decreasing_by
  all_goals omega

def parallelSort (array : List Value) (begin end_ : Int) : List Value :=
  if isEdgeCase array begin end_ then array else get (run counting begin (end_ - 1) array)

end Tasks

end EE360P.PSort
