import Mathlib.Algebra.Order.Floor.Div
import Mathlib.Data.Rat.Floor
import Mathlib.Tactic.Linarith
import EE360P.JavaText
import EE360P.ParallelSort

/-! project1/q2 `PSearch`. The source is read with `start, end` for `startAndEnd` and
with a `determineSplitSizeFrom` that returns its `splitSize`. Each callable is a search
of its own range, whose future returns the index or throws what the search has
thrown; the futures are read in the order of the ranges. -/

namespace EE360P.PSearch
open JavaText
open PSort (read read_inside read_some)

variable {Value : Type}

def FAILED_SEARCH : Int := -1

structure SubArray (Value : Type) where
  start : Int
  end_ : Int
  desiredValue : Value
  deriving DecidableEq, Repr

section Callables
variable (arrayToSearch : List Value)

/-- The quotient of the two doubles is exact. `0.0 / 0.0` of the empty array rounds to 0,
as the quotient by 0 does here. -/
def determineSplitSizeFrom (numThreads : Int) : Int :=
  let numThreads :=
    if numThreads > arrayToSearch.length then (arrayToSearch.length : Int) else numThreads
  ⌈((arrayToSearch.length : Int) : ℚ) / (numThreads : ℚ)⌉

/-- The loop of `createCallableThreads` from `currentIndex` on. `none` means that it has
not ended after `rounds` rounds: an index that wraps may go on for ever. -/
def createFrom (counting : Counting) (desiredValue : Value) (splitSize : Int) :
    Nat → Int → Option (List (SubArray Value))
  | rounds, currentIndex =>
      if currentIndex < arrayToSearch.length then
        match rounds with
        | 0 => none
        | rounds + 1 =>
            let next := counting.wrap (currentIndex + splitSize)
            let callable := ⟨currentIndex, min arrayToSearch.length next, desiredValue⟩
            (createFrom counting desiredValue splitSize rounds next).map (callable :: ·)
      else some []

def createCallableThreads (desiredValue : Value) (splitSize : Int) (rounds : Nat) :
    Option (List (SubArray Value)) := createFrom arrayToSearch .int32 desiredValue splitSize rounds 0

variable [DecidableEq Value]

/-- The loop of `searchSubArray`; `none` stands for `ArrayIndexOutOfBoundsException`.
`currentIndex++` stays below `end`, so it does not overflow. -/
def searchFrom (desiredValue : Value) (end_ currentIndex : Int) : Option Int :=
  if currentIndex < end_ then
    match read arrayToSearch currentIndex with
    | none => none
    | some value =>
        if value = desiredValue then some currentIndex
        else searchFrom desiredValue end_ (currentIndex + 1)
  else some FAILED_SEARCH
termination_by (end_ - currentIndex).toNat

def searchSubArray (callable : SubArray Value) : Option Int :=
  searchFrom arrayToSearch callable.desiredValue callable.end_ callable.start

end Callables

/-- The loop of `findDesiredValueFrom`. A `get` that throws leaves `contender` as it is. -/
def scanResults (contender : Int) : List (Option Int) → Int
  | [] => FAILED_SEARCH
  | result :: rest =>
      let contender := result.getD contender
      if contender ≠ FAILED_SEARCH then contender else scanResults contender rest

def findDesiredValueFrom (searchResults : List (Option Int)) : Int :=
  scanResults FAILED_SEARCH searchResults

/-! What is asked of it: the ranges follow one another from the first index to the
length, and the result is the first index that holds the value. -/
section Specification
variable [DecidableEq Value] (arrayToSearch : List Value) (desiredValue : Value)

def Tiles (start stop : Int) : List (SubArray Value) → Prop
  | [] => start = stop
  | callable :: rest =>
      callable.start = start ∧ start ≤ callable.end_ ∧ Tiles callable.end_ stop rest

/-- The smallest index from `start` to before `stop` that holds the value, or -1. -/
def FirstIn (start stop result : Int) : Prop :=
  (start ≤ result ∧ result < stop ∧ read arrayToSearch result = some desiredValue ∧
    ∀ index, start ≤ index → index < result → read arrayToSearch index ≠ some desiredValue) ∨
  (result = FAILED_SEARCH ∧
    ∀ index, start ≤ index → index < stop → read arrayToSearch index ≠ some desiredValue)

structure Searched (numThreads : Nat) (callableThreads : List (SubArray Value)) : Prop where
  tiled : Tiles 0 arrayToSearch.length callableThreads
  few : callableThreads.length ≤ numThreads
  first : FirstIn arrayToSearch desiredValue 0 arrayToSearch.length
    (findDesiredValueFrom (callableThreads.map (searchSubArray arrayToSearch)))

end Specification

section Split

/-- The first multiple of the split size from the length on. -/
def reach (length numThreads : Nat) : Nat :=
  let splitSize := length ⌈/⌉ min numThreads length
  (length ⌈/⌉ splitSize) * splitSize

theorem ceilDiv_exact (length parts : Nat) (positive : 0 < parts) :
    ⌈((length : Int) : ℚ) / ((parts : Int) : ℚ)⌉ = (length ⌈/⌉ parts : Nat) := by
  have divisor : (0 : ℚ) < ((parts : Int) : ℚ) := by exact_mod_cast positive
  apply Int.le_antisymm
  · rw [Int.ceil_le, div_le_iff₀ divisor]
    have covered : length ≤ parts * (length ⌈/⌉ parts) := le_smul_ceilDiv positive
    rw [Nat.mul_comm] at covered
    exact_mod_cast covered
  · have rounded := Int.le_ceil (((length : Int) : ℚ) / ((parts : Int) : ℚ))
    rw [div_le_iff₀ divisor] at rounded
    have nonneg : 0 ≤ ⌈((length : Int) : ℚ) / ((parts : Int) : ℚ)⌉ :=
      Int.ceil_nonneg (by positivity)
    obtain ⟨ceiling, same⟩ := Int.eq_ofNat_of_zero_le nonneg
    rw [same] at rounded ⊢
    have covered : length ≤ ceiling * parts := by exact_mod_cast rounded
    rw [Nat.mul_comm] at covered
    exact_mod_cast (ceilDiv_le_iff_le_mul positive).mpr covered

theorem ceilDiv_short (length parts : Nat) (positive : 0 < parts) :
    (length ⌈/⌉ parts) * parts < length + parts := by
  have whole := Nat.div_mul_le_self (length + parts - 1) parts
  rw [Nat.ceilDiv_eq_add_pred_div]
  omega

theorem splitSize_exact (arrayToSearch : List Value) (numThreads : Nat) (positive : 1 ≤ numThreads) :
    determineSplitSizeFrom arrayToSearch numThreads =
      (arrayToSearch.length ⌈/⌉ min numThreads arrayToSearch.length : Nat) := by
  have capped : (if (numThreads : Int) > arrayToSearch.length then (arrayToSearch.length : Int)
      else numThreads) = (min numThreads arrayToSearch.length : Nat) := by
    split <;> omega
  rw [determineSplitSizeFrom, capped]
  rcases Nat.eq_zero_or_pos arrayToSearch.length with empty | some_
  · simp [empty]
  · exact ceilDiv_exact _ _ (by omega)

end Split

section Ranges
variable (arrayToSearch : List Value) (desiredValue : Value) (splitSize : Nat)

/-- As long as the index does not wrap, `rounds` rounds reach the end of the array. -/
theorem createFrom_tiles (rounds : Nat) (currentIndex : Int) (low : 0 ≤ currentIndex)
    (reached : (arrayToSearch.length : Int) ≤ currentIndex + rounds * splitSize)
    (fits : currentIndex + rounds * splitSize < 2 ^ 31) : ∃ callableThreads,
      createFrom arrayToSearch .int32 desiredValue splitSize rounds currentIndex =
        some callableThreads ∧
      Tiles (min arrayToSearch.length currentIndex) arrayToSearch.length callableThreads ∧
      callableThreads.length ≤ rounds := by
  induction rounds generalizing currentIndex with
  | zero =>
      have ended : (arrayToSearch.length : Int) ≤ currentIndex := by simpa using reached
      refine ⟨[], ?_, Int.min_eq_left ended, Nat.le_refl _⟩
      rw [createFrom, if_neg (Int.not_lt.mpr ended)]
  | succ rounds ih =>
      rw [createFrom]
      by_cases inside : currentIndex < arrayToSearch.length
      · have more : currentIndex + (rounds + 1 : Nat) * splitSize =
            currentIndex + splitSize + rounds * splitSize := by
          push_cast
          ring
        rw [more] at reached fits
        have room : (0 : Int) ≤ rounds * splitSize := by positivity
        have next := int32_fits (currentIndex + splitSize) (by omega) (by omega)
        obtain ⟨rest, created, tiled, few⟩ := ih (currentIndex + splitSize) (by omega) reached fits
        rw [if_pos inside]
        simp only [next, created, Option.map_some]
        refine ⟨_, rfl, ⟨?_, ?_, tiled⟩, Nat.succ_le_succ few⟩
        · exact (Int.min_eq_right (Int.le_of_lt inside)).symm
        · simp only [le_inf_iff, inf_le_left, true_and]
          exact Int.le_trans (Int.min_le_right _ _) (by omega)
      · rw [if_neg inside]
        refine ⟨[], rfl, Int.min_eq_left (by omega), Nat.zero_le _⟩

/-- When the index wraps on its way, the range that should end the array ends below 0. -/
theorem createFrom_untiled (left rounds : Nat) (currentIndex : Int)
    (callableThreads : List (SubArray Value)) (low : 0 ≤ currentIndex)
    (held : arrayToSearch.length < 2 ^ 31) (short : splitSize ≤ arrayToSearch.length)
    (inside : currentIndex + left * splitSize < arrayToSearch.length)
    (beyond : 2 ^ 31 ≤ currentIndex + left * splitSize + splitSize)
    (created : createFrom arrayToSearch .int32 desiredValue splitSize rounds currentIndex =
      some callableThreads) :
    ¬ Tiles currentIndex arrayToSearch.length callableThreads := by
  induction left generalizing rounds currentIndex callableThreads with
  | zero =>
      have last : currentIndex < arrayToSearch.length := by simpa using inside
      have wrapped := int32_overflows (currentIndex + splitSize) (by simpa using beyond) (by omega)
      cases rounds with
      | zero => simp [createFrom, last] at created
      | succ rounds =>
          rw [createFrom, if_pos last] at created
          obtain ⟨rest, _, rfl⟩ := Option.map_eq_some_iff.mp created
          rintro ⟨_, ordered, _⟩
          have bounded := Int.le_trans ordered (Int.min_le_right _ _)
          rw [wrapped] at bounded
          omega
  | succ left ih =>
      have more : currentIndex + (left + 1 : Nat) * splitSize =
          currentIndex + splitSize + left * splitSize := by
        push_cast
        ring
      rw [more] at inside beyond
      have room : (0 : Int) ≤ left * splitSize := by positivity
      have next := int32_fits (currentIndex + splitSize) (by omega) (by omega)
      have early : currentIndex < arrayToSearch.length := by omega
      cases rounds with
      | zero => simp [createFrom, early] at created
      | succ rounds =>
          rw [createFrom, if_pos early] at created
          simp only [next] at created
          obtain ⟨rest, later, rfl⟩ := Option.map_eq_some_iff.mp created
          rintro ⟨_, _, tiled⟩
          simp only [Int.min_eq_right (show currentIndex + splitSize ≤ arrayToSearch.length by omega)]
            at tiled
          exact ih rounds (currentIndex + splitSize) rest (by omega) inside beyond later tiled

theorem createFrom_desired (rounds : Nat) (currentIndex : Int)
    (callableThreads : List (SubArray Value))
    (created : createFrom arrayToSearch .int32 desiredValue splitSize rounds currentIndex =
      some callableThreads) : ∀ callable ∈ callableThreads, callable.desiredValue = desiredValue := by
  induction rounds generalizing currentIndex callableThreads with
  | zero =>
      rw [createFrom] at created
      split at created
      · cases created
      · cases created
        nofun
  | succ rounds ih =>
      rw [createFrom] at created
      split at created
      · obtain ⟨rest, later, rfl⟩ := Option.map_eq_some_iff.mp created
        intro callable member
        rcases List.mem_cons.mp member with rfl | tail
        · rfl
        · exact ih _ rest later callable tail
      · cases created
        nofun

end Ranges

section Searching
variable (arrayToSearch : List Value) (desiredValue : Value)

theorem tiles_ordered (callableThreads : List (SubArray Value)) (start stop : Int)
    (tiled : Tiles start stop callableThreads) : start ≤ stop := by
  induction callableThreads generalizing start with
  | nil => exact Int.le_of_eq tiled
  | cons callable rest ih => exact Int.le_trans tiled.2.1 (ih callable.end_ tiled.2.2)

theorem firstIn_missed (start stop : Int) (low : 0 ≤ start)
    (first : FirstIn arrayToSearch desiredValue start stop FAILED_SEARCH) (index : Int)
    (behind : start ≤ index) (ahead : index < stop) : read arrayToSearch index ≠ some desiredValue := by
  rcases first with ⟨high, _⟩ | ⟨_, absent⟩
  · simp only [FAILED_SEARCH] at high
    omega
  · exact absent index behind ahead

theorem firstIn_later (start middle stop result : Int) (ordered : start ≤ middle)
    (missed : ∀ index, start ≤ index → index < middle → read arrayToSearch index ≠ some desiredValue)
    (first : FirstIn arrayToSearch desiredValue middle stop result) :
    FirstIn arrayToSearch desiredValue start stop result := by
  rcases first with ⟨low, high, found, before⟩ | ⟨failed, absent⟩
  · refine Or.inl ⟨by omega, high, found, fun index behind ahead => ?_⟩
    rcases Int.lt_or_le index middle with earlier | later
    · exact missed index behind earlier
    · exact before index later ahead
  · refine Or.inr ⟨failed, fun index behind ahead => ?_⟩
    rcases Int.lt_or_le index middle with earlier | later
    · exact missed index behind earlier
    · exact absent index later ahead

theorem firstIn_wider (start middle stop result : Int) (ordered : middle ≤ stop)
    (hit : result ≠ FAILED_SEARCH)
    (first : FirstIn arrayToSearch desiredValue start middle result) :
    FirstIn arrayToSearch desiredValue start stop result := by
  rcases first with ⟨low, high, found, before⟩ | ⟨failed, _⟩
  · exact Or.inl ⟨low, by omega, found, before⟩
  · exact absurd failed hit

variable [DecidableEq Value]

/-- A search of a range inside the array throws nothing and finds the first hit. -/
theorem searchFrom_first (end_ currentIndex : Int) (low : 0 ≤ currentIndex)
    (high : end_ ≤ arrayToSearch.length) : ∃ result,
      searchFrom arrayToSearch desiredValue end_ currentIndex = some result ∧
      FirstIn arrayToSearch desiredValue currentIndex end_ result := by
  fun_induction searchFrom arrayToSearch desiredValue end_ currentIndex with
  | case1 currentIndex inside outside =>
      obtain ⟨value, found⟩ := read_some arrayToSearch currentIndex low (by omega)
      rw [found] at outside
      cases outside
  | case2 currentIndex inside found =>
      refine ⟨currentIndex, rfl, Or.inl ⟨Int.le_refl _, inside, found, ?_⟩⟩
      intro index behind ahead
      omega
  | case3 currentIndex inside value found other ih =>
      obtain ⟨result, later, first⟩ := ih (by omega)
      refine ⟨result, later, firstIn_later _ _ _ (currentIndex + 1) _ _ (by omega) ?_ first⟩
      intro index behind ahead
      have same : index = currentIndex := by omega
      rw [same, found, Ne, Option.some.injEq]
      exact other
  | case4 currentIndex ended =>
      exact ⟨FAILED_SEARCH, rfl, Or.inr ⟨rfl, fun index behind ahead => by omega⟩⟩

/-- The results of ranges that tile the rest of the array, scanned in order, give the
first hit of that rest. -/
theorem scanResults_first (callableThreads : List (SubArray Value)) (start : Int) (low : 0 ≤ start)
    (tiled : Tiles start arrayToSearch.length callableThreads)
    (desired : ∀ callable ∈ callableThreads, callable.desiredValue = desiredValue) :
    FirstIn arrayToSearch desiredValue start arrayToSearch.length
      (scanResults FAILED_SEARCH (callableThreads.map (searchSubArray arrayToSearch))) := by
  induction callableThreads generalizing start with
  | nil =>
      simp only [Tiles] at tiled
      exact Or.inr ⟨rfl, fun index behind ahead => by omega⟩
  | cons callable rest ih =>
      obtain ⟨begins, ordered, tail⟩ := tiled
      have bounded := tiles_ordered rest callable.end_ arrayToSearch.length tail
      have own := desired callable List.mem_cons_self
      obtain ⟨result, searched, first⟩ := searchFrom_first arrayToSearch desiredValue
        callable.end_ start low bounded
      have ran : searchSubArray arrayToSearch callable = some result := by
        rw [searchSubArray, own, begins, searched]
      simp only [List.map_cons, scanResults, ran, Option.getD_some]
      by_cases hit : result = FAILED_SEARCH
      · subst hit
        rw [if_neg (by simp)]
        exact firstIn_later _ _ _ callable.end_ _ _ ordered
          (firstIn_missed _ _ start callable.end_ low first) (ih callable.end_ (by omega) tail
            fun other member => desired other (List.mem_cons_of_mem callable member))
      · rw [if_pos hit]
        exact firstIn_wider _ _ start callable.end_ _ _ bounded hit first

end Searching

section Whole
variable [DecidableEq Value]

/-- The parallel search ends, its ranges tile the array, and it finds the first hit. -/
def Succeeds (arrayToSearch : List Value) (desiredValue : Value) (numThreads : Nat) : Prop :=
  ∃ rounds callableThreads,
    createCallableThreads arrayToSearch desiredValue
      (determineSplitSizeFrom arrayToSearch numThreads) rounds = some callableThreads ∧
    Searched arrayToSearch desiredValue numThreads callableThreads

theorem split_bounds (length numThreads : Nat) (positive : 1 ≤ numThreads) (some_ : 0 < length) :
    let splitSize := length ⌈/⌉ min numThreads length
    length ≤ min numThreads length * splitSize ∧ 0 < splitSize ∧ splitSize ≤ length := by
  intro splitSize
  have threads : 0 < min numThreads length := by omega
  have covered : length ≤ min numThreads length * splitSize := le_smul_ceilDiv threads
  refine ⟨covered, Nat.pos_of_ne_zero fun zero => ?_, ?_⟩
  · rw [zero, Nat.mul_zero] at covered
    omega
  · exact (ceilDiv_le_iff_le_mul threads).mpr (Nat.le_mul_of_pos_left length threads)

/-- The array is reached by at most one range for each thread. -/
theorem reach_covers (length numThreads : Nat) (positive : 1 ≤ numThreads) :
    length ≤ reach length numThreads ∧
      length ⌈/⌉ (length ⌈/⌉ min numThreads length) ≤ numThreads := by
  rcases Nat.eq_zero_or_pos length with empty | some_
  · simp [empty]
  · obtain ⟨covered, split, _⟩ := split_bounds length numThreads positive some_
    constructor
    · rw [reach, Nat.mul_comm]
      exact le_smul_ceilDiv split
    · apply (ceilDiv_le_iff_le_mul split).mpr
      rw [Nat.mul_comm]
      exact covered.trans (Nat.mul_le_mul_right _ (Nat.min_le_left numThreads length))

theorem succeeds_below (arrayToSearch : List Value) (desiredValue : Value) (numThreads : Nat)
    (positive : 1 ≤ numThreads) (fits : reach arrayToSearch.length numThreads < 2 ^ 31) :
    Succeeds arrayToSearch desiredValue numThreads := by
  obtain ⟨covered, ranges⟩ := reach_covers arrayToSearch.length numThreads positive
  rw [reach] at covered fits
  obtain ⟨callableThreads, created, tiled, few⟩ :=
    createFrom_tiles arrayToSearch desiredValue
      (arrayToSearch.length ⌈/⌉ min numThreads arrayToSearch.length) _ 0 (Int.le_refl 0)
      (by rw [Int.zero_add]; exact_mod_cast covered) (by rw [Int.zero_add]; exact_mod_cast fits)
  have whole : Tiles 0 arrayToSearch.length callableThreads := by simpa using tiled
  have first := scanResults_first arrayToSearch desiredValue callableThreads 0 (Int.le_refl 0) whole
    (createFrom_desired _ _ _ _ _ _ created)
  rw [← splitSize_exact arrayToSearch numThreads positive] at created
  exact ⟨_, callableThreads, created, whole, few.trans ranges, first⟩

theorem untiled_beyond (arrayToSearch : List Value) (desiredValue : Value) (numThreads : Nat)
    (held : arrayToSearch.length < 2 ^ 31) (positive : 1 ≤ numThreads)
    (beyond : 2 ^ 31 ≤ reach arrayToSearch.length numThreads) :
    ¬ Succeeds arrayToSearch desiredValue numThreads := by
  rintro ⟨rounds, callableThreads, created, searched⟩
  rw [splitSize_exact arrayToSearch numThreads positive] at created
  have some_ : 0 < arrayToSearch.length := by
    rcases Nat.eq_zero_or_pos arrayToSearch.length with empty | some_
    · simp [reach, empty] at beyond
    · exact some_
  obtain ⟨_, split, narrow⟩ := split_bounds arrayToSearch.length numThreads positive some_
  have short := ceilDiv_short arrayToSearch.length _ split
  rw [reach] at beyond
  generalize arrayToSearch.length ⌈/⌉ min numThreads arrayToSearch.length = splitSize at *
  -- One range before the multiple that is out of reach, the index is still inside.
  cases ranges : arrayToSearch.length ⌈/⌉ splitSize with
  | zero => simp [ranges] at beyond
  | succ left =>
      rw [ranges, Nat.succ_mul] at beyond short
      refine createFrom_untiled arrayToSearch desiredValue splitSize left rounds 0 callableThreads
        (Int.le_refl 0) held narrow ?_ ?_ created searched.tiled
      · rw [Int.zero_add]
        exact_mod_cast (show left * splitSize < arrayToSearch.length by omega)
      · rw [Int.zero_add]
        exact_mod_cast beyond

/-- The parallel search is right if and only if the first multiple of the split size
from the length on is an `int`. -/
theorem parallelSearch_succeeds (arrayToSearch : List Value) (desiredValue : Value)
    (numThreads : Nat) (held : arrayToSearch.length < 2 ^ 31) (positive : 1 ≤ numThreads) :
    Succeeds arrayToSearch desiredValue numThreads ↔
      reach arrayToSearch.length numThreads < 2 ^ 31 := by
  constructor
  · intro succeeds
    by_contra beyond
    exact untiled_beyond arrayToSearch desiredValue numThreads held positive
      (Nat.not_lt.mp beyond) succeeds
  · exact succeeds_below arrayToSearch desiredValue numThreads positive

theorem parallelSearch_succeeds_five :
    [(1 : Int), 3, 5, 7, 7].length < 2 ^ 31 ∧ 1 ≤ 2 ∧ Succeeds [(1 : Int), 3, 5, 7, 7] 7 2 :=
  ⟨by decide, by decide,
    (parallelSearch_succeeds [1, 3, 5, 7, 7] 7 2 (by decide) (by decide)).mpr (by decide)⟩

-- Ten ranges of 214748365 entries: the last one would end at 2147483650.
theorem long_search_fails : (List.replicate 2147483641 (0 : Int)).length < 2 ^ 31 ∧
    ¬ Succeeds (List.replicate 2147483641 (0 : Int)) 0 10 := by
  have length : (List.replicate 2147483641 (0 : Int)).length = 2147483641 := List.length_replicate
  constructor
  · rw [length]
    decide
  · apply untiled_beyond
    · rw [length]
      decide
    · decide
    · rw [length]
      decide

/-- Arrays of at most 2 ^ 30 entries are searched correctly by any number of threads. -/
theorem short_succeeds (arrayToSearch : List Value) (desiredValue : Value) (numThreads : Nat)
    (short : arrayToSearch.length ≤ 2 ^ 30) (positive : 1 ≤ numThreads) :
    Succeeds arrayToSearch desiredValue numThreads := by
  apply succeeds_below arrayToSearch desiredValue numThreads positive
  rcases Nat.eq_zero_or_pos arrayToSearch.length with empty | some_
  · simp [reach, empty]
  · obtain ⟨_, split, narrow⟩ := split_bounds arrayToSearch.length numThreads positive some_
    have reached := ceilDiv_short arrayToSearch.length _ split
    rw [reach]
    omega

end Whole

end EE360P.PSearch
