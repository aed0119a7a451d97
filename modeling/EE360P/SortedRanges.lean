import EE360P.SortedArrays

/-! Which calls of `parallelSort` keep to their range. `insertSort` walks down to
index 0 instead of the start of its range: an entry that is smaller than one
before the range goes on sinking there. Every entry of the range gets such a
chance as soon as one part of it is left to `insertSort`, so a call keeps to its
range only where none can take it, or where every part throws at its pivot choice. -/

namespace EE360P.PSort
open JavaText SortedPrefixes

variable {Value : Type} [LinearOrder Value]

/-- A range has been worked on, with `insertSort` in some part of it. Where the entries before it are
the same as ever, they are in order, and none is larger than an entry of the range. -/
structure Worked (first stop : Nat) (before after : List Value) : Prop extends
    Sinks first stop before after where
  ready : ∀ n ≤ first, after.take n = before.take n → Ready n stop after

section Insertion

section Switch
variable (subArray swapped : List Value) (switcher : Nat) (here before : Value)
variable (found : subArray[switcher + 1]? = some here) (there : subArray[switcher]? = some before)
include found there

section Descent
variable (less : here < before)
variable (done : swap ((switcher : Int) + 1) switcher subArray = some swapped)
include less done

theorem descent_sinks (first : Nat) : Sinks first (switcher + 2) subArray swapped ∧
    ∀ n, swapped.take n = subArray.take n → n ≤ switcher := by
  have entry := swap_entry subArray swapped (switcher + 1) switcher done
  have front : ∀ i < switcher, swapped[i]? = subArray[i]? := by
    intro i early
    rw [entry, if_neg (by omega), if_neg (by omega)]
  have lower : swapped[switcher]? = some here := by rw [entry, if_pos rfl, found]
  have lowered := fun n inside => take_lowered switcher n here before inside front there lower less
  refine ⟨⟨swap_perm subArray swapped (switcher + 1) switcher done, fun i late => ?_, fun n _ => ?_⟩, ?_⟩
  · rw [entry, if_neg (by omega), if_neg (by omega)]
  · by_cases inside : switcher < n
    · exact le_of_lt (lowered n inside)
    · exact le_of_eq (take_kept n fun i small => front i (by omega))
  · intro n kept
    by_contra inside
    exact absurd kept (ne_of_lt (lowered n (by omega)))

theorem descent_ready (n : Nat) (small : n ≤ switcher) (kept : swapped.take n = subArray.take n)
    (old : Ready n (switcher + 1) swapped) : Ready n (switcher + 2) subArray := by
  have entry := swap_entry subArray swapped (switcher + 1) switcher done
  have front : ∀ i < n, swapped[i]? = subArray[i]? := by
    intro i early
    rw [entry, if_neg (by omega), if_neg (by omega)]
  have lower : swapped[switcher]? = some here := by rw [entry, if_pos rfl, found]
  have below : ∀ i low, i < n → subArray[i]? = some low → low ≤ here :=
    fun i low early first => old.below i switcher low here early small (by omega)
      ((front i early).trans first) lower
  refine ⟨kept ▸ old.sorted, fun i j low high early late stop first value => ?_⟩
  by_cases moved : j < switcher
  · refine old.below i j low high early late (by omega) ((front i early).trans first) ?_
    rw [entry, if_neg (by omega), if_neg (by omega), value]
  · have place : j = switcher ∨ j = switcher + 1 := by omega
    rcases place with rfl | rfl
    · cases there.symm.trans value
      exact le_of_lt (lt_of_le_of_lt (below i low early first) less)
    · cases found.symm.trans value
      exact below i low early first

end Descent

theorem rise_ready (rises : before ≤ here) (n : Nat) (within : n ≤ switcher + 1)
    (old : ∀ less ≤ switcher, less ≤ n → Ready less (switcher + 1) subArray) :
    Ready n (switcher + 2) subArray := by
  rcases Nat.lt_or_eq_of_le within with small | rfl
  · have ready := old n (by omega) (Nat.le_refl n)
    refine ⟨ready.sorted, fun i j low high early late stop first value => ?_⟩
    by_cases inside : j < switcher + 1
    · exact ready.below i j low high early late inside first value
    · have place : j = switcher + 1 := by omega
      subst place
      cases found.symm.trans value
      exact le_trans (ready.below i switcher low before early (by omega) (by omega) first there) rises
  · have ready := old switcher (Nat.le_refl _) (Nat.le_succ _)
    refine ⟨(ready_short ready (Nat.le_refl _)).sorted, fun i j low high early late stop first value => ?_⟩
    have place : j = switcher + 1 := by omega
    subst place
    cases found.symm.trans value
    by_cases last : i = switcher
    · subst last
      cases there.symm.trans first
      exact rises
    · exact le_trans (ready.below i switcher low before (by omega) (by omega) (by omega) first there) rises

end Switch

-- One round of `insertSort`, down to index 0; the induction is on where it stands.
theorem switchDown_works (switcher : Nat) (subArray : List Value) (inside : switcher < subArray.length)
    (first : Nat) : ∃ switched, switchDown switcher subArray = .ok switched ∧
      Sinks first (switcher + 1) subArray switched ∧
      ∀ n ≤ switcher, n ≤ first → switched.take n = subArray.take n → Ready n (switcher + 1) subArray := by
  induction switcher generalizing subArray with
  | zero =>
      refine ⟨subArray, rfl, sinks_refl _ _ _, fun n within _ _ => ?_⟩
      cases Nat.le_zero.mp within
      exact ready_start 1 subArray
  | succ switcher ih =>
      have found := List.getElem?_eq_getElem inside
      have there : subArray[switcher]? = some subArray[switcher] := List.getElem?_eq_getElem (by omega)
      simp only [switchDown, read_succ, read_nat, found, there]
      by_cases less : subArray[switcher + 1] < subArray[switcher]
      · have done : ∃ swapped, swap ((switcher : Int) + 1) switcher subArray = some swapped := by
          simp [swap, found, there]
        obtain ⟨swapped, done⟩ := done
        obtain ⟨sinks, far⟩ := descent_sinks subArray swapped switcher _ _ found there less done first
        have length := sinks.same.length_eq
        obtain ⟨switched, ended, later, ready⟩ := ih swapped (by omega)
        have wider := sinks_within later first (switcher + 2) (Nat.le_refl _) (by omega)
        refine ⟨switched, ?_, sinks_trans swapped sinks wider, fun n _ low kept => ?_⟩
        · simpa [less, done] using ended
        · have between := sinks_between swapped sinks wider n low kept
          have small := far n between
          exact descent_ready subArray swapped switcher _ _ found there less done n small between
            (ready n small low (kept.trans between.symm))
      · obtain ⟨switched, ended, sinks, ready⟩ := ih subArray (by omega)
        refine ⟨switched, ?_, sinks_within sinks first _ (Nat.le_refl _) (by omega),
          fun n within low kept => ?_⟩
        · simpa [less] using ended
        · apply rise_ready subArray switcher _ _ found there (not_lt.mp less) n within
          intro fewer small under
          have cut := congrArg (List.take fewer) kept
          rw [List.take_take, List.take_take, Nat.min_eq_left under] at cut
          exact ready fewer small (by omega) cut

theorem worked_ready {first stop : Nat} {before after : List Value} (sinks : Sinks first stop before after)
    (n : Nat) (order : n ≤ stop) (kept : after.take n = before.take n) (ready : Ready n stop before) :
    Ready n stop after :=
  ready_shuffled ready (shuffled_kept sinks.same kept sinks.rest order)

theorem runUp_works (left : Nat) : ∀ (runner : Nat) (subArray : List Value) (first : Nat),
    runner + left < subArray.length → first ≤ runner →
    ∃ sorted, runUp (left + 1) runner subArray = .ok sorted ∧
      Worked first (runner + left + 1) subArray sorted := by
  induction left with
  | zero =>
      intro runner subArray first within low
      obtain ⟨switched, done, sinks, ready⟩ := switchDown_works runner subArray (by omega) first
      refine ⟨switched, by simp [runUp, done], sinks, fun n inside kept => ?_⟩
      exact worked_ready sinks n (by omega) kept (ready n (by omega) inside kept)
  | succ left ih =>
      intro runner subArray first within low
      obtain ⟨switched, done, sinks, _⟩ := switchDown_works runner subArray (by omega) first
      have length := sinks.same.length_eq
      obtain ⟨sorted, ended, worked⟩ := ih (runner + 1) switched first (by omega) (by omega)
      have place : runner + 1 + left + 1 = runner + (left + 1) + 1 := by omega
      rw [place] at worked
      have wider := sinks_within sinks first (runner + (left + 1) + 1) (Nat.le_refl _) (by omega)
      refine ⟨sorted, ?_, sinks_trans switched wider worked.toSinks, fun n inside kept => ?_⟩
      · rw [runUp]
        simp only [Int.toNat_natCast, done]
        exact_mod_cast ended
      · have between := sinks_between switched wider worked.toSinks n inside kept
        exact worked.ready n inside (kept.trans between.symm)

theorem insertSort_works (begin end_ : Nat) (subArray : List Value) (wide : begin < end_)
    (within : end_ < subArray.length) :
    ∃ sorted, insertSort begin end_ subArray = .ok sorted ∧ Worked begin (end_ + 1) subArray sorted := by
  obtain ⟨sorted, done, worked⟩ :=
    runUp_works (end_ - begin - 1) (begin + 1) subArray begin (by omega) (by omega)
  have rounds : ((end_ : Int) - begin).toNat = end_ - begin - 1 + 1 := by omega
  have place : begin + 1 + (end_ - begin - 1) + 1 = end_ + 1 := by omega
  rw [place] at worked
  refine ⟨sorted, ?_, worked⟩
  rw [insertSort, rounds]
  exact_mod_cast done

end Insertion

section Worked
variable {first stop : Nat} {before after : List Value}

theorem worked_behind (middle : List Value) (later : Nat) (order : first ≤ later)
    (sinks : Sinks first stop before middle) (worked : Worked later stop middle after) :
    Worked first stop before after := by
  have last := sinks_within worked.toSinks first stop order (Nat.le_refl _)
  refine ⟨sinks_trans middle sinks last, fun n inside kept => ?_⟩
  have between := sinks_between middle sinks last n inside kept
  exact worked.ready n (by omega) (kept.trans between.symm)

theorem worked_shuffled (middle : List Value) (worked : Worked first stop before middle)
    (shuffled : Shuffled first stop middle after) : Worked first stop before after := by
  have last := shuffled_sinks shuffled
  refine ⟨sinks_trans middle worked.toSinks last, fun n inside kept => ?_⟩
  have between := sinks_between middle worked.toSinks last n inside kept
  exact ready_shuffled (worked.ready n inside between)
    (shuffled_within shuffled n stop inside (Nat.le_refl _))

end Worked

section Insertions

/-- Whether the partitions of a range come down to a range of two to four entries. -/
def inserts (begin end_ : Int) (subArray : List Value) : Bool :=
  if isEdgeCase subArray begin end_ then false
  else if (end_ - begin).natAbs < 4 then true
  else
    match read subArray (midpointOf .int32 begin end_) with
    | none => false
    | some pivotValue =>
        match partition pivotValue begin end_ subArray with
        | .error _ => false
        | .ok (lowerBound, upperBound, parted) =>
            if _narrow : begin < lowerBound ∧ upperBound < end_ then
              (if begin < upperBound then inserts begin upperBound parted else false) ||
                if end_ > lowerBound then inserts lowerBound end_ parted else false
            else false
termination_by (end_ - begin).toNat
decreasing_by
  all_goals omega

theorem inserts_edge (begin end_ : Int) (subArray : List Value) (narrow : end_ ≤ begin) :
    inserts begin end_ subArray = false := by
  rw [inserts]
  simp [isEdgeCase, narrow]

section Ranges
variable (begin end_ : Nat) (subArray : List Value) (within : end_ < subArray.length)
include within

theorem inserts_short (wide : begin < end_) (short : end_ < begin + 4) :
    inserts begin end_ subArray = true := by
  have small : ((end_ : Int) - begin).natAbs < 4 := by omega
  rw [inserts]
  simp [inner_case begin end_ subArray within wide, small]

theorem inserts_far (far : midpointOf .int32 begin end_ < 0) (long : begin + 4 ≤ end_) :
    inserts begin end_ subArray = false := by
  have large : ¬ ((end_ : Int) - begin).natAbs < 4 := by omega
  have missing : read subArray (midpointOf .int32 begin end_) = none := by
    rw [read, if_neg (by omega)]
  rw [inserts]
  simp only [inner_case begin end_ subArray within (by omega), Bool.false_eq_true, large, ↓reduceIte, missing]

theorem inserts_long (fits : Fits .int32 begin end_) (long : begin + 4 ≤ end_) (pivotValue : Value)
    (lower : Nat) (upper : Int) (parted : List Value)
    (found : read subArray (midpointOf .int32 begin end_) = some pivotValue)
    (splits : partition pivotValue begin end_ subArray = .ok ((lower : Nat), upper, parted)) :
    inserts begin end_ subArray = (inserts begin upper parted || inserts lower end_ parted) := by
  have large : ¬ ((end_ : Int) - begin).natAbs < 4 := by omega
  have narrow := run_narrows .int32 subArray begin end_ lower upper pivotValue parted fits (by omega) found
    splits
  have lesser : (if (begin : Int) < upper then inserts begin upper parted else false) =
      inserts begin upper parted := by
    split
    · rfl
    · exact (inserts_edge begin upper parted (by omega)).symm
  have greater : (if (end_ : Int) > lower then inserts lower end_ parted else false) =
      inserts lower end_ parted := by
    split
    · rfl
    · exact (inserts_edge lower end_ parted (by omega)).symm
  rw [inserts]
  simp only [inner_case begin end_ subArray within (by omega), Bool.false_eq_true, large, ↓reduceIte, found,
    splits, narrow, and_self, ↓reduceDIte, lesser, greater]

end Ranges

/-- Only far behind do partitions come down to no such range: those that have five entries or
more there all throw. -/
theorem inserts_none (size : Nat) : ∀ (begin end_ : Nat) (subArray : List Value), end_ - begin = size →
    begin < end_ → end_ < subArray.length → inserts begin end_ subArray = false → 2 ^ 31 + 4 ≤ 2 * end_ := by
  induction size using Nat.strongRecOn with
  | ind size ih =>
      intro begin end_ subArray measure wide within none
      rcases Nat.lt_or_ge end_ (begin + 4) with short | long
      · rw [inserts_short begin end_ subArray within wide short] at none
        cases none
      · by_contra near
        have fits := int32_sum begin end_ (by omega)
        obtain ⟨pivotValue, lower, upper, parted, found, done, splits⟩ :=
          task_splits .int32 begin end_ subArray within fits long
        have bounds := splits.bounds
        have meets := splits.meets
        have length := splits.shuffled.same.length_eq
        rw [inserts_long begin end_ subArray within fits long pivotValue lower upper parted found done,
          Bool.or_eq_false_iff] at none
        by_cases more : lower < end_
        · have far := ih (end_ - lower) (by omega) lower end_ parted rfl more (by omega) none.2
          omega
        · obtain ⟨last, rfl⟩ := Int.eq_ofNat_of_zero_le (show 0 ≤ upper by omega)
          have far := ih (last - begin) (by omega) begin last parted rfl (by omega) (by omega) none.1
          omega

-- Behind such a range every range of five entries or more throws, whatever is in it.
theorem inserts_behind (begin end_ : Nat) (subArray other : List Value) (within : end_ < subArray.length)
    (same : other.length = subArray.length) (held : subArray.length < 2 ^ 31)
    (far : 2 ^ 31 ≤ begin + end_) : inserts begin end_ other = inserts begin end_ subArray := by
  rcases Nat.lt_or_ge begin end_ with wide | narrow
  · rcases Nat.lt_or_ge end_ (begin + 4) with short | long
    · rw [inserts_short begin end_ subArray within wide short,
        inserts_short begin end_ other (by omega) wide short]
    · have throws := midpoint_overflows begin end_ far (by omega)
      rw [inserts_far begin end_ subArray within throws long,
        inserts_far begin end_ other (by omega) throws long]
  · rw [inserts_edge begin end_ subArray (by omega), inserts_edge begin end_ other (by omega)]

end Insertions

section Tasks

/-- What the task of a range does to the array. -/
structure Leaves (begin end_ : Nat) (before after : List Value) : Prop where
  worked : inserts begin end_ before = true → Worked begin (end_ + 1) before after
  shuffled : inserts begin end_ before = false → Shuffled begin (end_ + 1) before after

theorem leaves_sinks {begin end_ : Nat} {before after : List Value}
    (leaves : Leaves begin end_ before after) : Sinks begin (end_ + 1) before after := by
  cases inserted : inserts begin end_ before with
  | true => exact (leaves.worked inserted).toSinks
  | false => exact shuffled_sinks (leaves.shuffled inserted)

variable (Value) in
def Works (begin end_ : Nat) : Prop := ∀ subArray : List Value, end_ < subArray.length →
  subArray.length < 2 ^ 31 → Leaves begin end_ subArray (get (run .int32 begin end_ subArray))

section Parts
variable (begin : Nat) (end_ : Int) (subArray : List Value)
variable (works : ∀ last : Nat, end_ = last → begin < last → Works Value begin last)
variable (held : subArray.length < 2 ^ 31) (within : end_ < subArray.length)
include works held within

theorem fork_works (inserted : inserts begin end_ subArray = true) :
    ∃ last : Nat, end_ = last ∧ begin < last ∧ Worked begin (last + 1) subArray (forked .int32 begin end_ subArray) := by
  rcases fork_cases begin end_ with narrow | ⟨last, rfl, wide⟩
  · rw [inserts_edge begin end_ subArray narrow] at inserted
    cases inserted
  · rw [fork_runs .int32 begin last subArray wide]
    exact ⟨last, rfl, wide, (works last rfl wide subArray (by omega) held).worked inserted⟩

theorem fork_shuffles (untouched : inserts begin end_ subArray = false) (stop : Nat) (inside : end_ < stop) :
    Shuffled begin stop subArray (forked .int32 begin end_ subArray) := by
  rcases fork_cases begin end_ with narrow | ⟨last, rfl, wide⟩
  · rw [fork_none .int32 begin end_ subArray narrow]
    exact shuffled_refl begin stop subArray
  · rw [fork_runs .int32 begin last subArray wide]
    exact shuffled_within ((works last rfl wide subArray (by omega) held).shuffled untouched) begin stop
      (Nat.le_refl _) (by omega)

-- The lesser part leaves the greater one alone, or is so far behind that no partition is left there.
theorem fork_inserts (lower stop : Nat) (untouched : inserts begin end_ subArray = false)
    (meets : end_ ≤ lower) (inside : end_ < stop) (bound : stop < subArray.length) :
    inserts lower stop (forked .int32 begin end_ subArray) = inserts lower stop subArray := by
  have length := (fork_shuffles begin end_ subArray works held within untouched stop inside).same.length_eq
  rcases fork_cases begin end_ with narrow | ⟨last, rfl, wide⟩
  · rw [fork_none .int32 begin end_ subArray narrow]
  · have far := inserts_none _ begin last subArray rfl wide (by omega) untouched
    exact inserts_behind lower stop subArray _ bound length held (by omega)

end Parts

-- The entries behind the lesser part are at least the pivot, and some entry of it is not larger.
theorem lesser_ready (begin end_ lower last : Nat) (pivotValue : Value) (subArray parted after : List Value)
    (splits : Splits begin end_ lower last pivotValue subArray parted) (wide : begin < last)
    (within : end_ < subArray.length) (worked : Worked begin (last + 1) parted after) (n : Nat)
    (inside : n ≤ begin) (kept : after.take n = parted.take n) : Ready n (end_ + 1) after := by
  have bounds := splits.bounds
  have length := splits.shuffled.same.length_eq
  have ready := worked.ready n inside kept
  obtain ⟨low, least⟩ : ∃ low, parted[begin]? = some low :=
    ⟨parted[begin], List.getElem?_eq_getElem (by omega)⟩
  have small := splits.halves.small begin low (Nat.le_refl _) (by omega) least
  have back := shuffled_kept worked.same.symm kept.symm (fun i late => (worked.rest i late).symm)
    (show n ≤ last + 1 by omega)
  obtain ⟨place, behind, before, moved⟩ := back.inside begin low inside (by omega) least
  refine ⟨ready.sorted, fun i j lower higher early late stop here there => ?_⟩
  by_cases part : j < last + 1
  · exact ready.below i j lower higher early late part here there
  · rw [worked.rest j (by omega)] at there
    have large := splits.halves.large j higher (by omega) stop there
    exact le_trans (ready.below i place lower low early behind before here moved) (le_trans small large)

section Forks
variable (begin end_ lower : Nat) (upper : Int) (pivotValue : Value) (subArray parted : List Value)
variable (splits : Splits begin end_ lower upper pivotValue subArray parted)
variable (within : end_ < subArray.length) (held : subArray.length < 2 ^ 31)
variable (lesser : ∀ last : Nat, upper = last → begin < last → Works Value begin last)
include splits within held lesser

theorem lesser_works (inserted : inserts begin upper parted = true) :
    Worked begin (end_ + 1) subArray (forked .int32 begin upper parted) := by
  have bounds := splits.bounds
  have length := splits.shuffled.same.length_eq
  have start := shuffled_sinks splits.shuffled
  obtain ⟨last, rfl, wide, worked⟩ := fork_works begin upper parted lesser (by omega) (by omega) inserted
  have first := sinks_within worked.toSinks begin (end_ + 1) (Nat.le_refl _) (by omega)
  refine ⟨sinks_trans parted start first, fun n inside kept => ?_⟩
  have between := sinks_between parted start first n inside kept
  exact lesser_ready begin end_ lower last pivotValue subArray parted _ splits wide within worked n inside
    (kept.trans between.symm)

theorem lesser_shuffles (untouched : inserts begin upper parted = false) :
    Shuffled begin (end_ + 1) subArray (forked .int32 begin upper parted) := by
  have bounds := splits.bounds
  have length := splits.shuffled.same.length_eq
  exact shuffled_trans parted splits.shuffled
    (fork_shuffles begin upper parted lesser (by omega) (by omega) untouched (end_ + 1) (by omega))

variable (greater : ∀ last : Nat, (end_ : Int) = last → lower < last → Works Value lower last)
include greater

theorem forks_work (inserted : (inserts begin upper parted || inserts lower end_ parted) = true) :
    Worked begin (end_ + 1) subArray (forked .int32 lower end_ (forked .int32 begin upper parted)) := by
  have bounds := splits.bounds
  have meets := splits.meets
  have length := splits.shuffled.same.length_eq
  cases first : inserts begin upper parted with
  | true =>
      have worked := lesser_works begin end_ lower upper pivotValue subArray parted splits within held lesser
        first
      have size := worked.same.length_eq
      cases second : inserts lower end_ (forked .int32 begin upper parted) with
      | true =>
          obtain ⟨last, same, wide, later⟩ := fork_works lower end_ _ greater (by omega) (by omega) second
          cases Int.ofNat_inj.mp same
          exact worked_behind _ lower (by omega) worked.toSinks later
      | false =>
          have shuffled := fork_shuffles lower end_ _ greater (by omega) (by omega) second (end_ + 1)
            (by omega)
          exact worked_shuffled _ worked
            (shuffled_within shuffled begin (end_ + 1) (by omega) (Nat.le_refl _))
  | false =>
      have shuffled := lesser_shuffles begin end_ lower upper pivotValue subArray parted splits within held
        lesser first
      have size := shuffled.same.length_eq
      have same := fork_inserts begin upper parted lesser (by omega) (by omega) lower end_ first (by omega)
        (by omega) (by omega)
      rw [first, Bool.false_or, ← same] at inserted
      obtain ⟨last, same, wide, later⟩ := fork_works lower end_ _ greater (by omega) (by omega) inserted
      cases Int.ofNat_inj.mp same
      exact worked_behind _ lower (by omega) (shuffled_sinks shuffled) later

theorem forks_shuffle (untouched : (inserts begin upper parted || inserts lower end_ parted) = false) :
    Shuffled begin (end_ + 1) subArray (forked .int32 lower end_ (forked .int32 begin upper parted)) := by
  have bounds := splits.bounds
  have meets := splits.meets
  have length := splits.shuffled.same.length_eq
  obtain ⟨first, second⟩ := Bool.or_eq_false_iff.mp untouched
  have shuffled := lesser_shuffles begin end_ lower upper pivotValue subArray parted splits within held lesser
    first
  have size := shuffled.same.length_eq
  have same := fork_inserts begin upper parted lesser (by omega) (by omega) lower end_ first (by omega)
    (by omega) (by omega)
  rw [← same] at second
  have later := fork_shuffles lower end_ _ greater (by omega) (by omega) second (end_ + 1) (by omega)
  exact shuffled_trans _ shuffled (shuffled_within later begin (end_ + 1) (by omega) (Nat.le_refl _))

end Forks

theorem run_works (size : Nat) : ∀ begin end_ : Nat, end_ - begin = size → begin < end_ →
    Works Value begin end_ := by
  induction size using Nat.strongRecOn with
  | ind size ih =>
      intro begin end_ measure wide subArray within held
      rcases Nat.lt_or_ge end_ (begin + 4) with short | long
      · rw [run_short .int32 begin end_ subArray within wide short]
        obtain ⟨sorted, done, worked⟩ := insertSort_works begin end_ subArray wide within
        rw [done]
        refine ⟨fun _ => worked, fun untouched => ?_⟩
        rw [inserts_short begin end_ subArray within wide short] at untouched
        cases untouched
      · rcases Nat.lt_or_ge (begin + end_) (2 ^ 31) with near | beyond
        · have fits := int32_sum begin end_ near
          obtain ⟨pivotValue, lower, upper, parted, found, done, splits⟩ :=
            task_splits .int32 begin end_ subArray within fits long
          have bounds := splits.bounds
          have lesser : ∀ last : Nat, upper = last → begin < last → Works Value begin last :=
            fun last same inner => ih (last - begin) (by omega) begin last rfl inner
          have greater : ∀ last : Nat, (end_ : Int) = last → lower < last → Works Value lower last :=
            fun last same inner => ih (last - lower) (by omega) lower last rfl inner
          have parts := inserts_long begin end_ subArray within fits long pivotValue lower upper parted found
            done
          rw [run_long .int32 begin end_ subArray within fits long pivotValue lower upper parted found done]
          constructor <;> intro known <;> rw [parts] at known
          · exact forks_work begin end_ lower upper pivotValue subArray parted splits within held lesser
              greater known
          · exact forks_shuffle begin end_ lower upper pivotValue subArray parted splits within held lesser
              greater known
        · have throws := midpoint_overflows begin end_ beyond (by omega)
          rw [run_far .int32 begin end_ subArray within throws long]
          refine ⟨fun inserted => ?_, fun _ => shuffled_refl begin (end_ + 1) subArray⟩
          rw [inserts_far begin end_ subArray within throws long] at inserted
          cases inserted

end Tasks

section Calls
variable (array : List Value) (begin end_ : Nat)

theorem parallelSort_none (narrow : end_ ≤ begin + 1) : parallelSort .int32 array begin end_ = array := by
  have edge := run_edge .int32 begin (end_ - 1 : Int) array (by omega)
  rw [parallelSort, edge]
  split <;> rfl

theorem parallelSort_runs (wide : begin + 1 < end_) (within : end_ ≤ array.length) :
    parallelSort .int32 array begin end_ = get (run .int32 begin (end_ - 1 : Nat) array) := by
  have inner : isEdgeCase array begin end_ = false := by
    simp only [isEdgeCase, Bool.or_eq_false_iff, decide_eq_false_iff_not]
    omega
  have last : (end_ : Int) - 1 = (end_ - 1 : Nat) := by omega
  rw [parallelSort, inner, last]
  rfl

/-- A long range so far behind that its first sum wraps stays as it is. -/
theorem far_untouched (wide : begin + 5 ≤ end_) (within : end_ ≤ array.length) (held : array.length < 2 ^ 31)
    (beyond : 2 ^ 31 < begin + end_) : parallelSort .int32 array begin end_ = array := by
  have throws := midpoint_overflows begin (end_ - 1) (by omega) (by omega)
  rw [parallelSort_runs array begin end_ (by omega) within,
    run_far .int32 begin (end_ - 1) array (by omega) throws (by omega)]
  rfl

/-- Every call on at least two entries inserts unless it reaches this far behind. -/
theorem inserts_near (wide : begin + 1 < end_) (within : end_ ≤ array.length) (near : end_ ≤ 2 ^ 30 + 2) :
    inserts begin ((end_ : Int) - 1) array = true := by
  have last : (end_ : Int) - 1 = (end_ - 1 : Nat) := by omega
  rw [last]
  by_contra untouched
  have far := inserts_none _ begin (end_ - 1) array rfl (by omega) (by omega)
    (Bool.eq_false_of_not_eq_true untouched)
  omega

/-- The entries outside the range stay, and those inside are rearranged, exactly when what
lies before the range is in order and not larger than it, or no part of it is inserted. -/
theorem range_kept (held : array.length < 2 ^ 31) (order : begin ≤ end_) (within : end_ ≤ array.length) :
    ((∀ i, i < begin ∨ end_ ≤ i → (parallelSort .int32 array begin end_)[i]? = array[i]?) ↔
      Ready begin end_ array ∨ inserts begin ((end_ : Int) - 1) array = false) ∧
    (Shuffled begin end_ array (parallelSort .int32 array begin end_) ↔
      Ready begin end_ array ∨ inserts begin ((end_ : Int) - 1) array = false) := by
  rcases Nat.lt_or_ge (begin + 1) end_ with wide | narrow
  · have leaves := run_works _ begin (end_ - 1) rfl (by omega) array (by omega) held
    have sinks := leaves_sinks leaves
    have last : (end_ : Int) - 1 = (end_ - 1 : Nat) := by omega
    rw [parallelSort_runs array begin end_ wide within, last]
    rw [Nat.sub_add_cancel (by omega)] at sinks
    have necessary : (∀ i, i < begin ∨ end_ ≤ i →
        (get (run .int32 begin (end_ - 1 : Nat) array))[i]? = array[i]?) →
        Ready begin end_ array ∨ inserts begin (end_ - 1 : Nat) array = false := by
      intro outside
      cases inserted : inserts begin (end_ - 1 : Nat) array with
      | false => exact Or.inr rfl
      | true =>
          have worked := leaves.worked inserted
          rw [Nat.sub_add_cancel (by omega)] at worked
          have kept := take_kept begin fun i small => outside i (Or.inl small)
          exact Or.inl (ready_shuffled (worked.ready begin (Nat.le_refl _) kept)
            (shuffled_kept worked.same.symm kept.symm (fun i late => (worked.rest i late).symm) order))
    have sufficient : Ready begin end_ array ∨ inserts begin (end_ - 1 : Nat) array = false →
        Shuffled begin end_ array (get (run .int32 begin (end_ - 1 : Nat) array)) := by
      rintro (ready | untouched)
      · exact shuffled_kept sinks.same (ready_sinks ready sinks order begin (Nat.le_refl _)) sinks.rest order
      · have shuffled := leaves.shuffled untouched
        rwa [Nat.sub_add_cancel (by omega)] at shuffled
    exact ⟨⟨necessary, fun condition => (sufficient condition).outside⟩,
      ⟨fun shuffled => necessary shuffled.outside, sufficient⟩⟩
  · have untouched := inserts_edge begin ((end_ : Int) - 1) array (by omega)
    rw [parallelSort_none array begin end_ narrow]
    exact ⟨⟨fun _ => Or.inr untouched, fun _ _ _ => rfl⟩,
      ⟨fun _ => Or.inr untouched, fun _ => shuffled_refl begin end_ array⟩⟩

end Calls

theorem range_kept_behind :
    let array : List Int := [0, 2, 1, 3]
    ((∀ i, i < 1 ∨ 3 ≤ i → (parallelSort .int32 array (1 : Nat) (3 : Nat))[i]? = array[i]?) ↔
      Ready 1 3 array ∨ inserts (1 : Nat) (((3 : Nat) : Int) - 1) array = false) ∧
    (Shuffled 1 3 array (parallelSort .int32 array (1 : Nat) (3 : Nat)) ↔
      Ready 1 3 array ∨ inserts (1 : Nat) (((3 : Nat) : Int) - 1) array = false) :=
  range_kept [0, 2, 1, 3] 1 3 (by decide) (by decide) (by decide)

-- The 0 sinks to the start of the array, and the 5 comes into the range.
theorem range_left :
    let array : List Int := [5, 1, 0]
    parallelSort .int32 array (1 : Nat) (3 : Nat) = [0, 5, 1] ∧
      ¬ ∀ i, i < 1 ∨ 3 ≤ i → (parallelSort .int32 array (1 : Nat) (3 : Nat))[i]? = array[i]? := by
  have sorted : parallelSort .int32 ([5, 1, 0] : List Int) (1 : Nat) (3 : Nat) = [0, 5, 1] := by
    rw [parallelSort_runs _ 1 3 (by decide) (by decide), run_short .int32 1 (3 - 1) _ (by decide) (by decide)
      (by decide)]
    decide
  refine ⟨sorted, fun outside => ?_⟩
  have first := outside 0 (Or.inl Nat.one_pos)
  rw [sorted] at first
  cases first

end EE360P.PSort
