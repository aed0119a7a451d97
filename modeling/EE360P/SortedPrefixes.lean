import Mathlib.Data.List.Lex
import Mathlib.Data.List.Sort

/-! Arrays that are sorted from the left. A range may be handed to a sorting
procedure that looks at everything before it, when what lies before is in order
already and nothing in the range is smaller. Sorting the range then sorts the
array up to its end, and the two parts of a partition can be sorted one after
the other, also when they share an element. Where an entry of the range sinks into
what lies before, that gets smaller in the lexicographic order and stays so. -/

namespace EE360P.SortedPrefixes

variable {Value : Type}

section Entries

theorem mem_take (values : List Value) (n : Nat) (value : Value) :
    value ∈ values.take n ↔ ∃ i, i < n ∧ values[i]? = some value := by
  constructor
  · intro member
    obtain ⟨i, inside, found⟩ := List.mem_take_iff_getElem.mp member
    exact ⟨i, by omega, List.getElem?_eq_some_iff.mpr ⟨by omega, found⟩⟩
  · rintro ⟨i, inside, found⟩
    obtain ⟨bound, here⟩ := List.getElem?_eq_some_iff.mp found
    exact List.mem_take_iff_getElem.mpr ⟨i, by omega, here⟩

theorem drop_entry (before after : List Value) (n i : Nat) (rest : after.drop n = before.drop n)
    (behind : n ≤ i) : after[i]? = before[i]? := by
  have same := congrArg (fun values => values[i - n]?) rest
  simp only [List.getElem?_drop] at same
  rwa [Nat.add_sub_cancel' behind] at same

end Entries

variable [LinearOrder Value]

/-- The first `n` entries are sorted, the others are left alone. -/
structure SortsPrefix (n : Nat) (before after : List Value) : Prop where
  sorted : (after.take n).Pairwise (· ≤ ·)
  same : (after.take n).Perm (before.take n)
  rest : after.drop n = before.drop n

section Prefixes
variable {n : Nat} {before after : List Value}

theorem prefix_perm (sorts : SortsPrefix n before after) : after.Perm before := by
  have whole := sorts.same.append_right (after.drop n)
  rwa [List.take_append_drop, sorts.rest, List.take_append_drop] at whole

theorem prefix_length (sorts : SortsPrefix n before after) : after.length = before.length :=
  (prefix_perm sorts).length_eq

theorem prefix_done (sorted : (before.take n).Pairwise (· ≤ ·)) : SortsPrefix n before before :=
  ⟨sorted, List.Perm.refl _, rfl⟩

theorem prefix_whole (sorts : SortsPrefix n before after) (all : before.length ≤ n) :
    after.Pairwise (· ≤ ·) ∧ after.Perm before := by
  have length := prefix_length sorts
  have sorted := sorts.sorted
  rw [List.take_of_length_le (by omega)] at sorted
  exact ⟨sorted, prefix_perm sorts⟩

theorem prefix_widen (sorts : SortsPrefix n before after) (m : Nat) (wider : n ≤ m) :
    (after.take m).Perm (before.take m) ∧ after.drop m = before.drop m := by
  obtain ⟨more, rfl⟩ := Nat.exists_eq_add_of_le wider
  constructor
  · rw [List.take_add, List.take_add, sorts.rest]
    exact sorts.same.append_right _
  · rw [← List.drop_drop, ← List.drop_drop, sorts.rest]

-- Sorting more after sorting less sorts more.
theorem prefix_trans (m : Nat) (middle : List Value) (first : SortsPrefix n before middle)
    (wider : n ≤ m) (second : SortsPrefix m middle after) : SortsPrefix m before after := by
  have same := prefix_widen first m wider
  exact ⟨second.sorted, second.same.trans same.1, second.rest.trans same.2⟩

theorem prefix_member (sorts : SortsPrefix n before after) (i : Nat) (value : Value) (inside : i < n)
    (found : after[i]? = some value) : ∃ j, j < n ∧ before[j]? = some value :=
  (mem_take before n value).mp (sorts.same.mem_iff.mp ((mem_take after n value).mpr ⟨i, inside, found⟩))

theorem sorted_entries (values : List Value) (sorted : values.Pairwise (· ≤ ·)) (i j : Nat)
    (low high : Value) (order : i ≤ j) (here : values[i]? = some low)
    (there : values[j]? = some high) : low ≤ high := by
  obtain ⟨inside, rfl⟩ := List.getElem?_eq_some_iff.mp here
  obtain ⟨bound, rfl⟩ := List.getElem?_eq_some_iff.mp there
  rcases Nat.eq_or_lt_of_le order with same | before
  · subst same
    exact le_refl _
  · exact List.pairwise_iff_getElem.mp sorted i j inside bound before

end Prefixes

-- All but one of the values are small, so all but the last are once they are sorted.
theorem sorted_but_last (values rest : List Value) (odd bound : Value)
    (sorted : values.Pairwise (· ≤ ·)) (same : values.Perm (rest ++ [odd]))
    (small : ∀ value ∈ rest, value ≤ bound) (i : Nat) (value : Value) (early : i + 1 < values.length)
    (found : values[i]? = some value) : value ≤ bound := by
  by_contra large
  have exceeds : bound < value := lt_of_not_ge large
  obtain ⟨inside, rfl⟩ := List.getElem?_eq_some_iff.mp found
  have order := sorted_entries values sorted i (i + 1) _ _ (Nat.le_succ i)
    (List.getElem?_eq_getElem inside) (List.getElem?_eq_getElem early)
  have few : values.countP (fun value => bound < value) ≤ 1 := by
    have none : rest.countP (fun value => bound < value) = 0 :=
      List.countP_eq_zero.mpr fun value member => by simpa using small value member
    rw [same.countP_eq, List.countP_append, none, List.countP_singleton]
    split <;> omega
  have many : 2 ≤ (values.drop i).countP (fun value => bound < value) := by
    rw [List.drop_eq_getElem_cons inside, List.drop_eq_getElem_cons early, List.countP_cons_of_pos,
      List.countP_cons_of_pos]
    · omega
    · simpa using lt_of_lt_of_le exceeds order
    · simpa using exceeds
  have part := (List.drop_sublist i values).countP_le (p := fun value => decide (bound < value))
  omega

/-- What lies before `first` is sorted, and nothing from there to `stop` is smaller. -/
structure Ready (first stop : Nat) (values : List Value) : Prop where
  sorted : (values.take first).Pairwise (· ≤ ·)
  below : ∀ i j low high, i < first → first ≤ j → j < stop →
    values[i]? = some low → values[j]? = some high → low ≤ high

/-- The entries from `first` to `lower` are at most the pivot, those from `upper`
to `stop` at least the pivot. The two parts may share one entry. -/
structure Parted (first lower upper stop : Nat) (pivot : Value) (values : List Value) : Prop where
  small : ∀ i value, first ≤ i → i < lower → values[i]? = some value → value ≤ pivot
  large : ∀ i value, upper ≤ i → i < stop → values[i]? = some value → pivot ≤ value

section Ranges
variable {first stop lower upper : Nat} {values after : List Value} {pivot : Value}

theorem ready_start (stop : Nat) (values : List Value) : Ready 0 stop values :=
  ⟨List.Pairwise.nil, fun i _ _ _ before => absurd before (Nat.not_lt_zero i)⟩

theorem ready_fewer (ready : Ready first stop values) (less : upper ≤ stop) :
    Ready first upper values :=
  ⟨ready.sorted, fun i j low high before behind inside =>
    ready.below i j low high before behind (Nat.lt_of_lt_of_le inside less)⟩

theorem take_ordered (n : Nat) (values : List Value) : (values.take n).Pairwise (· ≤ ·) ↔
    ∀ i j low high, i < j → j < n → values[i]? = some low → values[j]? = some high → low ≤ high := by
  rw [List.pairwise_iff_getElem]
  constructor
  · intro sorted i j low high order inside here there
    obtain ⟨bound, rfl⟩ := List.getElem?_eq_some_iff.mp here
    obtain ⟨limit, rfl⟩ := List.getElem?_eq_some_iff.mp there
    have entry := sorted i j (by simp; omega) (by simp; omega) order
    simpa using entry
  · intro ordered i j bound limit order
    rw [List.length_take] at bound limit
    simp only [List.getElem_take]
    exact ordered i j _ _ order (by omega) (List.getElem?_eq_getElem (by omega))
      (List.getElem?_eq_getElem (by omega))

-- A range of at most one entry is sorted as it is.
theorem ready_short (ready : Ready first stop values) (short : stop ≤ first + 1) :
    SortsPrefix stop values values := by
  apply prefix_done
  rw [take_ordered]
  intro i j low high order inside here there
  by_cases last : first ≤ j
  · exact ready.below i j low high (by omega) last inside here there
  · exact (take_ordered first values).mp ready.sorted i j low high order (by omega) here there

/-- What either stands before the range or is at most the pivot stays below
everything that is at least the pivot. -/
theorem parted_below (ready : Ready first stop values)
    (parted : Parted first lower upper stop pivot values) (i j : Nat) (low high : Value)
    (early : i < lower) (late : upper ≤ j) (inside : j < stop) (within : first ≤ j)
    (here : values[i]? = some low) (there : values[j]? = some high) : low ≤ high := by
  by_cases before : i < first
  · exact ready.below i j low high before within inside here there
  · exact le_trans (parted.small i low (by omega) early here) (parted.large j high late inside there)

-- The shared entry goes to the end of the lesser part or makes room for a smaller one.
theorem shared_below (ready : Ready first stop values)
    (parted : Parted first lower (lower + 1) stop pivot values)
    (sorts : SortsPrefix (lower + 1) values after) (i j : Nat) (low high : Value) (early : i < lower)
    (late : lower + 1 ≤ j) (inside : j < stop) (within : first ≤ j) (here : after[i]? = some low)
    (there : values[j]? = some high) : low ≤ high := by
  have length := prefix_length sorts
  have bound := (List.getElem?_eq_some_iff.mp there).1
  have shared : values.take (lower + 1) = values.take lower ++ [values[lower]] := by
    rw [List.take_add_one, List.getElem?_eq_getElem (by omega)]
    rfl
  refine sorted_but_last (after.take (lower + 1)) (values.take lower) values[lower] high sorts.sorted
    (shared ▸ sorts.same) ?_ i low ?_ ?_
  · intro value member
    obtain ⟨k, before, found⟩ := (mem_take values lower value).mp member
    exact parted_below ready parted k j value high before late inside within found there
  · rw [List.length_take]
    omega
  · rwa [List.getElem?_take_of_lt (by omega)]

theorem lesser_below (ready : Ready first stop values)
    (parted : Parted first lower upper stop pivot values) (low : first ≤ upper)
    (meets : upper ≤ lower + 1) (sorts : SortsPrefix upper values after) (i j : Nat)
    (small large : Value) (early : i < lower) (order : i < j) (inside : j < stop)
    (here : after[i]? = some small) (there : after[j]? = some large) : small ≤ large := by
  by_cases within : j < upper
  · exact (take_ordered upper after).mp sorts.sorted i j small large order within here there
  · rw [drop_entry values after upper j sorts.rest (by omega)] at there
    by_cases behind : upper ≤ i
    · rw [drop_entry values after upper i sorts.rest behind] at here
      exact parted_below ready parted i j small large early (by omega) inside (by omega) here there
    · by_cases shared : upper = lower + 1
      · subst shared
        exact shared_below ready parted sorts i j small large early (by omega) inside (by omega) here there
      · obtain ⟨k, before, found⟩ := prefix_member sorts i small (by omega) here
        exact parted_below ready parted k j small large (by omega) (by omega) inside (by omega) found there

/-- Once the lesser part is sorted, the greater part may be. -/
theorem greater_ready (ready : Ready first stop values)
    (parted : Parted first lower upper stop pivot values) (low : first ≤ upper)
    (meets : upper ≤ lower + 1) (within : lower ≤ stop) (sorts : SortsPrefix upper values after) :
    Ready lower stop after := by
  constructor
  · rw [take_ordered]
    intro i j small large order inside
    exact lesser_below ready parted low meets sorts i j small large (by omega) order (by omega)
  · intro i j small large early late inside
    exact lesser_below ready parted low meets sorts i j small large early (by omega) inside

end Ranges

/-- The entries of a range change places, the others stay. -/
structure Shuffled (first stop : Nat) (before after : List Value) : Prop where
  same : after.Perm before
  outside : ∀ i, i < first ∨ stop ≤ i → after[i]? = before[i]?
  inside : ∀ i value, first ≤ i → i < stop → after[i]? = some value →
    ∃ j, first ≤ j ∧ j < stop ∧ before[j]? = some value

section Shuffles
variable {first stop : Nat} {before after : List Value}

omit [LinearOrder Value] in
theorem shuffled_refl (first stop : Nat) (values : List Value) : Shuffled first stop values values :=
  ⟨List.Perm.refl _, fun _ _ => rfl, fun i _ low high found => ⟨i, low, high, found⟩⟩

omit [LinearOrder Value] in
theorem shuffled_trans (middle : List Value) (left : Shuffled first stop before middle)
    (right : Shuffled first stop middle after) : Shuffled first stop before after := by
  refine ⟨right.same.trans left.same, fun i away => (right.outside i away).trans (left.outside i away),
    fun i value low high found => ?_⟩
  obtain ⟨j, behind, early, there⟩ := right.inside i value low high found
  exact left.inside j value behind early there

theorem ready_shuffled (ready : Ready first stop before) (shuffled : Shuffled first stop before after) :
    Ready first stop after := by
  constructor
  · rw [take_ordered]
    intro i j low high order inside here there
    rw [shuffled.outside i (Or.inl (by omega))] at here
    rw [shuffled.outside j (Or.inl inside)] at there
    exact (take_ordered first before).mp ready.sorted i j low high order inside here there
  · intro i j low high early late inside here there
    rw [shuffled.outside i (Or.inl early)] at here
    obtain ⟨k, behind, within, found⟩ := shuffled.inside j high late inside there
    exact ready.below i k low high early behind within here found

theorem shuffled_sorts (middle : List Value) (shuffled : Shuffled first stop before middle)
    (sorts : SortsPrefix stop middle after) : SortsPrefix stop before after := by
  have rest : middle.drop stop = before.drop stop := by
    apply List.ext_getElem?
    intro i
    rw [List.getElem?_drop, List.getElem?_drop, shuffled.outside _ (Or.inr (Nat.le_add_right _ _))]
  have whole := shuffled.same
  rw [← List.take_append_drop stop middle, ← List.take_append_drop stop before, rest] at whole
  exact ⟨sorts.sorted, sorts.same.trans ((List.perm_append_right_iff _).mp whole), sorts.rest.trans rest⟩

-- What has the same entries, the same first ones and the same last ones.
omit [LinearOrder Value] in
theorem shuffled_kept (same : after.Perm before) (kept : after.take first = before.take first)
    (rest : ∀ i, stop ≤ i → after[i]? = before[i]?) (order : first ≤ stop) :
    Shuffled first stop before after := by
  have others : (after.drop first).Perm (before.drop first) := by
    have whole := same
    rw [← List.take_append_drop first after, ← List.take_append_drop first before, kept] at whole
    exact (List.perm_append_left_iff _).mp whole
  have tail : (after.drop first).drop (stop - first) = (before.drop first).drop (stop - first) := by
    apply List.ext_getElem?
    intro i
    simp only [List.getElem?_drop]
    exact rest _ (by omega)
  have middle : ((after.drop first).take (stop - first)).Perm ((before.drop first).take (stop - first)) := by
    rw [← List.take_append_drop (stop - first) (after.drop first),
      ← List.take_append_drop (stop - first) (before.drop first), tail] at others
    exact (List.perm_append_right_iff _).mp others
  refine ⟨same, fun i away => ?_, fun i value low high found => ?_⟩
  · rcases away with early | late
    · rw [← List.getElem?_take_of_lt early, kept, List.getElem?_take_of_lt early]
    · exact rest i late
  · have place : (after.drop first)[i - first]? = some value := by
      rw [List.getElem?_drop, Nat.add_sub_cancel' low, found]
    obtain ⟨j, small, there⟩ := (mem_take _ _ value).mp
      (middle.mem_iff.mp ((mem_take _ _ value).mpr ⟨i - first, by omega, place⟩))
    rw [List.getElem?_drop] at there
    exact ⟨first + j, by omega, by omega, there⟩

end Shuffles

section Sinking
variable {first stop : Nat} {before after : List Value}

omit [LinearOrder Value] in
theorem take_kept (n : Nat) (kept : ∀ i < n, after[i]? = before[i]?) : after.take n = before.take n := by
  apply List.ext_getElem?
  intro i
  by_cases inside : i < n
  · rw [List.getElem?_take_of_lt inside, List.getElem?_take_of_lt inside, kept i inside]
  · rw [List.getElem?_take_eq_none (by omega), List.getElem?_take_eq_none (by omega)]

/-- The first entry that differs has got smaller. -/
theorem take_lowered (position n : Nat) (low high : Value) (inside : position < n)
    (kept : ∀ i < position, after[i]? = before[i]?) (here : before[position]? = some high)
    (there : after[position]? = some low) (less : low < high) : after.take n < before.take n := by
  induction position generalizing n before after with
  | zero =>
      obtain ⟨more, rfl⟩ := Nat.exists_eq_succ_of_ne_zero (Nat.ne_of_gt inside)
      obtain ⟨rest, rfl⟩ := List.head?_eq_some_iff.mp (List.head?_eq_getElem?.trans here)
      obtain ⟨others, rfl⟩ := List.head?_eq_some_iff.mp (List.head?_eq_getElem?.trans there)
      exact List.Lex.rel less
  | succ position ih =>
      obtain ⟨more, rfl⟩ := Nat.exists_eq_succ_of_ne_zero (Nat.ne_zero_of_lt inside)
      cases before with
      | nil => cases here
      | cons value rest =>
          cases after with
          | nil => cases there
          | cons other others =>
              cases kept 0 (Nat.succ_pos position)
              exact List.Lex.cons (ih more (Nat.lt_of_succ_lt_succ inside)
                (fun i small => kept (i + 1) (Nat.succ_lt_succ small)) here there)

/-- Entries change places up to `stop`, and at most sink into what lies before `first`. -/
structure Sinks (first stop : Nat) (before after : List Value) : Prop where
  same : after.Perm before
  rest : ∀ i, stop ≤ i → after[i]? = before[i]?
  lowers : ∀ n ≤ first, after.take n ≤ before.take n

theorem sinks_refl (first stop : Nat) (values : List Value) : Sinks first stop values values :=
  ⟨List.Perm.refl _, fun _ _ => rfl, fun _ _ => le_refl _⟩

theorem sinks_trans (middle : List Value) (left : Sinks first stop before middle)
    (right : Sinks first stop middle after) : Sinks first stop before after :=
  ⟨right.same.trans left.same, fun i late => (right.rest i late).trans (left.rest i late),
    fun n within => le_trans (right.lowers n within) (left.lowers n within)⟩

theorem sinks_within (sinks : Sinks first stop before after) (earlier later : Nat)
    (low : earlier ≤ first) (high : stop ≤ later) : Sinks earlier later before after :=
  ⟨sinks.same, fun i late => sinks.rest i (by omega), fun n within => sinks.lowers n (by omega)⟩

omit [LinearOrder Value] in
theorem shuffled_within (shuffled : Shuffled first stop before after) (earlier later : Nat)
    (low : earlier ≤ first) (high : stop ≤ later) : Shuffled earlier later before after := by
  refine ⟨shuffled.same, fun i away => shuffled.outside i (by omega), fun i value behind early found => ?_⟩
  by_cases away : i < first ∨ stop ≤ i
  · exact ⟨i, behind, early, shuffled.outside i away ▸ found⟩
  · obtain ⟨j, late, soon, there⟩ := shuffled.inside i value (by omega) (by omega) found
    exact ⟨j, by omega, by omega, there⟩

omit [LinearOrder Value] in
theorem shuffled_take (shuffled : Shuffled first stop before after) (n : Nat) (within : n ≤ first) :
    after.take n = before.take n :=
  take_kept n fun i small => shuffled.outside i (Or.inl (by omega))

theorem shuffled_sinks (shuffled : Shuffled first stop before after) : Sinks first stop before after :=
  ⟨shuffled.same, fun i late => shuffled.outside i (Or.inr late),
    fun n within => le_of_eq (shuffled_take shuffled n within)⟩

-- What has sunk does not come back.
theorem sinks_between (middle : List Value) (left : Sinks first stop before middle)
    (right : Sinks first stop middle after) (n : Nat) (within : n ≤ first)
    (kept : after.take n = before.take n) : middle.take n = before.take n :=
  le_antisymm (left.lowers n within) (kept ▸ right.lowers n within)

def sortRange (first stop : Nat) (values : List Value) : List Value :=
  values.take first ++ ((values.take stop).drop first).insertionSort (· ≤ ·) ++ values.drop stop

/-- Sorting an array up to the end of a range that is ready sorts that range. -/
theorem ready_sorts (ready : Ready first stop before) (sorts : SortsPrefix stop before after)
    (order : first ≤ stop) : after = sortRange first stop before := by
  let ranged := (before.take stop).drop first
  have front : (before.take stop).take first = before.take first := by
    rw [List.take_take, Nat.min_eq_left order]
  have whole : before.take stop = before.take first ++ ranged := by
    rw [← front, List.take_append_drop]
  have ordered : (before.take first ++ ranged.insertionSort (· ≤ ·)).Pairwise (· ≤ ·) := by
    refine List.pairwise_append.mpr ⟨ready.sorted, List.pairwise_insertionSort _ _, ?_⟩
    intro low lower high higher
    obtain ⟨i, early, here⟩ := (mem_take before first low).mp lower
    obtain ⟨j, there⟩ := List.mem_iff_getElem?.mp ((List.mem_insertionSort _).mp higher)
    rw [List.getElem?_drop] at there
    have inside := (List.getElem?_eq_some_iff.mp there).1
    rw [List.length_take] at inside
    rw [List.getElem?_take_of_lt (by omega)] at there
    exact ready.below i (first + j) low high early (Nat.le_add_right _ _) (by omega) here there
  have equal : after.take stop = before.take first ++ ranged.insertionSort (· ≤ ·) := by
    apply List.Perm.eq_of_pairwise' sorts.sorted ordered
    have others := (List.perm_insertionSort (· ≤ ·) ranged).symm.append_left (before.take first)
    exact sorts.same.trans (whole ▸ others)
  calc
    after = after.take stop ++ after.drop stop := (List.take_append_drop stop after).symm
    _ = sortRange first stop before := by rw [equal, sorts.rest, sortRange]

-- Where nothing smaller is left to sink in, what lies before a range stays.
theorem ready_sinks (ready : Ready first stop before) (sinks : Sinks first stop before after)
    (order : first ≤ stop) (n : Nat) (within : n ≤ first) : after.take n = before.take n := by
  induction n with
  | zero => rfl
  | succ n ih =>
      have kept := ih (by omega)
      have length := sinks.same.length_eq
      rcases Nat.lt_or_ge n before.length with inside | behind
      · have here := List.getElem?_eq_getElem inside
        have there : after[n]? = some after[n] := List.getElem?_eq_getElem (by omega)
        have front : ∀ i < n, before[i]? = after[i]? := fun i small => by
          rw [← List.getElem?_take_of_lt small, ← kept, List.getElem?_take_of_lt small]
        have lowered : after[n] ≤ before[n] := by
          by_contra higher
          have rises := take_lowered n (n + 1) _ _ (Nat.lt_succ_self n) front there here (not_le.mp higher)
          exact absurd (sinks.lowers (n + 1) within) (not_le.mpr rises)
        obtain ⟨j, late, soon, found⟩ := (shuffled_kept sinks.same kept sinks.rest (by omega)).inside n _
          (Nat.le_refl n) (by omega) there
        have least : before[n] ≤ after[n] := by
          rcases Nat.lt_or_ge j first with early | past
          · rcases Nat.eq_or_lt_of_le late with rfl | further
            · exact le_of_eq (Option.some.inj (here.symm.trans found))
            · exact (take_ordered first before).mp ready.sorted n j _ _ further early here found
          · exact ready.below n j _ _ (by omega) past soon here found
        rw [List.take_add_one, List.take_add_one, kept, here, there, le_antisymm lowered least]
      · rw [List.take_of_length_le (by omega), List.take_of_length_le (by omega)] at kept ⊢
        exact kept

end Sinking

end EE360P.SortedPrefixes
