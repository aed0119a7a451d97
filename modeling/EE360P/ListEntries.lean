import Mathlib.Algebra.BigOperators.Group.List.Basic
import Mathlib.Data.List.Basic
import Mathlib.Tactic.Abel

/-! Lists that are searched, changed in place at the first hit, or extended at
the end: the facts about single entries that the models below share. -/

namespace EE360P.ListEntries

variable {Entry : Type}

theorem snoc_entry (entries : List Entry) (last entry : Entry) (n : Nat) :
    (entries ++ [last])[n]? = some entry ↔
      entries[n]? = some entry ∨ (n = entries.length ∧ last = entry) := by
  rcases Nat.lt_trichotomy n entries.length with inside | same | beyond
  · simp [List.getElem?_append_left inside, Nat.ne_of_lt inside]
  · subst same
    simp
  · simp [List.getElem?_eq_none (show (entries ++ [last]).length ≤ n by simp; omega),
      List.getElem?_eq_none (Nat.le_of_lt beyond), Nat.ne_of_gt beyond]

theorem set_entry (entries : List Entry) (n other : Nat) (changed entry : Entry)
    (found : (entries.set n changed)[other]? = some entry) :
    (other = n ∧ entry = changed) ∨ entries[other]? = some entry := by
  rw [List.getElem?_set] at found
  split at found
  · rename_i same
    split at found
    · exact Or.inl ⟨same.symm, (Option.some.inj found).symm⟩
    · cases found
  · exact Or.inr found

def updateFirst (found : Entry → Bool) (change : Entry → Entry) : List Entry → List Entry
  | [] => []
  | entry :: rest =>
      if found entry then change entry :: rest else entry :: updateFirst found change rest

theorem updateFirst_congr (left right : Entry → Bool) (change : Entry → Entry)
    (entries : List Entry) (same : ∀ entry ∈ entries, left entry = right entry) :
    updateFirst left change entries = updateFirst right change entries := by
  induction entries with
  | nil => rfl
  | cons entry rest ih =>
      have tail := ih (fun other member => same other (List.mem_cons_of_mem entry member))
      simp only [updateFirst, same entry List.mem_cons_self, tail]

theorem mem_updateFirst (found : Entry → Bool) (change : Entry → Entry) (entries : List Entry)
    (entry : Entry) (member : entry ∈ updateFirst found change entries) :
    entry ∈ entries ∨ ∃ before ∈ entries, entry = change before := by
  induction entries with
  | nil => simp [updateFirst] at member
  | cons first rest ih =>
      unfold updateFirst at member
      split at member
      · rcases List.mem_cons.mp member with new | old
        · exact Or.inr ⟨first, List.mem_cons_self, new⟩
        · exact Or.inl (List.mem_cons_of_mem first old)
      · rcases List.mem_cons.mp member with same | later
        · exact Or.inl (same ▸ List.mem_cons_self)
        · rcases ih later with old | ⟨before, present, new⟩
          · exact Or.inl (List.mem_cons_of_mem first old)
          · exact Or.inr ⟨before, List.mem_cons_of_mem first present, new⟩

theorem updateFirst_kept {Value : Type} (found : Entry → Bool) (change : Entry → Entry)
    (read : Entry → Value) (same : ∀ entry, read (change entry) = read entry) (entries : List Entry) :
    (updateFirst found change entries).map read = entries.map read := by
  induction entries with
  | nil => rfl
  | cons entry rest ih =>
      unfold updateFirst
      split
      · rw [List.map_cons, List.map_cons, same]
      · rw [List.map_cons, List.map_cons, ih]

-- When the searched key is unique, rewriting the first hit rewrites every hit.
theorem updateFirst_map {Key : Type} [BEq Key] [LawfulBEq Key] (keyOf : Entry → Key) (key : Key)
    (change : Entry → Entry) (entries : List Entry) (unique : (entries.map keyOf).Nodup) :
    updateFirst (fun entry => keyOf entry == key) change entries =
      entries.map fun entry => if keyOf entry == key then change entry else entry := by
  induction entries with
  | nil => rfl
  | cons entry rest ih =>
      rw [List.map_cons, List.nodup_cons] at unique
      by_cases hit : keyOf entry = key
      · have others : ∀ other ∈ rest, ¬ keyOf other = key := by
          intro other member same
          exact unique.1 (hit ▸ same ▸ List.mem_map_of_mem member)
        have kept : (rest.map fun other => if keyOf other == key then change other else other) = rest := by
          conv_rhs => rw [← List.map_id rest]
          exact List.map_congr_left fun other member => by simp [others other member]
        simp only [updateFirst, hit, BEq.rfl, ↓reduceIte, List.map_cons, kept]
      · simp [updateFirst, hit, ih unique.2]

section Hits

/-- The part of a list before the first hit, the hit and the rest. -/
theorem find_split (found : Entry → Bool) (entries : List Entry) (hit : Entry)
    (first : entries.find? found = some hit) :
    ∃ rest, entries = entries.takeWhile (fun entry => !found entry) ++ hit :: rest := by
  induction entries with
  | nil => cases first
  | cons entry entries ih =>
      by_cases here : found entry = true
      · rw [List.find?_cons_of_pos here] at first
        cases first
        exact ⟨entries, by simp [here]⟩
      · rw [List.find?_cons_of_neg here] at first
        obtain ⟨rest, shape⟩ := ih first
        refine ⟨rest, ?_⟩
        rw [List.takeWhile_cons_of_pos (by simpa using here), List.cons_append, ← shape]

theorem updateFirst_split (found : Entry → Bool) (change : Entry → Entry) (before behind : List Entry)
    (hit : Entry) (missed : ∀ entry ∈ before, found entry = false) (here : found hit = true) :
    updateFirst found change (before ++ hit :: behind) = before ++ change hit :: behind := by
  induction before with
  | nil => simp [updateFirst, here]
  | cons entry before ih =>
      have tail := ih fun other member => missed other (List.mem_cons_of_mem entry member)
      simp [updateFirst, missed entry List.mem_cons_self, tail]

theorem find_hit (found : Entry → Bool) (before behind : List Entry) (hit : Entry)
    (missed : ∀ entry ∈ before, found entry = false) (here : found hit = true) :
    (before ++ hit :: behind).find? found = some hit := by
  have none : before.find? found = none := by
    apply List.find?_eq_none.mpr
    intro entry member
    rw [missed entry member]
    exact Bool.false_ne_true
  rw [List.find?_append, none, List.find?_cons_of_pos here]
  rfl

-- The list shifted by one is the list itself only when all are the same.
theorem shifted (last first : Entry) (entries : List Entry) :
    entries ++ [last] = first :: entries ↔ ∀ entry ∈ first :: entries, entry = last := by
  induction entries generalizing first with
  | nil => simp [eq_comm]
  | cons entry entries ih =>
      rw [List.cons_append, List.cons.injEq, ih entry]
      constructor
      · rintro ⟨rfl, same⟩ other member
        rcases List.mem_cons.mp member with rfl | later
        · exact same other List.mem_cons_self
        · exact same other later
      · intro same
        have tail : ∀ other ∈ entry :: entries, other = last :=
          fun other member => same other (List.mem_cons_of_mem first member)
        exact ⟨(tail entry List.mem_cons_self).trans (same first List.mem_cons_self).symm, tail⟩

/-- Erasing the first hit takes the last entry away again exactly if all from the
first hit on are like it. -/
theorem erase_last (found : Entry → Bool) (entries : List Entry) (last : Entry)
    (here : found last = true) : (entries ++ [last]).eraseP found = entries ↔
      ∀ entry ∈ entries.dropWhile (fun entry => !found entry), entry = last := by
  induction entries with
  | nil => simp [here]
  | cons entry entries ih =>
      by_cases hit : found entry = true
      · rw [List.cons_append, List.eraseP_cons_of_pos hit, shifted,
          List.dropWhile_cons_of_neg (by simp [hit])]
      · rw [List.cons_append, List.eraseP_cons_of_neg hit, List.cons.injEq, ih,
          List.dropWhile_cons_of_pos (by simpa using hit)]
        exact and_iff_right rfl

/-- What is found in the extended list, if all from the first hit on are the last. -/
theorem find_last (found : Entry → Bool) (entries : List Entry) (last : Entry)
    (here : found last = true)
    (same : ∀ entry ∈ entries.dropWhile (fun entry => !found entry), entry = last) :
    (entries ++ [last]).find? found = some last := by
  induction entries with
  | nil => simp [here]
  | cons entry entries ih =>
      by_cases hit : found entry = true
      · rw [List.dropWhile_cons_of_neg (by simp [hit])] at same
        rw [List.cons_append, List.find?_cons_of_pos hit, same entry List.mem_cons_self]
      · rw [List.dropWhile_cons_of_pos (by simpa using hit)] at same
        rw [List.cons_append, List.find?_cons_of_neg hit, ih same]

end Hits

section Sums
variable {Amount : Type} [AddCommGroup Amount]

theorem updateFirst_sum (found : Entry → Bool) (change : Entry → Entry) (amount : Entry → Amount)
    (entries : List Entry) (hit : Entry) (first : entries.find? found = some hit) :
    ((updateFirst found change entries).map amount).sum =
      (entries.map amount).sum + (amount (change hit) - amount hit) := by
  induction entries with
  | nil => simp at first
  | cons entry rest ih =>
      by_cases here : found entry = true
      · have same : entry = hit := by simpa [List.find?_cons, here] using first
        subst same
        simp only [updateFirst, here, ↓reduceIte, List.map_cons, List.sum_cons]
        abel
      · have tail := ih (by simpa [List.find?_cons, here] using first)
        simp only [updateFirst, here, Bool.false_eq_true, ↓reduceIte, List.map_cons, List.sum_cons,
          tail]
        abel

theorem erase_sum (found : Entry → Bool) (amount : Entry → Amount) (entries : List Entry)
    (hit : Entry) (first : entries.find? found = some hit) :
    ((entries.eraseP found).map amount).sum = (entries.map amount).sum - amount hit := by
  induction entries with
  | nil => simp at first
  | cons entry rest ih =>
      by_cases here : found entry = true
      · have same : entry = hit := by simpa [List.find?_cons, here] using first
        subst same
        simp [here]
      · have tail := ih (by simpa [List.find?_cons, here] using first)
        simp only [List.eraseP_cons, here, cond_false, List.map_cons,
          List.sum_cons, tail]
        abel

end Sums

section Modified
variable {Amount : Type} [AddCommMonoid Amount]

theorem modify_sum (amount : Entry → Amount) (change : Entry → Entry) (entries : List Entry)
    (n : Nat) (entry : Entry) (found : entries[n]? = some entry) :
    ((entries.modify n change).map amount).sum + amount entry =
      (entries.map amount).sum + amount (change entry) := by
  induction entries generalizing n with
  | nil => simp at found
  | cons first rest ih =>
      cases n with
      | zero =>
          simp only [List.getElem?_cons_zero, Option.some.injEq] at found
          subst found
          simp only [List.modify_zero_cons, List.map_cons, List.sum_cons]
          abel
      | succ n =>
          have tail := ih n (by simpa using found)
          simp only [List.modify_succ_cons, List.map_cons, List.sum_cons, add_assoc, tail]

theorem modify_map_same {Value : Type} (read : Entry → Value) (change : Entry → Entry)
    (same : ∀ entry, read (change entry) = read entry) (entries : List Entry) (n : Nat) :
    (entries.modify n change).map read = entries.map read := by
  induction entries generalizing n with
  | nil => simp
  | cons first rest ih =>
      cases n with
      | zero => simp [same]
      | succ n => simp [ih]

end Modified

end EE360P.ListEntries
