import Mathlib.Data.List.NodupEquivFin
import EE360P.CoOccurrence

/-! How often `TextMapper.map` writes a pair of words. The set that it keeps for a
word holds the query positions that were used for it, so every position counts
once, whatever the number of context positions of that word. -/

namespace EE360P.EmittedPairs
open JavaText KeyedTotals CoOccurrence

/-! The words of a line, without reference to how the code finds them. -/
section Words

/-- A character of [a-z0-9]. -/
def wordChar (c : Char) : Bool := c.isLower || c.isDigit

/-- The maximal runs of characters of [a-z0-9] in the lower-cased line. -/
def lineWords (line : Text) : List Text :=
  ((toLowerCase line).splitOnP fun c => !wordChar c).filter fun run => !run.isEmpty

theorem toLower_upper (c : Char) : c.toLower.isUpper = false := by
  unfold Char.isUpper Char.toLower
  split
  · grind [UInt32.toNat_add]
  · grind

theorem lowered_upper (c d : Char) (member : d ∈ lowered c) : d.isUpper = false := by
  unfold lowered at member
  split at member
  · rw [List.mem_singleton.mp member]
    rfl
  · split at member
    · rcases List.mem_cons.mp member with rfl | dot
      · rfl
      · rw [List.mem_singleton.mp dot]
        rfl
    · rw [List.mem_singleton.mp member]
      exact toLower_upper c

theorem lowered_plain (line : Text) (c : Char) (member : c ∈ toLowerCase line) :
    c.isAlphanum = wordChar c := by
  obtain ⟨d, _, inside⟩ := List.mem_flatMap.mp member
  change ((c.isUpper || c.isLower) || c.isDigit) = wordChar c
  rw [lowered_upper d c inside, Bool.false_or, wordChar]

-- A character that is blanked ends a run, one that is kept is in a run.
theorem blanked_runs (text : Text) (plain : ∀ c ∈ text, c.isAlphanum = wordChar c) :
    (text.map fun c => if c.isAlphanum then c else ' ').splitOnP
        (fun c => " +".toList.contains c) = text.splitOnP fun c => !wordChar c := by
  induction text with
  | nil => rfl
  | cons c text ih =>
      have tail := ih fun other member => plain other (List.mem_cons_of_mem c member)
      rw [List.map_cons, List.splitOnP_cons_eq_if_modifyHead, List.splitOnP_cons_eq_if_modifyHead, tail,
        plain c List.mem_cons_self]
      by_cases kept : wordChar c = true
      · have inRun : " +".toList.contains c = false := by
          rw [Bool.eq_false_iff]
          intro delimiter
          have blank : c = ' ' ∨ c = '+' := by simpa using delimiter
          rcases blank with rfl | rfl
          · exact absurd kept (by decide)
          · exact absurd kept (by decide)
        simp only [kept, ↓reduceIte, inRun, Bool.false_eq_true, Bool.not_true]
      · have blank : " +".toList.contains ' ' = true := by decide
        simp only [kept, Bool.false_eq_true, ↓reduceIte, blank, Bool.not_false]

theorem words_runs (line : Text) : wordsOf line = lineWords line := by
  unfold wordsOf tokens filter lineWords
  rw [blanked_runs _ (lowered_plain line)]

end Words

/-! One fold over the pairs of positions, in the order of the two loops. -/
section Loops

def positionPairs (n : Nat) : List (Nat × Nat) :=
  (List.range n).flatMap fun con => (List.range n).map fun query => (con, query)

theorem loops_pairs {State : Type} (step : State → Nat → Nat → State) (n : Nat) (start : State) :
    (List.range n).foldl (fun state con =>
      (List.range n).foldl (fun state query => step state con query) state) start =
    (positionPairs n).foldl (fun state pair => step state pair.1 pair.2) start := by
  rw [positionPairs, List.foldl_flatMap]
  simp only [List.foldl_map]

theorem mem_positionPairs (n con query : Nat) :
    (con, query) ∈ positionPairs n ↔ con < n ∧ query < n := by
  simp [positionPairs]

end Loops

section Positions
variable (words : List Text)

/-- The pair of positions is one for which the word can be written. -/
def Uses (word : Text) (query : Nat) (pair : Nat × Nat) : Prop :=
  pair.2 = query ∧ pair.1 ≠ query ∧ words[pair.1]? = some word

def asks (queryWord : Text) (query : Nat) : Bool := words[query]? == some queryWord

def written (progress : Progress) (word queryWord : Text) : Nat :=
  progress.written.count (word, ⟨queryWord, 1⟩)

/-- What holds after some of the pairs: the set of a word has the query positions that
were used for it, and each of them was written once. -/
structure Kept (done : List (Nat × Nat)) (progress : Progress) : Prop where
  sets : ∀ word ∈ words, ∃ seen, get word progress.map = some seen ∧ seen.Nodup ∧
    (∀ query, query ∈ seen ↔ ∃ pair ∈ done, Uses words word query pair) ∧
    ∀ queryWord, written progress word queryWord = seen.countP (asks words queryWord)
  others : ∀ word ∉ words, ∀ queryWord, written progress word queryWord = 0

theorem fresh_get (word : Text) :
    get word (words.foldl (fun map word => put word ([] : List Nat) map) []) =
      if word ∈ words then some [] else none := by
  induction words using List.reverseRecOn with
  | nil => rfl
  | append_singleton earlier last ih =>
      rw [List.foldl_append, List.foldl_cons, List.foldl_nil, get_put, ih]
      by_cases same : last = word
      · simp [same]
      · simp [same, Ne.symm same]

theorem fresh_kept :
    Kept words [] ⟨words.foldl (fun map word => put word ([] : List Nat) map) [], []⟩ := by
  constructor
  · intro word member
    refine ⟨[], ?_, List.nodup_nil, ?_, ?_⟩
    · rw [fresh_get, if_pos member]
    · intro query
      simp
    · intro queryWord
      rfl
  · intro word absent queryWord
    rfl

variable {words} {done : List (Nat × Nat)} {progress : Progress} {con query : Nat}

theorem written_next (word queryWord contextWord asked : Text) (map : List (Text × List Nat)) :
    written ⟨map, progress.written ++ [(contextWord, ⟨asked, 1⟩)]⟩ word queryWord =
      written progress word queryWord + if contextWord = word ∧ asked = queryWord then 1 else 0 := by
  simp [written, List.count_append, List.count_singleton]

theorem uses_next (word : Text) (position : Nat) :
    (∃ pair ∈ done ++ [(con, query)], Uses words word position pair) ↔
      (∃ pair ∈ done, Uses words word position pair) ∨ Uses words word position (con, query) := by
  simp [or_and_right, exists_or]

/-- A pair of positions that adds a query position to the set of its context word. -/
theorem fresh_visited (kept : Kept words done progress) (contextWord asked : Text) (seen : List Nat)
    (context : words[con]? = some contextWord) (asks_ : words[query]? = some asked)
    (found : get contextWord progress.map = some seen) (apart : con ≠ query) (fresh : query ∉ seen) :
    Kept words (done ++ [(con, query)])
      ⟨put contextWord (query :: seen) progress.map,
        progress.written ++ [(contextWord, ⟨asked, 1⟩)]⟩ := by
  constructor
  · intro word member
    obtain ⟨used, holds, distinct, members, counted⟩ := kept.sets word member
    by_cases same : contextWord = word
    · subst same
      obtain rfl : seen = used := Option.some.inj (found.symm.trans holds)
      refine ⟨query :: seen, ?_, List.nodup_cons.mpr ⟨fresh, distinct⟩, ?_, ?_⟩
      · rw [get_put, if_pos rfl]
      · intro position
        rw [uses_next, List.mem_cons, members position, or_comm]
        apply or_congr_right
        constructor
        · rintro rfl
          exact ⟨rfl, apart, context⟩
        · intro uses
          exact uses.1.symm
      · intro queryWord
        rw [written_next, counted queryWord, List.countP_cons, asks, asks_]
        simp
    · refine ⟨used, ?_, distinct, ?_, ?_⟩
      · rw [get_put, if_neg same, holds]
      · intro position
        rw [uses_next, members position]
        constructor
        · exact Or.inl
        · rintro (old | new)
          · exact old
          · exact absurd (Option.some.inj (context.symm.trans new.2.2)) same
      · intro queryWord
        rw [written_next, counted queryWord, if_neg fun both => same both.1, Nat.add_zero]
  · intro word absent queryWord
    have other : contextWord ≠ word := by
      rintro rfl
      exact absent (List.mem_of_getElem? context)
    rw [written_next, kept.others word absent, if_neg fun both => other both.1]

/-- A pair that adds nothing is one of equal positions, or its query position is in
the set already. -/
theorem stale_visited (kept : Kept words done progress) (contextWord : Text) (seen : List Nat)
    (context : words[con]? = some contextWord) (found : get contextWord progress.map = some seen)
    (stale : con ≠ query → query ∈ seen) : Kept words (done ++ [(con, query)]) progress := by
  constructor
  · intro word member
    obtain ⟨used, holds, distinct, members, counted⟩ := kept.sets word member
    refine ⟨used, holds, distinct, ?_, counted⟩
    intro position
    rw [uses_next, members position]
    constructor
    · exact Or.inl
    · rintro (old | ⟨here, apart, new⟩)
      · exact old
      · obtain rfl : query = position := here
        obtain rfl : contextWord = word := Option.some.inj (context.symm.trans new)
        obtain rfl : seen = used := Option.some.inj (found.symm.trans holds)
        exact (members query).mp (stale apart)
  · exact kept.others

theorem visit_kept (kept : Kept words done progress) (conIn : con < words.length)
    (queryIn : query < words.length) :
    Kept words (done ++ [(con, query)]) (visit words progress con query) := by
  have context := List.getElem?_eq_getElem conIn
  have asked := List.getElem?_eq_getElem queryIn
  obtain ⟨seen, found, _⟩ := kept.sets words[con] (List.getElem_mem conIn)
  simp only [visit, context, asked, found]
  split
  · rename_i both
    exact fresh_visited kept words[con] words[query] seen context asked found both.1 both.2
  · rename_i neither
    apply stale_visited kept words[con] seen context found
    intro apart
    by_contra absent
    exact neither ⟨apart, absent⟩

/-- Induction over the pairs that the two loops go through. -/
theorem pairs_kept (pairs : List (Nat × Nat))
    (inside : ∀ pair ∈ pairs, pair.1 < words.length ∧ pair.2 < words.length) (start : Progress)
    (kept : Kept words [] start) :
    Kept words pairs (pairs.foldl (fun progress pair => visit words progress pair.1 pair.2) start) := by
  induction pairs using List.reverseRecOn with
  | nil => exact kept
  | append_singleton earlier last ih =>
      have before := ih fun pair member => inside pair (List.mem_append_left _ member)
      obtain ⟨conIn, queryIn⟩ := inside last (by simp)
      rw [List.foldl_append]
      exact visit_kept before conIn queryIn

end Positions

section Counts
variable (words : List Text)

/-- A query position that some other position of the word can be paired with. -/
def Usable (word : Text) (query : Nat) : Prop := ∃ con, con ≠ query ∧ words[con]? = some word

/-- How often a pair is to be written for these words. -/
def expected (word queryWord : Text) : Nat :=
  if word = queryWord then if 2 ≤ words.count word then words.count word else 0
  else if word ∈ words then words.count queryWord else 0

theorem count_positions (queryWord : Text) :
    (List.range words.length).countP (asks words queryWord) = words.count queryWord := by
  induction words using List.reverseRecOn with
  | nil => rfl
  | append_singleton earlier last ih =>
      have same : (List.range earlier.length).countP (asks (earlier ++ [last]) queryWord) =
          (List.range earlier.length).countP (asks earlier queryWord) := by
        apply List.countP_congr
        intro query member
        rw [asks, asks, List.getElem?_append_left (List.mem_range.mp member)]
      rw [List.length_append, List.length_singleton, List.range_succ, List.countP_append, same, ih,
        List.count_append, List.countP_singleton, List.count_singleton, asks,
        List.getElem?_concat_length]
      rfl

theorem used_positions (word : Text) (query : Nat) :
    (∃ pair ∈ positionPairs words.length, Uses words word query pair) ↔
      query < words.length ∧ Usable words word query := by
  constructor
  · rintro ⟨⟨con, position⟩, member, rfl, apart, context⟩
    exact ⟨((mem_positionPairs _ _ _).mp member).2, con, apart, context⟩
  · rintro ⟨queryIn, con, apart, context⟩
    have conIn := (List.getElem?_eq_some_iff.mp context).1
    exact ⟨(con, query), (mem_positionPairs _ _ _).mpr ⟨conIn, queryIn⟩, rfl, apart, context⟩

/-- A position of a word is paired with another one only if the word is repeated. -/
theorem repeated_usable (word : Text) (query : Nat) (here : words[query]? = some word) :
    Usable words word query ↔ 2 ≤ words.count word := by
  obtain ⟨queryIn, found⟩ := List.getElem?_eq_some_iff.mp here
  have twice : 2 ≤ words.count word ↔ List.Duplicate word words := by
    rw [← List.replicate_sublist_iff, List.duplicate_iff_sublist]
    rfl
  rw [twice, List.duplicate_iff_exists_distinct_get]
  constructor
  · rintro ⟨con, apart, context⟩
    obtain ⟨conIn, there⟩ := List.getElem?_eq_some_iff.mp context
    rcases Nat.lt_or_gt_of_ne apart with before | behind
    · exact ⟨⟨con, conIn⟩, ⟨query, queryIn⟩, before, there.symm, found.symm⟩
    · exact ⟨⟨query, queryIn⟩, ⟨con, conIn⟩, behind, found.symm, there.symm⟩
  · rintro ⟨first, second, before, atFirst, atSecond⟩
    have one : words[first.val]? = some word := List.getElem?_eq_some_iff.mpr ⟨first.isLt, atFirst.symm⟩
    have other : words[second.val]? = some word :=
      List.getElem?_eq_some_iff.mpr ⟨second.isLt, atSecond.symm⟩
    by_cases same : first.val = query
    · have apart : first.val < second.val := before
      exact ⟨second.val, by omega, other⟩
    · exact ⟨first.val, same, one⟩

variable {words} {word queryWord : Text} {seen : List Nat}
  (members : ∀ query, query ∈ seen ↔ query < words.length ∧ Usable words word query)

include members

/-- With every position of the query word usable, each of them is in the set once. -/
theorem counted_all (distinct : seen.Nodup)
    (usable : ∀ query, words[query]? = some queryWord → Usable words word query) :
    seen.countP (asks words queryWord) = words.count queryWord := by
  rw [← count_positions, List.countP_eq_length_filter, List.countP_eq_length_filter]
  apply List.Perm.length_eq
  apply (List.perm_ext_iff_of_nodup (distinct.filter _) (List.nodup_range.filter _)).mpr
  intro query
  rw [List.mem_filter, List.mem_filter, members query, List.mem_range]
  constructor
  · rintro ⟨⟨queryIn, _⟩, asked⟩
    exact ⟨queryIn, asked⟩
  · rintro ⟨queryIn, asked⟩
    exact ⟨⟨queryIn, usable query (beq_iff_eq.mp asked)⟩, asked⟩

theorem counted_none (unusable : ∀ query, words[query]? = some queryWord → ¬ Usable words word query) :
    seen.countP (asks words queryWord) = 0 := by
  apply List.countP_eq_zero.mpr
  intro query member asked
  exact unusable query (beq_iff_eq.mp asked) ((members query).mp member).2

theorem counted_expected (distinct : seen.Nodup) (present : word ∈ words) :
    seen.countP (asks words queryWord) = expected words word queryWord := by
  unfold expected
  split
  · rename_i same
    subst same
    split
    · rename_i twice
      apply counted_all members distinct
      intro query here
      exact (repeated_usable words word query here).mpr twice
    · rename_i once
      apply counted_none members
      intro query here usable
      exact once ((repeated_usable words word query here).mp usable)
  · rename_i other
    apply counted_all members distinct
    intro query here
    obtain ⟨con, context⟩ := List.mem_iff_getElem?.mp present
    refine ⟨con, ?_, context⟩
    rintro rfl
    exact other (Option.some.inj (context.symm.trans here))

end Counts

/-- A pair of words comes out as often as expected from the words of the line. -/
theorem map_counts (line word queryWord : Text) :
    (map line).count (word, ⟨queryWord, 1⟩) = expected (lineWords line) word queryWord := by
  rw [← words_runs]
  have kept := pairs_kept (positionPairs (wordsOf line).length)
    (fun pair member => (mem_positionPairs _ pair.1 pair.2).mp member) _ (fresh_kept (wordsOf line))
  rw [← loops_pairs (visit (wordsOf line))] at kept
  by_cases present : word ∈ wordsOf line
  · obtain ⟨seen, _, distinct, members, counted⟩ := kept.sets word present
    have positions : ∀ query, query ∈ seen ↔
        query < (wordsOf line).length ∧ Usable (wordsOf line) word query := by
      intro query
      rw [members query, used_positions]
    exact (counted queryWord).trans (counted_expected positions distinct present)
  · have none : expected (wordsOf line) word queryWord = 0 := by
      unfold expected
      rw [List.count_eq_zero_of_not_mem present, if_neg present]
      split <;> rfl
    rw [none]
    exact kept.others word present queryWord

/-- The mapper writes a pair of words as often as expected from the words of the
line, and writes counts of one only. -/
theorem map_emits (line word queryWord : Text) :
    (map line).count (word, ⟨queryWord, 1⟩) = expected (lineWords line) word queryWord ∧
      ∀ emission ∈ map line, emission.2.count = 1 :=
  ⟨map_counts line word queryWord, map_single line⟩

end EE360P.EmittedPairs
