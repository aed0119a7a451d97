import Mathlib.Data.List.Lex
import Mathlib.Data.List.Sort
import EE360P.JavaText
import EE360P.KeyedTotals

/-! `TextAnalyzer` of project5: the mapper, the combiner, the reducer, and all
that Hadoop may do with the tuples in between. A `HashMap` is the list of its
entries; its iteration order never shows because the words are sorted first.
The job's set-up and the `Writable` encoding of tuples stay out. -/

namespace EE360P.CoOccurrence
open JavaText KeyedTotals

structure Tuple where
  queryWord : Text
  count : Int32
  deriving DecidableEq, Repr

abbrev Emission := Text × Tuple

section Mapper

-- Only these two characters outside ASCII have an ASCII letter in their lower
-- case. The others stay outside ASCII, whatever it is, and `filter` blanks them.
def lowered (c : Char) : Text :=
  if c = Char.ofNat 0x212A then ['k']
  else if c = Char.ofNat 0x130 then ['i', Char.ofNat 0x307]
  else [c.toLower]

def toLowerCase (text : Text) : Text := text.flatMap lowered

def filter (unfiltered : Text) : Text :=
  (toLowerCase unfiltered).map fun c => if c.isAlphanum then c else ' '

/-- `StringTokenizer`: the longest runs without a delimiter. -/
def tokens (delimiters text : Text) : List Text :=
  (text.splitOnP fun c => delimiters.contains c).filter fun token => !token.isEmpty

/-- The local `map` with its sets of positions, and what `context.write` got so far. -/
structure Progress where
  map : List (Text × List Nat)
  written : List Emission
  deriving DecidableEq, Repr

/-- The body of the inner loop. Every word has an entry in `map`. -/
def visit (words : List Text) (progress : Progress) (con query : Nat) : Progress :=
  match words[con]?, words[query]? with
  | some contextWord, some queryWord =>
      match get contextWord progress.map with
      | some seen =>
          if con ≠ query ∧ query ∉ seen then
            { map := put contextWord (query :: seen) progress.map
              written := progress.written ++ [(contextWord, ⟨queryWord, 1⟩)] }
          else progress
      | none => progress
  | _, _ => progress

def wordsOf (value : Text) : List Text := tokens " +".toList (filter value)

/-- `TextMapper.map`. -/
def map (value : Text) : List Emission :=
  let words := wordsOf value
  let fresh : Progress := ⟨words.foldl (fun map word => put word [] map) [], []⟩
  let positions := List.range words.length
  (positions.foldl (fun progress con =>
    positions.foldl (fun progress query => visit words progress con query) progress) fresh).written

def mapLines (lines : List Text) : List Emission := lines.flatMap map

theorem visit_single (words : List Text) (progress : Progress) (con query : Nat)
    (single : ∀ emission ∈ progress.written, emission.2.count = 1) :
    ∀ emission ∈ (visit words progress con query).written, emission.2.count = 1 := by
  unfold visit
  split
  · split
    · split
      · intro emission member
        rcases List.mem_append.mp member with old | new
        · exact single emission old
        · rw [List.mem_singleton.mp new]
      · exact single
    · exact single
  · exact single

theorem fold_kept {State Step : Type} (kept : State → Prop) (step : State → Step → State)
    (preserved : ∀ state next, kept state → kept (step state next)) (steps : List Step) (state : State)
    (before : kept state) : kept (steps.foldl step state) := by
  induction steps generalizing state with
  | nil => exact before
  | cons next rest ih => exact ih (step state next) (preserved state next before)

/-- The mapper writes every tuple with count `ONE`. -/
theorem map_single (value : Text) : ∀ emission ∈ map value, emission.2.count = 1 := by
  apply fold_kept (fun progress : Progress => ∀ emission ∈ progress.written, emission.2.count = 1)
  · intro progress con single
    apply fold_kept (fun progress : Progress => ∀ emission ∈ progress.written, emission.2.count = 1)
    · intro progress query single
      exact visit_single (wordsOf value) progress con query single
    · exact single
  · simp

end Mapper

section Reducers

/-- `Collections.sort`, by `String.compareTo`. -/
def sortWords (words : List Text) : List Text :=
  words.insertionSort fun left right => codeUnits left ≤ codeUnits right

/-- The loop that both reducers start with. -/
def counts (tuples : List Tuple) : List (Text × Int32) :=
  tally (tuples.map fun tuple => (tuple.queryWord, tuple.count))

/-- `TextCombiner.reduce`; the key passes through. -/
def combine (tuples : List Tuple) : List Tuple :=
  let map := counts tuples
  (sortWords (map.map Prod.fst)).map fun queryWord => ⟨queryWord, (get queryWord map).getD 0⟩

def wordLine (queryWord : Text) (count : Int32) : Text × Text :=
  ("<".toList ++ queryWord ++ ",".toList, intText count.toInt ++ ">".toList)

/-- `TextReducer.reduce`. -/
def reduce (key : Text) (tuples : List Tuple) : List (Text × Text) :=
  let map := counts tuples
  [(key, [])] ++
    (sortWords (map.map Prod.fst)).map (fun queryWord =>
      wordLine queryWord ((get queryWord map).getD 0)) ++
    [([], [])]

def pairs (tuples : List Tuple) : List (Text × Int32) :=
  tuples.map fun tuple => (tuple.queryWord, tuple.count)

theorem sorted_words (words : List Text) (distinct : words.Nodup) :
    (sortWords words).Pairwise fun left right => codeUnits left < codeUnits right := by
  have total : Std.Total fun left right : Text => codeUnits left ≤ codeUnits right :=
    ⟨fun _ _ => le_total _ _⟩
  have transitive : IsTrans Text fun left right => codeUnits left ≤ codeUnits right :=
    ⟨fun _ _ _ => le_trans⟩
  have ordered := List.pairwise_insertionSort (fun left right => codeUnits left ≤ codeUnits right) words
  have apart : (sortWords words).Nodup :=
    ((List.perm_insertionSort _ words).nodup_iff).mpr distinct
  refine (ordered.and apart).imp fun both => ?_
  rcases lt_or_eq_of_le both.1 with less | same
  · exact less
  · exact absurd (codeUnits_injective same) both.2

theorem mem_sortWords (words : List Text) (word : Text) : word ∈ sortWords words ↔ word ∈ words :=
  (List.perm_insertionSort _ words).mem_iff

/-- The sorted keys of `counts`: strictly increasing, and the tuples' query words. -/
theorem counted_words (tuples : List Tuple) :
    (sortWords ((counts tuples).map Prod.fst)).Pairwise
        (fun left right => codeUnits left < codeUnits right) ∧
      ∀ word, word ∈ sortWords ((counts tuples).map Prod.fst) ↔
        word ∈ (pairs tuples).map Prod.fst := by
  have keys := tally_keys (pairs tuples)
  constructor
  · exact sorted_words _ keys.1
  · intro word
    rw [mem_sortWords]
    exact keys.2 word

theorem counted_total (tuples : List Tuple) (word : Text)
    (present : word ∈ (pairs tuples).map Prod.fst) :
    (get word (counts tuples)).getD 0 = total (pairs tuples) word := by
  have found := tally_get (pairs tuples) word
  rw [if_pos present] at found
  rw [show counts tuples = tally (pairs tuples) from rfl, found]
  rfl

/-- Two collections of tuples that agree on query words and on their sums. -/
structure Agree (left right : List Tuple) : Prop where
  words : ∀ word, word ∈ (pairs left).map Prod.fst ↔ word ∈ (pairs right).map Prod.fst
  sums : ∀ word, total (pairs left) word = total (pairs right) word

theorem combine_agrees (tuples : List Tuple) : Agree (combine tuples) tuples := by
  have words := counted_words tuples
  have shape : pairs (combine tuples) = (sortWords ((counts tuples).map Prod.fst)).map fun word =>
      (word, (get word (counts tuples)).getD 0) := by
    simp [pairs, combine]
  constructor
  · intro word
    rw [shape, List.map_map]
    simpa using words.2 word
  · intro word
    have distinct : (sortWords ((counts tuples).map Prod.fst)).Nodup :=
      (List.perm_insertionSort _ _).nodup_iff.mpr (tally_keys (pairs tuples)).1
    rw [shape, total_keyed _ _ _ distinct]
    by_cases present : word ∈ (pairs tuples).map Prod.fst
    · rw [if_pos ((words.2 word).mpr present), counted_total tuples word present]
    · rw [if_neg fun member => present ((words.2 word).mp member), total_absent _ _ present]

/-- The reducer's lines are settled by the query words and their sums. -/
theorem reduce_lines (key : Text) (tuples : List Tuple) (words : List Text)
    (increasing : words.Pairwise fun left right => codeUnits left < codeUnits right)
    (members : ∀ word, word ∈ words ↔ word ∈ (pairs tuples).map Prod.fst) :
    reduce key tuples =
      [(key, [])] ++ words.map (fun word => wordLine word (total (pairs tuples) word)) ++ [([], [])] := by
  have sorted := counted_words tuples
  have irreflexive : Std.Irrefl fun left right : Text => codeUnits left < codeUnits right :=
    ⟨fun _ => lt_irrefl _⟩
  have antisymmetric : Std.Antisymm fun left right : Text => codeUnits left < codeUnits right :=
    ⟨fun _ _ less more => absurd less (lt_asymm more)⟩
  have same : sortWords ((counts tuples).map Prod.fst) = words :=
    sorted.1.eq_of_mem_iff increasing fun word => (sorted.2 word).trans (members word).symm
  have lines : words.map (fun word => wordLine word ((get word (counts tuples)).getD 0)) =
      words.map fun word => wordLine word (total (pairs tuples) word) := by
    apply List.map_congr_left
    intro word member
    rw [counted_total tuples word ((members word).mp member)]
  simp only [reduce, same, lines]

theorem reduce_agrees (key : Text) (left right : List Tuple) (agree : Agree left right) :
    reduce key left = reduce key right := by
  have sorted := counted_words right
  have first := reduce_lines key left _ sorted.1 fun word => (sorted.2 word).trans (agree.words word).symm
  have second := reduce_lines key right _ sorted.1 sorted.2
  rw [first, second]
  simp only [agree.sums]

end Reducers

section Delivery

/-- Reordering, and combining any group of tuples of one key, any number of times. -/
inductive Delivered (emitted : List Emission) : List Emission → Prop where
  | whole : Delivered emitted emitted
  | reordered (before after : List Emission) (earlier : Delivered emitted before)
      (same : before.Perm after) : Delivered emitted after
  | combined (key : Text) (group : List Tuple) (others : List Emission)
      (earlier : Delivered emitted (group.map (fun tuple => (key, tuple)) ++ others)) :
      Delivered emitted ((combine group).map (fun tuple => (key, tuple)) ++ others)

def tuplesOf (key : Text) (emissions : List Emission) : List Tuple :=
  (emissions.filter fun emission => emission.1 == key).map Prod.snd

/-- What the job writes for one context word: one call of `reduce`, or none. -/
def output (delivered : List Emission) (key : Text) : List (Text × Text) :=
  if tuplesOf key delivered = [] then [] else reduce key (tuplesOf key delivered)

/-- Every mapper takes its own lines. -/
def emittedBy (mappers : List (List Text)) : List Emission := mappers.flatMap mapLines

/-- How often the mapper writes the pair, over all lines. -/
def times (lines : List Text) (key queryWord : Text) : Nat :=
  (mapLines lines).countP fun emission => emission.1 == key && emission.2.queryWord == queryWord

theorem tuplesOf_append (key : Text) (left right : List Emission) :
    tuplesOf key (left ++ right) = tuplesOf key left ++ tuplesOf key right := by
  simp [tuplesOf]

theorem tuplesOf_group (key other : Text) (group : List Tuple) :
    tuplesOf key (group.map fun tuple => (other, tuple)) = if other = key then group else [] := by
  by_cases same : other = key <;> simp [tuplesOf, List.filter_map, Function.comp_def, same]

theorem agree_append (left right others : List Tuple) (agree : Agree left right) :
    Agree (left ++ others) (right ++ others) := by
  constructor
  · intro word
    simp only [pairs, List.map_append, List.mem_append] at agree ⊢
    exact or_congr_left (agree.words word)
  · intro word
    simp only [pairs, List.map_append, total_append]
    exact congrArg (· + _) (agree.sums word)

theorem agree_perm (left right : List Tuple) (same : left.Perm right) : Agree left right := by
  have pairsSame : (pairs left).Perm (pairs right) := same.map _
  constructor
  · intro word
    exact (pairsSame.map Prod.fst).mem_iff
  · intro word
    exact total_perm _ _ word pairsSame

theorem agree_trans (left middle right : List Tuple) (first : Agree left middle)
    (second : Agree middle right) : Agree left right :=
  ⟨fun word => (first.words word).trans (second.words word),
    fun word => (first.sums word).trans (second.sums word)⟩

/-- Nothing that Hadoop may do changes a key's query words or their sums. -/
theorem delivered_agrees (emitted delivered : List Emission) (delivery : Delivered emitted delivered)
    (key : Text) : Agree (tuplesOf key delivered) (tuplesOf key emitted) := by
  induction delivery with
  | whole => exact ⟨fun _ => Iff.rfl, fun _ => rfl⟩
  | reordered before after earlier same ih =>
      have moved : (tuplesOf key before).Perm (tuplesOf key after) := (same.filter _).map _
      exact agree_trans _ _ _ (agree_perm _ _ moved.symm) ih
  | combined other group others earlier ih =>
      rw [tuplesOf_append, tuplesOf_group] at ih ⊢
      by_cases here : other = key
      · rw [if_pos here] at ih ⊢
        exact agree_trans _ _ _ (agree_append _ _ _ (combine_agrees group)) ih
      · rw [if_neg here] at ih ⊢
        exact ih

theorem empty_agrees (left right : List Tuple) (agree : Agree left right) : left = [] ↔ right = [] := by
  have nonempty : ∀ one other : List Tuple, Agree one other → other = [] → one = [] := by
    rintro one other agree rfl
    by_contra some
    obtain ⟨tuple, rest, rfl⟩ := List.exists_cons_of_ne_nil some
    exact absurd ((agree.words tuple.queryWord).mp (by simp [pairs])) (by simp [pairs])
  constructor
  · exact nonempty right left ⟨fun word => (agree.words word).symm, fun word => (agree.sums word).symm⟩
  · exact nonempty left right agree

theorem output_agrees (left right : List Emission) (key : Text)
    (agree : Agree (tuplesOf key left) (tuplesOf key right)) : output left key = output right key := by
  by_cases blank : tuplesOf key right = []
  · simp [output, blank, (empty_agrees _ _ agree).mpr blank]
  · simp [output, blank, mt (empty_agrees _ _ agree).mp blank, reduce_agrees key _ _ agree]

theorem mapLines_single (lines : List Text) : ∀ emission ∈ mapLines lines, emission.2.count = 1 := by
  intro emission member
  obtain ⟨line, _, written⟩ := List.mem_flatMap.mp member
  exact map_single line emission written

theorem single_total (emissions : List Emission) (key queryWord : Text)
    (single : ∀ emission ∈ emissions, emission.2.count = 1) :
    total (pairs (tuplesOf key emissions)) queryWord =
      Int32.ofNat (emissions.countP fun emission =>
        emission.1 == key && emission.2.queryWord == queryWord) := by
  induction emissions with
  | nil => rfl
  | cons emission rest ih =>
      have tail := ih fun other member => single other (List.mem_cons_of_mem emission member)
      have one := single emission List.mem_cons_self
      rw [List.countP_cons, Int32.ofNat_add, ← tail]
      by_cases keyed : emission.1 = key
      · by_cases asked : emission.2.queryWord = queryWord
        · simp [tuplesOf, pairs, total, keyed, asked, one, Int32.add_comm]
        · simp [tuplesOf, pairs, total, keyed, asked]
      · simp [tuplesOf, keyed]

theorem emitted_perm (lines : List Text) (mappers : List (List Text))
    (assigned : mappers.flatten.Perm lines) : (emittedBy mappers).Perm (mapLines lines) := by
  have joined : emittedBy mappers = mapLines mappers.flatten := by
    simp only [emittedBy, mapLines, List.flatMap, List.map_flatten, List.flatten_flatten,
      List.map_map]
    rfl
  rw [joined]
  exact assigned.flatMap_right map

theorem written_words (lines : List Text) (key queryWord : Text) :
    queryWord ∈ (pairs (tuplesOf key (mapLines lines))).map Prod.fst ↔ 0 < times lines key queryWord := by
  rw [times, List.countP_pos_iff]
  simp only [pairs, tuplesOf, List.map_map, List.mem_map, List.mem_filter, beq_iff_eq,
    Bool.and_eq_true, Function.comp_apply]
  constructor
  · rintro ⟨emission, ⟨member, keyed⟩, asked⟩
    exact ⟨emission, member, keyed, asked⟩
  · rintro ⟨emission, member, keyed, asked⟩
    exact ⟨emission, ⟨member, keyed⟩, asked⟩

theorem unwritten_key (lines : List Text) (key : Text) :
    tuplesOf key (mapLines lines) = [] ↔ ∀ queryWord, times lines key queryWord = 0 := by
  constructor
  · intro none queryWord
    by_contra emitted
    have member := (written_words lines key queryWord).mpr (Nat.pos_of_ne_zero emitted)
    simp [none, pairs] at member
  · intro never
    by_contra some
    obtain ⟨tuple, rest, shape⟩ := List.exists_cons_of_ne_nil some
    have member : tuple.queryWord ∈ (pairs (tuplesOf key (mapLines lines))).map Prod.fst := by
      simp [shape, pairs]
    exact absurd (never tuple.queryWord) (Nat.ne_of_gt ((written_words lines key _).mp member))

/-- The job's output for one word, in terms of the mapper's tuples alone. -/
structure Canonical (lines : List Text) (delivered : List Emission) (key : Text) : Prop where
  plain : output delivered key = output (mapLines lines) key
  silent : (∀ queryWord, times lines key queryWord = 0) → output delivered key = []
  listed : (∃ queryWord, times lines key queryWord ≠ 0) → ∃ words : List Text,
    words.Pairwise (fun left right => codeUnits left < codeUnits right) ∧
    (∀ queryWord, queryWord ∈ words ↔ times lines key queryWord ≠ 0) ∧
    output delivered key =
      [(key, [])] ++
        words.map (fun queryWord => wordLine queryWord (Int32.ofNat (times lines key queryWord))) ++
        [([], [])]

theorem output_unscheduled (lines : List Text) (mappers : List (List Text))
    (delivered : List Emission) (key : Text) (assigned : mappers.flatten.Perm lines)
    (delivery : Delivered (emittedBy mappers) delivered) : Canonical lines delivered key := by
  have plain : output delivered key = output (mapLines lines) key := by
    apply output_agrees
    have moved : (tuplesOf key (emittedBy mappers)).Perm (tuplesOf key (mapLines lines)) :=
      ((emitted_perm lines mappers assigned).filter _).map _
    exact agree_trans _ _ _ (delivered_agrees _ delivered delivery key) (agree_perm _ _ moved)
  have sums := fun queryWord => single_total (mapLines lines) key queryWord (mapLines_single lines)
  have present := fun queryWord => written_words lines key queryWord
  refine ⟨plain, ?_, ?_⟩
  · intro never
    have none : tuplesOf key (mapLines lines) = [] := by
      rw [unwritten_key]
      exact never
    rw [plain, output, if_pos none]
  · intro emitted
    have some : tuplesOf key (mapLines lines) ≠ [] := by
      rw [Ne, unwritten_key, not_forall]
      exact emitted
    have sorted := counted_words (tuplesOf key (mapLines lines))
    refine ⟨_, sorted.1, fun queryWord => ?_, ?_⟩
    · rw [sorted.2, present]
      exact Nat.pos_iff_ne_zero
    · rw [plain, output, if_neg some, reduce_lines key _ _ sorted.1 sorted.2]
      simp only [sums, times]

theorem combined_on_two_mappers :
    Canonical ["a b".toList, "b a".toList]
      [("a".toList, ⟨"b".toList, 2⟩), ("b".toList, ⟨"a".toList, 1⟩), ("b".toList, ⟨"a".toList, 1⟩)]
      "a".toList := by
  apply output_unscheduled _ [["b a".toList], ["a b".toList]]
  · decide
  · exact .combined "a".toList [⟨"b".toList, 1⟩, ⟨"b".toList, 1⟩]
      [("b".toList, ⟨"a".toList, 1⟩), ("b".toList, ⟨"a".toList, 1⟩)]
      (.reordered _ _ .whole (by decide))

end Delivery

end EE360P.CoOccurrence
