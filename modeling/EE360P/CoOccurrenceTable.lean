import Mathlib.Algebra.GroupWithZero.Nat
import Mathlib.Data.List.Dedup
import EE360P.EmittedPairs

/-! What the whole job of `TextAnalyzer` is for: the table that says how often a query
word stands beside a context word. Whatever Hadoop does on the way, the files of the
reduce tasks hold the rows of that table, and a reader gets them back. -/

namespace EE360P.CoOccurrenceTable
open JavaText KeyedTotals CoOccurrence EmittedPairs

section Table
variable (lines : List Text)

/-- How often the query word counts for the context word, over all lines. -/
def table (key queryWord : Text) : Nat :=
  (lines.map fun line => expected (lineWords line) key queryWord).sum

def vocabulary : List Text := (lines.flatMap lineWords).dedup

abbrev Row := Text × List (Text × Int32)

/-- The query words of a context word, in the order of `String.compareTo`, with their counts. -/
def row (key : Text) : List (Text × Int32) :=
  ((sortWords (vocabulary lines)).filter fun queryWord => table lines key queryWord != 0).map
    fun queryWord => (queryWord, Int32.ofNat (table lines key queryWord))

theorem expected_words (words : List Text) (key queryWord : Text)
    (counts : expected words key queryWord ≠ 0) : key ∈ words ∧ queryWord ∈ words := by
  unfold expected at counts
  split at counts
  · rename_i same
    split at counts
    · have present := List.count_pos_iff.mp (Nat.pos_of_ne_zero counts)
      exact ⟨present, same ▸ present⟩
    · exact absurd rfl counts
  · split at counts
    · rename_i present
      exact ⟨present, List.count_pos_iff.mp (Nat.pos_of_ne_zero counts)⟩
    · exact absurd rfl counts

/-- A pair that counts stands in one line. -/
theorem table_words (key queryWord : Text) (counts : table lines key queryWord ≠ 0) :
    ∃ line ∈ lines, key ∈ lineWords line ∧ queryWord ∈ lineWords line := by
  by_contra none
  push Not at none
  apply counts
  apply List.sum_eq_zero
  intro amount member
  obtain ⟨line, inside, rfl⟩ := List.mem_map.mp member
  by_contra some
  have both := expected_words _ _ _ some
  exact none line inside both.1 both.2

theorem lineWords_nonempty (line word : Text) (member : word ∈ lineWords line) : word ≠ [] := by
  rintro rfl
  have kept := (List.mem_filter.mp member).2
  cases kept

theorem row_words (key : Text) : (row lines key).map Prod.fst =
    (sortWords (vocabulary lines)).filter fun queryWord => table lines key queryWord != 0 := by
  simp [row, Function.comp_def]

theorem row_sorted (key : Text) : ((row lines key).map Prod.fst).Pairwise
    fun left right => codeUnits left < codeUnits right := by
  rw [row_words]
  exact (sorted_words _ (List.nodup_dedup _)).filter _

theorem mem_row_words (key queryWord : Text) :
    queryWord ∈ (row lines key).map Prod.fst ↔ table lines key queryWord ≠ 0 := by
  rw [row_words, List.mem_filter, bne_iff_ne, mem_sortWords, vocabulary, List.mem_dedup]
  constructor
  · exact And.right
  · intro counts
    obtain ⟨line, inside, _, present⟩ := table_words lines key queryWord counts
    exact ⟨List.mem_flatMap.mpr ⟨line, inside, present⟩, counts⟩

theorem mem_row (key queryWord : Text) (count : Int32) :
    (queryWord, count) ∈ row lines key ↔
      table lines key queryWord ≠ 0 ∧ count = Int32.ofNat (table lines key queryWord) := by
  rw [← mem_row_words]
  constructor
  · intro member
    refine ⟨List.mem_map.mpr ⟨_, member, rfl⟩, ?_⟩
    obtain ⟨other, _, same⟩ := List.mem_map.mp member
    obtain ⟨rfl, rfl⟩ := Prod.mk.inj same
    rfl
  · rintro ⟨listed, rfl⟩
    rw [row_words] at listed
    exact List.mem_map.mpr ⟨queryWord, listed, rfl⟩

theorem row_empty (key : Text) : row lines key = [] ↔ ∀ queryWord, table lines key queryWord = 0 := by
  constructor
  · intro empty queryWord
    by_contra counts
    have listed := (mem_row_words lines key queryWord).mpr counts
    rw [empty] at listed
    cases listed
  · intro none
    rw [List.eq_nil_iff_forall_not_mem]
    rintro ⟨queryWord, count⟩ member
    exact ((mem_row lines key queryWord count).mp member).1 (none queryWord)

theorem row_keyed (key : Text) (some : row lines key ≠ []) : key ≠ [] := by
  rw [Ne, row_empty, not_forall] at some
  obtain ⟨queryWord, counts⟩ := some
  obtain ⟨line, _, present, _⟩ := table_words lines key queryWord counts
  exact lineWords_nonempty line key present

end Table

section Emissions

-- Every tuple of the mapper has count one, so the two words tell which tuple it is.
theorem line_times (line key queryWord : Text) :
    (map line).countP (fun emission => emission.1 == key && emission.2.queryWord == queryWord) =
      expected (lineWords line) key queryWord := by
  rw [← map_counts, List.count]
  apply List.countP_congr
  rintro ⟨word, asked, count⟩ member
  obtain rfl : count = 1 := map_single line _ member
  simp

theorem times_table (lines : List Text) (key queryWord : Text) :
    times lines key queryWord = table lines key queryWord := by
  induction lines with
  | nil => rfl
  | cons line rest ih =>
      rw [times, mapLines] at ih
      rw [times, mapLines, List.flatMap_cons, List.countP_append, line_times, ih]
      simp [table]

end Emissions

section Output
variable (lines : List Text) (mappers : List (List Text)) (delivered : List Emission)
  (assigned : mappers.flatten.Perm lines) (delivery : Delivered (emittedBy mappers) delivered)

/-- The records of one call of `TextReducer.reduce`. -/
def records (row : Row) : List (Text × Text) :=
  (row.1, []) :: (row.2.map (fun cell => wordLine cell.1 cell.2) ++ [([], [])])

theorem tuplesOf_empty (emissions : List Emission) (key : Text) :
    tuplesOf key emissions = [] ↔ key ∉ emissions.map Prod.fst := by
  simp only [tuplesOf, List.map_eq_nil_iff, List.filter_eq_nil_iff, beq_iff_eq, List.mem_map,
    not_exists, not_and]

include assigned delivery

theorem delivered_emitted (key : Text) :
    Agree (tuplesOf key delivered) (tuplesOf key (mapLines lines)) := by
  have moved : (tuplesOf key (emittedBy mappers)).Perm (tuplesOf key (mapLines lines)) :=
    ((emitted_perm lines mappers assigned).filter _).map _
  exact agree_trans _ _ _ (delivered_agrees _ delivered delivery key) (agree_perm _ _ moved)

theorem delivered_keys (key : Text) : key ∈ delivered.map Prod.fst ↔ row lines key ≠ [] := by
  have agree := delivered_emitted lines mappers delivered assigned delivery key
  rw [← not_iff_not, not_ne_iff, ← tuplesOf_empty, empty_agrees _ _ agree, unwritten_key, row_empty]
  simp only [times_table]

theorem output_row (key : Text) :
    output delivered key = if row lines key = [] then [] else records (key, row lines key) := by
  have agree := delivered_emitted lines mappers delivered assigned delivery key
  have keyed := delivered_keys lines mappers delivered assigned delivery key
  have blank := (tuplesOf_empty delivered key).trans (not_congr keyed)
  unfold output
  by_cases empty : row lines key = []
  · rw [if_pos empty, if_pos (blank.mpr (not_not.mpr empty))]
  · rw [if_neg empty, if_neg (mt blank.mp (not_not.mpr empty))]
    have members : ∀ queryWord, queryWord ∈ (row lines key).map Prod.fst ↔
        queryWord ∈ (pairs (tuplesOf key delivered)).map Prod.fst := by
      intro queryWord
      rw [agree.words, written_words, times_table, mem_row_words, Nat.pos_iff_ne_zero]
    have sums : ∀ queryWord, total (pairs (tuplesOf key delivered)) queryWord =
        Int32.ofNat (table lines key queryWord) := by
      intro queryWord
      rw [agree.sums, single_total _ _ _ (mapLines_single lines), ← times_table]
      rfl
    rw [reduce_lines key _ _ (row_sorted lines key) members]
    simp [sums, records, row, Function.comp_def]

end Output

/-! A reader of the files: a context word, its query words with their counts, an empty line. -/
section Reader

structure Reading where
  rows : List Row
  current : Option Row
  deriving DecidableEq, Repr

def readCell : Text × Text → Option (Text × Int32)
  | ('<' :: word, count) =>
      if word.getLast? = some ',' ∧ count.getLast? = some '>' then
        (parseInt .int32 count.dropLast).map fun n => (word.dropLast, Int32.ofInt n)
      else none
  | _ => none

def readRecord (reading : Reading) (record : Text × Text) : Option Reading :=
  match reading.current with
  | none =>
      if record.1 ≠ [] ∧ record.2 = [] then some { reading with current := some (record.1, []) }
      else none
  | some (key, cells) =>
      if record = ([], []) then some ⟨reading.rows ++ [(key, cells)], none⟩
      else (readCell record).map fun cell => ⟨reading.rows, some (key, cells ++ [cell])⟩

/-- A file that ends within a row is refused. -/
def readTable (file : List (Text × Text)) : Option (List Row) :=
  (file.foldlM readRecord ⟨[], none⟩).bind fun reading =>
    if reading.current = none then some reading.rows else none

theorem int32_held (count : Int32) : Counting.int32.holds count.toInt = true :=
  decide_eq_true ⟨count.le_toInt, count.toInt_lt⟩

theorem cell_read (queryWord : Text) (count : Int32) :
    readCell (wordLine queryWord count) = some (queryWord, count) := by
  have parsed := intText_parsed .int32 count.toInt (int32_held count)
  have shape : wordLine queryWord count =
      ('<' :: (queryWord ++ [',']), intText count.toInt ++ ['>']) := rfl
  rw [shape, readCell, if_pos (by simp), List.dropLast_concat, List.dropLast_concat, parsed]
  simp

theorem cells_read (rows : List Row) (key : Text) (cells earlier : List (Text × Int32)) :
    (cells.map fun cell => wordLine cell.1 cell.2).foldlM readRecord ⟨rows, some (key, earlier)⟩ =
      some ⟨rows, some (key, earlier ++ cells)⟩ := by
  induction cells generalizing earlier with
  | nil => simp
  | cons cell rest ih =>
      have cellLine : wordLine cell.1 cell.2 ≠ ([], []) := by simp [wordLine]
      have read : readRecord ⟨rows, some (key, earlier)⟩ (wordLine cell.1 cell.2) =
          some ⟨rows, some (key, earlier ++ [cell])⟩ := by
        simp only [readRecord, if_neg cellLine, cell_read, Option.map_some]
      rw [List.map_cons, List.foldlM_cons, read, Option.bind_eq_bind, Option.bind_some, ih]
      simp

theorem row_read (rows : List Row) (row : Row) (keyed : row.1 ≠ []) :
    (records row).foldlM readRecord ⟨rows, none⟩ = some ⟨rows ++ [row], none⟩ := by
  have opened : readRecord ⟨rows, none⟩ (row.1, []) = some ⟨rows, some (row.1, [])⟩ := by
    simp [readRecord, keyed]
  rw [records, List.foldlM_cons, opened, Option.bind_eq_bind, Option.bind_some, List.foldlM_append,
    cells_read]
  simp [readRecord]

theorem rows_read (rows earlier : List Row) (keyed : ∀ row ∈ rows, row.1 ≠ []) :
    (rows.flatMap records).foldlM readRecord ⟨earlier, none⟩ = some ⟨earlier ++ rows, none⟩ := by
  induction rows generalizing earlier with
  | nil => simp
  | cons row rest ih =>
      have tail := ih (earlier ++ [row]) fun other member => keyed other (List.mem_cons_of_mem row member)
      rw [List.flatMap_cons, List.foldlM_append, row_read _ _ (keyed row List.mem_cons_self),
        Option.bind_eq_bind, Option.bind_some, tail]
      simp

theorem table_read (rows : List Row) (keyed : ∀ row ∈ rows, row.1 ≠ []) :
    readTable (rows.flatMap records) = some rows := by
  simp [readTable, rows_read rows [] keyed]

end Reader

section Job
variable (lines : List Text)

/-- What one reduce task writes: one call of `reduce` for each of its keys. -/
def file (delivered : List Emission) (keys : List Text) : List (Text × Text) :=
  keys.flatMap (output delivered)

/-- The files of the reduce tasks hold the table, and nothing else. -/
structure Tabulated (delivered : List Emission) (tasks : List (List Text)) : Prop where
  keys : ∀ key, key ∈ tasks.flatten ↔ ∃ queryWord, table lines key queryWord ≠ 0
  sorted : ∀ key, ((row lines key).map Prod.fst).Pairwise
    fun left right => codeUnits left < codeUnits right
  cells : ∀ key queryWord count, (queryWord, count) ∈ row lines key ↔
    table lines key queryWord ≠ 0 ∧ count = Int32.ofNat (table lines key queryWord)
  read : ∀ keys ∈ tasks, readTable (file delivered keys) =
    some (keys.map fun key => (key, row lines key))

/-- However the lines are spread over mappers, tuples are combined and reordered on the way,
and keys are spread over reduce tasks. -/
theorem job_tabulates (mappers : List (List Text)) (delivered : List Emission)
    (tasks : List (List Text)) (assigned : mappers.flatten.Perm lines)
    (delivery : Delivered (emittedBy mappers) delivered)
    (grouped : ∀ key, key ∈ tasks.flatten ↔ key ∈ delivered.map Prod.fst) :
    Tabulated lines delivered tasks := by
  have listed : ∀ key, key ∈ tasks.flatten ↔ row lines key ≠ [] := fun key =>
    (grouped key).trans (delivered_keys lines mappers delivered assigned delivery key)
  refine ⟨fun key => ?_, row_sorted lines, mem_row lines, fun keys task => ?_⟩
  · rw [listed, Ne, row_empty, not_forall]
  · have some : ∀ key ∈ keys, row lines key ≠ [] := fun key member =>
      (listed key).mp (List.mem_flatten.mpr ⟨keys, task, member⟩)
    have written : file delivered keys =
        (keys.map fun key => (key, row lines key)).flatMap records := by
      rw [file, List.flatMap_map]
      apply List.flatMap_congr
      intro key member
      rw [output_row lines mappers delivered assigned delivery, if_neg (some key member)]
    rw [written]
    apply table_read
    intro entry member
    obtain ⟨key, inside, rfl⟩ := List.mem_map.mp member
    exact row_keyed lines key (some key inside)

end Job

-- Two mappers, of which the second one's tuples were combined, and two reduce tasks.
theorem job_tabulates_two :
    Tabulated ["a b".toList, "b a b".toList]
      [("a".toList, ⟨"b".toList, 2⟩), ("a".toList, ⟨"b".toList, 1⟩), ("b".toList, ⟨"a".toList, 1⟩),
        ("b".toList, ⟨"a".toList, 1⟩), ("b".toList, ⟨"b".toList, 1⟩), ("b".toList, ⟨"b".toList, 1⟩)]
      [["b".toList], ["a".toList]] := by
  apply job_tabulates _ [["a b".toList], ["b a b".toList]]
  · decide
  · exact .combined "a".toList [⟨"b".toList, 1⟩, ⟨"b".toList, 1⟩]
      [("a".toList, ⟨"b".toList, 1⟩), ("b".toList, ⟨"a".toList, 1⟩), ("b".toList, ⟨"a".toList, 1⟩),
        ("b".toList, ⟨"b".toList, 1⟩), ("b".toList, ⟨"b".toList, 1⟩)]
      (.reordered _ _ .whole (by decide))
  · simp
    grind

end EE360P.CoOccurrenceTable
