import Mathlib.Algebra.BigOperators.Fin
import Mathlib.Data.Matrix.Mul
import EE360P.MatrixTraces

/-! The product that `matrix_mult.c` prints. The rows are dealt out in
consecutive shares, each process walks its share row by row, and the root puts
the results back in the order of the rows. -/

namespace EE360P.MatrixResult
open Collectives MatrixProduct MatrixShares MatrixTraces MatrixWalks

section Walk
variable (processes rank rows columns : Nat) (receivingBuffer vectorCells : List Cell)
variable (entry : Nat → Nat → Int) (factor : Nat → Int)

/-- The first `width` terms of the product of one row with the vector. -/
def partialProduct (row width : Nat) : Int := ∑ column ∈ Finset.range width, entry row column * factor column

/-- No product and no partial sum of the row leaves the range of an `int`. -/
def RowFits (row : Nat) : Prop :=
  (∀ column < columns, fits (entry row column * factor column) = true) ∧
    ∀ width ≤ columns, fits (partialProduct entry factor row width) = true

/-- The walk stands before `column` of `row` (both counted within the share) and has
stored the products of the rows before. -/
structure Walked (row column : Nat) (walk : Walk) : Prop where
  value : walk.resultantVectorValue = some (partialProduct entry factor row column)
  rowsProcessed : walk.rowsProcessed = row
  columnIndex : walk.columnIndex = column
  matrixIndex : walk.matrixIndex = row * columns + column
  length : walk.matrixComputation.length = columns * processes
  stored : ∀ done < row, load walk.matrixComputation (rank + done * processes) =
    some (partialProduct entry factor done columns)
  inside : ∀ access ∈ walk.accesses, access.inside

/-- The share holds `wanted` rows of `entry`, the vector holds `factor`. -/
structure Loaded (wanted : Nat) : Prop where
  share : ∀ row < wanted, ∀ column < columns,
    load receivingBuffer (row * columns + column) = some (entry row column)
  room : wanted * columns ≤ receivingBuffer.length
  factors : ∀ column < columns, load vectorCells column = some (factor column)
  width : vectorCells.length = columns
  fitting : ∀ row < wanted, RowFits columns entry factor row
  short : wanted ≤ columns
  placed : rank < processes

theorem flat_inside (row : Nat) (small : row < columns) (placed : rank < processes) :
    row * processes + rank < columns * processes := by
  have next := Nat.mul_le_mul_right processes (Nat.succ_le_of_lt small)
  rw [Nat.succ_mul] at next
  omega

theorem multiplyAdd_partial (row column : Nat) (narrow : column < columns)
    (fitting : RowFits columns entry factor row) :
    multiplyAdd (some (partialProduct entry factor row column)) (some (entry row column))
        (some (factor column)) = some (partialProduct entry factor row (column + 1)) := by
  have product := fitting.1 column narrow
  have sum := fitting.2 (column + 1) narrow
  have grown : partialProduct entry factor row (column + 1) =
      partialProduct entry factor row column + entry row column * factor column :=
    Finset.sum_range_succ _ _
  rw [grown] at sum ⊢
  simp [multiplyAdd, product, sum]

theorem walked_standing (row column : Nat) (walk : Walk)
    (walked : Walked processes rank columns entry factor row column walk) :
    Standing columns row column walk :=
  ⟨walked.rowsProcessed, walked.columnIndex, walked.matrixIndex, walked.inside⟩

section Turn
variable (wanted row column : Nat) (walk : Walk)
variable (loaded : Loaded processes rank columns receivingBuffer vectorCells entry factor wanted)
variable (small : row < wanted) (narrow : column < columns)
variable (walked : Walked processes rank columns entry factor row column walk)
include loaded small narrow walked

theorem turn_value :
    multiplyAdd walk.resultantVectorValue (load receivingBuffer walk.matrixIndex)
        (load vectorCells walk.columnIndex) = some (partialProduct entry factor row (column + 1)) := by
  rw [walked.value, walked.matrixIndex, walked.columnIndex, loaded.share row small column narrow,
    loaded.factors column narrow]
  exact multiplyAdd_partial columns entry factor row column narrow (loaded.fitting row small)

theorem turn_within (more : column + 1 < columns) :
    Walked processes rank columns entry factor row (column + 1)
      (walkStep columns processes rank receivingBuffer vectorCells walk) := by
  have value := turn_value processes rank columns receivingBuffer vectorCells entry factor wanted row
    column walk loaded small narrow walked
  have standing := standing_within processes rank columns receivingBuffer vectorCells wanted loaded.room
    loaded.width row column walk (walked_standing processes rank columns entry factor row column walk walked)
    small narrow more
  have within : ¬ walk.columnIndex = columns - 1 := by
    rw [walked.columnIndex]
    omega
  simp only [walkStep, within, ↓reduceIte] at standing ⊢
  exact ⟨value, standing.rowsProcessed, standing.columnIndex, standing.matrixIndex, walked.length,
    walked.stored, standing.inside⟩

theorem turn_last (full : column + 1 = columns) :
    Walked processes rank columns entry factor (row + 1) 0
      (walkStep columns processes rank receivingBuffer vectorCells walk) := by
  have value := turn_value processes rank columns receivingBuffer vectorCells entry factor wanted row
    column walk loaded small narrow walked
  have standing := standing_last processes rank columns receivingBuffer vectorCells wanted loaded.short
    loaded.placed loaded.room loaded.width row column walk
    (walked_standing processes rank columns entry factor row column walk walked) small narrow full
  have flat := flat_inside processes rank columns row (Nat.lt_of_lt_of_le small loaded.short) loaded.placed
  have last : walk.columnIndex = columns - 1 := by
    rw [walked.columnIndex]
    omega
  simp only [walkStep, last, ↓reduceIte] at standing ⊢
  rw [last] at value
  refine ⟨rfl, standing.rowsProcessed, rfl, standing.matrixIndex, ?_, ?_, standing.inside⟩
  · rw [List.length_set, walked.length]
  · intro done before
    rw [walked.rowsProcessed, value, load_set _ _ _ _ (by rw [walked.length]; exact flat), full]
    by_cases same : done = row
    · subst same
      rw [if_pos (Nat.add_comm _ _)]
    · have apart : rank + done * processes ≠ row * processes + rank := by
        intro equal
        exact same (Nat.eq_of_mul_eq_mul_right (Nat.zero_lt_of_lt loaded.placed) (by omega))
      rw [if_neg apart]
      exact walked.stored done (by omega)

end Turn

-- Induction on the turns that are left; they run out as the last row ends.
theorem walkRows_walked (wanted : Nat)
    (loaded : Loaded processes rank columns receivingBuffer vectorCells entry factor wanted)
    (wide : 0 < columns) (turns : Nat) :
    ∀ (row column : Nat) (walk : Walk), column < columns →
      row * columns + column + turns = wanted * columns →
      Walked processes rank columns entry factor row column walk →
      Walked processes rank columns entry factor wanted 0
        (walkRows columns processes rank receivingBuffer vectorCells wanted turns walk) := by
  induction turns with
  | zero =>
      intro row column walk narrow done walked
      have ended : row = wanted ∧ column = 0 := by
        rcases Nat.lt_trichotomy row wanted with less | same | more
        · have bound := row_inside columns wanted row column less narrow
          omega
        · subst same
          omega
        · have bound := row_inside columns row wanted 0 more wide
          omega
      rw [ended.1, ended.2] at walked
      exact walked
  | succ turns ih =>
      intro row column walk narrow left walked
      have small : row < wanted := by
        by_contra beyond
        have bound := Nat.mul_le_mul_right columns (Nat.le_of_not_lt beyond)
        omega
      have unfinished : ¬ walk.rowsProcessed = wanted := by
        rw [walked.rowsProcessed]
        omega
      simp only [walkRows, unfinished, ↓reduceIte]
      by_cases full : column + 1 = columns
      · apply ih (row + 1) 0 _ wide
        · rw [Nat.succ_mul]
          omega
        · exact turn_last processes rank columns receivingBuffer vectorCells entry factor wanted row
            column walk loaded small narrow walked full
      · apply ih row (column + 1) _ (by omega)
        · omega
        · exact turn_within processes rank columns receivingBuffer vectorCells entry factor wanted row
            column walk loaded small narrow walked (by omega)

theorem start_walked : Walked processes rank columns entry factor 0 0
    ⟨some 0, 0, 0, 0, blank (columns * processes), []⟩ where
  value := rfl
  rowsProcessed := rfl
  columnIndex := rfl
  matrixIndex := by simp
  length := by simp [blank]
  stored := by simp
  inside := by simp

end Walk

section Result
variable (processes rows columns : Nat) (files : Files)
variable (entry : Nat → Nat → Int) (factor : Nat → Int)

/-- The files hold a matrix and a vector that the program has room for. -/
structure Given : Prop where
  positive : 0 < processes
  enough : processes ≤ rows
  room : rows ≤ columns
  small : columns ≤ 1000
  entries : ∀ row < rows, ∀ column < columns,
    load (matrix files rows columns) (row * columns + column) = some (entry row column)
  factors : ∀ column < columns, load (vector files columns) column = some (factor column)
  fitting : ∀ row < rows, RowFits columns entry factor row

variable (given : Given processes rows columns files entry factor)
include given

theorem given_wide : 0 < columns := by
  have positive := given.positive
  have enough := given.enough
  have room := given.room
  omega

theorem share_loaded (rank : Nat) (inside : rank < processes) :
    Loaded processes rank columns
      (received rows columns (share processes files rows columns rank)) (vector files columns)
      (fun row column => entry (firstRow rows processes rank + row) column) factor
      (shareOf rows processes rank) where
  share := by
    intro row small column narrow
    have wide := given_wide processes rows columns files entry factor given
    have length := share_length processes rows columns files wide rank inside
    have room := share_room rows processes columns rank inside
    have fits := share_fits rows processes rank inside
    have within := row_inside columns (shareOf rows processes rank) row column small narrow
    rw [received, load_place _ _ _ _ (by rw [length, blank, List.length_replicate]; omega),
      if_pos (by omega), share_slice processes rows columns files wide rank inside]
    have position : firstRow rows processes rank * columns + (row * columns + column - 0) =
        (firstRow rows processes rank + row) * columns + column := by
      rw [Nat.add_mul]
      omega
    rw [load, List.getD_eq_getElem?_getD, List.getElem?_take_of_lt (by omega), List.getElem?_drop, position,
      ← List.getD_eq_getElem?_getD]
    exact given.entries _ (by omega) column narrow
  room := by
    have room := share_room rows processes columns rank inside
    rw [received, place_length, blank, List.length_replicate]
    omega
  factors := given.factors
  width := by simp [vector]
  fitting := by
    intro row small
    have fits := share_fits rows processes rank inside
    exact given.fitting (firstRow rows processes rank + row) (by omega)
  short := by
    have fits := share_fits rows processes rank inside
    have room := given.room
    omega
  placed := inside

theorem share_walked (rank : Nat) (inside : rank < processes) :
    Walked processes rank columns
      (fun row column => entry (firstRow rows processes rank + row) column) factor
      (shareOf rows processes rank) 0
      (walked processes rank rows columns
        (received rows columns (share processes files rows columns rank)) (vector files columns)) := by
  have wide := given_wide processes rows columns files entry factor given
  have loaded := share_loaded processes rows columns files entry factor given rank inside
  rw [walked, rowsWanted_share processes rows columns wide rank inside]
  apply walkRows_walked processes rank columns _ _ _ factor _ loaded wide _ 0 0 _ wide
  · omega
  · exact start_walked processes rank columns _ factor

theorem gather_products (rank : Nat) (inside : rank < processes) :
    gatherPiece processes rank rows columns
        (received rows columns (share processes files rows columns rank)) (vector files columns) =
      (List.range (shareOf rows processes rank)).map fun row =>
        some (partialProduct entry factor (firstRow rows processes rank + row) columns) := by
  have wide := given_wide processes rows columns files entry factor given
  have walked := share_walked processes rows columns files entry factor given rank inside
  rw [gatherPiece, rowsWanted_share processes rows columns wide rank inside]
  apply List.map_congr_left
  intro row member
  exact walked.stored row (List.mem_range.mp member)

/-- The pieces of the first processes, each at its displacement. -/
theorem placed_products (count : Nat) (within : count ≤ processes) :
    let memory := (List.range count).foldl (fun memory rank =>
      place memory (firstRow rows processes rank)
        ((List.range (shareOf rows processes rank)).map fun row =>
          some (partialProduct entry factor (firstRow rows processes rank + row) columns)))
      (blank columns)
    memory.length = columns ∧ ∀ row < firstRow rows processes count,
      load memory row = some (partialProduct entry factor row columns) := by
  induction count with
  | zero => simp [blank, firstRow]
  | succ count ih =>
      obtain ⟨length, placed⟩ := ih (by omega)
      have fits := share_fits rows processes count within
      have room := given.room
      simp only [List.range_succ, List.foldl_append, List.foldl_cons, List.foldl_nil]
      refine ⟨by rw [place_length, length], fun row small => ?_⟩
      rw [load_place _ _ _ _ (by rw [length, List.length_map, List.length_range]; omega),
        List.length_map, List.length_range, ← firstRow_succ]
      by_cases new : firstRow rows processes count ≤ row
      · rw [if_pos ⟨new, small⟩]
        rw [firstRow_succ] at small
        have offset : row - firstRow rows processes count < shareOf rows processes count := by omega
        simp [load, List.getD_eq_getElem?_getD, offset, Nat.add_sub_cancel' new]
      · rw [if_neg (by omega)]
        exact placed row (by omega)

theorem result_products (row : Nat) (small : row < rows) :
    load (resultantVector processes rows columns (products processes files rows columns)) row =
      some (partialProduct entry factor row columns) := by
  have wide := given_wide processes rows columns files entry factor given
  have pieces : products processes files rows columns = (List.range processes).map fun rank =>
      (List.range (shareOf rows processes rank)).map fun row =>
        some (partialProduct entry factor (firstRow rows processes rank + row) columns) := by
    rw [products_all processes files rows columns given.enough]
    apply List.map_congr_left
    intro rank member
    exact gather_products processes rows columns files entry factor given rank (List.mem_range.mp member)
  have placed := placed_products processes rows columns files entry factor given processes (Nat.le_refl _)
  rw [firstRow_all rows processes given.positive] at placed
  rw [resultantVector, pieces, chunks_shares rows processes columns wide processes, List.zip_map',
    List.foldl_map]
  exact placed.2 row small

/-- The whole program on given files: every process ends, no access is out of bounds,
and the root prints the products of the rows in their order. -/
theorem run_products (opened : Opened files rows columns) :
    (run processes files).processes.map Process.result =
        ((List.range processes).map fun rank => some (.finished
          (if rank = 0 then
            some ((List.range rows).map fun row => some (partialProduct entry factor row columns))
          else none))) ∧
      ∀ access ∈ (run processes files).allMarks, access.inside := by
  have wide := given_wide processes rows columns files entry factor given
  have positive := given.positive
  have enough := given.enough
  have ran := run_shared processes files rows columns positive (by omega) given.room given.small opened
  have products : printed processes files rows columns =
      (List.range rows).map fun row => some (partialProduct entry factor row columns) :=
    List.map_congr_left fun row member =>
      result_products processes rows columns files entry factor given row (List.mem_range.mp member)
  constructor
  · rw [Played.processes, ran, products]
    simp only [List.map_map]
    rfl
  · exact run_inside processes files rows columns positive (by omega) given.room given.small opened

end Result

section Product
variable {rows columns : Nat} (processes : Nat) (matrixEntries : Matrix (Fin rows) (Fin columns) Int)
variable (vectorEntries : Fin columns → Int)

/-- The files that hold this matrix, row by row, and this vector. -/
def filesOf : Files where
  matrixFile := some (rows, (List.ofFn fun row => List.ofFn (matrixEntries row)).flatten)
  vectorFile := some (List.ofFn vectorEntries)

/-- No product, and no sum of first products of a row, overflows. -/
def NoOverflow : Prop :=
  ∀ row, (∀ column, fits (matrixEntries row column * vectorEntries column) = true) ∧
    ∀ width ≤ columns, fits (∑ column : Fin columns,
      if column < width then matrixEntries row column * vectorEntries column else 0) = true

/-- Entries by number, zero outside. -/
def entryAt (row column : Nat) : Int :=
  if inside : row < rows ∧ column < columns then matrixEntries ⟨row, inside.1⟩ ⟨column, inside.2⟩ else 0

def factorAt (column : Nat) : Int :=
  if inside : column < columns then vectorEntries ⟨column, inside⟩ else 0

theorem flatten_entry (lists : List (List Int)) (width row column : Nat) (narrow : column < width)
    (even : ∀ list ∈ lists, list.length = width) :
    lists.flatten[row * width + column]? = lists[row]?.bind fun list => list[column]? := by
  induction lists generalizing row with
  | nil => simp
  | cons first rest ih =>
      have length := even first List.mem_cons_self
      cases row with
      | zero =>
          rw [List.flatten_cons, List.getElem?_append_left (by omega)]
          simp
      | succ row =>
          have tail := ih row fun list member => even list (List.mem_cons_of_mem first member)
          rw [List.flatten_cons, List.getElem?_append_right (by rw [length, Nat.succ_mul]; omega), length]
          rw [show (row + 1) * width + column - width = row * width + column by
            rw [Nat.succ_mul]; omega, tail]
          rfl

theorem partial_entries (row : Fin rows) (width : Nat) (narrow : width ≤ columns) :
    partialProduct (entryAt matrixEntries) (factorAt vectorEntries) row width =
      ∑ column : Fin columns,
        if column < width then matrixEntries row column * vectorEntries column else 0 := by
  have numbered : ∀ column : Fin columns,
      (if (column : Nat) < width then matrixEntries row column * vectorEntries column else 0) =
        if (column : Nat) < width then
          entryAt matrixEntries row column * factorAt vectorEntries column
        else 0 := by
    intro column
    simp [entryAt, factorAt]
  have firsts : (Finset.range columns).filter (fun column => column < width) = Finset.range width := by
    ext column
    simp only [Finset.mem_filter, Finset.mem_range]
    omega
  simp only [numbered]
  rw [← Finset.sum_range fun column => if column < width then
      entryAt matrixEntries row column * factorAt vectorEntries column else 0,
    ← Finset.sum_filter, firsts]
  rfl

theorem product_entries (row : Fin rows) :
    partialProduct (entryAt matrixEntries) (factorAt vectorEntries) row columns =
      matrixEntries.mulVec vectorEntries row := by
  rw [partial_entries matrixEntries vectorEntries row columns (Nat.le_refl _)]
  simp [Matrix.mulVec, dotProduct]

theorem filesOf_given (positive : 0 < processes) (enough : processes ≤ rows) (room : rows ≤ columns)
    (small : columns ≤ 1000) (fitting : NoOverflow matrixEntries vectorEntries) :
    Given processes rows columns (filesOf matrixEntries vectorEntries) (entryAt matrixEntries)
      (factorAt vectorEntries) where
  positive := positive
  enough := enough
  room := room
  small := small
  entries := by
    intro row low column narrow
    have inside := row_inside columns rows row column low narrow
    have entry : (entries (filesOf matrixEntries vectorEntries))[row * columns + column]? =
        some (entryAt matrixEntries row column) := by
      rw [entries, filesOf, Option.map_some, Option.getD_some,
        flatten_entry _ columns row column narrow (by simp)]
      simp [entryAt, low, narrow]
    simp [load, matrix, List.getD_eq_getElem?_getD, inside, entry]
  factors := by
    intro column narrow
    simp [load, vector, numbers, filesOf, List.getD_eq_getElem?_getD, narrow, factorAt]
  fitting := by
    intro row low
    have fits := fitting ⟨row, low⟩
    constructor
    · intro column narrow
      have product := fits.1 ⟨column, narrow⟩
      simpa [entryAt, factorAt, low, narrow] using product
    · intro width narrow
      have sum := fits.2 width narrow
      rw [← partial_entries matrixEntries vectorEntries ⟨row, low⟩ width narrow] at sum
      exact sum

/-- The root prints the matrix times the vector, and no process leaves a buffer. -/
theorem prints_product (positive : 0 < processes) (enough : processes ≤ rows) (room : rows ≤ columns)
    (small : columns ≤ 1000) (fitting : NoOverflow matrixEntries vectorEntries) :
    (run processes (filesOf matrixEntries vectorEntries)).processes.map Process.result =
        ((List.range processes).map fun rank => some (.finished
          (if rank = 0 then
            some (List.ofFn fun row => some (matrixEntries.mulVec vectorEntries row))
          else none))) ∧
      ∀ access ∈ (run processes (filesOf matrixEntries vectorEntries)).allMarks, access.inside := by
  have given := filesOf_given processes matrixEntries vectorEntries positive enough room small fitting
  have opened : Opened (filesOf matrixEntries vectorEntries) rows columns :=
    ⟨_, _, rfl, rfl, List.length_ofFn⟩
  have products : ((List.range rows).map fun row => some (partialProduct (entryAt matrixEntries)
      (factorAt vectorEntries) row columns)) =
      List.ofFn fun row => some (matrixEntries.mulVec vectorEntries row) := by
    rw [← List.map_coe_finRange_eq_range, List.map_map, List.ofFn_eq_map]
    apply List.map_congr_left
    intro row _
    exact congrArg some (product_entries matrixEntries vectorEntries row)
  have ran := run_products processes rows columns _ _ _ given opened
  rw [products] at ran
  exact ran

theorem prints_product_three_rows :
    let matrixEntries : Matrix (Fin 3) (Fin 3) Int := fun row column => 3 * row + column + 1
    let vectorEntries : Fin 3 → Int := fun column => 1 - column
    (run 2 (filesOf matrixEntries vectorEntries)).processes.map Process.result =
        ((List.range 2).map fun rank => some (.finished
          (if rank = 0 then
            some (List.ofFn fun row => some (matrixEntries.mulVec vectorEntries row))
          else none))) ∧
      ∀ access ∈ (run 2 (filesOf matrixEntries vectorEntries)).allMarks, access.inside := by
  apply prints_product 2 _ _ (by decide) (by decide) (by decide) (by decide)
  unfold NoOverflow
  decide

end Product

end EE360P.MatrixResult
