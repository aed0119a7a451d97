import EE360P.MatrixProduct

/-! Where the `while` of `matrix_mult.c` stands in its buffers. That depends on the
sizes alone, not on what it multiplies: a row is ended when its last column is, and
each turn takes one number of the share. -/

namespace EE360P.MatrixWalks
open MatrixProduct

variable (processes rank columns : Nat) (receivingBuffer vectorCells : List Cell)

theorem row_inside (wanted row column : Nat) (small : row < wanted) (narrow : column < columns) :
    row * columns + column < wanted * columns := by
  have next := Nat.mul_le_mul_right columns (Nat.succ_le_of_lt small)
  rw [Nat.succ_mul] at next
  omega

/-- The walk stands before `column` of `row` and has stayed inside so far. -/
structure Standing (row column : Nat) (walk : Walk) : Prop where
  rowsProcessed : walk.rowsProcessed = row
  columnIndex : walk.columnIndex = column
  matrixIndex : walk.matrixIndex = row * columns + column
  inside : ∀ access ∈ walk.accesses, access.inside

theorem start_standing :
    Standing columns 0 0 ⟨some 0, 0, 0, 0, blank (columns * processes), []⟩ where
  rowsProcessed := rfl
  columnIndex := rfl
  matrixIndex := by simp
  inside := by simp

variable (wanted : Nat) (short : wanted ≤ columns) (placed : rank < processes)
variable (room : wanted * columns ≤ receivingBuffer.length) (width : vectorCells.length = columns)
include room width

section Turn
variable (row column : Nat) (walk : Walk) (standing : Standing columns row column walk)
variable (small : row < wanted) (narrow : column < columns)
include standing small narrow

theorem standing_reads : ∀ access ∈ ([⟨.receivingBuffer, walk.matrixIndex, receivingBuffer.length⟩,
    ⟨.vector, walk.columnIndex, vectorCells.length⟩] : List Access), access.inside := by
  have here := row_inside columns wanted row column small narrow
  simp only [List.mem_cons, List.not_mem_nil, or_false, forall_eq_or_imp, forall_eq, Access.inside,
    standing.matrixIndex, standing.columnIndex, width]
  exact ⟨by omega, narrow⟩

theorem standing_within (more : column + 1 < columns) :
    Standing columns row (column + 1)
      (walkStep columns processes rank receivingBuffer vectorCells walk) := by
  have reads := standing_reads columns receivingBuffer vectorCells wanted room width row column walk
    standing small narrow
  have within : ¬ walk.columnIndex = columns - 1 := by
    rw [standing.columnIndex]
    omega
  simp only [walkStep, within, ↓reduceIte]
  constructor
  · exact standing.rowsProcessed
  · rw [standing.columnIndex]
  · rw [standing.matrixIndex, Nat.add_assoc]
  · intro access member
    rcases List.mem_append.mp member with old | new
    · exact standing.inside access old
    · exact reads access new

include short placed in
theorem standing_last (full : column + 1 = columns) :
    Standing columns (row + 1) 0
      (walkStep columns processes rank receivingBuffer vectorCells walk) := by
  have reads := standing_reads columns receivingBuffer vectorCells wanted room width row column walk
    standing small narrow
  have last : walk.columnIndex = columns - 1 := by
    rw [standing.columnIndex]
    omega
  simp only [walkStep, last, ↓reduceIte]
  rw [last] at reads
  constructor
  · rw [standing.rowsProcessed]
  · rfl
  · change walk.matrixIndex + 1 = (row + 1) * columns + 0
    rw [standing.matrixIndex, Nat.succ_mul]
    omega
  · intro access member
    simp only [List.append_assoc, List.mem_append] at member
    rcases member with old | read | written
    · exact standing.inside access old
    · exact reads access read
    · simp only [List.mem_cons, List.not_mem_nil, or_false, standing.rowsProcessed] at written
      rcases written with rfl | rfl
      · exact Nat.lt_of_lt_of_le small short
      · exact placed

end Turn

include short placed in
theorem walkRows_standing (turns row column : Nat) (walk : Walk) (within : row ≤ wanted)
    (narrow : column < columns) (standing : Standing columns row column walk) :
    ∀ access ∈ (walkRows columns processes rank receivingBuffer vectorCells wanted turns walk).accesses,
      access.inside := by
  induction turns generalizing row column walk with
  | zero => exact standing.inside
  | succ turns ih =>
      rw [walkRows]
      by_cases done : walk.rowsProcessed = wanted
      · rw [if_pos done]
        exact standing.inside
      · rw [if_neg done]
        have small : row < wanted := by
          rw [standing.rowsProcessed] at done
          omega
        rcases Nat.lt_or_eq_of_le (Nat.succ_le_of_lt narrow) with more | full
        · exact ih row (column + 1) _ within more (standing_within processes rank columns receivingBuffer
            vectorCells wanted room width row column walk standing small narrow more)
        · exact ih (row + 1) 0 _ small (by omega) (standing_last processes rank columns receivingBuffer
            vectorCells wanted short placed room width row column walk standing small narrow full)

end EE360P.MatrixWalks
