import EE360P.MatrixTraces

/-! Which shapes `matrix_mult.c` has room for. `temporary_vector` takes 1000
numbers, and `resultant_vector` and the rows of `matrix_computation` are
allocated by the columns of the matrix although they are filled by its rows. -/

namespace EE360P.MatrixBounds
open Collectives MatrixProduct MatrixTraces

/-- Every access of a run is inside its buffer exactly when the vector fits into
`temporary_vector` and there are not more rows than columns, whether or not every
process gets a row. -/
theorem buffers_respected (processes rows columns : Nat) (files : Files) (wide : 0 < columns)
    (positive : 0 < processes) (some : 0 < rows) (opened : Opened files rows columns) :
    (∀ access ∈ (run processes files).allMarks, access.inside) ↔ columns ≤ 1000 ∧ rows ≤ columns := by
  constructor
  · intro inside
    by_contra large
    have broken := run_overrun processes files columns positive rows opened (by omega)
    exact broken.1 inside
  · rintro ⟨small, room⟩
    exact run_inside processes files rows columns positive some room small opened

theorem buffers_respected_two_rows :
    (∀ access ∈ (run 2 ⟨some (2, [1, 2, 3, 4]), some [5, 6]⟩).allMarks, access.inside) ↔
      2 ≤ 1000 ∧ 2 ≤ 2 :=
  buffers_respected 2 2 2 ⟨some (2, [1, 2, 3, 4]), some [5, 6]⟩ (by decide) (by decide) (by decide)
    ⟨_, _, rfl, rfl, rfl⟩

-- Two rows of one column go past both result arrays of a lone process; three rows of one
-- column go past the root's result array when each of three processes out of four has one.
theorem buffers_overrun :
    (Opened ⟨some (2, [3, 4]), some [5]⟩ 2 1 ∧
      ¬ ∀ access ∈ (run 1 ⟨some (2, [3, 4]), some [5]⟩).allMarks, access.inside) ∧
    Opened ⟨some (3, [3, 4, 6]), some [5]⟩ 3 1 ∧
      ¬ ∀ access ∈ (run 4 ⟨some (3, [3, 4, 6]), some [5]⟩).allMarks, access.inside := by
  refine ⟨⟨⟨_, _, rfl, rfl, rfl⟩, fun inside => ?_⟩, ⟨_, _, rfl, rfl, rfl⟩, fun inside => ?_⟩
  · exact Nat.lt_irrefl 1 (inside ⟨.matrixComputation, 1, 1⟩ (by decide))
  · exact Nat.lt_irrefl 1 (inside ⟨.resultantVector, 1, 1⟩ (by decide))

end EE360P.MatrixBounds
