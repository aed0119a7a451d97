import Mathlib.Data.List.Induction
import EE360P.MatrixWalks

/-! The shares of the rows that `matrix_mult.c` deals out, and the buffer positions that
follow from them. With at most 1000 columns and at most as many rows as columns every
position is inside its buffer. -/

namespace EE360P.MatrixShares
open Collectives MatrixProduct MatrixWalks

section Shares
variable (rows processes : Nat)

def shareOf (rank : Nat) : Nat := rows / processes + if rank < rows % processes then 1 else 0

def firstRow (rank : Nat) : Nat := rank * (rows / processes) + min rank (rows % processes)

theorem firstRow_succ (rank : Nat) :
    firstRow rows processes (rank + 1) = firstRow rows processes rank + shareOf rows processes rank := by
  unfold firstRow shareOf
  rw [Nat.succ_mul]
  split <;> omega

theorem firstRow_all (positive : 0 < processes) : firstRow rows processes processes = rows := by
  have small := Nat.mod_lt rows positive
  unfold firstRow
  rw [Nat.min_eq_right (Nat.le_of_lt small)]
  exact Nat.div_add_mod rows processes

theorem firstRow_mono (low high : Nat) (le : low ≤ high) :
    firstRow rows processes low ≤ firstRow rows processes high := by
  unfold firstRow
  have scaled := Nat.mul_le_mul_right (rows / processes) le
  omega

theorem share_fits (rank : Nat) (inside : rank < processes) :
    firstRow rows processes rank + shareOf rows processes rank ≤ rows := by
  have next := firstRow_mono rows processes (rank + 1) processes inside
  rw [firstRow_all rows processes (by omega), firstRow_succ] at next
  exact next

variable (columns : Nat)

theorem share_room (rank : Nat) (inside : rank < processes) :
    firstRow rows processes rank * columns + shareOf rows processes rank * columns ≤ rows * columns := by
  rw [← Nat.add_mul]
  exact Nat.mul_le_mul_right columns (share_fits rows processes rank inside)

/-- What the loop over the processes computes. -/
theorem chunks_shares (wide : 0 < columns) (count : Nat) :
    chunksFor rows columns processes count =
      { remainder := rows % processes - count
        startingIndex := firstRow rows processes count * columns
        chunkSizes := (List.range count).map fun rank => shareOf rows processes rank * columns
        startingIndexOfChunks := (List.range count).map fun rank => firstRow rows processes rank * columns
        receivedChunkSizes := (List.range count).map (shareOf rows processes)
        receivedStartingIndexOfChunks := (List.range count).map (firstRow rows processes) } := by
  induction count with
  | zero => simp [chunksFor, firstRow]
  | succ count ih =>
      have size : rows / processes * columns + (if 0 < rows % processes - count then columns else 0) =
          shareOf rows processes count * columns := by
        unfold shareOf
        by_cases extra : count < rows % processes
        · rw [if_pos (by omega), if_pos extra, Nat.succ_mul]
        · rw [if_neg (by omega), if_neg extra, Nat.add_zero, Nat.add_zero]
      have step : chunksFor rows columns processes (count + 1) =
          nextChunk rows columns processes (chunksFor rows columns processes count) := by
        simp [chunksFor, List.range_succ]
      rw [step, ih, nextChunk]
      simp only [size, List.range_succ, List.map_append, List.map_cons, List.map_nil, firstRow_succ,
        Nat.add_mul, Nat.mul_div_cancel _ wide, Chunks.mk.injEq, and_true]
      omega

end Shares

section Memory

theorem load_set (memory : List Cell) (position index : Nat) (cell : Cell)
    (fit : position < memory.length) :
    load (memory.set position cell) index = if index = position then cell else load memory index := by
  unfold load
  by_cases same : index = position
  · subst same
    simp [List.getD_eq_getElem?_getD, fit]
  · simp [List.getD_eq_getElem?_getD, List.getElem?_set_ne (Ne.symm same), same]

theorem place_snoc (memory : List Cell) (start : Nat) (piece : List Cell) (last : Cell) :
    place memory start (piece ++ [last]) =
      (place memory start piece).set (start + piece.length) last := by
  simp [place, List.zipIdx_append]

theorem place_length (memory : List Cell) (start : Nat) (piece : List Cell) :
    (place memory start piece).length = memory.length := by
  induction piece using List.reverseRecOn with
  | nil => rfl
  | append_singleton piece last ih => rw [place_snoc, List.length_set, ih]

/-- A piece covers its own positions and leaves the others alone. -/
theorem load_place (memory : List Cell) (start : Nat) (piece : List Cell) (index : Nat)
    (fit : start + piece.length ≤ memory.length) :
    load (place memory start piece) index =
      if start ≤ index ∧ index < start + piece.length then load piece (index - start)
      else load memory index := by
  induction piece using List.reverseRecOn with
  | nil =>
      rw [if_neg (by simp)]
      rfl
  | append_singleton piece last ih =>
      rw [List.length_append, List.length_singleton] at fit ⊢
      rw [place_snoc, load_set _ _ _ _ (by rw [place_length]; omega), ih (by omega)]
      by_cases same : index = start + piece.length
      · subst same
        rw [if_pos rfl, if_pos (by omega)]
        simp [load]
      · rw [if_neg same]
        by_cases inside : start ≤ index ∧ index < start + piece.length
        · rw [if_pos inside, if_pos (by omega)]
          simp [load, List.getD_eq_getElem?_getD, List.getElem?_append_left
            (show index - start < piece.length by omega)]
        · rw [if_neg inside, if_neg (by omega)]

theorem touches_inside (buffer : Buffer) (size start count : Nat) (fit : start + count ≤ size) :
    ∀ access ∈ touches buffer size start count, access.inside := by
  intro access member
  obtain ⟨offset, small, rfl⟩ := List.mem_map.mp member
  have less := List.mem_range.mp small
  change start + offset < size
  omega

theorem touches_mem (buffer : Buffer) (size start count offset : Nat) (small : offset < count) :
    (⟨buffer, start + offset, size⟩ : Access) ∈ touches buffer size start count :=
  List.mem_map.mpr ⟨offset, List.mem_range.mpr small, rfl⟩

/-- The elements that a process sends from its column of `matrix_computation`. -/
theorem sentTouches_inside (processes rank columns wanted : Nat) (short : wanted ≤ columns)
    (placed : rank < processes) :
    ∀ access ∈ (List.range wanted).flatMap fun row =>
      ([⟨.matrixComputation, row, columns⟩, ⟨.matrixComputation, rank, processes⟩] : List Access),
      access.inside := by
  intro access member
  obtain ⟨row, small, read⟩ := List.mem_flatMap.mp member
  have less := List.mem_range.mp small
  simp only [List.mem_cons, List.not_mem_nil, or_false] at read
  rcases read with rfl | rfl
  · exact Nat.lt_of_lt_of_le less short
  · exact placed

end Memory

section Shared
variable (processes : Nat) (files : Files) (rows columns : Nat)

/-- The part of the matrix that a process gets. -/
def share (rank : Nat) : List Cell := (scatterPieces processes files rows columns).getD rank []

/-- The numbers of the vector file, as the root counts them. -/
def readTouches (rank : Nat) : List Access :=
  if rank = 0 then touches .temporaryVector 1000 0 columns else []

/-- What a process inside the rank guard accesses. -/
def touched (rank : Nat) : List Access :=
  (if rank = 0 then rootTouches processes rows columns else []) ++
    arrivedTouches rows columns (share processes files rows columns rank) ++
    computeTouches processes rank rows columns
      (received rows columns (share processes files rows columns rank)) (vector files columns) ++
    if rank = 0 then resultTouches processes rows columns else []

end Shared

section Reached
variable (processes rows columns : Nat) (files : Files)

theorem readTouches_inside (rank : Nat) (small : columns ≤ 1000) :
    ∀ access ∈ readTouches columns rank, access.inside := by
  unfold readTouches
  split
  · exact touches_inside _ _ _ _ (by omega)
  · simp

variable (wide : 0 < columns)
include wide

theorem rowsWanted_share (rank : Nat) (inside : rank < processes) :
    rowsWanted processes rank rows columns = shareOf rows processes rank := by
  simp [rowsWanted, chunks_shares rows processes columns wide processes, inside]

theorem share_slice (rank : Nat) (inside : rank < processes) :
    share processes files rows columns rank =
      ((matrix files rows columns).drop (firstRow rows processes rank * columns)).take
        (shareOf rows processes rank * columns) := by
  simp [share, scatterPieces, chunks_shares rows processes columns wide processes, List.zip_map',
    inside]

theorem share_length (rank : Nat) (inside : rank < processes) :
    (share processes files rows columns rank).length = shareOf rows processes rank * columns := by
  have room := share_room rows processes columns rank inside
  rw [share_slice processes rows columns files wide rank inside, List.length_take,
    List.length_drop, matrix, List.length_map, List.length_range]
  omega

/-- A process outside the rank guard takes nothing from the scatter and gives nothing to
the gather. -/
theorem share_idle (rank : Nat) (inside : rank < processes) (outside : rows ≤ rank) :
    share processes files rows columns rank = [] ∧ rowsWanted processes rank rows columns = 0 := by
  have few : rows < processes := by omega
  have none : shareOf rows processes rank = 0 := by
    rw [shareOf, Nat.div_eq_of_lt few, Nat.mod_eq_of_lt few, if_neg (by omega)]
  have length := share_length processes rows columns files wide rank inside
  rw [none, Nat.zero_mul] at length
  exact ⟨List.length_eq_zero_iff.mp length,
    (rowsWanted_share processes rows columns wide rank inside).trans none⟩

theorem rootTouches_inside (small : columns ≤ 1000) :
    ∀ access ∈ rootTouches processes rows columns, access.inside := by
  intro access member
  simp only [rootTouches, chunks_shares rows processes columns wide processes, List.zip_map',
    List.flatMap_map, List.mem_append, List.mem_flatMap, List.mem_range] at member
  rcases member with ((temporary | vector) | matrix) | ⟨rank, inside, scattered⟩
  · exact touches_inside _ _ _ _ (by omega) access temporary
  · exact touches_inside _ _ _ _ (by omega) access vector
  · exact touches_inside _ _ _ _ (by omega) access matrix
  · exact touches_inside _ _ _ _ (share_room rows processes columns rank inside) access scattered

theorem resultTouches_inside (room : rows ≤ columns) :
    ∀ access ∈ resultTouches processes rows columns, access.inside := by
  intro access member
  simp only [resultTouches, chunks_shares rows processes columns wide processes, List.zip_map',
    List.flatMap_map, List.mem_append, List.mem_flatMap, List.mem_range] at member
  rcases member with ⟨rank, inside, gathered⟩ | printed
  · have fits := share_fits rows processes rank inside
    exact touches_inside _ _ _ _ (by omega) access gathered
  · exact touches_inside _ _ _ _ (by omega) access printed

theorem computeTouches_inside (room : rows ≤ columns) (rank : Nat) (inside : rank < processes) :
    ∀ access ∈ computeTouches processes rank rows columns
      (received rows columns (share processes files rows columns rank)) (vector files columns),
      access.inside := by
  have fits := share_fits rows processes rank inside
  have filled := share_room rows processes columns rank inside
  have wanted := rowsWanted_share processes rows columns wide rank inside
  have short : shareOf rows processes rank ≤ columns := by omega
  intro access member
  rcases List.mem_append.mp member with walk | sent
  · rw [walked, wanted] at walk
    apply walkRows_standing processes rank columns _ _ _ short inside _ _ _ 0 0 _ (Nat.zero_le _) wide
      (start_standing processes columns) access walk
    · rw [received, place_length, blank, List.length_replicate]
      omega
    · simp [vector]
  · rw [wanted] at sent
    exact sentTouches_inside processes rank columns _ short inside access sent

theorem arrivedTouches_inside (rank : Nat) (inside : rank < processes) :
    ∀ access ∈ arrivedTouches rows columns (share processes files rows columns rank), access.inside := by
  have length := share_length processes rows columns files wide rank inside
  have room := share_room rows processes columns rank inside
  intro access member
  rcases List.mem_append.mp member with scattered | broadcast
  · exact touches_inside _ _ _ _ (by rw [length]; omega) access scattered
  · exact touches_inside _ _ _ _ (by omega) access broadcast

theorem touched_inside (small : columns ≤ 1000) (room : rows ≤ columns) (rank : Nat)
    (inside : rank < processes) :
    ∀ access ∈ touched processes files rows columns rank, access.inside := by
  intro access member
  simp only [touched, List.mem_append] at member
  rcases member with ((root | arrived) | computed) | result
  · split at root
    · exact rootTouches_inside processes rows columns wide small access root
    · cases root
  · exact arrivedTouches_inside processes rows columns files wide rank inside access arrived
  · exact computeTouches_inside processes rows columns files wide room rank inside access computed
  · split at result
    · exact resultTouches_inside processes rows columns wide room access result
    · cases result

end Reached

end EE360P.MatrixShares
