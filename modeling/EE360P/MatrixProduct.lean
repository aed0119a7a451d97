import Mathlib.Algebra.Group.Int.Defs
import Mathlib.Data.List.Basic
import EE360P.Collectives

/-! `matrix_mult.c` of project5: one process of it, cut at its MPI calls. A
memory cell is `none` as long as its content is indeterminate; an overflowing
`int` operation leaves it so. Accesses to the six buffers are recorded with the
size of the dimension they index; from one outside its buffer on, nothing is
known of the process. Counts, displacements and sizes are exact
integers. As in the MPI standard, a scattered or gathered piece goes out as by
a send and comes in as by a receive into a buffer that may be longer; a count of
zero sends nothing. -/

namespace EE360P.MatrixProduct
open Collectives

abbrev Cell := Option Int

inductive Buffer where
  | temporaryVector | matrix | vector | receivingBuffer | matrixComputation | resultantVector
  deriving DecidableEq, Repr

structure Access where
  buffer : Buffer
  index : Nat
  size : Nat
  deriving DecidableEq, Repr

def Access.inside (access : Access) : Prop := access.index < access.size

instance (access : Access) : Decidable access.inside := inferInstanceAs (Decidable (_ < _))

inductive Call where
  | bcast | scatterv | gatherv | barrier | finalize
  deriving DecidableEq, Repr

inductive Outcome where
  | leftEarly
  | trapped
  | undefined
  | finished (resultFile : Option (List Cell))
  deriving DecidableEq, Repr

abbrev Message := List (List Cell)

abbrev Rank := Process Call Message Access Outcome

/-- What `fscanf` reads from the files; `none` when a file does not open. -/
structure Files where
  matrixFile : Option (Int × List Int)
  vectorFile : Option (List Int)

/-- The next call of a process, after these accesses. -/
def enter (kind : Call) (marks : List Access) (sent : Message) (next : Message → Rank) : Rank :=
  if ∀ access ∈ marks, access.inside then .call kind marks sent next else .ended marks .undefined

/-- `MPI_Barrier` and `MPI_Finalize` return when everybody has called them. The other calls
have the root as their only source or their only goal. -/
def awaited : Call → Bool
  | .barrier | .finalize => true
  | .bcast | .scatterv | .gatherv => false

/-- The root is the first process. -/
def answer : Call → List Message → Nat → Message
  | .bcast, sent, _ => sent.headD []
  | .scatterv, sent, rank => [(sent.headD []).getD rank []]
  | .gatherv, sent, rank => if rank = 0 then sent.flatten else []
  | .barrier, _, _ => []
  | .finalize, _, _ => []

section Chunks

structure Chunks where
  remainder : Nat
  startingIndex : Nat
  chunkSizes : List Nat
  startingIndexOfChunks : List Nat
  receivedChunkSizes : List Nat
  receivedStartingIndexOfChunks : List Nat
  deriving DecidableEq, Repr

variable (rows columns processes : Nat)

def nextChunk (chunks : Chunks) : Chunks :=
  let size := rows / processes * columns + if 0 < chunks.remainder then columns else 0
  { remainder := chunks.remainder - 1
    startingIndex := chunks.startingIndex + size
    chunkSizes := chunks.chunkSizes ++ [size]
    startingIndexOfChunks := chunks.startingIndexOfChunks ++ [chunks.startingIndex]
    receivedChunkSizes := chunks.receivedChunkSizes ++ [size / columns]
    receivedStartingIndexOfChunks :=
      chunks.receivedStartingIndexOfChunks ++ [chunks.startingIndex / columns] }

def chunksFor (count : Nat) : Chunks :=
  (List.range count).foldl (fun chunks _ => nextChunk rows columns processes chunks)
    ⟨rows % processes, 0, [], [], [], []⟩

end Chunks

section Walk

def fits (n : Int) : Bool := decide (-2 ^ 31 ≤ n ∧ n < 2 ^ 31)

def load (memory : List Cell) (index : Nat) : Cell := memory.getD index none

/-- `value += left * right` on `int`s. -/
def multiplyAdd : Cell → Cell → Cell → Cell
  | some value, some left, some right =>
      if fits (left * right) && fits (value + left * right) then some (value + left * right) else none
  | _, _, _ => none

structure Walk where
  resultantVectorValue : Cell
  rowsProcessed : Nat
  columnIndex : Nat
  matrixIndex : Nat
  matrixComputation : List Cell
  accesses : List Access
  deriving DecidableEq, Repr

variable (columns processes rank : Nat) (receivingBuffer vector : List Cell)

/-- The body of the `while`. Row `i` of `matrix_computation` starts at `i * processes`. -/
def walkStep (walk : Walk) : Walk :=
  let value := multiplyAdd walk.resultantVectorValue (load receivingBuffer walk.matrixIndex)
    (load vector walk.columnIndex)
  let reads : List Access := [⟨.receivingBuffer, walk.matrixIndex, receivingBuffer.length⟩,
    ⟨.vector, walk.columnIndex, vector.length⟩]
  if walk.columnIndex = columns - 1 then
    { resultantVectorValue := some 0
      rowsProcessed := walk.rowsProcessed + 1
      columnIndex := 0
      matrixIndex := walk.matrixIndex + 1
      matrixComputation := walk.matrixComputation.set (walk.rowsProcessed * processes + rank) value
      accesses := walk.accesses ++ reads ++
        [⟨.matrixComputation, walk.rowsProcessed, columns⟩, ⟨.matrixComputation, rank, processes⟩] }
  else
    { walk with
      resultantVectorValue := value
      columnIndex := walk.columnIndex + 1
      matrixIndex := walk.matrixIndex + 1
      accesses := walk.accesses ++ reads }

/-- At most `turns` turns of the `while`. -/
def walkRows (rowsWanted : Nat) : Nat → Walk → Walk
  | 0, walk => walk
  | turns + 1, walk =>
      if walk.rowsProcessed = rowsWanted then walk
      else walkRows rowsWanted turns (walkStep columns processes rank receivingBuffer vector walk)

end Walk

section Main

def place (memory : List Cell) (start : Nat) (piece : List Cell) : List Cell :=
  piece.zipIdx.foldl (fun memory (cell, offset) => memory.set (start + offset) cell) memory

def blank (size : Nat) : List Cell := List.replicate size none

def touches (buffer : Buffer) (size start count : Nat) : List Access :=
  (List.range count).map fun offset => ⟨buffer, start + offset, size⟩

def farewell (marks : List Access) (resultFile : Option (List Cell)) : Rank :=
  enter .barrier marks [] fun _ => enter .finalize [] [] fun _ => .ended [] (.finished resultFile)

variable (processes rank : Nat) (files : Files) (rows columns : Nat)

def numbers : List Int := files.vectorFile.getD []

def entries : List Int := (files.matrixFile.map Prod.snd).getD []

/-- The root's `resultant_vector`, with every piece at its displacement. -/
def resultantVector (pieces : Message) : List Cell :=
  let chunks := chunksFor rows columns processes processes
  (chunks.receivedStartingIndexOfChunks.zip pieces).foldl
    (fun memory (start, piece) => place memory start piece) (blank columns)

def resultTouches : List Access :=
  let chunks := chunksFor rows columns processes processes
  (chunks.receivedStartingIndexOfChunks.zip chunks.receivedChunkSizes).flatMap
    (fun (start, size) => touches .resultantVector columns start size) ++
    touches .resultantVector columns 0 rows

/-- After `MPI_Gatherv`: the root puts the pieces in place and prints. -/
def report (pieces : Message) : Rank :=
  farewell (if rank = 0 then resultTouches processes rows columns else [])
    (if rank = 0 then
      some ((List.range rows).map (load (resultantVector processes rows columns pieces)))
    else none)

/-- `received_chunk_sizes[process_rank]` -/
def rowsWanted : Nat :=
  (chunksFor rows columns processes processes).receivedChunkSizes.getD rank 0

/-- The `while` from its start; each turn takes one number of the buffer. -/
def walked (receivingBuffer vector : List Cell) : Walk :=
  walkRows columns processes rank receivingBuffer vector (rowsWanted processes rank rows columns)
    (rowsWanted processes rank rows columns * columns)
    ⟨some 0, 0, 0, 0, blank (columns * processes), []⟩

/-- Column `process_rank` of `matrix_computation`, by a vector type of stride
`number_of_processes`. -/
def gatherPiece (receivingBuffer vector : List Cell) : List Cell :=
  (List.range (rowsWanted processes rank rows columns)).map fun row =>
    load (walked processes rank rows columns receivingBuffer vector).matrixComputation
      (rank + row * processes)

def computeTouches (receivingBuffer vector : List Cell) : List Access :=
  (walked processes rank rows columns receivingBuffer vector).accesses ++
    (List.range (rowsWanted processes rank rows columns)).flatMap fun row =>
      [⟨.matrixComputation, row, columns⟩, ⟨.matrixComputation, rank, processes⟩]

/-- After the vector has arrived. -/
def compute (receivingBuffer vector : List Cell) : Rank :=
  enter .gatherv (computeTouches processes rank rows columns receivingBuffer vector)
    [gatherPiece processes rank rows columns receivingBuffer vector]
    (report processes rank rows columns)

def matrix : List Cell := (List.range (rows * columns)).map fun i => (entries files)[i]?

def vector : List Cell := (List.range columns).map fun i => (numbers files)[i]?

def scatterPieces : Message :=
  let chunks := chunksFor rows columns processes processes
  (chunks.startingIndexOfChunks.zip chunks.chunkSizes).map fun (start, size) =>
    ((matrix files rows columns).drop start).take size

/-- What a process has in `receiving_buffer` after the scatter. -/
def received (piece : List Cell) : List Cell := place (blank (rows * columns)) 0 piece

/-- What the root touches to fill `vector` and `matrix` and to scatter. -/
def rootTouches : List Access :=
  let chunks := chunksFor rows columns processes processes
  touches .temporaryVector 1000 0 columns ++ touches .vector columns 0 columns ++
    touches .matrix (rows * columns) 0 (rows * columns) ++
    (chunks.startingIndexOfChunks.zip chunks.chunkSizes).flatMap fun (start, size) =>
      touches .matrix (rows * columns) start size

/-- The scattered numbers come in, and the broadcast goes through `vector`. -/
def arrivedTouches (piece : List Cell) : List Access :=
  touches .receivingBuffer (rows * columns) 0 piece.length ++ touches .vector columns 0 columns

/-- The part inside the rank guard, up to the broadcast of the vector. -/
def distribute : Rank :=
  enter .scatterv (if rank = 0 then rootTouches processes rows columns else [])
    (if rank = 0 then scatterPieces processes files rows columns else []) fun reply =>
      enter .bcast (arrivedTouches rows columns (reply.headD []))
        [if rank = 0 then vector files columns else blank columns] fun vectorReply =>
          compute processes rank rows columns
            (received rows columns (reply.headD [])) (vectorReply.headD [])

-- A size is always a determinate number.
def toldSize (message : Message) : Int := ((message.headD []).headD none).getD 0

/-- From the first broadcast on. -/
def sizes (marks : List Access) (matrixRowSize matrixColumnSize : Cell) : Rank :=
  enter .bcast marks [[matrixRowSize]] fun rowSize =>
    enter .bcast [] [[matrixColumnSize]] fun columnSize =>
      if (rank : Int) < toldSize rowSize then
        -- `chunk_sizes[process] / matrix_column_size`
        if toldSize columnSize = 0 then .ended [] .trapped
        else distribute processes rank files (toldSize rowSize).toNat (toldSize columnSize).toNat
      else farewell [] none

/-- `main`, after `MPI_Init`. -/
def main : Rank :=
  if rank = 0 then
    match files.matrixFile, files.vectorFile with
    | none, _ => .ended [] .leftEarly
    | some _, none => .ended [] .leftEarly
    | some (matrixRowSize, _), some numbers =>
        sizes processes rank files (touches .temporaryVector 1000 0 numbers.length)
          (some matrixRowSize) (some numbers.length)
  else sizes processes rank files [] none none

/-- All processes together; no path has more than seven calls. -/
def run : Played Call Message Access Outcome :=
  ⟨play awaited answer 7 ((List.range processes).map fun rank => .start (main processes rank files))⟩

end Main

end EE360P.MatrixProduct
