import EE360P.LinearTransfers
import EE360P.LoweredCollectives
import EE360P.MatrixResult
import EE360P.NodeBarrier

/-! `matrix_mult.c` on MPICH: its collective calls carried out by point-to-point messages
between processes that are placed on nodes in any way. `MPI_Finalize` passes none. With
fewer rows than processes the broadcast of the vector sends messages that nobody asks for:
a later call can meet them, and the rules here let such a send wait, which MPICH buffers.
Nothing is said of these runs here. -/

namespace EE360P.MatrixMessages
open ConfluentRuns PointToPoint MessageRules LoweredCollectives
open MatrixProduct NodeCollectives NodeBarrier LinearTransfers
open Collectives (Member)
open MatrixShares MatrixTraces MatrixResult
open BroadcastTree (process idxOf_process process_idxOf)

abbrev Party := PointToPoint.Process Tag Message Outcome

section Code
variable (node : Nat → Nat) (processes recvcount : Nat) (recvcounts : Nat → Nat) (me : Nat)

/-- `MPI_COMM_WORLD` -/
def world : List Nat := List.range processes

/-- The counts that a rank passes beside the data it sends: `recvcount` to `MPI_Scatterv`,
`recvcounts` to `MPI_Gatherv`, which sends one element of a vector type. -/
def implement (kind : Call) (sent : Message) (next : Message → Party) : Party :=
  match kind with
  | .bcast => bcastIntra node (world processes) me 0 (sent.headD []).length sent next
  | .scatterv =>
      scatterv (world processes) (.whole, .scatterv) 0 me [[]] (fun i => (sent.getD i []).length)
        (fun i => [sent.getD i []]) recvcount next
  | .gatherv =>
      gatherv (world processes) (.whole, .gatherv) 0 me [[]] recvcounts 1 sent fun pieces =>
        next pieces.flatten
  | .barrier => barrier node (world processes) me [] [[some 0]] (next [])
  | .finalize => next []

/-- The arguments of one call fit together. -/
def Agreed (kind : Call) (sent : List Message) : Prop :=
  match kind with
  | .bcast => ∀ message ∈ sent, message.headD [] ≠ []
  | .scatterv => recvcount ≠ 0 ∧ ∀ rank < processes, (sent.headD []).getD rank [] ≠ []
  | .gatherv => ∀ rank < processes, recvcounts rank ≠ 0
  | .barrier => True
  | .finalize => True

end Code

section Realized
variable (node : Nat → Nat) (processes recvcount : Nat) (recvcounts : Nat → Nat)

theorem world_idxOf (rank : Nat) (member : rank ∈ world processes) :
    (world processes).idxOf rank = rank := by
  have inside := List.mem_range.mp member
  have placed : process (world processes) rank = rank := by simp [process, world, inside]
  have ranked : (world processes).idxOf (process (world processes) rank) = rank :=
    idxOf_process List.nodup_range (by simpa [world] using inside)
  rwa [placed] at ranked

theorem world_root (positive : 0 < processes) : process (world processes) 0 = 0 := by
  simp [process, world, positive]

theorem realizes : Realizes answer processes (Agreed processes recvcount recvcounts)
    (implement node processes recvcount recvcounts) := by
  intro kind sent agreed next
  rcases Nat.eq_zero_or_pos processes with rfl | positive
  · exact leads_same fun i member => absurd member List.not_mem_nil
  have distinct : (world processes).Nodup := List.nodup_range
  have known : 0 < (world processes).length := by simpa [world] using positive
  have root := world_root processes positive
  have ranked := world_idxOf processes
  change Leads (world processes) _ _
  cases kind with
  | bcast =>
      refine leads_congr (fun _ _ => rfl) (fun rank _ => ?_) (bcastIntra_leads node distinct next sent
        0 known (fun rank => ((sent rank).headD []).length) fun rank member => ?_)
      · rw [root, bcast_answer processes positive]
      · have some := agreed (sent rank) (List.mem_map.mpr ⟨rank, member, rfl⟩)
        exact fun none => some (List.length_eq_zero_iff.mp none)
  | scatterv =>
      obtain ⟨some, pieces⟩ := agreed
      have first : ((List.range processes).map sent).headD [] = sent 0 :=
        bcast_answer processes positive sent 0
      rw [first] at pieces
      have full : ∀ rank ∈ world processes, ((sent 0).getD rank []).length ≠ 0 := fun rank member none =>
        pieces rank (List.mem_range.mp member) (List.length_eq_zero_iff.mp none)
      refine leads_congr (fun rank member => ?_) (fun rank member => ?_)
        (scatterv_leads distinct (.whole, .scatterv) 0 known [[]]
          (fun rank i => ((sent rank).getD i []).length) (fun rank i => [(sent rank).getD i []])
          (fun _ => recvcount) next fun rank member _ => ?_)
      · rw [ranked rank member]
        rfl
      · rw [scatter_answer processes positive, root, ranked rank member, if_pos (full rank member)]
      · rw [root, ranked rank member]
        exact ⟨fun _ => some, fun _ => full rank member⟩
  | gatherv =>
      refine leads_congr (fun rank member => ?_) (fun rank member => ?_)
        (gatherv_leads distinct (.whole, .gatherv) 0 known [[]] (fun _ => recvcounts) (fun _ => 1) sent
          (fun rank pieces => next rank pieces.flatten) fun rank member _ => ?_)
      · rw [ranked rank member]
        rfl
      · have pieces : ((world processes).map fun other =>
            if recvcounts ((world processes).idxOf other) = 0 then [[]] else sent other) =
            (List.range processes).map sent := by
          refine List.map_congr_left fun other among => ?_
          rw [ranked other among, if_neg (agreed other (List.mem_range.mp among))]
        simp only [ranked rank member, pieces, answer]
        split <;> rfl
      · rw [ranked rank member]
        exact ⟨fun _ => Nat.one_ne_zero, fun _ => agreed rank (List.mem_range.mp member)⟩
  | barrier =>
      exact placed_barrier_leads node distinct [] [[some 0]] fun rank => next rank []
  | finalize => exact leads_same fun _ _ => rfl

end Realized

section Product
variable (node : Nat → Nat) (processes rows columns : Nat) (files : Files)

def receivedCounts (rank : Nat) : Nat := rowsWanted processes rank rows columns

/-- Every process of the world at its `main`, no message under way. -/
def start : System Tag Message Outcome where
  process := fun me =>
    if me < processes then
      lower (implement node processes (rows * columns) (receivedCounts processes rows columns) me)
        (main processes me files)
    else .ended .leftEarly
  channel := quiet

/-- The sizes are told in two calls. -/
theorem exchanged_opened (positive : 0 < processes) (matrixRowSize : Int)
    (opened : Opened files matrixRowSize columns) (small : columns ≤ 1000) :
    exchanged awaited answer 7 ((List.range processes).map fun rank =>
        .start (main processes rank files)) =
      (.bcast, ((List.range processes).map fun rank : Nat =>
        [[if rank = 0 then some matrixRowSize else none]]).map some) ::
      (.bcast, ((List.range processes).map fun rank : Nat =>
        [[if rank = 0 then some (columns : Int) else none]]).map some) ::
      exchanged awaited answer 5 ((List.range processes).map fun rank =>
        ⟨[.bcast, .bcast], readTouches columns rank,
          guarded processes files matrixRowSize columns rank⟩) := by
  obtain ⟨entries, numbers, matrixOpen, vectorOpen, rfl⟩ := opened
  have read := fun rank => readTouches_inside numbers.length rank small
  simp only [Member.start, main_opened processes files matrixRowSize entries numbers matrixOpen vectorOpen,
    enter_inside _ _ _ _ (read _), enter_none]
  rw [exchanged_round awaited answer processes 6 _ _ _ _ _ _ positive]
  simp only [bcast_answer processes positive]
  rw [exchanged_round awaited answer processes 5 _ _ _ _ _ _ positive]
  simp only [bcast_answer processes positive, List.append_nil, List.nil_append, ↓reduceIte]
  rfl

/-- One call that every process is at. -/
theorem exchanged_inside (rounds : Nat) (kind : Call) (answered : Nat → List Call)
    (before marks : Nat → List Access) (sent : Nat → Message) (next : Nat → Message → Rank)
    (here after : Nat → Rank) (positive : 0 < processes)
    (calls : ∀ rank < processes, here rank = .call kind (marks rank) (sent rank) (next rank))
    (goes : ∀ rank < processes,
      next rank (answer kind ((List.range processes).map sent) rank) = after rank) :
    exchanged awaited answer (rounds + 1) ((List.range processes).map fun rank =>
        ⟨answered rank, before rank, here rank⟩) =
      (kind, ((List.range processes).map sent).map some) ::
        exchanged awaited answer rounds ((List.range processes).map fun rank =>
          ⟨answered rank ++ [kind], before rank ++ marks rank, after rank⟩) := by
  have shape : ((List.range processes).map fun rank =>
      (⟨answered rank, before rank, here rank⟩ : Member Call Message Access Outcome)) =
      (List.range processes).map fun rank =>
        ⟨answered rank, before rank, .call kind (marks rank) (sent rank) (next rank)⟩ :=
    List.map_congr_left fun rank member => by rw [calls rank (List.mem_range.mp member)]
  have onward : ((List.range processes).map fun rank =>
      (⟨answered rank ++ [kind], before rank ++ marks rank,
        next rank (answer kind ((List.range processes).map sent) rank)⟩ :
          Member Call Message Access Outcome)) = (List.range processes).map fun rank =>
        ⟨answered rank ++ [kind], before rank ++ marks rank, after rank⟩ :=
    List.map_congr_left fun rank member => by rw [goes rank (List.mem_range.mp member)]
  rw [shape, exchanged_round awaited answer processes rounds kind _ _ _ _ _ positive, onward]

variable (positive : 0 < processes) (enough : processes ≤ rows) (room : rows ≤ columns)
variable (small : columns ≤ 1000)
include positive enough room small

theorem exchanged_shared (answered : Nat → List Call) (before : Nat → List Access) :
    exchanged awaited answer 5 ((List.range processes).map fun rank =>
        ⟨answered rank, before rank, distribute processes rank files rows columns⟩) =
      [(.scatterv, ((List.range processes).map fun rank : Nat =>
          if rank = 0 then scatterPieces processes files rows columns else []).map some),
        (.bcast, ((List.range processes).map fun rank : Nat =>
          [if rank = 0 then vector files columns else blank columns]).map some),
        (.gatherv, ((List.range processes).map fun rank => [gatherPiece processes rank rows columns
          (received rows columns (share processes files rows columns rank))
          (vector files columns)]).map some),
        (.barrier, ((List.range processes).map fun _ => []).map some),
        (.finalize, ((List.range processes).map fun _ => []).map some)] := by
  have wide : 0 < columns := by omega
  refine (exchanged_inside processes 4 .scatterv _ _ _ _ _ _ (fun rank =>
    enter .bcast (arrivedTouches rows columns (share processes files rows columns rank))
      [if rank = 0 then vector files columns else blank columns] fun vectorReply =>
        compute processes rank rows columns
          (received rows columns (share processes files rows columns rank)) (vectorReply.headD []))
    positive (fun rank _ => enter_inside _ _ _ _
      (rootOnly_inside _ rank (rootTouches_inside processes rows columns wide small)))
    fun rank _ => ?_).trans (congrArg (List.cons _) ?_)
  · rw [scatter_answer processes positive, if_pos rfl]
    rfl
  refine (exchanged_inside processes 3 .bcast _ _ _ _ _ _ (fun rank =>
    compute processes rank rows columns
      (received rows columns (share processes files rows columns rank)) (vector files columns))
    positive (fun rank inside => enter_inside _ _ _ _
      (arrivedTouches_inside processes rows columns files wide rank inside))
    fun rank _ => ?_).trans (congrArg (List.cons _) ?_)
  · rw [bcast_answer processes positive, if_pos rfl]
    rfl
  refine (exchanged_inside processes 2 .gatherv _ _ _ _ _ _ (fun rank =>
    report processes rank rows columns (answer .gatherv ((List.range processes).map fun rank =>
      [gatherPiece processes rank rows columns
        (received rows columns (share processes files rows columns rank)) (vector files columns)]) rank))
    positive (fun rank inside => enter_inside _ _ _ _
      (computeTouches_inside processes rows columns files wide room rank inside))
    fun rank _ => rfl).trans (congrArg (List.cons _) ?_)
  simp only [report, farewell_inside _ _
    (rootOnly_inside _ _ (resultTouches_inside processes rows columns wide room))]
  rw [exchanged_round awaited answer processes 1 _ _ _ _ _ _ positive,
    exchanged_round awaited answer processes 0 _ _ _ _ _ _ positive]
  rfl

omit room small in
theorem share_positive (rank : Nat) : shareOf rows processes rank ≠ 0 :=
  Nat.ne_of_gt (Nat.add_pos_left (Nat.div_pos enough positive) _)

theorem main_agreed (opened : Opened files rows columns) : ∀ call ∈ exchanged awaited answer 7
      ((List.range processes).map fun rank => .start (main processes rank files)),
    ∃ sent : List Message, call.2 = sent.map some ∧
      Agreed processes (rows * columns) (receivedCounts processes rows columns) call.1 sent := by
  have wide : 0 < columns := by omega
  have guardedRows : ∀ rank < processes, guarded processes files rows columns rank =
      distribute processes rank files rows columns := by
    intro rank inside
    simp [guarded, Nat.ne_of_gt wide, show rank < rows by omega]
  have several : rows ≠ 0 := by omega
  have shape : ((List.range processes).map fun rank =>
      (⟨[.bcast, .bcast], readTouches columns rank, guarded processes files rows columns rank⟩ :
        Member Call Message Access Outcome)) = (List.range processes).map fun rank =>
          ⟨[.bcast, .bcast], readTouches columns rank, distribute processes rank files rows columns⟩ :=
    List.map_congr_left fun rank member => by rw [guardedRows rank (List.mem_range.mp member)]
  rw [exchanged_opened processes columns files positive rows opened small, shape,
    exchanged_shared processes rows columns files positive enough room small]
  have first : ((List.range processes).map fun rank : Nat =>
      if rank = 0 then scatterPieces processes files rows columns else []).headD [] =
      scatterPieces processes files rows columns :=
    bcast_answer processes positive _ 0
  simp only [List.forall_mem_cons]
  refine ⟨⟨_, rfl, ?_⟩, ⟨_, rfl, ?_⟩, ⟨_, rfl, ?_⟩, ⟨_, rfl, ?_⟩, ⟨_, rfl, ?_⟩, ⟨_, rfl, trivial⟩,
    ⟨_, rfl, trivial⟩, fun call member => absurd member List.not_mem_nil⟩ <;>
    simp only [Agreed, List.forall_mem_map, List.headD_cons, first]
  · exact fun _ _ => List.cons_ne_nil _ _
  · exact fun _ _ => List.cons_ne_nil _ _
  · refine ⟨Nat.mul_ne_zero several (Nat.ne_of_gt wide), fun rank inside none => ?_⟩
    have length := share_length processes rows columns files wide rank inside
    rw [share, none] at length
    exact Nat.mul_ne_zero (share_positive processes rows positive enough rank)
      (Nat.ne_of_gt wide) length.symm
  · intro rank _
    split
    · simpa [vector] using Nat.ne_of_gt wide
    · simpa [blank] using Nat.ne_of_gt wide
  · intro rank inside
    rw [receivedCounts, rowsWanted_share processes rows columns wide rank inside]
    exact share_positive processes rows positive enough rank

end Product

section Printed
variable {rows columns : Nat} (node : Nat → Nat) (processes : Nat)
variable (matrixEntries : Matrix (Fin rows) (Fin columns) Int) (vectorEntries : Fin columns → Int)

/-- What a process ends with: the root has printed the product. -/
def outcome (rank : Nat) : Outcome :=
  .finished (if rank = 0 then
    some (List.ofFn fun row => some (matrixEntries.mulVec vectorEntries row)) else none)

theorem rows_entries : ((List.range rows).map fun row =>
      some (partialProduct (entryAt matrixEntries) (factorAt vectorEntries) row columns)) =
    List.ofFn fun row => some (matrixEntries.mulVec vectorEntries row) := by
  rw [← List.map_coe_finRange_eq_range, List.map_map, List.ofFn_eq_map]
  exact List.map_congr_left fun row _ => congrArg some (product_entries matrixEntries vectorEntries row)

variable (positive : 0 < processes) (enough : processes ≤ rows) (room : rows ≤ columns)
variable (small : columns ≤ 1000) (fitting : NoOverflow matrixEntries vectorEntries)
include positive enough room small fitting

theorem messages_lead_product : Leads (List.range processes)
    (fun rank => lower
      (implement node processes (rows * columns) (receivedCounts processes rows columns) rank)
      (main processes rank (filesOf matrixEntries vectorEntries)))
    fun rank => .ended (outcome matrixEntries vectorEntries rank) := by
  have given := filesOf_given processes matrixEntries vectorEntries positive enough room small fitting
  have opened : Opened (filesOf matrixEntries vectorEntries) rows columns :=
    ⟨_, _, rfl, rfl, List.length_ofFn⟩
  have complete := (run_products processes rows columns _ _ _ given opened).1
  rw [rows_entries, Collectives.Played.processes, List.map_map] at complete
  exact lowered_leads awaited answer processes _ _
    (realizes node processes (rows * columns) (receivedCounts processes rows columns)) 7
    (fun rank => .start (main processes rank (filesOf matrixEntries vectorEntries))) _
    (main_agreed processes rows columns _ positive enough room small opened) complete

/-- However the messages interleave, wherever the processes are placed and whichever
messages are buffered, the root prints the product and every process ends. -/
theorem messages_print_product : Settles (List.range processes)
    (start node processes rows columns (filesOf matrixEntries vectorEntries))
    (outcome matrixEntries vectorEntries) := by
  refine leads_settles (messages_lead_product node processes matrixEntries vectorEntries positive
    enough room small fitting) _ rfl (fun rank member => ?_) (fun rank apart => ?_)
  · exact if_pos (List.mem_range.mp member)
  · exact ⟨.leftEarly, if_neg fun inside => apart (List.mem_range.mpr inside)⟩

end Printed

theorem messages_print_product_three_rows :
    let matrixEntries : Matrix (Fin 3) (Fin 3) Int := fun row column => 3 * row + column + 1
    let vectorEntries : Fin 3 → Int := fun column => 1 - column
    Settles (List.range 3) (start (fun i => i / 2) 3 3 3 (filesOf matrixEntries vectorEntries))
      (outcome matrixEntries vectorEntries) := by
  apply messages_print_product (fun i => i / 2) 3 _ _ (by decide) (by decide) (by decide) (by decide)
  unfold NoOverflow
  decide

end EE360P.MatrixMessages
