import EE360P.BroadcastTree
import EE360P.MemoryBlocks

/-! The broadcasts of long messages in `coll/bcast.c`: `scatter_for_bcast` deals the blocks
of the root's buffer out along the binomial tree, and an allgather, by a ring or by
recursive doubling, brings all blocks to everybody. The buffer is contiguous; sizes and
offsets are exact, as long as the `int`s hold them, and 0 where the code clips a negative
one. -/

namespace EE360P.ScatteredBroadcast
open PointToPoint MessageRules MemoryBlocks
open BroadcastTree

variable {Tag Byte Result : Type}

abbrev Party (Tag Byte Result : Type) := Process Tag (List Byte) Result

/-- What a process keeps: its buffer, and whether an error was recorded. -/
structure Local (Byte : Type) where
  tmpBuf : Nat → Byte
  errflag : Bool

/-- `MPIC_Recv` into the buffer, and `curr_size` after it. A message longer than what was
asked for is an error. -/
def accept (offset recvSize : Nat) (here : Local Byte) (received : List Byte) : Local Byte × Nat :=
  if received.length ≤ recvSize then
    (⟨store here.tmpBuf offset received, here.errflag⟩, received.length)
  else (⟨store here.tmpBuf offset (received.take recvSize), true⟩, 0)

section Code
variable (comm : List Nat) (tag : Tag) (root rank nbytes : Nat)

/-- `scatter_size`, by ceiling division -/
def scatterSize : Nat := (nbytes + comm.length - 1) / comm.length

/-- The second loop of `scatter_for_bcast`, for the masks below this bit. -/
def scattering (next : Local Byte → Party Tag Byte Result) (here : Local Byte) :
    Nat → Nat → Party Tag Byte Result
  | 0, _ => next here
  | bit + 1, currSize =>
      let sendSize := currSize - scatterSize comm nbytes * 2 ^ bit
      if relativeRank comm root rank + 2 ^ bit < comm.length ∧ 0 < sendSize then
        send (process comm (dst comm rank bit)) tag
          (load here.tmpBuf (scatterSize comm nbytes * (relativeRank comm root rank + 2 ^ bit)) sendSize)
          (scattering next here bit (currSize - sendSize))
      else scattering next here bit currSize

/-- The first loop of `scatter_for_bcast`, from this mask on. -/
def collecting (next : Local Byte → Party Tag Byte Result) (here : Local Byte) (bit : Nat) :
    Party Tag Byte Result :=
  if 2 ^ bit < comm.length then
    if relativeRank comm root rank &&& 2 ^ bit ≠ 0 then
      let recvSize := nbytes - relativeRank comm root rank * scatterSize comm nbytes
      if recvSize = 0 then scattering comm tag root rank nbytes next here bit 0
      else recv (process comm (src comm rank bit)) tag fun received =>
        let (there, currSize) :=
          accept (relativeRank comm root rank * scatterSize comm nbytes) recvSize here received
        scattering comm tag root rank nbytes next there bit currSize
    else collecting next here (bit + 1)
  else scattering comm tag root rank nbytes next here bit (if rank = root then nbytes else 0)
  termination_by comm.length - 2 ^ bit
  decreasing_by
    have larger : 2 ^ bit < 2 ^ (bit + 1) := Nat.pow_lt_pow_succ Nat.one_lt_two
    omega

def scatterForBcast (next : Local Byte → Party Tag Byte Result) (here : Local Byte) :
    Party Tag Byte Result :=
  collecting comm tag root rank nbytes next here 0

/-- The check that as much was received as was expected. -/
def checkSize (next : Local Byte → Party Tag Byte Result) (here : Local Byte) (currSize : Nat) :
    Party Tag Byte Result :=
  next ⟨here.tmpBuf, here.errflag || currSize != nbytes⟩

/-- The relative rank of a process, as the ring computes it. -/
def relativeOf (j : Nat) : Nat := (j + comm.length - root) % comm.length

/-- The loop of the ring, with this many rounds left. -/
def ringing (next : Local Byte → Nat → Party Tag Byte Result) :
    Nat → Nat → Nat → Local Byte → Nat → Party Tag Byte Result
  | 0, _, _, here, currSize => next here currSize
  | rounds + 1, j, jnext, here, currSize =>
      let relJ := relativeOf comm root j
      let relJnext := relativeOf comm root jnext
      let leftCount := min (scatterSize comm nbytes) (nbytes - relJnext * scatterSize comm nbytes)
      let rightCount := min (scatterSize comm nbytes) (nbytes - relJ * scatterSize comm nbytes)
      sendrecv (process comm ((rank + 1) % comm.length)) tag
        (load here.tmpBuf (relJ * scatterSize comm nbytes) rightCount)
        (process comm ((comm.length + rank - 1) % comm.length)) fun received =>
          let (there, recvdSize) := accept (relJnext * scatterSize comm nbytes) leftCount here received
          ringing next rounds jnext ((comm.length + jnext - 1) % comm.length) there (currSize + recvdSize)

def scatterRingAllgather (next : Local Byte → Party Tag Byte Result) (here : Local Byte) :
    Party Tag Byte Result :=
  if comm.length = 1 ∨ nbytes = 0 then next here
  else scatterForBcast comm tag root rank nbytes (fun scattered =>
    ringing comm tag root rank nbytes (checkSize nbytes next) (comm.length - 1) rank
      ((comm.length + rank - 1) % comm.length) scattered
      (min (scatterSize comm nbytes) (nbytes - relativeOf comm root rank * scatterSize comm nbytes))) here

/-- The loop of recursive doubling, from this mask on. It is only called for powers of two;
the branch for other sizes, which the code marks as never executed, is left out. -/
def doubling (next : Local Byte → Nat → Party Tag Byte Result) (here : Local Byte)
    (currSize bit : Nat) : Party Tag Byte Result :=
  if 2 ^ bit < comm.length then
    let relativeDst := relativeRank comm root rank ^^^ 2 ^ bit
    let dst := process comm ((relativeDst + root) % comm.length)
    let sendOffset := relativeRank comm root rank >>> bit <<< bit * scatterSize comm nbytes
    let recvOffset := relativeDst >>> bit <<< bit * scatterSize comm nbytes
    if relativeDst < comm.length then
      sendrecv dst tag (load here.tmpBuf sendOffset currSize) dst fun received =>
        let (there, recvSize) := accept recvOffset (nbytes - recvOffset) here received
        doubling next there (currSize + recvSize) (bit + 1)
    else doubling next here currSize (bit + 1)
  else next here currSize
  termination_by comm.length - 2 ^ bit
  decreasing_by
    all_goals
      have larger : 2 ^ bit < 2 ^ (bit + 1) := Nat.pow_lt_pow_succ Nat.one_lt_two
      omega

def scatterDoublingAllgather (next : Local Byte → Party Tag Byte Result) (here : Local Byte) :
    Party Tag Byte Result :=
  if comm.length = 1 ∨ nbytes = 0 then next here
  else scatterForBcast comm tag root rank nbytes (fun scattered =>
    doubling comm tag root rank nbytes (checkSize nbytes next) scattered
      (min (scatterSize comm nbytes)
        (nbytes - relativeRank comm root rank * scatterSize comm nbytes)) 0) here

end Code

section Sizes
variable (comm : List Nat) (nbytes : Nat)

theorem blocks_cover (known : 0 < comm.length) : nbytes ≤ comm.length * scatterSize comm nbytes := by
  have whole := Nat.div_add_mod (nbytes + comm.length - 1) comm.length
  have below := Nat.mod_lt (nbytes + comm.length - 1) known
  unfold scatterSize
  omega

/-- Where the size and the number of processes fit an `int` together, so do `scatter_size` and the
offsets of all blocks. -/
theorem offsets_fit (known : 0 < comm.length) (fits : nbytes + comm.length ≤ 2 ^ 31) :
    scatterSize comm nbytes < 2 ^ 31 ∧ ∀ block < comm.length, block * scatterSize comm nbytes < 2 ^ 31 := by
  have whole : comm.length * scatterSize comm nbytes ≤ nbytes + comm.length - 1 := Nat.mul_div_le _ _
  have single : 1 * scatterSize comm nbytes ≤ comm.length * scatterSize comm nbytes :=
    Nat.mul_le_mul_right _ known
  refine ⟨by omega, fun block inside => ?_⟩
  have part := Nat.mul_le_mul_right (scatterSize comm nbytes) (Nat.le_of_lt inside)
  omega

theorem scatterSize_positive (known : 0 < comm.length) (some : 0 < nbytes) :
    0 < scatterSize comm nbytes :=
  Nat.div_pos (by omega) known

/-- How many bytes there are in the blocks of a subtree of the binomial tree. -/
def part (level rank : Nat) : Nat :=
  cut (scatterSize comm nbytes) nbytes (rank + 2 ^ level) - cut (scatterSize comm nbytes) nbytes rank

theorem cut_add (rank level : Nat) : cut (scatterSize comm nbytes) nbytes (rank + 2 ^ level) =
    min nbytes (rank * scatterSize comm nbytes + scatterSize comm nbytes * 2 ^ level) := by
  rw [cut, Nat.add_mul, Nat.mul_comm (2 ^ level)]

/-- The two halves of a subtree: what is sent on, and what is kept. -/
theorem part_halves (level rank : Nat) :
    part comm nbytes (level + 1) rank - scatterSize comm nbytes * 2 ^ level =
        part comm nbytes level (rank + 2 ^ level) ∧
      part comm nbytes (level + 1) rank - part comm nbytes level (rank + 2 ^ level) =
        part comm nbytes level rank := by
  have double : scatterSize comm nbytes * 2 ^ (level + 1) =
      scatterSize comm nbytes * 2 ^ level + scatterSize comm nbytes * 2 ^ level := by
    rw [Nat.pow_succ, ← Nat.mul_assoc, Nat.mul_two]
  unfold part
  rw [cut_add, cut_add, cut_add, Nat.add_mul, Nat.mul_comm (2 ^ level), double]
  unfold cut
  omega

theorem part_upper (level rank : Nat) :
    part comm nbytes level (rank + 2 ^ level) ≤ part comm nbytes (level + 1) rank := by
  rw [← (part_halves comm nbytes level rank).1]
  exact Nat.sub_le _ _

/-- The upper half is beyond the last block. -/
theorem part_last (level rank : Nat) (known : 0 < comm.length) (beyond : comm.length ≤ rank + 2 ^ level) :
    part comm nbytes (level + 1) rank = part comm nbytes level rank := by
  have covered := blocks_cover comm nbytes known
  have near := Nat.mul_le_mul_right (scatterSize comm nbytes) beyond
  have far : rank + 2 ^ level ≤ rank + 2 ^ (level + 1) :=
    Nat.add_le_add_left (Nat.pow_le_pow_right (by decide) (Nat.le_succ level)) rank
  have further := Nat.mul_le_mul_right (scatterSize comm nbytes) far
  unfold part cut
  omega

theorem part_within (level rank : Nat) :
    part comm nbytes level rank ≤ nbytes - rank * scatterSize comm nbytes := by
  unfold part cut
  omega

theorem part_empty (level rank : Nat) (known : 0 < comm.length) (some : 0 < nbytes) :
    part comm nbytes level rank = 0 ↔ nbytes - rank * scatterSize comm nbytes = 0 := by
  have positive := Nat.mul_pos (scatterSize_positive comm nbytes known some) (mask_positive level)
  unfold part
  rw [cut_add, cut]
  omega

theorem part_whole (level : Nat) (known : 0 < comm.length) (wide : comm.length ≤ 2 ^ level) :
    part comm nbytes level 0 = nbytes := by
  have covered := blocks_cover comm nbytes known
  have wider := Nat.mul_le_mul_right (scatterSize comm nbytes) wide
  unfold part cut
  rw [Nat.zero_add, Nat.zero_mul]
  omega

theorem part_single (rank : Nat) : part comm nbytes 0 rank =
    min (scatterSize comm nbytes) (nbytes - rank * scatterSize comm nbytes) := by
  unfold part
  rw [cut_add, pow_zero, Nat.mul_one, cut]
  omega

theorem accept_fitting (offset recvSize : Nat) (here : Local Byte) (received : List Byte)
    (fits : received.length ≤ recvSize) : accept offset recvSize here received =
      (⟨store here.tmpBuf offset received, here.errflag⟩, received.length) := if_pos fits

/-- No error so far, the original's bytes in these blocks, and the former ones behind them all. -/
structure Holding (original former : Nat → Byte) (blocks : Finset Nat) (here : Local Byte) : Prop where
  clean : here.errflag = false
  blocks : Holds (scatterSize comm nbytes) nbytes original former here.tmpBuf blocks

variable {comm nbytes}

/-- Consecutive blocks that are received from a process that holds them. -/
theorem accept_holding (known : 0 < comm.length) (some : 0 < nbytes)
    {original former other : Nat → Byte} {blocks more : Finset Nat} {low high recvSize : Nat}
    {here there : Local Byte} (ordered : low ≤ high)
    (mine : Holding comm nbytes original former blocks here)
    (theirs : Holding comm nbytes original other more there) (inside : Finset.Ico low high ⊆ more)
    (fits : cut (scatterSize comm nbytes) nbytes high - cut (scatterSize comm nbytes) nbytes low ≤
      recvSize) :
    Holding comm nbytes original former (blocks ∪ Finset.Ico low high)
      (accept (low * scatterSize comm nbytes) recvSize here
        (load there.tmpBuf (low * scatterSize comm nbytes)
          (cut (scatterSize comm nbytes) nbytes high - cut (scatterSize comm nbytes) nbytes low))).1 := by
  rw [accept_fitting _ _ _ _ (by rwa [load_length])]
  exact ⟨mine.clean, holds_copied (scatterSize_positive comm nbytes known some) ordered mine.blocks
    (holds_less inside theirs.blocks)⟩

theorem holding_less {original former : Nat → Byte} {blocks more : Finset Nat} {here : Local Byte}
    (inside : more ⊆ blocks) (holding : Holding comm nbytes original former blocks here) :
    Holding comm nbytes original former more here :=
  ⟨holding.clean, holds_less inside holding.blocks⟩

end Sizes

/-! Level by level, as in the binomial tree: at a level, the processes whose relative rank
is a multiple of its mask hold the blocks of their subtree, and the others wait. -/
section Scatter
variable (comm : List Nat) (tag : Tag) (root nbytes : Nat)
variable (initial held : Nat → Local Byte) (next : Nat → Local Byte → Party Tag Byte Result)

theorem collecting_climbs (rank : Nat) (here : Local Byte) (after : Local Byte → Party Tag Byte Result)
    (level : Nat) (multiple : 2 ^ level ∣ relativeRank comm root rank)
    (short : ∀ low < level, 2 ^ low < comm.length) :
    collecting comm tag root rank nbytes after here 0 =
      collecting comm tag root rank nbytes after here level := by
  induction level with
  | zero => rfl
  | succ level ih =>
      have lower := (pow_dvd_pow 2 (Nat.le_succ level)).trans multiple
      rw [ih lower fun low below => short low (Nat.lt_succ_of_lt below), collecting,
        if_pos (short level (Nat.lt_succ_self level)),
        if_neg (masked_of_dvd multiple (Nat.lt_succ_self level))]

def staged (level i : Nat) : Party Tag Byte Result :=
  if 2 ^ level ∣ relative comm root i then
    scattering comm tag root (comm.idxOf i) nbytes (next i) (held i) level
      (part comm nbytes level (relative comm root i))
  else collecting comm tag root (comm.idxOf i) nbytes (next i) (initial i) 0

/-- What the holder of a subtree sends to its other half. -/
def half (level i : Nat) : List Byte :=
  load (held i).tmpBuf (scatterSize comm nbytes * (relative comm root i + 2 ^ level))
    (part comm nbytes level (relative comm root i + 2 ^ level))

/-- What the processes hold after a level. -/
def dealt (level i : Nat) : Local Byte :=
  if 2 ^ level ∣ relative comm root i ∧ ¬2 ^ (level + 1) ∣ relative comm root i then
    (accept (relative comm root i * scatterSize comm nbytes)
      (nbytes - relative comm root i * scatterSize comm nbytes) (initial i)
      (half comm root nbytes held level (source comm level i))).1
  else held i

/-- The blocks of the processes below it in the tree, before the mask of this bit. -/
def subtree (level i : Nat) : Finset Nat :=
  Finset.Ico (relative comm root i) (relative comm root i + 2 ^ level)

/-- What a process goes on with when it gets its blocks. -/
def passing (level i : Nat) (received : List Byte) : Party Tag Byte Result :=
  let (there, currSize) := accept (relative comm root i * scatterSize comm nbytes)
    (nbytes - relative comm root i * scatterSize comm nbytes) (initial i) received
  scattering comm tag root (comm.idxOf i) nbytes (next i) there level currSize

/-- A process whose relative rank has this lowest bit asks for its blocks, if it has any. -/
theorem collecting_lowest (level i : Nat) (multiple : 2 ^ level ∣ relative comm root i)
    (lowest : ¬2 ^ (level + 1) ∣ relative comm root i) (short : ∀ low ≤ level, 2 ^ low < comm.length) :
    collecting comm tag root (comm.idxOf i) nbytes (next i) (initial i) 0 =
      if nbytes - relative comm root i * scatterSize comm nbytes = 0 then
        scattering comm tag root (comm.idxOf i) nbytes (next i) (initial i) level 0
      else recv (source comm level i) tag (passing comm tag root nbytes initial next level i) := by
  rw [collecting_climbs comm tag root nbytes _ _ _ level multiple
    fun low below => short low (Nat.le_of_lt below), collecting, if_pos (short level (Nat.le_refl level))]
  exact if_pos (masked_of_lowest multiple lowest)

variable {comm root nbytes}
variable (distinct : comm.Nodup) (known : root < comm.length) (some : 0 < nbytes)
include distinct known

/-- The half that a process gets starts where its own blocks do. -/
theorem half_source (level i : Nat) (own : i ∈ comm) (short : 2 ^ level < comm.length)
    (multiple : 2 ^ level ∣ relative comm root i) (lowest : ¬2 ^ (level + 1) ∣ relative comm root i) :
    half comm root nbytes held level (source comm level i) =
      load (held (source comm level i)).tmpBuf (relative comm root i * scatterSize comm nbytes)
        (part comm nbytes level (relative comm root i)) := by
  have nearer := relative_source distinct known level i own short (lowest_positive multiple lowest)
  rw [half, nearer, Nat.mul_comm]

include some

theorem dealt_holding (original : Nat → Byte) (level : Nat) (short : 2 ^ level < comm.length)
    (clean : ∀ i ∈ comm, (initial i).errflag = false)
    (holding : ∀ i ∈ comm, 2 ^ (level + 1) ∣ relative comm root i →
      Holding comm nbytes original (initial i).tmpBuf (subtree comm root (level + 1) i) (held i)) :
    ∀ i ∈ comm, 2 ^ level ∣ relative comm root i → Holding comm nbytes original (initial i).tmpBuf
      (subtree comm root level i) (dealt comm root nbytes initial held level i) := by
  intro i own multiple
  by_cases higher : 2 ^ (level + 1) ∣ relative comm root i
  · rw [dealt, if_neg fun both => both.2 higher]
    refine holding_less (Finset.Ico_subset_Ico_right ?_) (holding i own higher)
    exact Nat.add_le_add_left (Nat.pow_le_pow_right (by decide) (Nat.le_succ level)) _
  · have nearer := relative_source distinct known level i own short (lowest_positive multiple higher)
    have there : source comm level i ∈ comm :=
      process_mem (src_lt (List.idxOf_lt_length_of_mem own) short)
    have nothing : Holding comm nbytes original (initial i).tmpBuf ∅ (initial i) :=
      ⟨clean i own, fun _ _ none => absurd none (Finset.notMem_empty _), fun _ _ => rfl⟩
    have inside : subtree comm root level i ⊆ subtree comm root (level + 1) (source comm level i) := by
      refine Finset.Ico_subset_Ico (Nat.le.intro nearer) ?_
      rw [Nat.pow_succ]
      omega
    rw [dealt, if_pos ⟨multiple, higher⟩,
      half_source held distinct known level i own short multiple higher]
    have received := accept_holding (Nat.zero_lt_of_lt known) some (Nat.le_add_right _ (2 ^ level))
      nothing (holding _ there (lowest_below multiple higher nearer)) inside
      (part_within comm nbytes level (relative comm root i))
    rwa [Finset.empty_union] at received

variable [DecidableEq Tag]

/-- A level passes on every half that is not empty. -/
theorem level_scatters (level : Nat) (short : ∀ low ≤ level, 2 ^ low < comm.length) : Leads comm
    (staged comm tag root nbytes initial held next (level + 1))
    (staged comm tag root nbytes initial (dealt comm root nbytes initial held level) next level) := by
  have wide := Nat.zero_lt_of_lt known
  have low := short level (Nat.le_refl level)
  let wanted : Nat → Bool := fun i => decide (part comm nbytes level (relative comm root i) ≠ 0)
  refine messages_lead tag (half comm root nbytes held level)
    (paired_filter (level_paired distinct known level low) wanted) ?_ ?_ ?_ ?_
  · intro i member _
    obtain ⟨sends, filled⟩ := List.mem_filter.mp member
    obtain ⟨own, multiple, more⟩ := (mem_senders level i).mp sends
    have lower := (pow_dvd_pow 2 (Nat.le_succ level)).trans multiple
    obtain ⟨sent, kept⟩ := part_halves comm nbytes level (relative comm root i)
    have positive := Nat.pos_of_ne_zero (of_decide_eq_true filled)
    rw [relative_dest distinct known level i own more] at positive
    simp only [staged, if_pos multiple, if_pos lower, scattering, sent, kept, dealt,
      if_neg fun both : 2 ^ level ∣ relative comm root i ∧ ¬2 ^ (level + 1) ∣ relative comm root i =>
        both.2 multiple]
    exact if_pos ⟨more, positive⟩
  · intro i member _
    obtain ⟨receives, filled⟩ := List.mem_filter.mp member
    obtain ⟨own, multiple, lowest⟩ := (mem_receivers level i).mp receives
    have fits : (half comm root nbytes held level (source comm level i)).length ≤
        nbytes - relative comm root i * scatterSize comm nbytes := by
      rw [half_source held distinct known level i own low multiple lowest, load_length]
      exact part_within comm nbytes level _
    have asked : ¬nbytes - relative comm root i * scatterSize comm nbytes = 0 := fun none =>
      of_decide_eq_true filled ((part_empty comm nbytes level _ wide some).mpr none)
    refine ⟨passing comm tag root nbytes initial next level i, ?_, ?_⟩
    · rw [staged, if_neg lowest, collecting_lowest comm tag root nbytes initial next level i multiple
        lowest short, if_neg asked]
    · rw [staged, if_pos multiple, dealt, if_pos ⟨multiple, lowest⟩, passing, accept_fitting _ _ _ _ fits,
        half_source held distinct known level i own low multiple lowest, load_length]
  · intro i sends receives
    exact absurd ((mem_senders level i).mp (List.mem_of_mem_filter sends)).2.1
      ((mem_receivers level i).mp (List.mem_of_mem_filter receives)).2.2
  · intro i own silent deaf
    by_cases multiple : 2 ^ (level + 1) ∣ relative comm root i
    · have lower := (pow_dvd_pow 2 (Nat.le_succ level)).trans multiple
      obtain ⟨sent, kept⟩ := part_halves comm nbytes level (relative comm root i)
      have idle : ¬(relative comm root i + 2 ^ level < comm.length ∧
          0 < part comm nbytes level (relative comm root i + 2 ^ level)) := fun ⟨more, filled⟩ => by
        refine silent (List.mem_filter.mpr ⟨(mem_senders level i).mpr ⟨own, multiple, more⟩, ?_⟩)
        rw [← relative_dest distinct known level i own more] at filled
        exact decide_eq_true filled.ne'
      have same : part comm nbytes (level + 1) (relative comm root i) =
          part comm nbytes level (relative comm root i) := by
        by_cases more : relative comm root i + 2 ^ level < comm.length
        · have empty := Nat.eq_zero_of_not_pos fun filled => idle ⟨more, filled⟩
          rwa [empty, Nat.sub_zero] at kept
        · exact part_last comm nbytes level _ wide (Nat.not_lt.mp more)
      simp only [staged, if_pos multiple, if_pos lower, scattering, sent, dealt,
        if_neg fun both : 2 ^ level ∣ relative comm root i ∧ ¬2 ^ (level + 1) ∣ relative comm root i =>
          both.2 multiple]
      rw [← same]
      exact (if_neg idle).symm
    · by_cases lower : 2 ^ level ∣ relative comm root i
      · have empty : part comm nbytes level (relative comm root i) = 0 := by
          by_contra filled
          exact deaf (List.mem_filter.mpr
            ⟨(mem_receivers level i).mpr ⟨own, lower, multiple⟩, decide_eq_true filled⟩)
        have none := (part_empty comm nbytes level _ wide some).mp empty
        have received : dealt comm root nbytes initial held level i = initial i := by
          rw [dealt, if_pos ⟨lower, multiple⟩,
            half_source held distinct known level i own low lower multiple, empty]
          simp [accept, load]
        rw [staged, if_pos lower, empty, received, staged, if_neg multiple,
          collecting_lowest comm tag root nbytes initial next level i lower multiple short, if_pos none]
      · simp only [staged, if_neg multiple, if_neg lower]

theorem levels_scatter (original : Nat → Byte) (clean : ∀ i ∈ comm, (initial i).errflag = false)
    (level : Nat) (short : ∀ low < level, 2 ^ low < comm.length)
    (holding : ∀ i ∈ comm, 2 ^ level ∣ relative comm root i →
      Holding comm nbytes original (initial i).tmpBuf (subtree comm root level i) (held i)) :
    ∃ final : Nat → Local Byte,
      (∀ i ∈ comm,
        Holding comm nbytes original (initial i).tmpBuf (subtree comm root 0 i) (final i)) ∧
      Leads comm (staged comm tag root nbytes initial held next level) fun i => next i (final i) := by
  induction level generalizing held with
  | zero =>
      refine ⟨held, fun i own => holding i own (by simp), leads_same fun i _ => ?_⟩
      simp [staged, scattering]
  | succ level ih =>
      have low := short level (Nat.lt_succ_self level)
      obtain ⟨final, complete, leads⟩ := ih (dealt comm root nbytes initial held level)
        (fun below less => short below (Nat.lt_succ_of_lt less))
        (dealt_holding initial held distinct known some original level low clean holding)
      exact ⟨final, complete, leads_trans (level_scatters tag initial held next distinct known some level
        fun below less => short below (Nat.lt_succ_of_le less)) leads⟩

/-- Everybody goes on with the root's block of its own relative rank. -/
theorem scatter_leads (clean : ∀ i ∈ comm, (initial i).errflag = false) :
    ∃ final : Nat → Local Byte,
      (∀ i ∈ comm, Holding comm nbytes (initial (process comm root)).tmpBuf (initial i).tmpBuf
        (subtree comm root 0 i) (final i)) ∧
      Leads comm
        (fun i => scatterForBcast comm tag root (comm.idxOf i) nbytes (next i) (initial i))
        fun i => next i (final i) := by
  have wide := Nat.zero_lt_of_lt known
  have covered := Nat.le_pow_clog Nat.one_lt_two comm.length
  have short : ∀ low < Nat.clog 2 comm.length, 2 ^ low < comm.length := fun low => Nat.pow_lt_of_lt_clog
  have rooted : ∀ i ∈ comm, 2 ^ Nat.clog 2 comm.length ∣ relative comm root i →
      relative comm root i = 0 ∧ comm.idxOf i = root := by
    intro i own multiple
    have inside := relativeRank_lt known (List.idxOf_lt_length_of_mem own)
    have none : relative comm root i = 0 :=
      Nat.eq_zero_of_dvd_of_lt multiple (Nat.lt_of_lt_of_le inside covered)
    exact ⟨none, (relativeRank_root _ known).mp none⟩
  obtain ⟨final, complete, leads⟩ := levels_scatter tag initial initial next distinct known some
    (initial (process comm root)).tmpBuf clean (Nat.clog 2 comm.length) short
    (fun i own multiple => by
      refine ⟨clean i own, fun address _ _ => ?_, fun _ _ => rfl⟩
      rw [← (rooted i own multiple).2, process_idxOf i own])
  refine ⟨final, complete, leads_congr (fun i own => ?_) (fun _ _ => rfl) leads⟩
  rw [scatterForBcast, staged]
  split
  · rename_i multiple
    obtain ⟨none, here⟩ := rooted i own multiple
    rw [collecting_climbs comm tag root nbytes _ _ _ _ multiple short, collecting,
      if_neg (Nat.not_lt.mpr covered), if_pos here, none, part_whole comm nbytes _ wide covered]
  · rfl

end Scatter

end EE360P.ScatteredBroadcast
