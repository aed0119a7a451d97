import EE360P.DisseminationBarrier
import EE360P.ScatteredBroadcast

/-! The two allgathers that follow the scatter, and what the broadcasts come to: in every
round a process passes on blocks that its partner misses, until everybody holds them all. -/

namespace EE360P.ScatteredBroadcast
open PointToPoint MessageRules MemoryBlocks BroadcastTree

variable {Tag Byte Result : Type}

/-- A process that has got all of the original, and no error. -/
def complete (nbytes : Nat) (original former : Nat → Byte) : Local Byte :=
  ⟨filled nbytes original former, false⟩

theorem all_complete {comm : List Nat} {nbytes : Nat} (known : 0 < comm.length) (some : 0 < nbytes)
    {original former : Nat → Byte} {here : Local Byte}
    (holding : Holding comm nbytes original former (Finset.range comm.length) here) :
    here = complete nbytes original former := by
  have whole := holds_all (scatterSize_positive comm nbytes known some)
    (blocks_cover comm nbytes known) holding.blocks
  cases here
  exact congrArg₂ Local.mk whole holding.clean

theorem own_complete (nbytes : Nat) (here : Local Byte) (clean : here.errflag = false) :
    here = complete nbytes here.tmpBuf here.tmpBuf := by
  cases here
  refine congrArg₂ Local.mk (funext fun address => ?_) clean
  exact (ite_self _).symm

theorem alone_complete {comm : List Nat} {root : Nat} (nbytes : Nat) (known : root < comm.length)
    (alone : comm.length = 1) (initial : Nat → Local Byte)
    (clean : ∀ i ∈ comm, (initial i).errflag = false) (i : Nat) (own : i ∈ comm) :
    initial i = complete nbytes (initial (process comm root)).tmpBuf (initial i).tmpBuf := by
  have first := List.idxOf_lt_length_of_mem own
  have here : root = comm.idxOf i := by omega
  rw [here, process_idxOf i own]
  exact own_complete nbytes (initial i) (clean i own)

theorem all_sizes (comm : List Nat) (nbytes : Nat) (known : 0 < comm.length) :
    ∑ block ∈ Finset.range comm.length, blockSize (scatterSize comm nbytes) nbytes block = nbytes := by
  have covered := blocks_cover comm nbytes known
  rw [← Nat.Ico_zero_eq_range, blocks_size _ _ (Nat.zero_le _)]
  unfold cut
  omega

/-! The ring: in every round a process gets from its left neighbour what that one got in
the round before. -/
section Ring
variable (comm : List Nat) (tag : Tag) (root nbytes : Nat)

/-- The rank whose block a process passes on in a round. -/
def upstream (rank round : Nat) : Nat := (rank + comm.length - round) % comm.length

/-- That block. -/
def carried (round i : Nat) : Nat := relativeOf comm root (upstream comm (comm.idxOf i) round)

/-- The blocks that a process has before a round. -/
def near (round i : Nat) : Finset Nat :=
  (Finset.range (round + 1)).image fun earlier => carried comm root earlier i

theorem turn (n x : Nat) (inside : x < 2 * n) : x % n = if x < n then x else x - n := by
  split
  · rename_i short
    exact Nat.mod_eq_of_lt short
  · rename_i long
    rw [Nat.mod_eq_sub_mod (Nat.not_lt.mp long), Nat.mod_eq_of_lt (by omega)]

variable {comm root} {rank round : Nat}

theorem relativeOf_rank (known : root < comm.length) (inside : rank < comm.length) :
    relativeOf comm root rank = relativeRank comm root rank := by
  unfold relativeOf relativeRank
  rw [turn _ _ (by omega)]
  split_ifs <;> omega

theorem upstream_lt (round : Nat) (inside : rank < comm.length) :
    upstream comm rank round < comm.length :=
  Nat.mod_lt _ (Nat.zero_lt_of_lt inside)

theorem upstream_zero (inside : rank < comm.length) : upstream comm rank 0 = rank := by
  rw [upstream, Nat.sub_zero, Nat.add_mod_right, Nat.mod_eq_of_lt inside]

/-- One rank further to the left. -/
theorem upstream_left (inside : rank < comm.length) (short : round + 1 ≤ comm.length) :
    (comm.length + upstream comm rank round - 1) % comm.length = upstream comm rank (round + 1) := by
  unfold upstream
  rw [turn _ (rank + comm.length - round) (by omega)]
  split
  · rw [turn _ _ (by omega), turn _ _ (by omega)]
    split_ifs <;> omega
  · rw [turn _ _ (by omega), turn _ _ (by omega)]
    split_ifs <;> omega

theorem left_upstream (inside : rank < comm.length) (short : round + 1 ≤ comm.length) :
    upstream comm ((comm.length + rank - 1) % comm.length) round = upstream comm rank (round + 1) := by
  unfold upstream
  rw [turn _ (comm.length + rank - 1) (by omega)]
  split
  · rw [turn _ _ (by omega), turn _ _ (by omega)]
    split_ifs <;> omega
  · rw [turn _ _ (by omega), turn _ _ (by omega)]
    split_ifs <;> omega

theorem carried_eq (known : root < comm.length) (i : Nat) (own : i ∈ comm)
    (short : round ≤ comm.length) :
    carried comm root round i = (relative comm root i + comm.length - round) % comm.length := by
  have inside := List.idxOf_lt_length_of_mem own
  have below := relativeRank_lt known inside
  rw [carried, relativeOf_rank known (upstream_lt round inside), relative]
  rw [turn _ (relativeRank comm root (comm.idxOf i) + comm.length - round) (by omega), upstream,
    turn _ (comm.idxOf i + comm.length - round) (by omega)]
  unfold relativeRank
  split_ifs <;> omega

theorem carried_mem {earlier : Nat} (i : Nat) (before : earlier ≤ round) :
    carried comm root earlier i ∈ near comm root round i :=
  Finset.mem_image.mpr ⟨earlier, Finset.mem_range.mpr (Nat.lt_succ_of_le before), rfl⟩

theorem near_succ (round i : Nat) : near comm root (round + 1) i =
    insert (carried comm root (round + 1) i) (near comm root round i) := by
  rw [near, Finset.range_add_one, Finset.image_insert, near]

theorem carried_fresh (known : root < comm.length) (i : Nat) (own : i ∈ comm)
    (short : round + 1 < comm.length) : carried comm root (round + 1) i ∉ near comm root round i := by
  intro member
  obtain ⟨earlier, before, same⟩ := Finset.mem_image.mp member
  rw [Finset.mem_range] at before
  have below := relativeRank_lt known (List.idxOf_lt_length_of_mem own)
  rw [carried_eq known i own (by omega), carried_eq known i own (by omega), relative] at same
  rw [turn _ _ (by omega), turn _ _ (by omega)] at same
  split_ifs at same <;> omega

theorem near_all (known : root < comm.length) (i : Nat) (own : i ∈ comm) :
    near comm root (comm.length - 1) i = Finset.range comm.length := by
  have below := relativeRank_lt known (List.idxOf_lt_length_of_mem own)
  ext block
  rw [Finset.mem_range]
  constructor
  · intro member
    obtain ⟨earlier, before, rfl⟩ := Finset.mem_image.mp member
    rw [Finset.mem_range] at before
    rw [carried_eq known i own (by omega)]
    exact Nat.mod_lt _ (Nat.zero_lt_of_lt known)
  · intro short
    refine Finset.mem_image.mpr ⟨(relative comm root i + comm.length - block) % comm.length,
      Finset.mem_range.mpr ?_, ?_⟩
    · have turned := Nat.mod_lt (relative comm root i + comm.length - block) (Nat.zero_lt_of_lt known)
      omega
    · rw [carried_eq known i own (Nat.le_of_lt (Nat.mod_lt _ (Nat.zero_lt_of_lt known))), relative]
      rw [turn _ (relativeRank comm root (comm.idxOf i) + comm.length - block) (by omega)]
      split
      · rw [turn _ _ (by omega)]
        split_ifs <;> omega
      · rw [turn _ _ (by omega)]
        split_ifs <;> omega

theorem near_zero (known : root < comm.length) (i : Nat) (own : i ∈ comm) :
    near comm root 0 i = subtree comm root 0 i := by
  have inside := List.idxOf_lt_length_of_mem own
  have first : carried comm root 0 i = relative comm root i := by
    rw [carried, upstream_zero inside, relativeOf_rank known inside, relative]
  simp [near, subtree, first]

variable (comm root) (held : Nat → Local Byte)
variable (next : Nat → Local Byte → Nat → Party Tag Byte Result)

/-- A process before a round, when it has the blocks that it should. -/
def ringStage (round i : Nat) : Party Tag Byte Result :=
  ringing comm tag root (comm.idxOf i) nbytes (next i) (comm.length - 1 - round)
    (upstream comm (comm.idxOf i) round) (upstream comm (comm.idxOf i) (round + 1)) (held i)
    (∑ block ∈ near comm root round i, blockSize (scatterSize comm nbytes) nbytes block)

/-- What a process sends in a round. -/
def ringBlock (round i : Nat) : List Byte :=
  load (held i).tmpBuf (carried comm root round i * scatterSize comm nbytes)
    (blockSize (scatterSize comm nbytes) nbytes (carried comm root round i))

/-- What a process goes on with when it gets its next block. -/
def ringNext (round i : Nat) (received : List Byte) : Party Tag Byte Result :=
  let (there, recvdSize) := accept (carried comm root (round + 1) i * scatterSize comm nbytes)
    (blockSize (scatterSize comm nbytes) nbytes (carried comm root (round + 1) i)) (held i) received
  ringing comm tag root (comm.idxOf i) nbytes (next i) (comm.length - 1 - (round + 1))
    (upstream comm (comm.idxOf i) (round + 1)) (upstream comm (comm.idxOf i) (round + 1 + 1)) there
    (∑ block ∈ near comm root round i, blockSize (scatterSize comm nbytes) nbytes block + recvdSize)

/-- What a process has after a round. -/
def ringHeld (round i : Nat) : Local Byte :=
  (accept (carried comm root (round + 1) i * scatterSize comm nbytes)
    (blockSize (scatterSize comm nbytes) nbytes (carried comm root (round + 1) i)) (held i)
    (ringBlock comm root nbytes held round (DisseminationBarrier.source comm 0 i))).1

variable {comm root nbytes} (distinct : comm.Nodup) (known : root < comm.length) (some : 0 < nbytes)
include distinct

theorem carried_left (i : Nat) (own : i ∈ comm) (short : round + 1 ≤ comm.length) :
    carried comm root round (DisseminationBarrier.source comm 0 i) =
      carried comm root (round + 1) i := by
  have inside := List.idxOf_lt_length_of_mem own
  rw [carried, DisseminationBarrier.source, idxOf_process distinct (DisseminationBarrier.src_lt inside),
    DisseminationBarrier.src, pow_zero, Nat.add_comm, left_upstream inside short, carried]

/-- What comes from the left neighbour is the next block. -/
theorem ringBlock_left (i : Nat) (own : i ∈ comm) (short : round + 1 ≤ comm.length) :
    ringBlock comm root nbytes held round (DisseminationBarrier.source comm 0 i) =
      load (held (DisseminationBarrier.source comm 0 i)).tmpBuf
        (carried comm root (round + 1) i * scatterSize comm nbytes)
        (blockSize (scatterSize comm nbytes) nbytes (carried comm root (round + 1) i)) := by
  rw [ringBlock, carried_left distinct i own short]

include known some

theorem ringHeld_holding (original : Nat → Byte) (former : Nat → Nat → Byte)
    (short : round + 1 < comm.length)
    (holding : ∀ i ∈ comm, Holding comm nbytes original (former i) (near comm root round i) (held i)) :
    ∀ i ∈ comm, Holding comm nbytes original (former i) (near comm root (round + 1) i)
      (ringHeld comm root nbytes held round i) := by
  intro i own
  have left : DisseminationBarrier.source comm 0 i ∈ comm :=
    process_mem (DisseminationBarrier.src_lt (List.idxOf_lt_length_of_mem own))
  have passed : carried comm root round (DisseminationBarrier.source comm 0 i) ∈
      near comm root round (DisseminationBarrier.source comm 0 i) := carried_mem _ (Nat.le_refl round)
  rw [carried_left distinct i own (Nat.le_of_lt short)] at passed
  have inside : Finset.Ico (carried comm root (round + 1) i) (carried comm root (round + 1) i + 1) ⊆
      near comm root round (DisseminationBarrier.source comm 0 i) := by
    rwa [Nat.Ico_succ_singleton, Finset.singleton_subset_iff]
  have received := accept_holding (Nat.zero_lt_of_lt known) some (Nat.le_succ _) (holding i own)
    (holding _ left) inside (Nat.le_refl _)
  rw [Nat.Ico_succ_singleton, ← blockSize_cut, Finset.union_comm, ← Finset.insert_eq] at received
  rwa [near_succ, ringHeld, ringBlock_left held distinct i own (Nat.le_of_lt short)]

variable [DecidableEq Tag]

omit some in
theorem ring_round (short : round + 1 < comm.length) : Leads comm
    (ringStage comm tag root nbytes held next round)
    (ringStage comm tag root nbytes (ringHeld comm root nbytes held round) next (round + 1)) := by
  have several : 2 ^ 0 < comm.length := by
    rw [pow_zero]
    omega
  refine messages_lead tag (ringBlock comm root nbytes held round)
    (DisseminationBarrier.round_paired distinct 0 several) ?_ ?_ ?_ ?_
  · exact fun i own apart => absurd own apart
  · exact fun i own apart => absurd own apart
  · intro i own _
    have inside := List.idxOf_lt_length_of_mem own
    have rounds : comm.length - 1 - round = comm.length - 1 - (round + 1) + 1 := by omega
    have left : process comm ((comm.length + comm.idxOf i - 1) % comm.length) =
        DisseminationBarrier.source comm 0 i := by
      rw [DisseminationBarrier.source, DisseminationBarrier.src, pow_zero, Nat.add_comm]
    refine ⟨ringNext comm tag root nbytes held next round i, ?_, ?_⟩
    · rw [ringStage, rounds, ringing, upstream_left inside (by omega), left]
      rfl
    · rw [ringStage, ringHeld, ringNext, ringBlock_left held distinct i own (Nat.le_of_lt short),
        accept_fitting _ _ _ _ (by rw [load_length]), load_length, near_succ,
        Finset.sum_insert (carried_fresh known i own short), Nat.add_comm (blockSize _ _ _)]
  · exact fun i own apart => absurd own apart

theorem ring_rounds (original : Nat → Byte) (former : Nat → Nat → Byte) (round : Nat)
    (short : round < comm.length)
    (holding : ∀ i ∈ comm, Holding comm nbytes original (former i) (near comm root 0 i) (held i)) :
    ∃ final : Nat → Local Byte,
      (∀ i ∈ comm, Holding comm nbytes original (former i) (near comm root round i) (final i)) ∧
      Leads comm (ringStage comm tag root nbytes held next 0)
        (ringStage comm tag root nbytes final next round) := by
  induction round with
  | zero => exact ⟨held, holding, leads_same fun _ _ => rfl⟩
  | succ round ih =>
      obtain ⟨final, before, leads⟩ := ih (Nat.lt_of_succ_lt short)
      exact ⟨ringHeld comm root nbytes final round,
        ringHeld_holding final distinct known some original former short before,
        leads_trans leads (ring_round tag final next distinct known short)⟩

/-- Everybody gets the whole buffer of the root by the ring. -/
theorem ring_leads (initial : Nat → Local Byte) (after : Nat → Local Byte → Party Tag Byte Result)
    (clean : ∀ i ∈ comm, (initial i).errflag = false) :
    Leads comm (fun i => scatterRingAllgather comm tag root (comm.idxOf i) nbytes (after i) (initial i))
      fun i => after i (complete nbytes (initial (process comm root)).tmpBuf (initial i).tmpBuf) := by
  have wide := Nat.zero_lt_of_lt known
  by_cases alone : comm.length = 1
  · refine leads_same fun i own => ?_
    rw [scatterRingAllgather, if_pos (Or.inl alone), ← alone_complete nbytes known alone initial clean i own]
  · have several : ¬(comm.length = 1 ∨ nbytes = 0) := by omega
    let ring : Nat → Local Byte → Party Tag Byte Result := fun i scattered =>
      ringing comm tag root (comm.idxOf i) nbytes (checkSize nbytes (after i)) (comm.length - 1)
        (comm.idxOf i) ((comm.length + comm.idxOf i - 1) % comm.length) scattered
        (min (scatterSize comm nbytes)
          (nbytes - relativeOf comm root (comm.idxOf i) * scatterSize comm nbytes))
    obtain ⟨scattered, dealtOut, scatters⟩ := scatter_leads tag initial ring distinct known some clean
    obtain ⟨final, gathered, rings⟩ := ring_rounds tag scattered (fun i => checkSize nbytes (after i))
      distinct known some (initial (process comm root)).tmpBuf (fun i => (initial i).tmpBuf)
      (comm.length - 1) (by omega) fun i own => near_zero known i own ▸ dealtOut i own
    refine leads_congr (fun i _ => ?_) (fun i own => ?_)
      (leads_trans scatters (leads_congr (fun i own => ?_) (fun _ _ => rfl) rings))
    · rw [scatterRingAllgather, if_neg several]
    · have everything := gathered i own
      rw [near_all known i own] at everything
      rw [ringStage, Nat.sub_self, ringing, near_all known i own, all_sizes comm nbytes wide, checkSize,
        all_complete wide some everything]
      simp [complete]
    · have inside := List.idxOf_lt_length_of_mem own
      have start : ∑ block ∈ near comm root 0 i, blockSize (scatterSize comm nbytes) nbytes block =
          min (scatterSize comm nbytes)
            (nbytes - relativeOf comm root (comm.idxOf i) * scatterSize comm nbytes) := by
        rw [near_zero known i own, subtree, pow_zero, Nat.Ico_succ_singleton, Finset.sum_singleton,
          relativeOf_rank known inside]
        rfl
      have left := @upstream_left comm (comm.idxOf i) 0 inside (by omega)
      rw [upstream_zero inside] at left
      simp only [ring, ringStage, Nat.sub_zero, start, upstream_zero inside, left]

end Ring

/-! Recursive doubling: two trees that differ in one bit exchange all that they have. -/
section Doubling
variable (comm : List Nat) (tag : Tag) (root nbytes : Nat)

/-- `my_tree_root`, the first of the processes that have the same bits from this one on -/
def treeRoot (bit rank : Nat) : Nat := rank >>> bit <<< bit

/-- The process that a process exchanges its blocks with. -/
def partner (bit i : Nat) : Nat :=
  process comm (((relative comm root i ^^^ 2 ^ bit) + root) % comm.length)

/-- The blocks that a process has before an exchange. -/
def grown (bit i : Nat) : Finset Nat :=
  Finset.Ico (treeRoot bit (relative comm root i)) (treeRoot bit (relative comm root i) + 2 ^ bit)

theorem treeRoot_eq (bit rank : Nat) : treeRoot bit rank = rank / 2 ^ bit * 2 ^ bit := by
  rw [treeRoot, Nat.shiftRight_eq_div_pow, Nat.shiftLeft_eq]

theorem flipped (bit rank : Nat) : (rank ^^^ 2 ^ bit) / 2 ^ bit =
    if rank / 2 ^ bit % 2 = 0 then rank / 2 ^ bit + 1 else rank / 2 ^ bit - 1 := by
  have shifted : (rank ^^^ 2 ^ bit) / 2 ^ bit = rank / 2 ^ bit ^^^ 1 := by
    rw [Nat.xor_div_two_pow, Nat.div_self (mask_positive bit)]
  have halves : (rank / 2 ^ bit ^^^ 1) / 2 = rank / 2 ^ bit / 2 := by
    rw [Nat.xor_div_two]
    simp
  have parity : (rank / 2 ^ bit ^^^ 1) % 2 = (rank / 2 ^ bit + 1) % 2 := Nat.xor_mod_two_eq
  rw [shifted]
  split <;> omega

/-- The trees of two partners are the halves of the next tree. -/
theorem trees_join (bit rank : Nat) :
    (treeRoot bit rank = treeRoot (bit + 1) rank ∧
        treeRoot bit (rank ^^^ 2 ^ bit) = treeRoot (bit + 1) rank + 2 ^ bit) ∨
      (treeRoot bit rank = treeRoot (bit + 1) rank + 2 ^ bit ∧
        treeRoot bit (rank ^^^ 2 ^ bit) = treeRoot (bit + 1) rank) := by
  have halved : rank / 2 ^ (bit + 1) * 2 ^ (bit + 1) = rank / 2 ^ bit / 2 * 2 * 2 ^ bit := by
    rw [Nat.div_div_eq_div_mul, ← Nat.pow_succ, Nat.mul_assoc, Nat.pow_succ, Nat.mul_comm 2]
  simp only [treeRoot_eq, halved, flipped]
  generalize rank / 2 ^ bit = block
  by_cases even : block % 2 = 0
  · have whole : block / 2 * 2 = block := by omega
    rw [if_pos even, whole, Nat.add_mul, Nat.one_mul]
    exact Or.inl ⟨rfl, rfl⟩
  · have whole : block = block / 2 * 2 + 1 := by omega
    have less : block - 1 = block / 2 * 2 := by omega
    have split : block * 2 ^ bit = block / 2 * 2 * 2 ^ bit + 2 ^ bit := by
      rw [← Nat.succ_mul]
      exact congrArg (· * 2 ^ bit) whole
    rw [if_neg even, less]
    exact Or.inr ⟨split, rfl⟩

theorem grown_succ (bit i : Nat) : grown comm root bit i ∪
    Finset.Ico (treeRoot bit (relative comm root i ^^^ 2 ^ bit))
      (treeRoot bit (relative comm root i ^^^ 2 ^ bit) + 2 ^ bit) = grown comm root (bit + 1) i := by
  have double : 2 ^ (bit + 1) = 2 ^ bit + 2 ^ bit := by rw [Nat.pow_succ, Nat.mul_two]
  unfold grown
  ext block
  rw [Finset.mem_union, Finset.mem_Ico, Finset.mem_Ico, Finset.mem_Ico, double]
  rcases trees_join bit (relative comm root i) with ⟨mine, theirs⟩ | ⟨mine, theirs⟩ <;> omega

theorem parts_join (bit rank : Nat) :
    part comm nbytes bit (treeRoot bit rank) + part comm nbytes bit (treeRoot bit (rank ^^^ 2 ^ bit)) =
      part comm nbytes (bit + 1) (treeRoot (bit + 1) rank) := by
  have kept := (part_halves comm nbytes bit (treeRoot (bit + 1) rank)).2
  have sent := part_upper comm nbytes bit (treeRoot (bit + 1) rank)
  rcases trees_join bit rank with ⟨mine, theirs⟩ | ⟨mine, theirs⟩ <;> rw [mine, theirs] <;> omega

/-- What a process sends before it has this bit. -/
def treeBytes (held : Nat → Local Byte) (bit i : Nat) : List Byte :=
  load (held i).tmpBuf (treeRoot bit (relative comm root i) * scatterSize comm nbytes)
    (part comm nbytes bit (treeRoot bit (relative comm root i)))

variable (held : Nat → Local Byte) (next : Nat → Local Byte → Nat → Party Tag Byte Result)

/-- A process before an exchange, when it has the blocks of its tree. -/
def treeStage (bit i : Nat) : Party Tag Byte Result :=
  doubling comm tag root (comm.idxOf i) nbytes (next i) (held i)
    (part comm nbytes bit (treeRoot bit (relative comm root i))) bit

/-- What a process goes on with when it gets the blocks of the other tree. -/
def treeNext (bit i : Nat) (received : List Byte) : Party Tag Byte Result :=
  let recvOffset := treeRoot bit (relative comm root i ^^^ 2 ^ bit) * scatterSize comm nbytes
  let (there, recvSize) := accept recvOffset (nbytes - recvOffset) (held i) received
  doubling comm tag root (comm.idxOf i) nbytes (next i) there
    (part comm nbytes bit (treeRoot bit (relative comm root i)) + recvSize) (bit + 1)

/-- What a process has after an exchange. -/
def treeHeld (bit i : Nat) : Local Byte :=
  let recvOffset := treeRoot bit (relative comm root i ^^^ 2 ^ bit) * scatterSize comm nbytes
  (accept recvOffset (nbytes - recvOffset) (held i)
    (treeBytes comm root nbytes held bit (partner comm root bit i))).1

variable {comm root nbytes} (distinct : comm.Nodup) (known : root < comm.length) (some : 0 < nbytes)
variable {depth : Nat} (power : comm.length = 2 ^ depth)

theorem relativeRank_turned {rank : Nat} (known : root < comm.length) (inside : rank < comm.length) :
    relativeRank comm root ((rank + root) % comm.length) = rank := by
  rw [turn _ _ (by omega)]
  unfold relativeRank
  split_ifs <;> omega

theorem turned_relativeRank {rank : Nat} (known : root < comm.length) (inside : rank < comm.length) :
    (relativeRank comm root rank + root) % comm.length = rank := by
  have below := relativeRank_lt known inside
  rw [turn _ _ (by omega)]
  unfold relativeRank
  split_ifs <;> omega

include power in
theorem flipped_lt {bit rank : Nat} (short : bit < depth) (inside : rank < comm.length) :
    rank ^^^ 2 ^ bit < comm.length := by
  rw [power] at *
  exact Nat.xor_lt_two_pow inside (Nat.pow_lt_pow_right Nat.one_lt_two short)

section Partners
variable {bit : Nat} (short : bit < depth)
include distinct known power short

theorem partner_relative (i : Nat) (own : i ∈ comm) :
    relative comm root (partner comm root bit i) = relative comm root i ^^^ 2 ^ bit := by
  have below : relative comm root i < comm.length :=
    relativeRank_lt known (List.idxOf_lt_length_of_mem own)
  rw [partner, relative, idxOf_process distinct (Nat.mod_lt _ (Nat.zero_lt_of_lt known)),
    relativeRank_turned known (flipped_lt power short below)]

theorem partner_partner (i : Nat) (own : i ∈ comm) :
    partner comm root bit (partner comm root bit i) = i := by
  rw [partner, partner_relative distinct known power short i own, Nat.xor_assoc, Nat.xor_self,
    Nat.xor_zero, relative, turned_relativeRank known (List.idxOf_lt_length_of_mem own),
    process_idxOf i own]

omit distinct power short in
theorem partner_mem (i : Nat) : partner comm root bit i ∈ comm :=
  process_mem (Nat.mod_lt _ (Nat.zero_lt_of_lt known))

theorem partners_paired :
    Paired comm comm comm (partner comm root bit) (partner comm root bit) where
  senders_distinct := distinct
  receivers_distinct := distinct
  senders_inside _ own := own
  receivers_inside _ own := own
  outward i own := ⟨partner_mem known i, partner_partner distinct known power short i own⟩
  inward i own := ⟨partner_mem known i, partner_partner distinct known power short i own⟩

/-- The other tree's blocks come from where they go to. -/
theorem treeBytes_partner (i : Nat) (own : i ∈ comm) :
    treeBytes comm root nbytes held bit (partner comm root bit i) =
      load (held (partner comm root bit i)).tmpBuf
        (treeRoot bit (relative comm root i ^^^ 2 ^ bit) * scatterSize comm nbytes)
        (part comm nbytes bit (treeRoot bit (relative comm root i ^^^ 2 ^ bit))) := by
  rw [treeBytes, partner_relative distinct known power short i own]

include some in
theorem treeHeld_holding (original : Nat → Byte) (former : Nat → Nat → Byte)
    (holding : ∀ i ∈ comm, Holding comm nbytes original (former i) (grown comm root bit i) (held i)) :
    ∀ i ∈ comm, Holding comm nbytes original (former i) (grown comm root (bit + 1) i)
      (treeHeld comm root nbytes held bit i) := by
  intro i own
  have theirs := holding (partner comm root bit i) (partner_mem known i)
  rw [grown, partner_relative distinct known power short i own] at theirs
  have received := accept_holding (Nat.zero_lt_of_lt known) some (Nat.le_add_right _ (2 ^ bit))
    (holding i own) theirs (fun _ member => member) (part_within comm nbytes bit _)
  rw [grown_succ] at received
  rwa [treeHeld, treeBytes_partner held distinct known power short i own]

variable [DecidableEq Tag]

theorem tree_round : Leads comm (treeStage comm tag root nbytes held next bit)
    (treeStage comm tag root nbytes (treeHeld comm root nbytes held bit) next (bit + 1)) := by
  have several : 2 ^ bit < comm.length := power ▸ Nat.pow_lt_pow_right Nat.one_lt_two short
  refine messages_lead tag (treeBytes comm root nbytes held bit)
    (partners_paired distinct known power short) ?_ ?_ ?_ ?_
  · exact fun i own apart => absurd own apart
  · exact fun i own apart => absurd own apart
  · intro i own _
    have below := flipped_lt power short (relativeRank_lt known (List.idxOf_lt_length_of_mem own))
    refine ⟨treeNext comm tag root nbytes held next bit i, ?_, ?_⟩
    · rw [treeStage, doubling, if_pos several]
      exact if_pos below
    · have fits := part_within comm nbytes bit (treeRoot bit (relative comm root i ^^^ 2 ^ bit))
      rw [treeStage, ← parts_join, treeHeld, treeNext,
        treeBytes_partner held distinct known power short i own,
        accept_fitting _ _ _ _ (by rwa [load_length]), load_length]
  · exact fun i own apart => absurd own apart

end Partners

theorem treeRoot_zero (rank : Nat) : treeRoot 0 rank = rank := by
  rw [treeRoot_eq, pow_zero, Nat.div_one, Nat.mul_one]

include known power in
theorem treeRoot_depth (i : Nat) (own : i ∈ comm) : treeRoot depth (relative comm root i) = 0 := by
  have below : relative comm root i < comm.length :=
    relativeRank_lt known (List.idxOf_lt_length_of_mem own)
  rw [treeRoot_eq, Nat.div_eq_of_lt (power ▸ below), Nat.zero_mul]

include known power in
/-- The branch that is left out is for trees that are not full. -/
theorem tree_full (bit : Nat) (short : bit < depth) (i : Nat) (own : i ∈ comm) :
    treeRoot bit (relative comm root i ^^^ 2 ^ bit) + 2 ^ bit ≤ comm.length := by
  have below : relative comm root i ^^^ 2 ^ bit < comm.length :=
    flipped_lt power short (relativeRank_lt known (List.idxOf_lt_length_of_mem own))
  have whole : 2 ^ depth = 2 ^ (depth - bit) * 2 ^ bit := by
    rw [← Nat.pow_add, Nat.sub_add_cancel (Nat.le_of_lt short)]
  rw [power, whole] at below
  rw [power, whole, treeRoot_eq, ← Nat.succ_mul]
  exact Nat.mul_le_mul_right _ ((Nat.div_lt_iff_lt_mul (mask_positive bit)).mpr below)

section Runs
variable [DecidableEq Tag]
include distinct known some power

theorem tree_rounds (original : Nat → Byte) (former : Nat → Nat → Byte) (bit : Nat)
    (short : bit ≤ depth)
    (holding : ∀ i ∈ comm, Holding comm nbytes original (former i) (grown comm root 0 i) (held i)) :
    ∃ final : Nat → Local Byte,
      (∀ i ∈ comm, Holding comm nbytes original (former i) (grown comm root bit i) (final i)) ∧
      Leads comm (treeStage comm tag root nbytes held next 0)
        (treeStage comm tag root nbytes final next bit) := by
  induction bit with
  | zero => exact ⟨held, holding, leads_same fun _ _ => rfl⟩
  | succ bit ih =>
      obtain ⟨final, before, leads⟩ := ih (Nat.le_of_succ_le short)
      exact ⟨treeHeld comm root nbytes final bit,
        treeHeld_holding final distinct known some power short original former before,
        leads_trans leads (tree_round tag final next distinct known power short)⟩

/-- Everybody gets the whole buffer of the root by recursive doubling. -/
theorem doubling_leads (initial : Nat → Local Byte) (after : Nat → Local Byte → Party Tag Byte Result)
    (clean : ∀ i ∈ comm, (initial i).errflag = false) :
    Leads comm
      (fun i => scatterDoublingAllgather comm tag root (comm.idxOf i) nbytes (after i) (initial i))
      fun i => after i (complete nbytes (initial (process comm root)).tmpBuf (initial i).tmpBuf) := by
  have wide := Nat.zero_lt_of_lt known
  by_cases alone : comm.length = 1
  · refine leads_same fun i own => ?_
    rw [scatterDoublingAllgather, if_pos (Or.inl alone),
      ← alone_complete nbytes known alone initial clean i own]
  · have several : ¬(comm.length = 1 ∨ nbytes = 0) := by omega
    let gather : Nat → Local Byte → Party Tag Byte Result := fun i scattered =>
      doubling comm tag root (comm.idxOf i) nbytes (checkSize nbytes (after i)) scattered
        (min (scatterSize comm nbytes)
          (nbytes - relativeRank comm root (comm.idxOf i) * scatterSize comm nbytes)) 0
    obtain ⟨scattered, dealtOut, scatters⟩ := scatter_leads tag initial gather distinct known some clean
    obtain ⟨final, gathered, doubles⟩ := tree_rounds tag scattered (fun i => checkSize nbytes (after i))
      distinct known some power (initial (process comm root)).tmpBuf (fun i => (initial i).tmpBuf) depth
      (Nat.le_refl depth) fun i own => by
        rw [grown, treeRoot_zero]
        exact dealtOut i own
    refine leads_congr (fun i _ => ?_) (fun i own => ?_)
      (leads_trans scatters (leads_congr (fun i _ => ?_) (fun _ _ => rfl) doubles))
    · rw [scatterDoublingAllgather, if_neg several]
    · have everything := gathered i own
      rw [grown, treeRoot_depth known power i own, Nat.zero_add, ← power,
        Nat.Ico_zero_eq_range] at everything
      rw [treeStage, treeRoot_depth known power i own,
        part_whole comm nbytes depth wide (Nat.le_of_eq power), doubling,
        if_neg (Nat.not_lt.mpr (Nat.le_of_eq power)), checkSize, all_complete wide some everything]
      simp [complete]
    · rw [treeStage, treeRoot_zero, part_single]
      rfl

end Runs

end Doubling

end EE360P.ScatteredBroadcast
