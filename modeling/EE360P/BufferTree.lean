import EE360P.BlockAllgathers

/-! `MPIR_Bcast_binomial` again, now with the buffers that the messages are sent from and
received into, and with the check of their sizes, which are `int`s there. -/

namespace EE360P.BufferTree
open PointToPoint MessageRules MemoryBlocks ScatteredBroadcast
open BroadcastTree (process process_idxOf relative relativeRank relativeRank_root dst src masked_of_dvd
  masked_of_lowest level_paired mem_senders mem_receivers source)

variable {Tag Byte Result : Type}

section Sizes

/-- `int nbytes`, of a product that is an `MPI_Aint` -/
def intBytes (nbytes : Nat) : Int := (nbytes : Int).bmod (2 ^ 32)

/-- `MPIR_Get_count_impl` for bytes, `MPI_UNDEFINED` where an `int` is too small -/
def getCount (received : Nat) : Int := if received < 2 ^ 31 then received else -32766

theorem intBytes_fits (nbytes : Nat) (fits : nbytes < 2 ^ 31) : intBytes nbytes = nbytes :=
  Int.bmod_eq_of_le (by omega) (by omega)

theorem getCount_fits (received : Nat) (fits : received < 2 ^ 31) : getCount received = received :=
  if_pos fits

end Sizes

section Code
variable (comm : List Nat) (tag : Tag) (root rank nbytes : Nat)

/-- `MPIC_Recv` of the whole buffer, and the check of its size. -/
def recvAll (sender : Nat) (next : Local Byte → Party Tag Byte Result) (here : Local Byte) :
    Party Tag Byte Result :=
  recv sender tag fun received =>
    let (there, recvdSize) := accept 0 nbytes here received
    next ⟨there.tmpBuf, there.errflag || getCount recvdSize != intBytes nbytes⟩

/-- The second loop, for the masks below this bit. -/
def forwarding (next : Local Byte → Party Tag Byte Result) (here : Local Byte) :
    Nat → Party Tag Byte Result
  | 0 => next here
  | bit + 1 =>
      if relativeRank comm root rank + 2 ^ bit < comm.length then
        send (process comm (dst comm rank bit)) tag (load here.tmpBuf 0 nbytes)
          (forwarding next here bit)
      else forwarding next here bit

/-- The first loop, from this mask on. -/
def receiving (next : Local Byte → Party Tag Byte Result) (here : Local Byte) (bit : Nat) :
    Party Tag Byte Result :=
  if 2 ^ bit < comm.length then
    if relativeRank comm root rank &&& 2 ^ bit ≠ 0 then
      recvAll tag nbytes (process comm (src comm rank bit))
        (fun there => forwarding comm tag root rank nbytes next there bit) here
    else receiving next here (bit + 1)
  else forwarding comm tag root rank nbytes next here bit
  termination_by comm.length - 2 ^ bit
  decreasing_by
    have larger : 2 ^ bit < 2 ^ (bit + 1) := Nat.pow_lt_pow_succ Nat.one_lt_two
    omega

def bcastBinomial (next : Local Byte → Party Tag Byte Result) (here : Local Byte) :
    Party Tag Byte Result :=
  if comm.length = 1 ∨ intBytes nbytes = 0 then next here
  else receiving comm tag root rank nbytes next here 0

end Code

section Fillings
variable (nbytes : Nat) (original former : Nat → Byte)

theorem load_filled : load (filled nbytes original former) 0 nbytes = load original 0 nbytes := by
  refine load_same _ _ 0 nbytes fun address _ short => ?_
  exact if_pos (by omega)

/-- What is left of a receive of the whole original. -/
theorem recvAll_complete (tag : Tag) (sender : Nat) (next : Local Byte → Party Tag Byte Result)
    (here : Local Byte) (clean : here.errflag = false) (fits : nbytes < 2 ^ 31) :
    ∃ following : List Byte → Party Tag Byte Result,
      recvAll tag nbytes sender next here = recv sender tag following ∧
      following (load original 0 nbytes) = next (complete nbytes original here.tmpBuf) := by
  refine ⟨_, rfl, ?_⟩
  have whole : store here.tmpBuf 0 (load original 0 nbytes) = filled nbytes original here.tmpBuf := by
    funext address
    rw [store_load, filled]
    simp
  rw [accept_fitting _ _ _ _ (by rw [load_length]), whole, load_length]
  simp [intBytes_fits nbytes fits, getCount_fits nbytes fits, complete, clean]

end Fillings

section Levels
variable (comm : List Nat) (tag : Tag) (root nbytes : Nat)
variable (initial : Nat → Local Byte) (next : Nat → Local Byte → Party Tag Byte Result)

theorem receiving_climbs (rank : Nat) (here : Local Byte) (after : Local Byte → Party Tag Byte Result)
    (level : Nat) (multiple : 2 ^ level ∣ relativeRank comm root rank)
    (short : ∀ low < level, 2 ^ low < comm.length) :
    receiving comm tag root rank nbytes after here 0 =
      receiving comm tag root rank nbytes after here level := by
  induction level with
  | zero => rfl
  | succ level ih =>
      have lower := (pow_dvd_pow 2 (Nat.le_succ level)).trans multiple
      rw [ih lower fun low below => short low (Nat.lt_succ_of_lt below), receiving,
        if_pos (short level (Nat.lt_succ_self level)),
        if_neg (masked_of_dvd multiple (Nat.lt_succ_self level))]

/-- What a process has when the root's buffer has reached it. -/
def reached (i : Nat) : Local Byte :=
  complete nbytes (initial (process comm root)).tmpBuf (initial i).tmpBuf

/-- Before a level, the multiples of its mask have the root's buffer, and the others wait. -/
def levelled (level i : Nat) : Party Tag Byte Result :=
  if 2 ^ level ∣ relative comm root i then
    forwarding comm tag root (comm.idxOf i) nbytes (next i) (reached comm root nbytes initial i) level
  else receiving comm tag root (comm.idxOf i) nbytes (next i) (initial i) 0

variable {comm root} (distinct : comm.Nodup) (known : root < comm.length)
variable (clean : ∀ i ∈ comm, (initial i).errflag = false) (fits : nbytes < 2 ^ 31) [DecidableEq Tag]
include distinct known clean fits

theorem level_leads (level : Nat) (short : ∀ low ≤ level, 2 ^ low < comm.length) :
    Leads comm (levelled comm tag root nbytes initial next (level + 1))
      (levelled comm tag root nbytes initial next level) := by
  have here := short level (Nat.le_refl level)
  refine messages_lead tag (fun _ => load (initial (process comm root)).tmpBuf 0 nbytes)
    (level_paired distinct known level here) ?_ ?_ ?_ ?_
  · intro i member _
    obtain ⟨_, multiple, more⟩ := (mem_senders level i).mp member
    have lower := (pow_dvd_pow 2 (Nat.le_succ level)).trans multiple
    simp only [levelled, if_pos multiple, if_pos lower, forwarding, if_pos (show
      relativeRank comm root (comm.idxOf i) + 2 ^ level < comm.length from more), reached, complete,
      load_filled]
    rfl
  · intro i member _
    obtain ⟨own, multiple, lowest⟩ := (mem_receivers level i).mp member
    have waits : levelled comm tag root nbytes initial next (level + 1) i =
        recvAll tag nbytes (source comm level i)
          (fun there => forwarding comm tag root (comm.idxOf i) nbytes (next i) there level)
          (initial i) := by
      rw [levelled, if_neg lowest, receiving_climbs comm tag root nbytes _ _ _ level multiple
        fun low below => short low (Nat.le_of_lt below), receiving, if_pos here]
      exact if_pos (masked_of_lowest multiple lowest)
    obtain ⟨following, receives, follows⟩ := recvAll_complete nbytes
      (initial (process comm root)).tmpBuf tag (source comm level i)
      (fun there => forwarding comm tag root (comm.idxOf i) nbytes (next i) there level)
      (initial i) (clean i own) fits
    refine ⟨following, waits.trans receives, ?_⟩
    rw [levelled, if_pos multiple, reached]
    exact follows.symm
  · intro i sends receives
    exact absurd ((mem_senders level i).mp sends).2.1 ((mem_receivers level i).mp receives).2.2
  · intro i own silent deaf
    rw [mem_senders] at silent
    rw [mem_receivers] at deaf
    by_cases multiple : 2 ^ (level + 1) ∣ relative comm root i
    · have lower := (pow_dvd_pow 2 (Nat.le_succ level)).trans multiple
      simp only [levelled, if_pos multiple, if_pos lower, forwarding]
      exact (if_neg fun more => silent ⟨own, multiple, more⟩).symm
    · have upper : ¬2 ^ level ∣ relative comm root i := fun lower => deaf ⟨own, lower, multiple⟩
      simp only [levelled, if_neg multiple, if_neg upper]

theorem levels_lead (level : Nat) (short : ∀ low < level, 2 ^ low < comm.length) :
    Leads comm (levelled comm tag root nbytes initial next level)
      fun i => next i (reached comm root nbytes initial i) := by
  induction level with
  | zero =>
      apply leads_same
      intro i _
      simp [levelled, forwarding]
  | succ level ih =>
      exact leads_trans (level_leads tag nbytes initial next distinct known clean fits level fun low below =>
        short low (Nat.lt_succ_of_le below)) (ih fun low below => short low (Nat.lt_succ_of_lt below))

/-- Everybody gets the whole buffer of the root along the tree. -/
theorem bcast_leads (some : 0 < nbytes) : Leads comm
    (fun i => bcastBinomial comm tag root (comm.idxOf i) nbytes (next i) (initial i))
    fun i => next i (reached comm root nbytes initial i) := by
  by_cases alone : comm.length = 1
  · refine leads_same fun i own => ?_
    rw [bcastBinomial, if_pos (Or.inl alone), reached,
      ← alone_complete nbytes known alone initial clean i own]
  · have several : ¬(comm.length = 1 ∨ intBytes nbytes = 0) := by
      rw [intBytes_fits nbytes fits]
      omega
    have covered := Nat.le_pow_clog Nat.one_lt_two comm.length
    have short : ∀ low < Nat.clog 2 comm.length, 2 ^ low < comm.length :=
      fun low => Nat.pow_lt_of_lt_clog
    refine leads_congr (fun i own => ?_) (fun _ _ => rfl)
      (levels_lead tag nbytes initial next distinct known clean fits (Nat.clog 2 comm.length) short)
    rw [bcastBinomial, if_neg several, levelled]
    split
    · rename_i multiple
      have inside := BroadcastTree.relativeRank_lt known (List.idxOf_lt_length_of_mem own)
      have none := Nat.eq_zero_of_dvd_of_lt multiple (Nat.lt_of_lt_of_le inside covered)
      have first := (relativeRank_root _ known).mp none
      rw [receiving_climbs comm tag root nbytes _ _ _ _ multiple short, receiving,
        if_neg (Nat.not_lt.mpr covered), reached, ← first, process_idxOf i own,
        ← own_complete nbytes (initial i) (clean i own)]
    · rfl

end Levels

end EE360P.BufferTree
