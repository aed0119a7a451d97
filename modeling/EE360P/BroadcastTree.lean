import Mathlib.Data.Nat.Bitwise
import Mathlib.Data.Nat.Log
import Mathlib.Tactic.Ring
import Mathlib.Tactic.SplitIfs
import EE360P.MessageRules

/-! `MPIR_Bcast_binomial` of `coll/bcast.c`. A communicator is the list of its processes
in the order of their ranks. A mask is kept as the number of its bit, and masks are
exact. Packing, message sizes and error flags are left out. -/

namespace EE360P.BroadcastTree
open PointToPoint MessageRules

variable {Tag Message Result : Type}

section Code
variable (comm : List Nat) (tag : Tag) (root rank : Nat)

def process : Nat := comm.getD rank 0

/-- `relative_rank` -/
def relativeRank : Nat :=
  if root ≤ rank then rank - root else rank + comm.length - root

def dst (bit : Nat) : Nat :=
  if comm.length ≤ rank + 2 ^ bit then rank + 2 ^ bit - comm.length else rank + 2 ^ bit

def src (bit : Nat) : Nat :=
  if rank < 2 ^ bit then rank + comm.length - 2 ^ bit else rank - 2 ^ bit

/-- The second loop, for the masks below this bit. -/
def forwarding (buffer : Message) (next : Message → Process Tag Message Result) :
    Nat → Process Tag Message Result
  | 0 => next buffer
  | bit + 1 =>
      if relativeRank comm root rank + 2 ^ bit < comm.length then
        send (process comm (dst comm rank bit)) tag buffer (forwarding buffer next bit)
      else forwarding buffer next bit

/-- The first loop, from this mask on. -/
def receiving (buffer : Message) (next : Message → Process Tag Message Result) (bit : Nat) :
    Process Tag Message Result :=
  if 2 ^ bit < comm.length then
    if relativeRank comm root rank &&& 2 ^ bit ≠ 0 then
      recv (process comm (src comm rank bit)) tag fun received =>
        forwarding comm tag root rank received next bit
    else receiving buffer next (bit + 1)
  else forwarding comm tag root rank buffer next bit
  termination_by comm.length - 2 ^ bit
  decreasing_by
    have larger : 2 ^ bit < 2 ^ (bit + 1) := Nat.pow_lt_pow_succ Nat.one_lt_two
    omega

def bcastBinomial (buffer : Message) (next : Message → Process Tag Message Result) :
    Process Tag Message Result :=
  if comm.length = 1 then next buffer else receiving comm tag root rank buffer next 0

end Code

section Ranks
variable {comm : List Nat} {root rank bit : Nat}

theorem relativeRank_lt (known : root < comm.length) (inside : rank < comm.length) :
    relativeRank comm root rank < comm.length := by
  unfold relativeRank
  split <;> omega

theorem relativeRank_root (rank : Nat) (known : root < comm.length) :
    relativeRank comm root rank = 0 ↔ rank = root := by
  unfold relativeRank
  split <;> omega

theorem mask_positive (bit : Nat) : 0 < 2 ^ bit := Nat.two_pow_pos bit

theorem dst_lt (inside : rank < comm.length) (short : 2 ^ bit < comm.length) :
    dst comm rank bit < comm.length := by
  unfold dst
  split <;> omega

theorem src_lt (inside : rank < comm.length) (short : 2 ^ bit < comm.length) :
    src comm rank bit < comm.length := by
  have positive := mask_positive bit
  unfold src
  split <;> omega

theorem src_dst (inside : rank < comm.length) (short : 2 ^ bit < comm.length) :
    src comm (dst comm rank bit) bit = rank := by
  unfold src dst
  split <;> split <;> omega

theorem dst_src (inside : rank < comm.length) (short : 2 ^ bit < comm.length) :
    dst comm (src comm rank bit) bit = rank := by
  unfold src dst
  split <;> split <;> omega

theorem relativeRank_dst (inside : rank < comm.length) (known : root < comm.length)
    (more : relativeRank comm root rank + 2 ^ bit < comm.length) :
    relativeRank comm root (dst comm rank bit) = relativeRank comm root rank + 2 ^ bit := by
  have positive := mask_positive bit
  unfold relativeRank dst at *
  split_ifs at more ⊢ <;> omega

theorem relativeRank_src (inside : rank < comm.length) (known : root < comm.length)
    (enough : 2 ^ bit ≤ relativeRank comm root rank) :
    relativeRank comm root (src comm rank bit) + 2 ^ bit = relativeRank comm root rank := by
  unfold relativeRank src at *
  generalize 2 ^ bit = mask at *
  split_ifs at enough ⊢ <;> omega

theorem process_mem (inside : rank < comm.length) : process comm rank ∈ comm := by
  rw [process, List.getD_eq_getElem _ _ inside]
  exact List.getElem_mem inside

theorem idxOf_process (distinct : comm.Nodup) (inside : rank < comm.length) :
    comm.idxOf (process comm rank) = rank := by
  rw [process, List.getD_eq_getElem _ _ inside]
  exact distinct.idxOf_getElem rank inside

theorem process_idxOf (i : Nat) (member : i ∈ comm) : process comm (comm.idxOf i) = i := by
  rw [process, List.getD_eq_getElem _ _ (List.idxOf_lt_length_of_mem member)]
  exact List.getElem_idxOf _

end Ranks

section Masks
variable {rank bit : Nat}

theorem masked_iff : rank &&& 2 ^ bit ≠ 0 ↔ rank / 2 ^ bit % 2 = 1 := by
  rw [Nat.and_two_pow, Nat.testBit_eq_decide_div_mod_eq]
  have positive := mask_positive bit
  by_cases odd : rank / 2 ^ bit % 2 = 1 <;> simp [odd]

theorem masked_of_dvd {low : Nat} (multiple : 2 ^ bit ∣ rank) (below : low < bit) :
    ¬rank &&& 2 ^ low ≠ 0 := by
  rw [masked_iff]
  obtain ⟨rest, rfl⟩ := multiple
  have split : 2 ^ bit * rest = 2 ^ low * (2 * (2 ^ (bit - low - 1) * rest)) := by
    rw [show bit = low + (1 + (bit - low - 1)) by omega, pow_add, pow_add]
    simp only [Nat.add_sub_cancel_left, pow_one]
    ring
  rw [split, Nat.mul_div_cancel_left _ (mask_positive low), Nat.mul_mod_right]
  exact Nat.zero_ne_one

theorem masked_of_lowest (multiple : 2 ^ bit ∣ rank) (lowest : ¬2 ^ (bit + 1) ∣ rank) :
    rank &&& 2 ^ bit ≠ 0 := by
  rw [masked_iff]
  obtain ⟨rest, rfl⟩ := multiple
  rw [Nat.mul_div_cancel_left _ (mask_positive bit)]
  by_contra even
  exact lowest (Nat.pow_succ 2 bit ▸ Nat.mul_dvd_mul_left _ (Nat.dvd_of_mod_eq_zero (by omega)))

theorem lowest_positive (multiple : 2 ^ bit ∣ rank) (lowest : ¬2 ^ (bit + 1) ∣ rank) :
    2 ^ bit ≤ rank := by
  refine Nat.le_of_dvd (Nat.pos_of_ne_zero fun none => lowest ?_) multiple
  rw [none]
  exact Nat.dvd_zero _

/-- Without its lowest mask a rank is a multiple of the next one. -/
theorem lowest_below {lower : Nat} (multiple : 2 ^ bit ∣ rank) (lowest : ¬2 ^ (bit + 1) ∣ rank)
    (nearer : lower + 2 ^ bit = rank) : 2 ^ (bit + 1) ∣ lower := by
  obtain ⟨rest, counted⟩ := multiple
  have odd : rest % 2 = 1 := by
    by_contra even
    refine lowest ⟨rest / 2, ?_⟩
    rw [counted, Nat.pow_succ, Nat.mul_assoc]
    congr 1
    omega
  refine ⟨rest / 2, Nat.add_right_cancel (m := 2 ^ bit) ?_⟩
  rw [nearer, counted, Nat.pow_succ, Nat.mul_assoc, ← Nat.mul_succ]
  congr 1
  omega

end Masks

/-! Level by level, from the top: at a level, the processes whose relative rank is a
multiple of its mask have the root's buffer, and the others wait at their start. -/
section Levels
variable (comm : List Nat) (tag : Tag) (root : Nat)
variable (buffer : Nat → Message) (next : Nat → Message → Process Tag Message Result)

theorem receiving_climbs (rank : Nat) (own : Message) (after : Message → Process Tag Message Result)
    (level : Nat) (multiple : 2 ^ level ∣ relativeRank comm root rank)
    (short : ∀ low < level, 2 ^ low < comm.length) :
    receiving comm tag root rank own after 0 = receiving comm tag root rank own after level := by
  induction level with
  | zero => rfl
  | succ level ih =>
      have lower := (pow_dvd_pow 2 (Nat.le_succ level)).trans multiple
      rw [ih lower fun low below => short low (Nat.lt_succ_of_lt below), receiving,
        if_pos (short level (Nat.lt_succ_self level)),
        if_neg (masked_of_dvd multiple (Nat.lt_succ_self level))]

def relative (i : Nat) : Nat := relativeRank comm root (comm.idxOf i)

def reached (level i : Nat) : Process Tag Message Result :=
  forwarding comm tag root (comm.idxOf i) (buffer (process comm root)) (next i) level

def waiting (i : Nat) : Process Tag Message Result :=
  receiving comm tag root (comm.idxOf i) (buffer i) (next i) 0

def levelled (level i : Nat) : Process Tag Message Result :=
  if 2 ^ level ∣ relative comm root i then reached comm tag root buffer next level i
  else waiting comm tag root buffer next i

def senders (level : Nat) : List Nat :=
  comm.filter fun i =>
    2 ^ (level + 1) ∣ relative comm root i ∧ relative comm root i + 2 ^ level < comm.length

def receivers (level : Nat) : List Nat :=
  comm.filter fun i => 2 ^ level ∣ relative comm root i ∧ ¬2 ^ (level + 1) ∣ relative comm root i

def dest (level i : Nat) : Nat := process comm (dst comm (comm.idxOf i) level)

def source (level i : Nat) : Nat := process comm (src comm (comm.idxOf i) level)

variable {comm root}

theorem mem_senders (level i : Nat) : i ∈ senders comm root level ↔
    i ∈ comm ∧ 2 ^ (level + 1) ∣ relative comm root i ∧
      relative comm root i + 2 ^ level < comm.length := by
  simp [senders]

theorem mem_receivers (level i : Nat) : i ∈ receivers comm root level ↔
    i ∈ comm ∧ 2 ^ level ∣ relative comm root i ∧ ¬2 ^ (level + 1) ∣ relative comm root i := by
  simp [receivers]

variable (distinct : comm.Nodup) (known : root < comm.length)
include distinct known

omit known in
theorem idxOf_dest (level i : Nat) (own : i ∈ comm) (short : 2 ^ level < comm.length) :
    comm.idxOf (dest comm level i) = dst comm (comm.idxOf i) level :=
  idxOf_process distinct (dst_lt (List.idxOf_lt_length_of_mem own) short)

omit known in
theorem idxOf_source (level i : Nat) (own : i ∈ comm) (short : 2 ^ level < comm.length) :
    comm.idxOf (source comm level i) = src comm (comm.idxOf i) level :=
  idxOf_process distinct (src_lt (List.idxOf_lt_length_of_mem own) short)

theorem relative_dest (level i : Nat) (own : i ∈ comm)
    (more : relative comm root i + 2 ^ level < comm.length) :
    relative comm root (dest comm level i) = relative comm root i + 2 ^ level := by
  rw [relative, idxOf_dest distinct level i own (by omega)]
  exact relativeRank_dst (List.idxOf_lt_length_of_mem own) known more

theorem relative_source (level i : Nat) (own : i ∈ comm) (short : 2 ^ level < comm.length)
    (enough : 2 ^ level ≤ relative comm root i) :
    relative comm root (source comm level i) + 2 ^ level = relative comm root i := by
  rw [relative, idxOf_source distinct level i own short]
  exact relativeRank_src (List.idxOf_lt_length_of_mem own) known enough

theorem level_paired (level : Nat) (short : 2 ^ level < comm.length) :
    Paired comm (senders comm root level) (receivers comm root level) (dest comm level)
      (source comm level) where
  senders_distinct := distinct.filter _
  receivers_distinct := distinct.filter _
  senders_inside i member := List.mem_of_mem_filter member
  receivers_inside i member := List.mem_of_mem_filter member
  outward i member := by
    obtain ⟨own, multiple, more⟩ := (mem_senders level i).mp member
    have inside := List.idxOf_lt_length_of_mem own
    have further := relative_dest distinct known level i own more
    have lower := (pow_dvd_pow 2 (Nat.le_succ level)).trans multiple
    refine ⟨(mem_receivers level _).mpr ⟨process_mem (dst_lt inside short), ?_, ?_⟩, ?_⟩
    · rw [further]
      exact Nat.dvd_add lower (Nat.dvd_refl _)
    · rw [further, Nat.dvd_add_right multiple]
      exact Nat.not_dvd_of_pos_of_lt (mask_positive level) (Nat.pow_lt_pow_succ Nat.one_lt_two)
    · rw [source, idxOf_dest distinct level i own short, src_dst inside short, process_idxOf i own]
  inward i member := by
    obtain ⟨own, multiple, lowest⟩ := (mem_receivers level i).mp member
    have inside := List.idxOf_lt_length_of_mem own
    have nearer := relative_source distinct known level i own short (lowest_positive multiple lowest)
    refine ⟨(mem_senders level _).mpr ⟨process_mem (src_lt inside short), ?_, ?_⟩, ?_⟩
    · exact lowest_below multiple lowest nearer
    · rw [nearer]
      exact relativeRank_lt known inside
    · rw [dest, idxOf_source distinct level i own short, dst_src inside short, process_idxOf i own]

variable [DecidableEq Tag]

theorem level_leads (level : Nat) (short : ∀ low ≤ level, 2 ^ low < comm.length) :
    Leads comm (levelled comm tag root buffer next (level + 1))
      (levelled comm tag root buffer next level) := by
  refine messages_lead tag (fun _ => buffer (process comm root))
    (level_paired distinct known level (short level (Nat.le_refl level))) ?_ ?_ ?_ ?_
  · intro i member _
    obtain ⟨own, multiple, more⟩ := (mem_senders level i).mp member
    have lower := (pow_dvd_pow 2 (Nat.le_succ level)).trans multiple
    simp only [levelled, if_pos multiple, if_pos lower, reached, forwarding]
    exact if_pos more
  · intro i member _
    obtain ⟨own, multiple, lowest⟩ := (mem_receivers level i).mp member
    refine ⟨fun received => forwarding comm tag root (comm.idxOf i) received (next i) level, ?_, ?_⟩
    · rw [levelled, if_neg lowest, waiting, receiving_climbs comm tag root _ _ _ level multiple
        fun low below => short low (Nat.le_of_lt below), receiving,
        if_pos (short level (Nat.le_refl level))]
      exact if_pos (masked_of_lowest multiple lowest)
    · rw [levelled, if_pos multiple, reached]
  · intro i sends receives
    exact absurd ((mem_senders level i).mp sends).2.1 ((mem_receivers level i).mp receives).2.2
  · intro i own silent deaf
    rw [mem_senders] at silent
    rw [mem_receivers] at deaf
    by_cases multiple : 2 ^ (level + 1) ∣ relative comm root i
    · have lower := (pow_dvd_pow 2 (Nat.le_succ level)).trans multiple
      simp only [levelled, if_pos multiple, if_pos lower, reached, forwarding]
      exact (if_neg fun more => silent ⟨own, multiple, more⟩).symm
    · have upper : ¬2 ^ level ∣ relative comm root i := fun lower => deaf ⟨own, lower, multiple⟩
      simp only [levelled, if_neg multiple, if_neg upper]

theorem levels_lead (level : Nat) (short : ∀ low < level, 2 ^ low < comm.length) :
    Leads comm (levelled comm tag root buffer next level)
      fun i => next i (buffer (process comm root)) := by
  induction level with
  | zero =>
      apply leads_same
      intro i _
      simp [levelled, reached, forwarding]
  | succ level ih =>
      exact leads_trans (level_leads tag buffer next distinct known level fun low below =>
        short low (Nat.lt_succ_of_le below)) (ih fun low below => short low (Nat.lt_succ_of_lt below))

/-- Every process goes on with what the root's buffer had. -/
theorem bcast_leads : Leads comm
    (fun i => bcastBinomial comm tag root (comm.idxOf i) (buffer i) (next i))
    fun i => next i (buffer (process comm root)) := by
  by_cases alone : comm.length = 1
  · apply leads_same
    intro i own
    have first := List.idxOf_lt_length_of_mem own
    rw [bcastBinomial, if_pos alone, ← process_idxOf i own]
    congr 3
    omega
  · refine leads_congr ?_ (fun _ _ => rfl) (levels_lead tag buffer next distinct known
      (Nat.clog 2 comm.length) fun low => Nat.pow_lt_of_lt_clog)
    intro i own
    have inside := List.idxOf_lt_length_of_mem own
    have covered := Nat.le_pow_clog Nat.one_lt_two comm.length
    rw [bcastBinomial, if_neg alone, levelled]
    split
    · rename_i multiple
      have none : relative comm root i = 0 :=
        Nat.eq_zero_of_dvd_of_lt multiple (Nat.lt_of_lt_of_le (relativeRank_lt known inside) covered)
      have rooted := (relativeRank_root _ known).mp none
      rw [receiving_climbs comm tag root _ _ _ _ multiple fun low => Nat.pow_lt_of_lt_clog, receiving,
        if_neg (Nat.not_lt.mpr covered), reached, ← rooted, process_idxOf i own]
    · rfl

end Levels

end EE360P.BroadcastTree
