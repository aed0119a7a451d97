import EE360P.BroadcastTree
import EE360P.HeardMessages

/-! `MPIR_Barrier_intra` of `coll/barrier.c` for processes that are not grouped by nodes.
Its messages are empty; followed by a shadow in which they carry who is known to have
arrived, everybody knows of everybody after the last round. -/

namespace EE360P.DisseminationBarrier
open ConfluentRuns PointToPoint MessageRules HeardMessages
open BroadcastTree (process process_mem idxOf_process process_idxOf mask_positive)

variable {Tag Message Result : Type}

section Code
variable (comm : List Nat) (tag : Tag) (rank : Nat)

def dst (bit : Nat) : Nat := (rank + 2 ^ bit) % comm.length

/-- `(rank - mask + size) % size` -/
def src (bit : Nat) : Nat := (rank + comm.length - 2 ^ bit) % comm.length

/-- The loop from this mask on; every message is `empty`. -/
def rounds (empty : Message) (next : Process Tag Message Result) (bit : Nat) :
    Process Tag Message Result :=
  if 2 ^ bit < comm.length then
    sendrecv (process comm (dst comm rank bit)) tag empty (process comm (src comm rank bit)) fun _ =>
      rounds empty next (bit + 1)
  else next
  termination_by comm.length - 2 ^ bit
  decreasing_by
    have larger : 2 ^ bit < 2 ^ (bit + 1) := Nat.pow_lt_pow_succ Nat.one_lt_two
    omega

def barrierIntra (empty : Message) (next : Process Tag Message Result) : Process Tag Message Result :=
  if comm.length = 1 then next else rounds comm tag rank empty next 0

end Code

section Ranks
variable {comm : List Nat} {rank bit : Nat}

theorem dst_eq (inside : rank < comm.length) (short : 2 ^ bit < comm.length) :
    dst comm rank bit =
      if comm.length ≤ rank + 2 ^ bit then rank + 2 ^ bit - comm.length else rank + 2 ^ bit := by
  unfold dst
  split
  · rename_i past
    rw [Nat.mod_eq_sub_mod past, Nat.mod_eq_of_lt (by omega)]
  · exact Nat.mod_eq_of_lt (by omega)

theorem src_eq (inside : rank < comm.length) (short : 2 ^ bit < comm.length) :
    src comm rank bit = if rank < 2 ^ bit then rank + comm.length - 2 ^ bit else rank - 2 ^ bit := by
  have positive := mask_positive bit
  unfold src
  split
  · exact Nat.mod_eq_of_lt (by omega)
  · rw [Nat.mod_eq_sub_mod (by omega), Nat.mod_eq_of_lt (by omega)]
    omega

theorem dst_lt (inside : rank < comm.length) : dst comm rank bit < comm.length :=
  Nat.mod_lt _ (Nat.zero_lt_of_lt inside)

theorem src_lt (inside : rank < comm.length) : src comm rank bit < comm.length :=
  Nat.mod_lt _ (Nat.zero_lt_of_lt inside)

theorem src_dst (inside : rank < comm.length) (short : 2 ^ bit < comm.length) :
    src comm (dst comm rank bit) bit = rank := by
  rw [src_eq (dst_lt inside) short, dst_eq inside short]
  split <;> split <;> omega

theorem dst_src (inside : rank < comm.length) (short : 2 ^ bit < comm.length) :
    dst comm (src comm rank bit) bit = rank := by
  rw [dst_eq (src_lt inside) short, src_eq inside short]
  have positive := mask_positive bit
  split <;> split <;> omega

end Ranks

/-! The same rounds with messages that matter. -/
section Spreading
variable (comm : List Nat) (tag : Tag) (merge : Message → Message → Message)

def spread (rank : Nat) (next : Message → Process Tag Message Result) (known : Message) (bit : Nat) :
    Process Tag Message Result :=
  if 2 ^ bit < comm.length then
    sendrecv (process comm (dst comm rank bit)) tag known (process comm (src comm rank bit))
      fun received => spread rank next (merge known received) (bit + 1)
  else next known
  termination_by comm.length - 2 ^ bit
  decreasing_by
    have larger : 2 ^ bit < 2 ^ (bit + 1) := Nat.pow_lt_pow_succ Nat.one_lt_two
    omega

def dest (bit i : Nat) : Nat := process comm (dst comm (comm.idxOf i) bit)

def source (bit i : Nat) : Nat := process comm (src comm (comm.idxOf i) bit)

/-- What a process knows before the round of this mask. -/
def gathered (known : Nat → Message) : Nat → Nat → Message
  | 0, i => known i
  | bit + 1, i => merge (gathered known bit i) (gathered known bit (source comm bit i))

theorem rounds_spread (rank : Nat) (empty : Message) (next : Process Tag Message Result) (bit : Nat) :
    rounds comm tag rank empty next bit =
      spread comm tag (fun own _ => own) rank (fun _ => next) empty bit := by
  fun_induction rounds comm tag rank empty next bit with
  | case1 bit short ih =>
      rw [spread, if_pos short]
      simp only [ih]
  | case2 bit long => rw [spread, if_neg long]

variable {comm} (distinct : comm.Nodup)
include distinct

theorem round_paired (bit : Nat) (short : 2 ^ bit < comm.length) :
    Paired comm comm comm (dest comm bit) (source comm bit) where
  senders_distinct := distinct
  receivers_distinct := distinct
  senders_inside _ own := own
  receivers_inside _ own := own
  outward i own := by
    have inside := List.idxOf_lt_length_of_mem own
    refine ⟨process_mem (dst_lt inside), ?_⟩
    rw [source, dest, idxOf_process distinct (dst_lt inside), src_dst inside short, process_idxOf i own]
  inward i own := by
    have inside := List.idxOf_lt_length_of_mem own
    refine ⟨process_mem (src_lt inside), ?_⟩
    rw [source, dest, idxOf_process distinct (src_lt inside), dst_src inside short, process_idxOf i own]

variable [DecidableEq Tag] (next : Nat → Message → Process Tag Message Result) (known : Nat → Message)

theorem spread_round (bit : Nat) (short : 2 ^ bit < comm.length) : Leads comm
    (fun i => spread comm tag merge (comm.idxOf i) (next i) (gathered comm merge known bit i) bit)
    fun i => spread comm tag merge (comm.idxOf i) (next i) (gathered comm merge known (bit + 1) i)
      (bit + 1) := by
  refine messages_lead tag (gathered comm merge known bit)
    (round_paired distinct bit short) ?_ ?_ ?_ ?_
  · exact fun i own apart => absurd own apart
  · exact fun i own apart => absurd own apart
  · intro i _ _
    rw [spread, if_pos short]
    exact ⟨_, rfl, rfl⟩
  · exact fun i own apart => absurd own apart

theorem spread_rounds (bit : Nat) (short : ∀ low < bit, 2 ^ low < comm.length) : Leads comm
    (fun i => spread comm tag merge (comm.idxOf i) (next i) (known i) 0)
    fun i => spread comm tag merge (comm.idxOf i) (next i) (gathered comm merge known bit i) bit := by
  induction bit with
  | zero => exact leads_same fun _ _ => rfl
  | succ bit ih =>
      exact leads_trans (ih fun low below => short low (Nat.lt_succ_of_lt below))
        (spread_round tag merge distinct next known bit (short bit (Nat.lt_succ_self bit)))

theorem spread_leads : Leads comm
    (fun i => spread comm tag merge (comm.idxOf i) (next i) (known i) 0)
    fun i => next i (gathered comm merge known (Nat.clog 2 comm.length) i) := by
  refine leads_congr (fun _ _ => rfl) ?_ (spread_rounds tag merge distinct next known
    (Nat.clog 2 comm.length) fun low => Nat.pow_lt_of_lt_clog)
  intro i _
  rw [spread, if_neg (Nat.not_lt.mpr (Nat.le_pow_clog Nat.one_lt_two comm.length))]

/-- Everybody gets through the barrier. -/
theorem barrier_leads (empty : Message) (after : Programs Tag Message Result) : Leads comm
    (fun i => barrierIntra comm tag (comm.idxOf i) empty (after i)) after := by
  by_cases alone : comm.length = 1
  · exact leads_same fun i _ => if_pos alone
  · refine leads_congr ?_ (fun _ _ => rfl) (spread_leads tag (fun own _ => own) distinct
      (fun i _ => after i) fun _ => empty)
    intro i _
    rw [barrierIntra, if_neg alone, rounds_spread]

end Spreading

/-! Who is known to have arrived. -/
section Arrivals
variable {comm : List Nat}

/-- Before a round, a process knows what as many processes below its rank knew as the mask
says. -/
theorem gathered_below (distinct : comm.Nodup) (known : Nat → List Nat) (fact bit rank distance : Nat)
    (inside : rank < comm.length) (near : distance < 2 ^ bit) (within : distance < comm.length)
    (short : ∀ low < bit, 2 ^ low < comm.length)
    (told : fact ∈ known
      (process comm (if rank < distance then rank + comm.length - distance else rank - distance))) :
    fact ∈ gathered comm (· ++ ·) known bit (process comm rank) := by
  induction bit generalizing rank distance with
  | zero =>
      obtain rfl : distance = 0 := by omega
      simpa [gathered] using told
  | succ bit ih =>
      have before := fun low (below : low < bit) => short low (Nat.lt_succ_of_lt below)
      have now := short bit (Nat.lt_succ_self bit)
      rw [gathered, List.mem_append]
      by_cases nearer : distance < 2 ^ bit
      · exact Or.inl (ih rank distance inside nearer within before told)
      · rw [source, idxOf_process distinct inside]
        refine Or.inr (ih (src comm rank bit) (distance - 2 ^ bit) (src_lt inside)
          (by rw [Nat.pow_succ] at near; omega) (by omega) before ?_)
        convert told using 3
        rw [src_eq inside now]
        split_ifs <;> omega

/-- After the last round everybody knows what anybody knew. -/
theorem gathered_all (distinct : comm.Nodup) (known : Nat → List Nat) (i j fact : Nat)
    (here : i ∈ comm) (there : j ∈ comm) (told : fact ∈ known j) :
    fact ∈ gathered comm (· ++ ·) known (Nat.clog 2 comm.length) i := by
  have inside := List.idxOf_lt_length_of_mem here
  have other := List.idxOf_lt_length_of_mem there
  have covered := Nat.le_pow_clog Nat.one_lt_two comm.length
  have reached := gathered_below distinct known fact (Nat.clog 2 comm.length) (comm.idxOf i)
    (if comm.idxOf i < comm.idxOf j then comm.idxOf i + comm.length - comm.idxOf j
      else comm.idxOf i - comm.idxOf j) inside (by split <;> omega) (by split <;> omega)
    fun low => Nat.pow_lt_of_lt_clog
  rw [process_idxOf i here] at reached
  refine reached ?_
  convert told using 2
  refine Eq.trans (congrArg (process comm) ?_) (process_idxOf j there)
  split_ifs <;> omega

variable {heard : List Nat → Prop} {told : List Nat → Prop}

theorem spread_shadowed (tag : Tag) (rank : Nat) (empty : Message)
    (next : Process Tag Message Result) (after : List Nat → Process Tag (List Nat) (List Nat))
    (merged : ∀ own other, heard own → heard other → heard (own ++ other))
    (rest : ∀ known, heard known → Shadowed heard told next (after known))
    (bit : Nat) (known : List Nat) (own : heard known) :
    Shadowed heard told (rounds comm tag rank empty next bit)
      (spread comm tag (· ++ ·) rank after known bit) := by
  fun_induction rounds comm tag rank empty next bit generalizing known with
  | case1 bit short ih =>
      rw [spread, if_pos short]
      exact shadowed_sendrecv own fun _ received other => ih _ (merged known received own other)
  | case2 bit long =>
      rw [spread, if_neg long]
      exact rest known own

/-- In the shadow, what a process knows grows with every message. -/
def barrierShadow (comm : List Nat) (tag : Tag) (rank : Nat)
    (next : List Nat → Process Tag (List Nat) (List Nat)) (known : List Nat) :
    Process Tag (List Nat) (List Nat) :=
  if comm.length = 1 then next known else spread comm tag (· ++ ·) rank next known 0

theorem barrier_shadowed (tag : Tag) (rank : Nat) (empty : Message)
    (next : Process Tag Message Result) (after : List Nat → Process Tag (List Nat) (List Nat))
    (merged : ∀ own other, heard own → heard other → heard (own ++ other))
    (rest : ∀ known, heard known → Shadowed heard told next (after known))
    (known : List Nat) (own : heard known) :
    Shadowed heard told (barrierIntra comm tag rank empty next)
      (barrierShadow comm tag rank after known) := by
  unfold barrierIntra barrierShadow
  split
  · exact rest known own
  · exact spread_shadowed tag rank empty next after merged rest 0 known own

variable [DecidableEq Tag]

theorem shadow_leads (distinct : comm.Nodup) (tag : Tag) (known : Nat → List Nat)
    (next : Nat → List Nat → Process Tag (List Nat) (List Nat)) : Leads comm
    (fun i => barrierShadow comm tag (comm.idxOf i) (next i) (known i))
    fun i => next i (gathered comm (· ++ ·) known (Nat.clog 2 comm.length) i) := by
  by_cases alone : comm.length = 1
  · refine leads_same fun i _ => ?_
    rw [barrierShadow, if_pos alone, alone]
    rfl
  · refine leads_congr (fun i _ => if_neg alone) (fun _ _ => rfl)
      (spread_leads tag (· ++ ·) distinct next known)

end Arrivals

end EE360P.DisseminationBarrier
