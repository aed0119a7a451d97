import EE360P.BufferTree
import EE360P.NodeCollectives

/-! `MPIR_Bcast_intra` and `MPIR_SMP_Bcast` of `coll/bcast.c` for messages of every size:
the size of the message, the number of processes and their placement choose the algorithm.
A size that an `int` does not hold wraps. All control variables have their default values. -/

namespace EE360P.SizedBroadcast
open ConfluentRuns PointToPoint MessageRules MemoryBlocks NodePlacement ScatteredBroadcast BufferTree
open BroadcastTree (process process_mem process_idxOf idxOf_process)
open NodeCollectives (Tag localRank localRank_eq localRank_zero externalRank externalRank_eq
  intranodeRank intranodeRank_eq intranodeRank_direct intranodeRank_later idxOf_root internodeRank
  internodeRank_eq internodeRank_same nodes_lead head_process mates_leader mates_alone roots_stage)

variable {Byte Result : Type}

/-- The loop of `MPIU_is_pof2`, from this power on. -/
def ceilPof2 (val bit : Nat) : Nat :=
  if 2 ^ bit < val then ceilPof2 val (bit + 1) else 2 ^ bit
  termination_by val - 2 ^ bit
  decreasing_by
    have larger : 2 ^ bit < 2 ^ (bit + 1) := Nat.pow_lt_pow_succ Nat.one_lt_two
    omega

def isPof2 (val : Nat) : Bool := ceilPof2 val 0 = val

def bcastMinProcs : Nat := 8

def bcastShortMsgSize : Nat := 12288

def bcastLongMsgSize : Nat := 524288

/-- A broadcast among the processes of a communicator: its tag, the root's rank and the own one,
and the size. -/
abbrev Algorithm (Byte Result : Type) := List Nat → Tag → Nat → Nat → Nat →
  (Local Byte → Party Tag Byte Result) → Local Byte → Party Tag Byte Result

section Code
variable (node : Nat → Nat) (comm : List Nat) (me root nbytes : Nat)

/-- The scatter and the allgather for this number of processes. -/
def scatterAllgather : Algorithm Byte Result := fun members tag root rank nbytes next here =>
  if isPof2 members.length then scatterDoublingAllgather members tag root rank nbytes next here
  else scatterRingAllgather members tag root rank nbytes next here

/-- A broadcast on `node_comm`. -/
def onNode (rank : Nat) (next : Local Byte → Party Tag Byte Result) (here : Local Byte) :
    Party Tag Byte Result :=
  match nodeComm node comm me with
  | some members =>
      bcastBinomial members (.node, .bcast) rank (localRank node comm me) nbytes next here
  | none => next here

/-- A broadcast on `node_roots_comm`. -/
def amongRoots (algorithm : Algorithm Byte Result) (next : Local Byte → Party Tag Byte Result)
    (here : Local Byte) : Party Tag Byte Result :=
  match nodeRootsComm node comm me with
  | some members => algorithm members (.nodeRoots, .bcast) (internodeRank node comm me root)
      (externalRank node comm me) nbytes next here
  | none => next here

/-- A root that is not the first process of its node sends that one its buffer. -/
def toFirst (next : Local Byte → Party Tag Byte Result) (here : Local Byte) : Party Tag Byte Result :=
  match nodeComm node comm me, intranodeRank node comm me root with
  | some members, some (rootRank + 1) =>
      if root = comm.idxOf me then
        send (process members 0) (.node, .bcast) (load here.tmpBuf 0 nbytes) (next here)
      else if localRank node comm me = 0 then
        recvAll (.node, .bcast) nbytes (process members (rootRank + 1)) next here
      else next here
  | _, _ => next here

/-- Such a root's node has its broadcast first, -/
def fromRoot (next : Local Byte → Party Tag Byte Result) (here : Local Byte) : Party Tag Byte Result :=
  match intranodeRank node comm me root with
  | some (rootRank + 1) => onNode node comm me nbytes (rootRank + 1) next here
  | _ => next here

/-- and the other nodes have it last. -/
def onOthers (next : Local Byte → Party Tag Byte Result) (here : Local Byte) : Party Tag Byte Result :=
  match intranodeRank node comm me root with
  | some (_ + 1) => next here
  | _ => onNode node comm me nbytes 0 next here

def smpBcast (next : Local Byte → Party Tag Byte Result) (here : Local Byte) : Party Tag Byte Result :=
  if intBytes nbytes = 0 then next here
  else if intBytes nbytes < bcastShortMsgSize ∨ comm.length < bcastMinProcs then
    toFirst node comm me root nbytes
      (amongRoots node comm me root nbytes bcastBinomial (onNode node comm me nbytes 0 next)) here
  else if intBytes nbytes < bcastLongMsgSize ∧ isPof2 comm.length then
    fromRoot node comm me root nbytes
      (amongRoots node comm me root nbytes scatterAllgather (onOthers node comm me root nbytes next)) here
  else scatterRingAllgather comm (.whole, .bcast) root (comm.idxOf me) nbytes next here

def bcastIntra (count typeSize : Nat) (next : Local Byte → Party Tag Byte Result)
    (here : Local Byte) : Party Tag Byte Result :=
  if count = 0 then next here
  else if isNodeAware node comm me then smpBcast node comm me root (typeSize * count) next here
  else if intBytes (typeSize * count) = 0 then next here
  else if intBytes (typeSize * count) < bcastShortMsgSize ∨ comm.length < bcastMinProcs then
    bcastBinomial comm (.whole, .bcast) root (comm.idxOf me) (typeSize * count) next here
  else if intBytes (typeSize * count) < bcastLongMsgSize ∧ isPof2 comm.length then
    scatterDoublingAllgather comm (.whole, .bcast) root (comm.idxOf me) (typeSize * count) next here
  else scatterRingAllgather comm (.whole, .bcast) root (comm.idxOf me) (typeSize * count) next here

/-- A size that wraps to 0 is taken for nothing to do, as with 2 ^ 29 doubles. -/
theorem wrapped_skips (count typeSize : Nat) (wraps : 2 ^ 32 ∣ typeSize * count)
    (next : Local Byte → Party Tag Byte Result) (here : Local Byte) :
    bcastIntra node comm me root count typeSize next here = next here := by
  have nothing : intBytes (typeSize * count) = 0 :=
    Int.bmod_eq_zero_of_dvd (Int.natCast_dvd_natCast.mpr wraps)
  simp only [bcastIntra, smpBcast, nothing, if_true, ite_self]

end Code

section Algorithms

theorem ceilPof2_power (val bit : Nat) : ∃ depth, ceilPof2 val bit = 2 ^ depth := by
  induction bit using ceilPof2.induct val with
  | case1 bit short ih =>
      rw [ceilPof2, if_pos short]
      exact ih
  | case2 bit long =>
      rw [ceilPof2, if_neg long]
      exact ⟨bit, rfl⟩

theorem isPof2_power (val : Nat) (power : isPof2 val = true) : ∃ depth, val = 2 ^ depth := by
  obtain ⟨depth, same⟩ := ceilPof2_power val 0
  exact ⟨depth, (of_decide_eq_true power).symm.trans same⟩

/-- The root's buffer reaches all members. -/
def Broadcasts (nbytes : Nat) (algorithm : Algorithm Byte Result) : Prop :=
  ∀ (members : List Nat) (tag : Tag) (root : Nat) (initial : Nat → Local Byte)
    (next : Nat → Local Byte → Party Tag Byte Result), members.Nodup → root < members.length →
    (∀ i ∈ members, (initial i).errflag = false) →
    Leads members (fun i => algorithm members tag root (members.idxOf i) nbytes (next i) (initial i))
      fun i => next i (reached members root nbytes initial i)

variable (nbytes : Nat) (sized : 0 < nbytes ∧ nbytes < 2 ^ 31)
include sized

theorem binomial_broadcasts : @Broadcasts Byte Result nbytes bcastBinomial :=
  fun _ tag _ initial next distinct known clean =>
    BufferTree.bcast_leads tag nbytes initial next distinct known clean sized.2 sized.1

theorem allgather_broadcasts : @Broadcasts Byte Result nbytes scatterAllgather := by
  intro members tag root initial next distinct known clean
  unfold scatterAllgather
  by_cases power : isPof2 members.length = true
  · obtain ⟨depth, exact⟩ := isPof2_power members.length power
    simp only [if_pos power]
    exact doubling_leads tag distinct known sized.1 exact initial next clean
  · simp only [if_neg power]
    exact ring_leads tag distinct known sized.1 initial next clean

end Algorithms

/-! Who has the root's buffer: it spreads to the members of every communicator that has a
broadcast whose root has it. -/
section Spreading
variable (node : Nat → Nat) {comm : List Nat} (nbytes : Nat) (original : Nat → Byte)
variable (initial : Nat → Local Byte) (next : Nat → Local Byte → Party Tag Byte Result)

/-- Those who are known to have it have the original, and the others what they started with. -/
def told (known : Nat → Bool) (i : Nat) : Local Byte :=
  if known i then complete nbytes original (initial i).tmpBuf else initial i

variable {nbytes original initial} {known : Nat → Bool}

theorem told_clean (i : Nat) (clean : (initial i).errflag = false) :
    (told nbytes original initial known i).errflag = false := by
  unfold told complete
  split
  · rfl
  · exact clean

theorem reached_told {members : List Nat} {root : Nat} (here : known (process members root) = true)
    (i : Nat) : reached members root nbytes (told nbytes original initial known) i =
      complete nbytes original (initial i).tmpBuf := by
  refine congrArg₂ Local.mk (funext fun address => ?_) rfl
  simp only [told, here, if_true, complete, filled]
  split
  · rfl
  · rename_i far
    split
    · exact if_neg far
    · rfl

variable (original) in
/-- What a broadcast does when its root has the original. -/
theorem told_broadcast {algorithm : Algorithm Byte Result} (broadcasts : Broadcasts nbytes algorithm)
    {members : List Nat} (tag : Tag) (root : Nat) (distinct : members.Nodup)
    (inside : root < members.length) (clean : ∀ i ∈ members, (initial i).errflag = false)
    (here : known (process members root) = true) : Leads members
    (fun i => algorithm members tag root (members.idxOf i) nbytes (next i)
      (told nbytes original initial known i))
    fun i => next i (complete nbytes original (initial i).tmpBuf) := by
  refine leads_congr (fun _ _ => rfl) (fun i _ => ?_) (broadcasts members tag root
    (told nbytes original initial known) next distinct inside fun i own => told_clean i (clean i own))
  rw [reached_told here]

variable (distinct : comm.Nodup) (clean : ∀ i ∈ comm, (initial i).errflag = false)
include distinct clean

/-- The first processes of the nodes tell each other. -/
theorem amongRoots_leads (aware : (heads node comm).length ≠ comm.length)
    {algorithm : Algorithm Byte Result} (broadcasts : Broadcasts nbytes algorithm)
    (root : Nat) (inside : root < comm.length)
    (here : ∀ e ∈ heads node comm, node e = node (process comm root) → known e = true) : Leads comm
    (fun i => amongRoots node comm i root nbytes algorithm (next i)
      (told nbytes original initial known i))
    fun i => next i
      (told nbytes original initial (fun i => decide (i ∈ heads node comm) || known i) i) := by
  obtain ⟨within, same⟩ := internodeRank_eq distinct node (process comm root) root inside
  refine roots_stage node distinct aware (fun members i => algorithm members (.nodeRoots, .bcast)
    (internodeRank node comm i root) (externalRank node comm i) nbytes (next i)
    (told nbytes original initial known i))
    (leads_congr (fun i member => ?_) (fun i member => ?_)
      (told_broadcast original next broadcasts (.nodeRoots, .bcast) _ (heads_distinct node comm) within
        (fun i member => clean i (heads_inside node comm i member)) (here _ (process_mem within) same)))
    fun i _ apart => ?_
  · rw [internodeRank_same distinct node i (process comm root), externalRank_eq distinct i member]
  · simp only [told, decide_eq_true member, Bool.true_or, if_true]
  · simp only [told, decide_eq_false apart, Bool.false_or]

variable (sized : 0 < nbytes ∧ nbytes < 2 ^ 31)
include sized

variable (original known) in
/-- One process of a node tells the others. -/
theorem onNode_leads (e rank : Nat) (found : e ∈ heads node comm)
    (inside : rank < (mates node comm e).length)
    (here : known (process (mates node comm e) rank) = true) : Leads (mates node comm e)
    (fun i => onNode node comm i nbytes rank (next i) (told nbytes original initial known i))
    fun i => next i (complete nbytes original (initial i).tmpBuf) := by
  have commOf : ∀ i ∈ mates node comm e, nodeComm node comm i =
      if 1 < (mates node comm e).length then some (mates node comm e) else none := fun i member => by
    rw [nodeComm_eq node comm distinct i,
      mates_same node comm i e ((mem_mates node comm e i).mp member).2]
  by_cases more : 1 < (mates node comm e).length
  · refine leads_congr (fun i member => ?_) (fun _ _ => rfl)
      (told_broadcast original next (binomial_broadcasts nbytes sized) (.node, .bcast) rank
        (mates_distinct node distinct e) inside
        (fun i member => clean i ((mem_mates node comm e i).mp member).1) here)
    simp only [onNode, commOf i member, if_pos more, localRank_eq distinct i e member]
  · have single := mates_alone node e found more
    refine leads_same fun i member => ?_
    simp only [onNode, commOf i member, if_neg more]
    rw [single] at member here
    obtain rfl := List.mem_singleton.mp member
    have first : rank = 0 := by
      rw [single] at inside
      exact Nat.lt_one_iff.mp inside
    subst first
    exact congrArg (next i) (if_pos here)

end Spreading

/-! The root's node. Its processes have to help when the root is not the first of them. -/
section RootNode
variable {node : Nat → Nat} {comm : List Nat} (distinct : comm.Nodup)
variable {root : Nat} (inside : root < comm.length)
include distinct inside

section First
variable (nbytes : Nat) (next : Local Byte → Party Tag Byte Result) (here : Local Byte)

theorem toFirst_direct (i : Nat)
    (direct : process comm root ∈ heads node comm ∨ node i ≠ node (process comm root)) :
    toFirst node comm i root nbytes next here = next here := by
  unfold toFirst
  split
  · rename_i rootRank _ ranked
    exact absurd ranked (intranodeRank_direct distinct i root inside direct rootRank)
  · rfl

/-- A root that is not the first process `e` of its node. -/
theorem toFirst_near (later : process comm root ∉ heads node comm) (e : Nat)
    (found : e ∈ heads node comm) (near : node e = node (process comm root)) (i : Nat)
    (member : i ∈ mates node comm e) : toFirst node comm i root nbytes next here =
      if i = process comm root then
        send e (.node, .bcast) (load here.tmpBuf 0 nbytes) (next here)
      else if i = e then recvAll (.node, .bcast) nbytes (process comm root) next here
      else next here := by
  obtain ⟨own, beside⟩ := (mem_mates node comm e i).mp member
  have same := mates_same node comm i e beside
  obtain ⟨rootRank, ranked, within, placed⟩ :=
    intranodeRank_later distinct i root inside later (beside.trans near)
  rw [same] at within placed
  rw [toFirst, nodeComm_eq node comm distinct i, same, if_pos (by omega), ranked]
  simp only [idxOf_root distinct i root own inside, localRank_zero node distinct e found i member,
    (head_process node e found).2, placed]

end First

section Stages
variable (nbytes : Nat) (initial : Nat → Local Byte)
variable (next : Nat → Local Byte → Party Tag Byte Result)
variable (clean : ∀ i ∈ comm, (initial i).errflag = false) (sized : 0 < nbytes ∧ nbytes < 2 ^ 31)

/-- Who has the root's buffer when the first process of its node has it, -/
def firstKnown (node : Nat → Nat) (comm : List Nat) (root i : Nat) : Bool :=
  i = process comm root || (i ∈ heads node comm && node i = node (process comm root))

/-- and who has it after the broadcast on a node whose first process is not the root. -/
def nodeKnown (node : Nat → Nat) (comm : List Nat) (root i : Nat) : Bool :=
  i = process comm root || (process comm root ∉ heads node comm && node i = node (process comm root))

variable (root) in
omit distinct inside in
theorem told_root (i : Nat) (own : i ∈ comm) (known : Nat → Bool)
    (alone : known i = true → i = process comm root)
    (clean : ∀ i ∈ comm, (initial i).errflag = false) :
    told nbytes (initial (process comm root)).tmpBuf initial known i = initial i := by
  unfold told
  split
  · rename_i knows
    rw [← alone knows]
    exact (own_complete nbytes (initial i) (clean i own)).symm
  · rfl

include clean sized

theorem toFirst_leads : Leads comm (fun i => toFirst node comm i root nbytes (next i) (initial i))
    fun i => next i (told nbytes (initial (process comm root)).tmpBuf initial
      (firstKnown node comm root) i) := by
  have own : process comm root ∈ comm := process_mem inside
  by_cases first : process comm root ∈ heads node comm
  · refine leads_same fun i member => ?_
    rw [toFirst_direct distinct inside nbytes _ _ i (Or.inl first), told_root root nbytes initial i member _
      (fun knows => ?_) clean]
    rcases Bool.or_eq_true_iff.mp knows with root | head
    · exact of_decide_eq_true root
    · obtain ⟨found, near⟩ := Bool.and_eq_true_iff.mp head
      exact heads_apart node comm i _ (of_decide_eq_true found) first (of_decide_eq_true near)
  · obtain ⟨e, found, near⟩ := heads_covers node comm (process comm root) own
    have apart : e ≠ process comm root := fun same => first (same ▸ found)
    have member := mates_leader node e found
    have others : ∀ i ∈ comm, i ≠ e → told nbytes (initial (process comm root)).tmpBuf initial
        (firstKnown node comm root) i = initial i := fun i member away => by
      refine told_root root nbytes initial i member _ (fun knows => ?_) clean
      rcases Bool.or_eq_true_iff.mp knows with root | head
      · exact of_decide_eq_true root
      · obtain ⟨here, beside⟩ := Bool.and_eq_true_iff.mp head
        exact absurd (heads_apart node comm i e (of_decide_eq_true here) found
          ((of_decide_eq_true beside).trans near.symm)) away
    refine messages_lead (.node, .bcast) (fun i => load (initial i).tmpBuf 0 nbytes)
      (paired_single own (heads_inside node comm e found)) ?_ ?_ ?_ ?_
    · intro i sends _
      obtain rfl := List.mem_singleton.mp sends
      have together : process comm root ∈ mates node comm e :=
        (mem_mates node comm e _).mpr ⟨own, near.symm⟩
      rw [toFirst_near distinct inside nbytes _ _ first e found near _ together, if_pos rfl,
        others _ own apart.symm]
    · intro i receives _
      obtain rfl := List.mem_singleton.mp receives
      obtain ⟨following, shape, follows⟩ := recvAll_complete nbytes
        (initial (process comm root)).tmpBuf (.node, .bcast) (process comm root) (next i) (initial i)
        (clean i (heads_inside node comm i found)) sized.2
      refine ⟨following, ?_, ?_⟩
      · rw [toFirst_near distinct inside nbytes _ _ first i found near i member, if_neg apart, if_pos rfl,
          shape]
      · rw [follows, told, if_pos]
        simp [firstKnown, found, near]
    · intro i sends receives
      exact absurd ((List.mem_singleton.mp receives).symm.trans (List.mem_singleton.mp sends)) apart
    · intro i member silent deaf
      rw [List.mem_singleton] at silent deaf
      rw [others i member deaf]
      by_cases beside : node i = node (process comm root)
      · rw [toFirst_near distinct inside nbytes _ _ first e found near i
          ((mem_mates node comm e i).mpr ⟨member, beside.trans near.symm⟩), if_neg silent, if_neg deaf]
      · rw [toFirst_direct distinct inside nbytes _ _ i (Or.inr beside)]

theorem fromRoot_leads : Leads comm (fun i => fromRoot node comm i root nbytes (next i) (initial i))
    fun i => next i (told nbytes (initial (process comm root)).tmpBuf initial
      (nodeKnown node comm root) i) := by
  refine nodes_lead node fun e found => ?_
  by_cases helps : process comm root ∉ heads node comm ∧ node e = node (process comm root)
  · obtain ⟨rootRank, ranked, within, placed⟩ :=
      intranodeRank_later distinct e root inside helps.1 helps.2
    let rooted : Nat → Bool := fun i => i = process comm root
    refine leads_congr (fun i member => ?_) (fun i member => ?_)
      (onNode_leads node (initial (process comm root)).tmpBuf next rooted distinct clean sized e
        (rootRank + 1) found within (decide_eq_true placed))
    · obtain ⟨own, beside⟩ := (mem_mates node comm e i).mp member
      have same : intranodeRank node comm i root = some (rootRank + 1) := by
        rw [← ranked, intranodeRank_eq distinct i root inside, intranodeRank_eq distinct e root inside,
          mates_same node comm i e beside]
      rw [fromRoot, same, told_root root nbytes initial i own rooted of_decide_eq_true clean]
    · obtain ⟨_, beside⟩ := (mem_mates node comm e i).mp member
      have knows : nodeKnown node comm root i = true := by
        simp [nodeKnown, helps.1, beside.trans helps.2]
      rw [told, if_pos knows]
  · refine leads_same fun i member => ?_
    obtain ⟨own, beside⟩ := (mem_mates node comm e i).mp member
    have direct : process comm root ∈ heads node comm ∨ node i ≠ node (process comm root) := by
      rw [beside]
      tauto
    have idle : fromRoot node comm i root nbytes (next i) (initial i) = next i (initial i) := by
      unfold fromRoot
      split
      · rename_i rootRank ranked
        exact absurd ranked (intranodeRank_direct distinct i root inside direct rootRank)
      · rfl
    rw [idle, told_root root nbytes initial i own _ (fun knows => ?_) clean]
    rcases Bool.or_eq_true_iff.mp knows with root | near
    · exact of_decide_eq_true root
    · obtain ⟨later, together⟩ := Bool.and_eq_true_iff.mp near
      have here : node i = node (process comm root) := of_decide_eq_true together
      exact absurd direct (not_or.mpr ⟨of_decide_eq_true later, not_not.mpr here⟩)

theorem onOthers_leads : Leads comm
    (fun i => onOthers node comm i root nbytes (next i) (told nbytes (initial (process comm root)).tmpBuf
      initial (fun i => decide (i ∈ heads node comm) || nodeKnown node comm root i) i))
    fun i => next i (complete nbytes (initial (process comm root)).tmpBuf (initial i).tmpBuf) := by
  refine nodes_lead node fun e found => ?_
  by_cases helps : process comm root ∉ heads node comm ∧ node e = node (process comm root)
  · refine leads_same fun i member => ?_
    obtain ⟨_, beside⟩ := (mem_mates node comm e i).mp member
    obtain ⟨rootRank, ranked, _⟩ := intranodeRank_later distinct i root inside helps.1
      (beside.trans helps.2)
    have knows : (decide (i ∈ heads node comm) || nodeKnown node comm root i) = true := by
      simp [nodeKnown, helps.1, beside.trans helps.2]
    simp only [onOthers, ranked]
    rw [told, if_pos knows]
  · obtain ⟨positive, head⟩ := head_process node e found
    refine leads_congr (fun i member => ?_) (fun _ _ => rfl)
      (onNode_leads node (initial (process comm root)).tmpBuf next
        (fun i => decide (i ∈ heads node comm) || nodeKnown node comm root i) distinct clean sized e 0
        found positive ?_)
    · obtain ⟨own, beside⟩ := (mem_mates node comm e i).mp member
      have direct : process comm root ∈ heads node comm ∨ node i ≠ node (process comm root) := by
        rw [beside]
        tauto
      unfold onOthers
      split
      · rename_i rootRank ranked
        exact absurd ranked (intranodeRank_direct distinct i root inside direct rootRank)
      · rfl
    · rw [head, decide_eq_true found, Bool.true_or]

end Stages

section Whole
variable (nbytes : Nat) (initial : Nat → Local Byte)
variable (next : Nat → Local Byte → Party Tag Byte Result)
variable (clean : ∀ i ∈ comm, (initial i).errflag = false)
include clean

omit distinct inside in
theorem complete_nothing (original : Nat → Byte) (i : Nat) (own : i ∈ comm) :
    complete 0 original (initial i).tmpBuf = initial i :=
  own_complete 0 (initial i) (clean i own) ▸ rfl

variable (node) in
theorem smpBcast_leads (sized : 0 < nbytes ∧ nbytes < 2 ^ 31)
    (aware : (heads node comm).length ≠ comm.length) : Leads comm
    (fun i => smpBcast node comm i root nbytes (next i) (initial i))
    fun i => next i (complete nbytes (initial (process comm root)).tmpBuf (initial i).tmpBuf) := by
  have something : ¬intBytes nbytes = 0 := by
    rw [intBytes_fits nbytes sized.2]
    omega
  unfold smpBcast
  simp only [if_neg something]
  split
  · refine leads_trans (toFirst_leads distinct inside nbytes initial _ clean sized)
      (leads_trans (amongRoots_leads node _ distinct clean aware (binomial_broadcasts nbytes sized) root
        inside fun e found near => ?_) (nodes_lead node fun e found => ?_))
    · simp [firstKnown, found, near]
    · obtain ⟨positive, head⟩ := head_process node e found
      exact onNode_leads node _ next _ distinct clean sized e 0 found positive
        (by rw [head, decide_eq_true found, Bool.true_or])
  · split
    · refine leads_trans (fromRoot_leads distinct inside nbytes initial _ clean sized)
        (leads_trans (amongRoots_leads node _ distinct clean aware (allgather_broadcasts nbytes sized) root
          inside fun e found near => ?_) (onOthers_leads distinct inside nbytes initial next clean sized))
      by_cases first : process comm root ∈ heads node comm
      · simp [nodeKnown, heads_apart node comm e _ found first near]
      · simp [nodeKnown, first, near]
    · exact ring_leads (.whole, .bcast) distinct inside sized.1 initial next clean

theorem bcastIntra_leads (fits : nbytes < 2 ^ 31) (count typeSize : Nat → Nat)
    (sizes : ∀ i ∈ comm, typeSize i * count i = nbytes) : Leads comm
    (fun i => bcastIntra node comm i root (count i) (typeSize i) (next i) (initial i))
    fun i => next i (complete nbytes (initial (process comm root)).tmpBuf (initial i).tmpBuf) := by
  rcases Nat.eq_zero_or_pos nbytes with rfl | sized
  · refine leads_same fun i own => ?_
    simp only [bcastIntra, sizes i own, smpBcast, intBytes_fits 0 fits, Int.natCast_zero, if_true, ite_self,
      complete_nothing initial clean _ i own]
  · have counted : ∀ i ∈ comm, ¬count i = 0 := fun i own none => by
      have size := sizes i own
      rw [none, Nat.mul_zero] at size
      omega
    have something : ¬intBytes nbytes = 0 := by
      rw [intBytes_fits nbytes fits]
      omega
    by_cases aware : (heads node comm).length ≠ comm.length
    · refine leads_congr (fun i own => ?_) (fun _ _ => rfl)
        (smpBcast_leads node distinct inside nbytes initial next clean ⟨sized, fits⟩ aware)
      rw [bcastIntra, if_neg (counted i own), if_pos ((isNodeAware_iff node comm distinct i).mpr aware),
        sizes i own]
    · have flat : ∀ i ∈ comm, bcastIntra node comm i root (count i) (typeSize i) (next i) (initial i) =
          if intBytes nbytes < bcastShortMsgSize ∨ comm.length < bcastMinProcs then
            bcastBinomial comm (.whole, .bcast) root (comm.idxOf i) nbytes (next i) (initial i)
          else if intBytes nbytes < bcastLongMsgSize ∧ isPof2 comm.length then
            scatterDoublingAllgather comm (.whole, .bcast) root (comm.idxOf i) nbytes (next i) (initial i)
          else scatterRingAllgather comm (.whole, .bcast) root (comm.idxOf i) nbytes (next i)
            (initial i) := fun i own => by
        rw [bcastIntra, if_neg (counted i own), if_neg fun holds =>
          aware ((isNodeAware_iff node comm distinct i).mp holds), sizes i own, if_neg something]
      refine leads_congr flat (fun _ _ => rfl) ?_
      split
      · exact BufferTree.bcast_leads (.whole, .bcast) nbytes initial next distinct inside clean fits sized
      · split
        · rename_i medium
          obtain ⟨depth, power⟩ := isPof2_power comm.length medium.2
          exact doubling_leads (.whole, .bcast) distinct inside sized power initial next clean
        · exact ring_leads (.whole, .bcast) distinct inside sized initial next clean

end Whole

end RootNode

section Filled
variable (node : Nat → Nat) (comm : List Nat) (distinct : comm.Nodup)
include distinct

/-- Whatever the size of the message, as long as the `int`s hold its sizes and offsets, every
process ends with the root's bytes in its buffer, with what it had behind them, and without an
error. -/
theorem broadcast_fills (root : Nat) (inside : root < comm.length) (nbytes : Nat)
    (fits : nbytes + comm.length ≤ 2 ^ 31) (count typeSize : Nat → Nat)
    (sizes : ∀ i ∈ comm, typeSize i * count i = nbytes)
    (buffer : Nat → Nat → Byte) (system : System Tag (List Byte) (Local Byte))
    (idle : system.channel = quiet) (started : ∀ i ∈ comm, system.process i =
      bcastIntra node comm i root (count i) (typeSize i) .ended ⟨buffer i, false⟩)
    (others : ∀ i ∉ comm, ∃ last, system.process i = .ended last) :
    Settles comm system fun i => ⟨filled nbytes (buffer (process comm root)) (buffer i), false⟩ :=
  leads_settles (bcastIntra_leads distinct inside nbytes (fun i => ⟨buffer i, false⟩) (fun _ => .ended)
    (fun _ _ => rfl) (by omega) count typeSize sizes) system idle started others

end Filled

theorem broadcast_fills_eight : Settles (List.range 8)
    ⟨fun i => if i ∈ List.range 8 then
      bcastIntra (· / 2) (List.range 8) i 3 12288 4 .ended ⟨fun address => address + i, false⟩
      else .ended ⟨fun _ => 0, false⟩, quiet⟩
    fun i => ⟨filled 49152 (fun address => address + 3) (fun address => address + i), false⟩ :=
  broadcast_fills (· / 2) (List.range 8) List.nodup_range 3 (by decide) 49152 (by decide)
    (fun _ => 12288) (fun _ => 4) (fun _ _ => rfl) (fun i address => address + i) _ rfl (fun i member => if_pos member)
    fun i apart => ⟨⟨fun _ => 0, false⟩, if_neg apart⟩

end EE360P.SizedBroadcast
