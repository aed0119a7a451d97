import EE360P.DisseminationBarrier
import EE360P.NodePlacement

/-! `MPI_Bcast` of short messages and `MPI_Barrier` as MPICH runs them on processes that
are placed on nodes: `MPIR_Bcast_intra` and `MPIR_SMP_Bcast` of `coll/bcast.c`,
`MPIR_Barrier_intra` and `barrier_smp_intra` of `coll/barrier.c`. All control variables
have their default values. -/

namespace EE360P.NodeCollectives
open ConfluentRuns PointToPoint MessageRules HeardMessages NodePlacement DisseminationBarrier
open BroadcastTree

variable {Message Result : Type}

/-- The context of a communicator, of its `node_comm` and of its `node_roots_comm`. -/
inductive Context where
  | whole | node | nodeRoots
  deriving DecidableEq, Repr

inductive Operation where
  | bcast | barrier | scatterv | gatherv
  deriving DecidableEq, Repr

abbrev Tag := Context × Operation

section Code
variable (node : Nat → Nat) (comm : List Nat) (me : Nat)

def localRank : Nat := (findLocalAndExternal node comm me).localRank.getD 0

def externalRank : Nat := (findLocalAndExternal node comm me).externalRank.getD 0

/-- `MPIU_Get_intranode_rank` -/
def intranodeRank (rank : Nat) : Option Nat :=
  (findLocalAndExternal node comm me).intranodeTable.getD rank none

/-- `MPIU_Get_internode_rank` -/
def internodeRank (rank : Nat) : Nat :=
  ((findLocalAndExternal node comm me).internodeTable.getD rank none).getD 0

/-- The broadcast among the processes of a node. -/
def intranodeBcast (next : Message → Process Tag Message Result) (buffer : Message) :
    Process Tag Message Result :=
  match nodeComm node comm me with
  | some members =>
      bcastBinomial members (.node, .bcast) 0 (localRank node comm me) buffer next
  | none => next buffer

/-- The broadcast among the first processes of the nodes, and what follows it. -/
def internodeBcast (root : Nat) (next : Message → Process Tag Message Result) (buffer : Message) :
    Process Tag Message Result :=
  match nodeRootsComm node comm me with
  | some members =>
      bcastBinomial members (.nodeRoots, .bcast) (internodeRank node comm me root)
        (externalRank node comm me) buffer (intranodeBcast node comm me next)
  | none => intranodeBcast node comm me next buffer

/-- A root that is not the first process of its node starts with a message to that one. -/
def smpBcast (root : Nat) (buffer : Message) (next : Message → Process Tag Message Result) :
    Process Tag Message Result :=
  match nodeComm node comm me, intranodeRank node comm me root with
  | some members, some (rootRank + 1) =>
      if root = comm.idxOf me then
        send (process members 0) (.node, .bcast) buffer (internodeBcast node comm me root next buffer)
      else if localRank node comm me = 0 then
        recv (process members (rootRank + 1)) (.node, .bcast) (internodeBcast node comm me root next)
      else internodeBcast node comm me root next buffer
  | _, _ => internodeBcast node comm me root next buffer

def bcastIntra (root count : Nat) (buffer : Message) (next : Message → Process Tag Message Result) :
    Process Tag Message Result :=
  if count = 0 then next buffer
  else if isNodeAware node comm me then smpBcast node comm me root buffer next
  else bcastBinomial comm (.whole, .bcast) root (comm.idxOf me) buffer next

variable (empty released : Message) (next : Process Tag Message Result)

/-- The 1-byte broadcast that ends the barrier of a node. -/
def release : Process Tag Message Result :=
  match nodeComm node comm me with
  | some members =>
      bcastBinomial members (.node, .bcast) 0 (localRank node comm me) released fun _ => next
  | none => next

def rootsBarrier : Process Tag Message Result :=
  match nodeRootsComm node comm me with
  | some members =>
      barrierIntra members (.nodeRoots, .barrier) (externalRank node comm me) empty
        (release node comm me released next)
  | none => release node comm me released next

def barrierSmpIntra : Process Tag Message Result :=
  match nodeComm node comm me with
  | some members =>
      barrierIntra members (.node, .barrier) (localRank node comm me) empty
        (rootsBarrier node comm me empty released next)
  | none => rootsBarrier node comm me empty released next

/-- `MPIR_Barrier_intra` on a communicator that may be node-aware. -/
def barrier : Process Tag Message Result :=
  if comm.length = 1 then next
  else if isNodeAware node comm me then barrierSmpIntra node comm me empty released next
  else rounds comm (.whole, .barrier) (comm.idxOf me) empty next 0

end Code

section Ranks
variable {node : Nat → Nat} {comm : List Nat} (distinct : comm.Nodup)

theorem idxOf?_mem {found : List Nat} {i : Nat} (member : i ∈ found) :
    found.idxOf? i = some (found.idxOf i) := by
  rw [List.idxOf?, List.findIdx?_eq_some_iff_findIdx_eq]
  exact ⟨List.idxOf_lt_length_of_mem member, rfl⟩

include distinct

theorem localRank_eq (i e : Nat) (member : i ∈ mates node comm e) :
    localRank node comm i = (mates node comm e).idxOf i := by
  have same := ((mem_mates node comm e i).mp member).2
  rw [localRank, (locates node i comm distinct).localRank, mates_same node comm i e same,
    idxOf?_mem member]
  rfl

theorem externalRank_eq (i : Nat) (member : i ∈ heads node comm) :
    externalRank node comm i = (heads node comm).idxOf i := by
  rw [externalRank, (locates node i comm distinct).externalRank, idxOf?_mem member]
  rfl

theorem intranodeRank_eq (me root : Nat) (inside : root < comm.length) :
    intranodeRank node comm me root = (mates node comm me).idxOf? (process comm root) := by
  rw [intranodeRank, (locates node me comm distinct).intranodeTable, process,
    List.getD_eq_getElem _ _ (by simpa using inside), List.getElem_map,
    List.getD_eq_getElem _ _ inside]

/-- All processes find the first process of the root's node in the same place. -/
theorem internodeRank_eq (node : Nat → Nat) (me root : Nat) (inside : root < comm.length) :
    internodeRank node comm me root < (heads node comm).length ∧
      node (process (heads node comm) (internodeRank node comm me root)) =
        node (process comm root) := by
  obtain ⟨e, found, same⟩ := heads_covers node comm (process comm root) (process_mem inside)
  have known : ((heads node comm).findIdx? (node · = node (process comm root))).isSome := by
    rw [List.findIdx?_isSome]
    exact List.any_eq_true.mpr ⟨e, found, decide_eq_true same⟩
  obtain ⟨place, here⟩ := Option.isSome_iff_exists.mp known
  have ranked : internodeRank node comm me root = place := by
    rw [internodeRank, (locates node me comm distinct).internodeTable,
      List.getD_eq_getElem _ _ (by simpa using inside), List.getElem_map]
    rw [process, List.getD_eq_getElem _ _ inside] at here
    rw [here]
    rfl
  obtain ⟨within, found, _⟩ := List.findIdx?_eq_some_iff_getElem.mp here
  rw [ranked]
  refine ⟨within, ?_⟩
  rw [process, List.getD_eq_getElem _ _ within]
  exact of_decide_eq_true found

/-- All processes agree on that place. -/
theorem internodeRank_same (node : Nat → Nat) (i j root : Nat) :
    internodeRank node comm i root = internodeRank node comm j root := by
  rw [internodeRank, internodeRank, (locates node i comm distinct).internodeTable,
    ← (locates node j comm distinct).internodeTable]

/-- The root needs no help of its node, or is on another one. -/
theorem intranodeRank_direct (i root : Nat) (inside : root < comm.length)
    (direct : process comm root ∈ heads node comm ∨ node i ≠ node (process comm root)) (rootRank : Nat) :
    intranodeRank node comm i root ≠ some (rootRank + 1) := by
  intro ranked
  rw [intranodeRank_eq distinct i root inside] at ranked
  have near := ((mem_mates node comm i _).mp
    (List.isSome_idxOf?.mp (Option.isSome_of_mem ranked))).2
  rcases direct with first | far
  · rw [← mates_same node comm (process comm root) i near,
      (heads_iff node comm _ (process_mem inside)).mp first] at ranked
    cases ranked
  · exact far near.symm

/-- The root is somewhere behind the first process of its node. -/
theorem intranodeRank_later (i root : Nat) (inside : root < comm.length)
    (later : process comm root ∉ heads node comm) (near : node i = node (process comm root)) :
    ∃ rootRank, intranodeRank node comm i root = some (rootRank + 1) ∧
      rootRank + 1 < (mates node comm i).length ∧
      process (mates node comm i) (rootRank + 1) = process comm root := by
  have together : process comm root ∈ mates node comm i :=
    (mem_mates node comm i _).mpr ⟨process_mem inside, near.symm⟩
  have behind : (mates node comm i).idxOf (process comm root) ≠ 0 := fun zero => by
    refine later ((heads_iff node comm _ (process_mem inside)).mpr ?_)
    rw [← mates_same node comm i _ near, idxOf?_mem together, zero]
  obtain ⟨rootRank, place⟩ := Nat.exists_eq_succ_of_ne_zero behind
  have within := List.idxOf_lt_length_of_mem together
  have placed : process (mates node comm i) ((mates node comm i).idxOf (process comm root)) =
      process comm root := process_idxOf _ together
  rw [place] at within placed
  refine ⟨rootRank, ?_, within, placed⟩
  rw [intranodeRank_eq distinct i root inside, idxOf?_mem together, place]

theorem idxOf_root (i root : Nat) (own : i ∈ comm) (inside : root < comm.length) :
    root = comm.idxOf i ↔ i = process comm root := by
  constructor
  · rintro rfl
    exact (process_idxOf i own).symm
  · rintro rfl
    rw [idxOf_process distinct inside]

/-- What one process finds is what its partners find: whether communicators are made, the same
members of them for each of these, who have their places in it, and the tables lead to these
places. Where communicators are made, each node has one process that leads it. -/
structure Consistent (node : Nat → Nat) (comm : List Nat) (me : Nat) : Prop where
  aware : ∀ other, isNodeAware node comm other = isNodeAware node comm me
  plain : isNodeAware node comm me = false →
    nodeComm node comm me = none ∧ nodeRootsComm node comm me = none
  mates : ∀ members, nodeComm node comm me = some members →
    members = comm.filter (node · = node me) ∧ process members (localRank node comm me) = me ∧
    ∀ mate ∈ members, nodeComm node comm mate = some members
  alone : nodeComm node comm me = none → ∀ other ∈ comm, node other = node me → other = me
  roots : ∀ roots, nodeRootsComm node comm me = some roots →
    process roots (externalRank node comm me) = me ∧
    (∀ root ∈ roots, nodeRootsComm node comm root = some roots) ∧
    ∀ i ∈ comm, ∃ root ∈ roots, node root = node i ∧
      ∀ other ∈ roots, node other = node i → other = root
  rooted : isNodeAware node comm me = true → ∃ root ∈ comm, node root = node me ∧
    ∀ other ∈ comm, node other = node me → ((nodeRootsComm node comm other).isSome ↔ other = root)
  intranode : ∀ rank < comm.length, ∀ place, intranodeRank node comm me rank = some place ↔
    node (process comm rank) = node me ∧ localRank node comm (process comm rank) = place
  internode : ∀ rank < comm.length,
    node (process (heads node comm) (internodeRank node comm me rank)) = node (process comm rank)

theorem placement_consistent (node : Nat → Nat) (me : Nat) (own : me ∈ comm) :
    Consistent node comm me := by
  have mine : me ∈ mates node comm me := (mem_mates node comm me me).mpr ⟨own, rfl⟩
  have alike : ∀ other, isNodeAware node comm other = isNodeAware node comm me := fun other =>
    Bool.eq_iff_iff.mpr
      ((isNodeAware_iff node comm distinct other).trans (isNodeAware_iff node comm distinct me).symm)
  refine ⟨alike, fun plain => ?_, fun members some => ?_, fun none other there near => ?_,
    fun roots some => ?_, fun aware => ?_, fun rank inside place => ?_,
    fun rank inside => (internodeRank_eq distinct node me rank inside).2⟩
  · simp [nodeComm, nodeRootsComm, plain]
  · rw [nodeComm_eq node comm distinct me] at some
    split at some
    · rename_i more
      obtain rfl := Option.some.inj some
      refine ⟨rfl, ?_, fun mate member => ?_⟩
      · rw [localRank_eq distinct me me mine, process_idxOf me mine]
      · rw [nodeComm_eq node comm distinct mate,
          mates_same node comm mate me ((mem_mates node comm me mate).mp member).2, if_pos more]
    · cases some
  · rw [nodeComm_eq node comm distinct me] at none
    split at none
    · cases none
    · rename_i alone
      obtain ⟨only, single⟩ := List.length_eq_one_iff.mp
        (Nat.le_antisymm (Nat.not_lt.mp alone) (List.length_pos_of_mem mine))
      have theirs : other ∈ mates node comm me := (mem_mates node comm me other).mpr ⟨there, near⟩
      rw [single, List.mem_singleton] at mine theirs
      exact theirs.trans mine.symm
  · rw [nodeRootsComm_eq node comm distinct me own] at some
    split at some
    · rename_i found
      obtain rfl := Option.some.inj some
      refine ⟨?_, fun root member => ?_, fun i there => ?_⟩
      · rw [externalRank_eq distinct me found.2, process_idxOf me found.2]
      · rw [nodeRootsComm_eq node comm distinct root (heads_inside node comm root member),
          if_pos ⟨found.1, member⟩]
      · obtain ⟨root, member, same⟩ := heads_covers node comm i there
        exact ⟨root, member, same, fun other among near =>
          heads_apart node comm other root among member (near.trans same.symm)⟩
    · cases some
  · have made := (isNodeAware_iff node comm distinct me).mp aware
    obtain ⟨root, member, same⟩ := heads_covers node comm me own
    refine ⟨root, heads_inside node comm root member, same, fun other there near => ?_⟩
    rw [nodeRootsComm_eq node comm distinct other there]
    constructor
    · intro leads
      by_cases among : other ∈ heads node comm
      · exact heads_apart node comm other root among member (near.trans same.symm)
      · rw [if_neg fun both => among both.2] at leads
        cases leads
    · rintro rfl
      rw [if_pos ⟨made, member⟩]
      rfl
  · have there := process_mem inside
    rw [intranodeRank_eq distinct me rank inside]
    by_cases near : node (process comm rank) = node me
    · have member : process comm rank ∈ mates node comm me :=
        (mem_mates node comm me _).mpr ⟨there, near⟩
      rw [idxOf?_mem member, localRank_eq distinct _ me member, Option.some_inj]
      exact ⟨fun same => ⟨near, same⟩, And.right⟩
    · have absent : process comm rank ∉ mates node comm me := fun member =>
        near ((mem_mates node comm me _).mp member).2
      rw [List.idxOf?_eq_none_iff.mpr absent]
      exact ⟨fun absent => absurd absent.symm (Option.some_ne_none place), fun both => absurd both.1 near⟩

end Ranks

theorem placement_consistent_four : Consistent (· / 2) [0, 1, 2, 4] 2 :=
  placement_consistent (by decide) (· / 2) 2 (by decide)

section Broadcast
variable (node : Nat → Nat) {comm : List Nat}

/-- What the processes of every node do among themselves, all processes do. -/
theorem nodes_lead {before after : Programs Tag Message Result}
    (each : ∀ e ∈ heads node comm, Leads (mates node comm e) before after) :
    Leads comm before after := by
  refine leads_members ?_ (leads_groups ((heads node comm).map (mates node comm)) ?_ ?_)
  · intro i
    simp only [List.mem_flatten, List.mem_map, exists_exists_and_eq_and, mem_mates]
    constructor
    · rintro ⟨_, _, member, _⟩
      exact member
    · intro member
      obtain ⟨e, found, same⟩ := heads_covers node comm i member
      exact ⟨e, found, member, same.symm⟩
  · rw [List.pairwise_map]
    refine (heads_distinct node comm).imp_of_mem fun here there apart i own other => apart ?_
    exact heads_apart node comm _ _ here there
      (((mem_mates node comm _ i).mp own).2.symm.trans ((mem_mates node comm _ i).mp other).2)
  · intro group member
    obtain ⟨e, found, rfl⟩ := List.mem_map.mp member
    exact each e found

theorem head_process (e : Nat) (found : e ∈ heads node comm) :
    0 < (mates node comm e).length ∧ process (mates node comm e) 0 = e := by
  have first := heads_first node comm e found
  cases shape : mates node comm e with
  | nil => simp [shape] at first
  | cons head rest =>
      obtain rfl : head = e := by simpa [shape] using first
      exact ⟨Nat.succ_pos _, rfl⟩

theorem mates_leader (e : Nat) (found : e ∈ heads node comm) : e ∈ mates node comm e :=
  (mem_mates node comm e e).mpr ⟨heads_inside node comm e found, rfl⟩

theorem mates_alone (e : Nat) (found : e ∈ heads node comm)
    (alone : ¬1 < (mates node comm e).length) : mates node comm e = [e] := by
  have first := heads_first node comm e found
  match shape : mates node comm e with
  | [] => simp [shape] at first
  | [head] =>
      rw [shape] at first
      rw [Option.some.inj first]
  | head :: second :: rest => simp [shape] at alone

theorem leader_mates (e : Nat) (found : e ∈ heads node comm) (i : Nat)
    (member : i ∈ mates node comm e) : leader node comm i = e := by
  obtain ⟨own, near⟩ := (mem_mates node comm e i).mp member
  obtain ⟨here, same⟩ := leader_found node comm i own
  exact heads_apart node comm _ e here found (same.trans near)

variable (distinct : comm.Nodup) (aware : (heads node comm).length ≠ comm.length)
variable (next : Nat → Message → Process Tag Message Result) (buffer : Nat → Message)
include distinct

theorem localRank_zero (e : Nat) (found : e ∈ heads node comm) (i : Nat)
    (member : i ∈ mates node comm e) : localRank node comm i = 0 ↔ i = e := by
  obtain ⟨positive, head⟩ := head_process node e found
  rw [localRank_eq distinct i e member]
  constructor
  · intro zero
    exact (process_idxOf i member).symm.trans (zero ▸ head)
  · rintro rfl
    have zero := idxOf_process (mates_distinct node distinct i) positive
    rwa [head] at zero

/-- A stage that the processes of every node go through together. -/
theorem node_stage (body : List Nat → Programs Tag Message Result)
    {otherwise after : Programs Tag Message Result}
    (each : ∀ e ∈ heads node comm, 1 < (mates node comm e).length →
      Leads (mates node comm e) (body (mates node comm e)) after)
    (alone : ∀ e ∈ heads node comm, mates node comm e = [e] → otherwise e = after e) :
    Leads comm (fun i => match nodeComm node comm i with
      | some members => body members i
      | none => otherwise i) after := by
  refine nodes_lead node fun e found => ?_
  have commOf : ∀ i ∈ mates node comm e, nodeComm node comm i =
      if 1 < (mates node comm e).length then some (mates node comm e) else none := fun i member => by
    rw [nodeComm_eq node comm distinct i,
      mates_same node comm i e ((mem_mates node comm e i).mp member).2]
  by_cases more : 1 < (mates node comm e).length
  · refine leads_congr (fun i member => ?_) (fun _ _ => rfl) (each e found more)
    rw [commOf i member, if_pos more]
  · have single := mates_alone node e found more
    refine leads_same fun i member => ?_
    rw [commOf i member, if_neg more]
    rw [single] at member
    obtain rfl := List.mem_singleton.mp member
    exact alone i found single

include aware in
/-- A stage that only the first processes of the nodes go through. -/
theorem roots_stage (body : List Nat → Programs Tag Message Result)
    {otherwise after : Programs Tag Message Result}
    (among : Leads (heads node comm) (body (heads node comm)) after)
    (others : ∀ i ∈ comm, i ∉ heads node comm → otherwise i = after i) :
    Leads comm (fun i => match nodeRootsComm node comm i with
      | some members => body members i
      | none => otherwise i) after := by
  refine leads_wider (heads_inside node comm) (fun i member apart => ?_)
    (leads_congr (fun i member => ?_) (fun _ _ => rfl) among)
  · rw [nodeRootsComm_eq node comm distinct i member, if_neg fun both => apart both.2]
    exact others i member apart
  · rw [nodeRootsComm_eq node comm distinct i (heads_inside node comm i member), if_pos ⟨aware, member⟩]

theorem intranode_leads : Leads comm
    (fun i => intranodeBcast node comm i (next i) (buffer i))
    fun i => next i (buffer (leader node comm i)) := by
  refine node_stage node distinct (fun members i => bcastBinomial members (.node, .bcast) 0
    (localRank node comm i) (buffer i) (next i)) (fun e found more => ?_) fun e found _ => ?_
  · obtain ⟨positive, first⟩ := head_process node e found
    refine leads_congr (fun i member => ?_) (fun i member => ?_)
      (bcast_leads (.node, .bcast) buffer next (mates_distinct node distinct e) positive)
    · rw [localRank_eq distinct i e member]
    · rw [first, leader_mates node e found i member]
  · rw [leader_mates node e found e (mates_leader node e found)]

include aware in
theorem internode_leads (root : Nat) (inside : root < comm.length) (value : Message)
    (known : ∀ e ∈ heads node comm, node e = node (process comm root) → buffer e = value) :
    Leads comm (fun i => internodeBcast node comm i root (next i) (buffer i))
      fun i => next i value := by
  obtain ⟨within, same⟩ := internodeRank_eq distinct node (process comm root) root inside
  let reached : Nat → Message := fun i => if i ∈ heads node comm then value else buffer i
  refine leads_trans (roots_stage node distinct aware (fun members i => bcastBinomial members
    (.nodeRoots, .bcast) (internodeRank node comm i root) (externalRank node comm i) (buffer i)
    (intranodeBcast node comm i (next i))) (leads_congr (fun i member => ?_) (fun i member => ?_)
      (bcast_leads (.nodeRoots, .bcast) buffer (fun i => intranodeBcast node comm i (next i))
        (heads_distinct node comm) within)) fun i _ apart => ?_)
    (leads_congr (fun _ _ => rfl) (fun i member => ?_) (intranode_leads node distinct next reached))
  · rw [internodeRank_same distinct node i (process comm root), externalRank_eq distinct i member]
  · rw [known _ (process_mem within) same]
    simp only [reached, if_pos member]
  · simp only [reached, if_neg apart]
  · simp only [reached, if_pos (leader_found node comm i member).1]

theorem smpBcast_direct (me root : Nat) (inside : root < comm.length) (own : Message)
    (after : Message → Process Tag Message Result)
    (direct : process comm root ∈ heads node comm ∨ node me ≠ node (process comm root)) :
    smpBcast node comm me root own after = internodeBcast node comm me root after own := by
  unfold smpBcast
  split
  · rename_i rootRank _ ranked
    exact absurd ranked (intranodeRank_direct distinct me root inside direct rootRank)
  · rfl

/-- A root that is not the first process `e` of its node. -/
theorem smpBcast_near (root : Nat) (inside : root < comm.length)
    (later : process comm root ∉ heads node comm) (e : Nat) (found : e ∈ heads node comm)
    (near : node e = node (process comm root)) (i : Nat) (member : i ∈ mates node comm e) :
    smpBcast node comm i root (buffer i) (next i) =
      if i = process comm root then
        send e (.node, .bcast) (buffer i) (internodeBcast node comm i root (next i) (buffer i))
      else if i = e then
        recv (process comm root) (.node, .bcast) (internodeBcast node comm i root (next i))
      else internodeBcast node comm i root (next i) (buffer i) := by
  obtain ⟨own, beside⟩ := (mem_mates node comm e i).mp member
  have same := mates_same node comm i e beside
  obtain ⟨rootRank, ranked, within, placed⟩ :=
    intranodeRank_later distinct i root inside later (beside.trans near)
  rw [same] at within placed
  rw [smpBcast, nodeComm_eq node comm distinct i, same, if_pos (by omega), ranked]
  simp only [idxOf_root distinct i root own inside, localRank_zero node distinct e found i member,
    (head_process node e found).2, placed]

include aware in
theorem smpBcast_leads (root : Nat) (inside : root < comm.length) :
    Leads comm (fun i => smpBcast node comm i root (buffer i) (next i))
      fun i => next i (buffer (process comm root)) := by
  have own : process comm root ∈ comm := process_mem inside
  by_cases first : process comm root ∈ heads node comm
  · -- The root needs no help to reach the first process of its node.
    refine leads_congr (fun i _ => ?_) (fun _ _ => rfl) (internode_leads node distinct aware next buffer
      root
      inside (buffer (process comm root)) fun e found same => ?_)
    · exact smpBcast_direct node distinct i root inside (buffer i) (next i) (Or.inl first)
    · rw [heads_apart node comm e _ found first same]
  · -- The first process of its node takes the message from the root.
    obtain ⟨e, found, near⟩ := heads_covers node comm (process comm root) own
    have apart : e ≠ process comm root := fun same => first (same ▸ found)
    have leader := mates_leader node e found
    have start := smpBcast_near node distinct next buffer root inside first e found near
    let reached : Nat → Message := fun i => if i = e then buffer (process comm root) else buffer i
    have told : Leads comm (fun i => smpBcast node comm i root (buffer i) (next i)) fun i =>
        internodeBcast node comm i root (next i) (reached i) := by
      refine messages_lead (.node, .bcast) buffer
        (paired_single own (heads_inside node comm e found)) ?_ ?_ ?_ ?_
      · intro i sends _
        obtain rfl := List.mem_singleton.mp sends
        have together : process comm root ∈ mates node comm e :=
          (mem_mates node comm e _).mpr ⟨own, near.symm⟩
        simp only [start _ together, ↓reduceIte, reached, if_neg apart.symm]
      · intro i receives _
        obtain rfl := List.mem_singleton.mp receives
        refine ⟨internodeBcast node comm i root (next i), ?_, ?_⟩
        · rw [start i leader, if_neg apart, if_pos rfl]
        · simp only [reached, ↓reduceIte]
      · intro i sends receives
        exact absurd ((List.mem_singleton.mp receives).symm.trans (List.mem_singleton.mp sends)) apart
      · intro i member silent deaf
        rw [List.mem_singleton] at silent deaf
        simp only [reached, if_neg deaf]
        by_cases beside : node i = node (process comm root)
        · rw [start i ((mem_mates node comm e i).mpr ⟨member, beside.trans near.symm⟩), if_neg silent,
            if_neg deaf]
        · exact (smpBcast_direct node distinct i root inside (buffer i) (next i) (Or.inr beside)).symm
    refine leads_trans told (internode_leads node distinct aware next reached root inside
      (buffer (process comm root)) fun other here same => ?_)
    obtain rfl := heads_apart node comm other e here found (same.trans near.symm)
    exact if_pos rfl

theorem bcastIntra_leads (root : Nat) (inside : root < comm.length) (count : Nat → Nat)
    (positive : ∀ i ∈ comm, count i ≠ 0) : Leads comm
    (fun i => bcastIntra node comm i root (count i) (buffer i) (next i))
    fun i => next i (buffer (process comm root)) := by
  by_cases aware : (heads node comm).length ≠ comm.length
  · refine leads_congr (fun i member => ?_) (fun _ _ => rfl)
      (smpBcast_leads node distinct aware next buffer root inside)
    rw [bcastIntra, if_neg (positive i member),
      if_pos ((isNodeAware_iff node comm distinct i).mpr aware)]
  · refine leads_congr (fun i member => ?_) (fun _ _ => rfl)
      (bcast_leads (.whole, .bcast) buffer next distinct inside)
    rw [bcastIntra, if_neg (positive i member),
      if_neg fun holds => aware ((isNodeAware_iff node comm distinct i).mp holds)]

end Broadcast

end EE360P.NodeCollectives
