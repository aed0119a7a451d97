import EE360P.NodeCollectives

/-! `MPI_Barrier` among processes that are placed on nodes. It lets everybody through, and
nobody before the last one has arrived. -/

namespace EE360P.NodeBarrier
open ConfluentRuns PointToPoint MessageRules HeardMessages NodePlacement DisseminationBarrier
open BroadcastTree NodeCollectives

variable {Message Result : Type}

section Barrier
variable (node : Nat → Nat) {comm : List Nat} (distinct : comm.Nodup)
variable (empty released : Message) (after : Programs Tag Message Result)
include distinct

section Aware
variable (aware : (heads node comm).length ≠ comm.length)
include aware

theorem rootsBarrier_leads :
    Leads comm (fun i => rootsBarrier node comm i empty released (after i)) after := by
  refine leads_trans (roots_stage node distinct aware (fun members i => barrierIntra members
    (.nodeRoots, .barrier) (externalRank node comm i) empty (release node comm i released (after i)))
    (leads_congr (fun i member => ?_) (fun _ _ => rfl) (barrier_leads (.nodeRoots, .barrier)
      (heads_distinct node comm) empty fun i => release node comm i released (after i)))
    fun _ _ _ => rfl) (intranode_leads node distinct (fun i _ => after i) fun _ => released)
  rw [externalRank_eq distinct i member]

theorem barrierSmp_leads :
    Leads comm (fun i => barrierSmpIntra node comm i empty released (after i)) after := by
  refine leads_trans (node_stage node distinct (fun members i => barrierIntra members
    (.node, .barrier) (localRank node comm i) empty
    (rootsBarrier node comm i empty released (after i))) (fun e _ _ => ?_) fun _ _ _ => rfl)
    (rootsBarrier_leads node distinct empty released after aware)
  refine leads_congr (fun i member => ?_) (fun _ _ => rfl) (barrier_leads (.node, .barrier)
    (mates_distinct node distinct e) empty fun i => rootsBarrier node comm i empty released (after i))
  rw [localRank_eq distinct i e member]

end Aware

/-- Everybody gets through the barrier, however the processes are placed. -/
theorem placed_barrier_leads :
    Leads comm (fun i => barrier node comm i empty released (after i)) after := by
  by_cases alone : comm.length = 1
  · exact leads_same fun i _ => if_pos alone
  by_cases aware : (heads node comm).length ≠ comm.length
  · refine leads_congr (fun i _ => ?_) (fun _ _ => rfl)
      (barrierSmp_leads node distinct empty released after aware)
    rw [barrier, if_neg alone, if_pos ((isNodeAware_iff node comm distinct i).mpr aware)]
  · refine leads_congr (fun i _ => ?_) (fun _ _ => rfl)
      (barrier_leads (.whole, .barrier) distinct empty after)
    rw [barrier, if_neg alone,
      if_neg fun holds => aware ((isNodeAware_iff node comm distinct i).mp holds), barrierIntra,
      if_neg alone]

end Barrier

/-! The barrier in the shadow, where the messages carry who has arrived. -/
section Arrivals
variable (node : Nat → Nat) {comm : List Nat}
variable {heard told : List Nat → Prop}

theorem bcast_shadowed {members : List Nat} (tag : Tag) (root rank : Nat)
    (next : Message → Process Tag Message Result)
    (after : List Nat → Process Tag (List Nat) (List Nat))
    (rest : ∀ message known, heard known → Shadowed heard told (next message) (after known))
    (message : Message) (known : List Nat) (own : heard known) :
    Shadowed heard told (bcastBinomial members tag root rank message next)
      (bcastBinomial members tag root rank known after) := by
  have forwards : ∀ bit message known, heard known →
      Shadowed heard told (forwarding members tag root rank message next bit)
        (forwarding members tag root rank known after bit) := by
    intro bit
    induction bit with
    | zero => exact rest
    | succ bit ih =>
        intro message known own
        simp only [forwarding]
        split
        · exact shadowed_send own (ih message known own)
        · exact ih message known own
  have receives : ∀ bit, Shadowed heard told (receiving members tag root rank message next bit)
      (receiving members tag root rank known after bit) := by
    intro bit
    fun_induction receiving members tag root rank message next bit with
    | case1 bit short masked =>
        rw [receiving, if_pos short, if_pos masked]
        exact shadowed_recv (forwards bit)
    | case2 bit short clear ih =>
        have later : receiving members tag root rank known after bit =
            receiving members tag root rank known after (bit + 1) := by
          rw [receiving, if_pos short, if_neg clear]
        rw [later]
        exact ih
    | case3 bit long =>
        rw [receiving, if_neg long]
        exact forwards bit message known own
  unfold bcastBinomial
  split
  · exact rest message known own
  · exact receives 0

variable (comm) (me : Nat) (next : List Nat → Process Tag (List Nat) (List Nat)) (known : List Nat)

def rootsShadow : Process Tag (List Nat) (List Nat) :=
  match nodeRootsComm node comm me with
  | some members =>
      barrierShadow members (.nodeRoots, .barrier) (externalRank node comm me)
        (intranodeBcast node comm me next) known
  | none => intranodeBcast node comm me next known

def smpShadow : Process Tag (List Nat) (List Nat) :=
  match nodeComm node comm me with
  | some members =>
      barrierShadow members (.node, .barrier) (localRank node comm me)
        (rootsShadow node comm me next) known
  | none => rootsShadow node comm me next known

def placedShadow : Process Tag (List Nat) (List Nat) :=
  if comm.length = 1 then next known
  else if isNodeAware node comm me then smpShadow node comm me next known
  else barrierShadow comm (.whole, .barrier) (comm.idxOf me) next known

variable {comm known}
variable (empty released : Message) (go : Process Tag Message Result)
variable (merged : ∀ own other, heard own → heard other → heard (own ++ other))
variable (rest : ∀ known, heard known → Shadowed heard told go (next known))
include merged rest

theorem placed_shadowed (own : heard known) :
    Shadowed heard told (barrier node comm me empty released go)
      (placedShadow node comm me next known) := by
  have releases : ∀ known, heard known → Shadowed heard told (release node comm me released go)
      (intranodeBcast node comm me next known) := by
    intro known own
    unfold release intranodeBcast
    cases nodeComm node comm me with
    | none => exact rest known own
    | some members => exact bcast_shadowed (.node, .bcast) 0 _ _ next (fun _ => rest) released known own
  have roots : ∀ known, heard known → Shadowed heard told (rootsBarrier node comm me empty released go)
      (rootsShadow node comm me next known) := by
    intro known own
    unfold rootsBarrier rootsShadow
    cases nodeRootsComm node comm me with
    | none => exact releases known own
    | some members =>
        exact barrier_shadowed (.nodeRoots, .barrier) _ empty _ _ merged releases known own
  unfold barrier placedShadow
  split
  · exact rest known own
  rename_i several
  split
  · unfold barrierSmpIntra smpShadow
    cases nodeComm node comm me with
    | none => exact roots known own
    | some members => exact barrier_shadowed (.node, .barrier) _ empty _ _ merged roots known own
  · have flat : Shadowed heard told (barrierIntra comm (.whole, .barrier) (comm.idxOf me) empty go)
        (barrierShadow comm (.whole, .barrier) (comm.idxOf me) next known) :=
      barrier_shadowed (.whole, .barrier) (comm.idxOf me) empty go next merged rest known own
    rwa [barrierIntra, if_neg several] at flat

end Arrivals

section Waiting
variable (node : Nat → Nat) (comm : List Nat)

/-- What is known after the barrier of a node, and after the barrier of the first processes. -/
def nodeKnown (i : Nat) : List Nat :=
  if 1 < (mates node comm i).length then
    gathered (mates node comm i) (· ++ ·) (fun i => [i]) (Nat.clog 2 (mates node comm i).length) i
  else [i]

def rootsKnown (i : Nat) : List Nat :=
  if i ∈ heads node comm then
    gathered (heads node comm) (· ++ ·) (nodeKnown node comm) (Nat.clog 2 (heads node comm).length) i
  else nodeKnown node comm i

def placedKnown (i : Nat) : List Nat :=
  if comm.length = 1 then [i]
  else if (heads node comm).length ≠ comm.length then rootsKnown node comm (leader node comm i)
  else gathered comm (· ++ ·) (fun i => [i]) (Nat.clog 2 comm.length) i

variable {comm} (distinct : comm.Nodup)
include distinct

theorem nodeKnown_all (e i : Nat) (found : e ∈ heads node comm) (member : i ∈ mates node comm e) :
    i ∈ nodeKnown node comm e := by
  rw [nodeKnown]
  split
  · exact gathered_all (mates_distinct node distinct e) _ e i i (mates_leader node e found) member
      List.mem_cons_self
  · rename_i alone
    rwa [← mates_alone node e found alone]

/-- Every process comes to know that every other one has arrived. -/
theorem placedKnown_all (i j : Nat) (here : i ∈ comm) (there : j ∈ comm) :
    j ∈ placedKnown node comm i := by
  rw [placedKnown]
  split
  · rename_i alone
    obtain ⟨only, rfl⟩ := List.length_eq_one_iff.mp alone
    rw [List.mem_singleton] at here there ⊢
    exact there.trans here.symm
  split
  · obtain ⟨ours, _⟩ := leader_found node comm i here
    obtain ⟨theirs, near⟩ := leader_found node comm j there
    rw [rootsKnown, if_pos ours]
    exact gathered_all (heads_distinct node comm) _ _ _ j ours theirs
      (nodeKnown_all node distinct _ j theirs ((mem_mates node comm _ j).mpr ⟨there, near.symm⟩))
  · exact gathered_all distinct _ i j j here there List.mem_cons_self

variable (next : Nat → List Nat → Process Tag (List Nat) (List Nat))

theorem nodeShadow_leads : Leads comm (fun i => smpShadow node comm i (next i) [i])
    fun i => rootsShadow node comm i (next i) (nodeKnown node comm i) := by
  refine node_stage node distinct (fun members i => barrierShadow members (.node, .barrier)
    (localRank node comm i) (rootsShadow node comm i (next i)) [i]) (fun e found more => ?_)
    fun e _ single => ?_
  · refine leads_congr (fun i member => ?_) (fun i member => ?_) (shadow_leads
      (mates_distinct node distinct e) (.node, .barrier) (fun i => [i])
      fun i => rootsShadow node comm i (next i))
    · rw [localRank_eq distinct i e member]
    · rw [nodeKnown, mates_same node comm i e ((mem_mates node comm e i).mp member).2, if_pos more]
  · rw [nodeKnown, single, List.length_singleton, if_neg (Nat.lt_irrefl 1)]

theorem rootsShadow_leads (aware : (heads node comm).length ≠ comm.length) : Leads comm
    (fun i => rootsShadow node comm i (next i) (nodeKnown node comm i))
    fun i => intranodeBcast node comm i (next i) (rootsKnown node comm i) := by
  refine roots_stage node distinct aware (fun members i => barrierShadow members (.nodeRoots, .barrier)
    (externalRank node comm i) (intranodeBcast node comm i (next i)) (nodeKnown node comm i))
    (leads_congr (fun i member => ?_) (fun i member => ?_) (shadow_leads
      (heads_distinct node comm) (.nodeRoots, .barrier) (nodeKnown node comm)
      fun i => intranodeBcast node comm i (next i))) fun i _ apart => ?_
  · rw [externalRank_eq distinct i member]
  · rw [rootsKnown, if_pos member]
  · rw [rootsKnown, if_neg apart]

theorem placedShadow_leads : Leads comm (fun i => placedShadow node comm i (next i) [i])
    fun i => next i (placedKnown node comm i) := by
  by_cases alone : comm.length = 1
  · refine leads_same fun i _ => ?_
    rw [placedShadow, placedKnown, if_pos alone, if_pos alone]
  by_cases aware : (heads node comm).length ≠ comm.length
  · refine leads_congr (fun i _ => ?_) (fun i _ => ?_) (leads_trans
      (nodeShadow_leads node distinct next) (leads_trans (rootsShadow_leads node distinct next aware)
        (intranode_leads node distinct next (rootsKnown node comm))))
    · rw [placedShadow, if_neg alone, if_pos ((isNodeAware_iff node comm distinct i).mpr aware)]
    · rw [placedKnown, if_neg alone, if_pos aware]
  · refine leads_congr (fun i _ => ?_) (fun i _ => ?_)
      (shadow_leads distinct (.whole, .barrier) (fun i => [i]) next)
    · rw [placedShadow, if_neg alone,
        if_neg fun holds => aware ((isNodeAware_iff node comm distinct i).mp holds)]
    · rw [placedKnown, if_neg alone, if_neg aware]

variable (empty released : Message) (system : System Tag Message Result)
variable (idle : system.channel = quiet)
variable (others : ∀ i ∉ comm, ∃ last, system.process i = .ended last)
include idle others

/-- As long as one process has taken no step, whatever it is about to do, nobody else has
left the barrier, however the processes are placed. -/
theorem barrier_waits (missing : Nat) (present : missing ∈ comm)
    (entering : ∀ i ∈ comm, i ≠ missing → ∃ result,
      system.process i = barrier node comm i empty released (.ended result)) :
    Waits comm missing system := by
  refine heard_first (missing ∉ ·) (missing ∉ ·) missing
    (placedShadow_leads node distinct fun _ known => .ended known) [] List.not_mem_nil idle ?_ others
    fun i member _ absent => absent (placedKnown_all node distinct i missing member present)
  intro i own apart
  obtain ⟨result, shape⟩ := entering i own apart
  rw [shape]
  refine placed_shadowed node i (fun known => .ended known) empty released (.ended result)
    (fun own other here there => ?_) (fun known own => .ended result known own)
    (by simpa using Ne.symm apart)
  rw [List.mem_append, not_or]
  exact ⟨here, there⟩

/-- When all processes are at the barrier, all of them get through. -/
theorem barrier_passes (result : Nat → Result) (entered : ∀ i ∈ comm,
      system.process i = barrier node comm i empty released (.ended (result i))) :
    Settles comm system result :=
  leads_settles (placed_barrier_leads node distinct empty released fun i => .ended (result i))
    system idle entered others

end Waiting

theorem barrier_waits_four : Waits [0, 1, 2, 3] 3
    (⟨fun i => if i ∈ [0, 1, 2] then barrier (· / 2) [0, 1, 2, 3] i () () (.ended i)
      else .ended 0, quiet⟩ : System Tag Unit Nat) := by
  refine barrier_waits (· / 2) (by decide) () () _ rfl (fun i apart => ⟨0, ?_⟩) 3 (by decide)
    fun i member apart => ⟨i, if_pos ?_⟩
  · exact if_neg fun member => apart (List.mem_append_left [3] member)
  · simpa [apart] using member

theorem barrier_passes_four : Settles [0, 1, 2, 3]
    (⟨fun i => if i ∈ [0, 1, 2, 3] then barrier (· / 2) [0, 1, 2, 3] i () () (.ended i)
      else .ended 0, quiet⟩ : System Tag Unit Nat) fun i => i :=
  barrier_passes (· / 2) (by decide) () () _ rfl (fun _ apart => ⟨0, if_neg apart⟩) _
    fun _ member => if_pos member

end EE360P.NodeBarrier
