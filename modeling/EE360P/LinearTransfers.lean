import EE360P.BroadcastTree

/-! `MPIR_Scatterv` of `coll/scatterv.c` and `MPIR_Gatherv` of `coll/gatherv.c`, on one
communicator. Arrays over the ranks are functions. What a rank does not get counts as
`nothing`. -/

namespace EE360P.LinearTransfers
open PointToPoint MessageRules
open BroadcastTree (process process_mem idxOf_process process_idxOf)

variable {Tag Message Result : Type}

section Code
variable (comm : List Nat) (tag : Tag) (root rank : Nat) (nothing : Message)

/-- The other processes whose count is not 0, in the order of their ranks. -/
def partners (counts : Nat → Nat) : List Nat :=
  ((List.range comm.length).filter fun i => counts i ≠ 0 ∧ i ≠ rank).map (process comm)

def scatterv (sendcounts : Nat → Nat) (pieces : Nat → Message) (recvcount : Nat)
    (next : Message → Process Tag Message Result) : Process Tag Message Result :=
  if root = rank then
    isends (partners comm rank sendcounts) tag (fun dest => pieces (comm.idxOf dest))
      (waitSends (partners comm rank sendcounts) tag
        (next (if sendcounts rank ≠ 0 then pieces rank else nothing)))
  else if recvcount ≠ 0 then recv (process comm root) tag next
  else next nothing

/-- `MPIR_CVAR_GATHERV_INTER_SSEND_MIN_PROCS` -/
def minProcs : Nat := 32

/-- The root goes on with one piece for every rank, its own among them. -/
def gatherv (recvcounts : Nat → Nat) (sendcount : Nat) (sent : Message)
    (next : List Message → Process Tag Message Result) : Process Tag Message Result :=
  if root = rank then
    irecvs (partners comm rank recvcounts) tag
      (waitRecvs tag (partners comm rank recvcounts) fun received =>
        next ((List.range comm.length).map fun i =>
          if recvcounts i = 0 then nothing
          else if i = rank then sent
          else received.getD ((partners comm rank recvcounts).idxOf (process comm i)) nothing))
  else if sendcount ≠ 0 then
    .isend (process comm root) tag sent
      (.waitSend (process comm root) tag (minProcs ≤ comm.length) (next []))
  else next []

end Code

section Partners
variable {comm : List Nat} (distinct : comm.Nodup) (root : Nat) (counts : Nat → Nat)

theorem mem_partners (i : Nat) (member : i ∈ comm) (distinct : comm.Nodup) :
    i ∈ partners comm root counts ↔ counts (comm.idxOf i) ≠ 0 ∧ comm.idxOf i ≠ root := by
  have inside := List.idxOf_lt_length_of_mem member
  simp only [partners, List.mem_map, List.mem_filter, List.mem_range, decide_eq_true_eq]
  constructor
  · rintro ⟨rank, ⟨short, wanted⟩, rfl⟩
    rwa [idxOf_process distinct short]
  · exact fun wanted => ⟨comm.idxOf i, ⟨inside, wanted⟩, process_idxOf i member⟩

theorem partners_inside : ∀ i ∈ partners comm root counts, i ∈ comm := by
  intro i member
  obtain ⟨rank, among, rfl⟩ := List.mem_map.mp member
  exact process_mem (List.mem_range.mp (List.mem_of_mem_filter among))

include distinct

theorem partners_distinct : (partners comm root counts).Nodup := by
  refine List.Nodup.map_on ?_ (List.nodup_range.filter _)
  intro left here right there same
  rw [← idxOf_process distinct (List.mem_range.mp (List.mem_of_mem_filter here)), same,
    idxOf_process distinct (List.mem_range.mp (List.mem_of_mem_filter there))]

theorem root_apart (known : root < comm.length) :
    process comm root ∉ partners comm root counts := by
  rw [mem_partners root counts _ (process_mem known) distinct, idxOf_process distinct known]
  exact fun wanted => wanted.2 rfl

end Partners

section Transfers
variable {comm : List Nat} (distinct : comm.Nodup) (tag : Tag) (root : Nat)
variable (known : root < comm.length) (nothing : Message) [DecidableEq Tag]
include distinct known

/-- When a rank expects something exactly if the root has something for it, every rank
goes on with its piece. -/
theorem scatterv_leads (sendcounts : Nat → Nat → Nat) (pieces : Nat → Nat → Message)
    (recvcount : Nat → Nat) (next : Nat → Message → Process Tag Message Result)
    (agreed : ∀ i ∈ comm, comm.idxOf i ≠ root →
      (sendcounts (process comm root) (comm.idxOf i) ≠ 0 ↔ recvcount i ≠ 0)) :
    Leads comm (fun i => scatterv comm tag root (comm.idxOf i) nothing (sendcounts i) (pieces i)
        (recvcount i) (next i))
      fun i => next i (if sendcounts (process comm root) (comm.idxOf i) ≠ 0 then
        pieces (process comm root) (comm.idxOf i) else nothing) := by
  let sender := process comm root
  let dests := partners comm root (sendcounts sender)
  have own : comm.idxOf sender = root := idxOf_process distinct known
  have wanted : ∀ i ∈ comm, i ∈ dests ↔ sendcounts sender (comm.idxOf i) ≠ 0 ∧ comm.idxOf i ≠ root :=
    fun i member => mem_partners root (sendcounts sender) i member distinct
  have among : Leads (sender :: dests)
      (fun i => scatterv comm tag root (comm.idxOf i) nothing (sendcounts i) (pieces i)
        (recvcount i) (next i))
      fun i => next i (if sendcounts sender (comm.idxOf i) ≠ 0 then
        pieces sender (comm.idxOf i) else nothing) := by
    refine scatter_leads sender tag dests (partners_distinct distinct root _)
      (root_apart distinct root _ known) (fun i => pieces sender (comm.idxOf i)) _ _ ?_ ?_
    · simp only [scatterv, own, ↓reduceIte]
      rfl
    · intro i member
      have inside := partners_inside root (sendcounts sender) i member
      obtain ⟨some, apart⟩ := (wanted i inside).mp member
      refine ⟨next i, ?_, ?_⟩
      · rw [scatterv, if_neg apart.symm, if_pos ((agreed i inside apart).mp some)]
      · rw [if_pos some]
  refine leads_wider ?_ ?_ among
  · intro i member
    rcases List.mem_cons.mp member with rfl | other
    · exact process_mem known
    · exact partners_inside root _ i other
  · intro i member apart
    rw [List.mem_cons, not_or, wanted i member] at apart
    have foreign : comm.idxOf i ≠ root := fun same =>
      apart.1 ((process_idxOf i member).symm.trans (congrArg (process comm) same))
    have none : ¬sendcounts sender (comm.idxOf i) ≠ 0 := fun some => apart.2 ⟨some, foreign⟩
    rw [scatterv, if_neg foreign.symm, if_neg fun some => none ((agreed i member foreign).mpr some),
      if_neg none]

/-- When a rank sends something exactly if the root expects something of it, the root goes
on with the pieces of all ranks in their order. -/
theorem gatherv_leads (recvcounts : Nat → Nat → Nat) (sendcount : Nat → Nat) (sent : Nat → Message)
    (next : Nat → List Message → Process Tag Message Result)
    (agreed : ∀ i ∈ comm, comm.idxOf i ≠ root →
      (recvcounts (process comm root) (comm.idxOf i) ≠ 0 ↔ sendcount i ≠ 0)) :
    Leads comm (fun i => gatherv comm tag root (comm.idxOf i) nothing (recvcounts i) (sendcount i)
        (sent i) (next i))
      fun i => next i (if comm.idxOf i = root then comm.map fun j =>
        if recvcounts (process comm root) (comm.idxOf j) = 0 then nothing else sent j
      else []) := by
  let taker := process comm root
  let sources := partners comm root (recvcounts taker)
  have own : comm.idxOf taker = root := idxOf_process distinct known
  have wanted : ∀ i ∈ comm, i ∈ sources ↔ recvcounts taker (comm.idxOf i) ≠ 0 ∧ comm.idxOf i ≠ root :=
    fun i member => mem_partners root (recvcounts taker) i member distinct
  have among : Leads (taker :: sources)
      (fun i => gatherv comm tag root (comm.idxOf i) nothing (recvcounts i) (sendcount i)
        (sent i) (next i))
      fun i => next i (if comm.idxOf i = root then comm.map fun j =>
        if recvcounts taker (comm.idxOf j) = 0 then nothing else sent j else []) := by
    refine gather_leads taker tag sources (partners_distinct distinct root _)
      (root_apart distinct root _ known) sent _ _ (fun received => next taker
        ((List.range comm.length).map fun i =>
          if recvcounts taker i = 0 then nothing
          else if i = root then sent taker
          else received.getD (sources.idxOf (process comm i)) nothing)) ?_ ?_ ?_
    · simp only [gatherv, own, ↓reduceIte]
      rfl
    · simp only [own, ↓reduceIte]
      congr 1
      refine List.ext_getElem (by simp) fun rank left right => ?_
      have inside : rank < comm.length := by simpa using left
      have placed : process comm rank = comm[rank] := List.getD_eq_getElem _ _ inside
      have ranked : comm.idxOf comm[rank] = rank := distinct.idxOf_getElem rank inside
      simp only [List.getElem_map, List.getElem_range, ranked]
      split
      · rfl
      · rename_i some
        split
        · rename_i same
          subst same
          exact congrArg sent placed.symm
        · rename_i apart
          have member : comm[rank] ∈ sources :=
            (wanted _ (List.getElem_mem inside)).mpr ⟨by rwa [ranked], by rwa [ranked]⟩
          rw [placed, List.getD_eq_getElem?_getD, List.getElem?_map,
            List.getElem?_eq_getElem (List.idxOf_lt_length_of_mem member), List.getElem_idxOf]
          rfl
    · intro i member
      have inside := partners_inside root (recvcounts taker) i member
      obtain ⟨some, apart⟩ := (wanted i inside).mp member
      refine ⟨decide (minProcs ≤ comm.length), ?_⟩
      rw [gatherv, if_neg apart.symm, if_pos ((agreed i inside apart).mp some), if_neg apart]
  refine leads_wider ?_ ?_ among
  · intro i member
    rcases List.mem_cons.mp member with rfl | other
    · exact process_mem known
    · exact partners_inside root _ i other
  · intro i member apart
    rw [List.mem_cons, not_or, wanted i member] at apart
    have foreign : comm.idxOf i ≠ root := fun same =>
      apart.1 ((process_idxOf i member).symm.trans (congrArg (process comm) same))
    have none : ¬recvcounts taker (comm.idxOf i) ≠ 0 := fun some => apart.2 ⟨some, foreign⟩
    rw [gatherv, if_neg foreign.symm, if_neg fun some => none ((agreed i member foreign).mpr some),
      if_neg foreign]

end Transfers

/-- What the root scatters comes back to it when everybody passes on what it got. -/
theorem scattered_back {comm : List Nat} (distinct : comm.Nodup) [DecidableEq Tag] (outward back : Tag)
    (root : Nat) (known : root < comm.length) (nothing : Message) (counts : Nat → Nat)
    (pieces : Nat → Message) (recvcount : Nat → Nat)
    (agreed : ∀ i ∈ comm, comm.idxOf i ≠ root → (counts (comm.idxOf i) ≠ 0 ↔ recvcount i ≠ 0))
    (system : System Tag Message (List Message)) (idle : system.channel = quiet)
    (started : ∀ i ∈ comm, system.process i =
      scatterv comm outward root (comm.idxOf i) nothing counts pieces (recvcount i) fun received =>
        gatherv comm back root (comm.idxOf i) nothing counts (recvcount i) received .ended)
    (others : ∀ i ∉ comm, ∃ last, system.process i = .ended last) :
    Settles comm system fun i => if comm.idxOf i = root then
      comm.map fun j => if counts (comm.idxOf j) = 0 then nothing else pieces (comm.idxOf j)
    else [] := by
  have out := scatterv_leads distinct outward root known nothing (fun _ => counts) (fun _ => pieces)
    recvcount (fun i received => gatherv comm back root (comm.idxOf i) nothing counts (recvcount i)
      received (fun all => Process.ended all)) agreed
  have home := gatherv_leads distinct back root known nothing (fun _ => counts) recvcount
    (fun i => if counts (comm.idxOf i) ≠ 0 then pieces (comm.idxOf i) else nothing)
    (fun _ all => Process.ended all) agreed
  refine leads_settles (leads_congr (fun _ _ => rfl) (fun i _ => ?_) (leads_trans out home))
    system idle started others
  congr 2
  refine List.map_congr_left fun j _ => ?_
  by_cases none : counts (comm.idxOf j) = 0 <;> simp [none]

theorem scattered_back_three : Settles [4, 7, 2]
    (⟨fun i => if i ∈ [4, 7, 2] then
        scatterv [4, 7, 2] true 1 ([4, 7, 2].idxOf i) 0 id (10 + ·) ([4, 7, 2].idxOf i) fun received =>
          gatherv [4, 7, 2] false 1 ([4, 7, 2].idxOf i) 0 id ([4, 7, 2].idxOf i) received .ended
      else .ended [], quiet⟩ : System Bool Nat (List Nat))
    fun i => if [4, 7, 2].idxOf i = 1 then
      [4, 7, 2].map fun j => if id ([4, 7, 2].idxOf j) = 0 then 0 else 10 + [4, 7, 2].idxOf j
    else [] :=
  scattered_back (by decide) true false 1 (by decide) 0 id (10 + ·) [4, 7, 2].idxOf
    (fun _ _ _ => Iff.rfl) _ rfl (fun _ member => if_pos member) fun _ apart => ⟨[], if_neg apart⟩

end EE360P.LinearTransfers
