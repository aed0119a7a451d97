import EE360P.OwnedEntries
import EE360P.ReplicatedServer

/-! The test by which a server of project4 finds that it has priority. It sees one list,
and compares its own first entry there with all entries of the list. -/

namespace EE360P.ReplicatedServer
open OwnedEntries

theorem smallest_leads (pendingQueue : List TimeStamp) (serverID : Int) :
    isSmallest pendingQueue serverID = true ↔
      Leads TimeStamp.processID TimeStamp.rank pendingQueue serverID := by
  have tests : search pendingQueue serverID =
      pendingQueue.find? fun entry => entry.processID = serverID := rfl
  rw [isSmallest, tests, Leads]
  cases pendingQueue.find? fun entry => entry.processID = serverID with
  | none => simp
  | some own => simp [compare_behind]

/-- On a queue in which the requests of each server stand in clock order, exactly one
server passes the test, the one whose request is the least of all. Equal entries would
change nothing. -/
theorem one_smallest (pendingQueue : List TimeStamp) (filled : pendingQueue ≠ [])
    (ordered : pendingQueue.Pairwise fun first second =>
      first.processID = second.processID → first.logicalClock ≤ second.logicalClock) :
    (∃! serverID, isSmallest pendingQueue serverID = true) ∧
    ∃ least ∈ pendingQueue, (∀ other ∈ pendingQueue, other ≠ least → least.compare other = 1) ∧
      isSmallest pendingQueue least.processID = true := by
  have ranked : pendingQueue.Pairwise fun first second =>
      first.processID = second.processID → first.rank ≤ second.rank := by
    refine ordered.imp fun {first second} clocks same => ?_
    rw [TimeStamp.rank, TimeStamp.rank, Prod.Lex.toLex_le_toLex]
    have clock := clocks same
    have ID := le_of_eq same
    omega
  obtain ⟨least, member, lowest, leads⟩ :=
    exists_leader TimeStamp.processID TimeStamp.rank pendingQueue filled ranked
  have passes := (smallest_leads pendingQueue least.processID).mpr leads
  refine ⟨⟨least.processID, passes, fun serverID also => ?_⟩, least, member, ?_, passes⟩
  · apply leader_unique TimeStamp.processID TimeStamp.rank pendingQueue _ _ _
      ((smallest_leads pendingQueue serverID).mp also) leads
    exact fun first _ second _ same => congrArg TimeStamp.processID (rank_injective same)
  · intro other inside apart
    rw [compare_before]
    exact lt_of_le_of_ne (lowest other inside) fun same => apart (rank_injective same).symm

-- The entries of servers 1 and 2 are interleaved, and the least one is not the first.
theorem one_smallest_interleaved :
    let pendingQueue : List TimeStamp := [⟨4, 2⟩, ⟨4, 1⟩, ⟨6, 1⟩, ⟨5, 2⟩]
    (∃! serverID, isSmallest pendingQueue serverID = true) ∧
    ∃ least ∈ pendingQueue, (∀ other ∈ pendingQueue, other ≠ least → least.compare other = 1) ∧
      isSmallest pendingQueue least.processID = true :=
  one_smallest [⟨4, 2⟩, ⟨4, 1⟩, ⟨6, 1⟩, ⟨5, 2⟩] (by decide) (by decide)

end EE360P.ReplicatedServer
