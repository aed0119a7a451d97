import Mathlib.Data.Finset.Max
import Mathlib.Data.List.TakeWhile
import EE360P.ListEntries

/-! Entries with an owner and a rank. When the entries of each owner stand in the
order of their ranks, the least entry of all is the first one of its owner, and no
other owner's first entry ranks before all. -/

namespace EE360P.OwnedEntries
open ListEntries

variable {Entry Owner Rank : Type} [DecidableEq Owner] [LinearOrder Rank]
  (owner : Entry → Owner) (rank : Entry → Rank) (entries : List Entry)

/-- The first entry of the owner ranks no later than any entry. -/
def Leads (me : Owner) : Prop :=
  ∃ own, entries.find? (fun entry => owner entry = me) = some own ∧
    ∀ other ∈ entries, rank own ≤ rank other

theorem leader_unique (owned : ∀ first ∈ entries, ∀ second ∈ entries,
      rank first = rank second → owner first = owner second)
    (me you : Owner) (mine : Leads owner rank entries me) (yours : Leads owner rank entries you) :
    me = you := by
  obtain ⟨own, found, least⟩ := mine
  obtain ⟨other, met, lowest⟩ := yours
  have here := List.mem_of_find?_eq_some found
  have there := List.mem_of_find?_eq_some met
  have same := owned own here other there (le_antisymm (least other there) (lowest own here))
  have first : owner own = me := by simpa using List.find?_some found
  have second : owner other = you := by simpa using List.find?_some met
  rw [← first, same, second]

theorem first_least (ordered : entries.Pairwise fun first second =>
      owner first = owner second → rank first ≤ rank second)
    (entry own : Entry) (member : entry ∈ entries)
    (found : entries.find? (fun other => owner other = owner entry) = some own) :
    rank own ≤ rank entry := by
  have mine : owner own = owner entry := by simpa using List.find?_some found
  obtain ⟨rest, parts⟩ := find_split _ _ _ found
  rw [parts] at member ordered
  rcases List.mem_append.mp member with before | behind
  · have other : owner entry ≠ owner entry := by simpa using List.mem_takeWhile_imp before
    exact absurd rfl other
  · rcases List.mem_cons.mp behind with rfl | later
    · exact le_refl _
    · have tail := (List.pairwise_append.mp ordered).2.1
      exact (List.pairwise_cons.mp tail).1 entry later mine

theorem least_leads (ordered : entries.Pairwise fun first second =>
      owner first = owner second → rank first ≤ rank second)
    (least : Entry) (member : least ∈ entries) (lowest : ∀ other ∈ entries, rank least ≤ rank other) :
    Leads owner rank entries (owner least) := by
  have present : (entries.find? fun entry => owner entry = owner least).isSome = true := by
    rw [List.find?_isSome]
    exact ⟨least, member, by simp⟩
  obtain ⟨own, found⟩ := Option.isSome_iff_exists.mp present
  refine ⟨own, found, fun other inside => ?_⟩
  exact (first_least owner rank entries ordered least own member found).trans (lowest other inside)

theorem exists_leader (filled : entries ≠ []) (ordered : entries.Pairwise fun first second =>
      owner first = owner second → rank first ≤ rank second) :
    ∃ least ∈ entries, (∀ other ∈ entries, rank least ≤ rank other) ∧
      Leads owner rank entries (owner least) := by
  have nonempty : (entries : Multiset Entry) ≠ 0 := by simpa using filled
  obtain ⟨least, member, lowest⟩ := Multiset.exists_min_image rank nonempty
  exact ⟨least, member, lowest, least_leads owner rank entries ordered least member lowest⟩

end EE360P.OwnedEntries
