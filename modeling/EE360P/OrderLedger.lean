import Mathlib.Data.List.Basic
import Mathlib.Data.List.Pairwise
import Mathlib.Order.Basic
import EE360P.ListEntries

/-! A ledger numbers its entries 1, 2, 3, … as they are issued and strikes some
of them out later. The two fields at the end are part of the type: a ledger
whose numbering has a gap, or that strikes out a number never issued, cannot
be built. Parties, goods and amounts are arbitrary. -/

namespace EE360P.OrderLedger
open ListEntries

structure Entry (Party Good Amount : Type) where
  number : Int
  party : Party
  good : Good
  amount : Amount
  deriving DecidableEq, Repr

structure Ledger (Party Good Amount : Type) where
  entries : List (Entry Party Good Amount)
  withdrawn : List Int
  numbered : ∀ (n : Nat) (entry : Entry Party Good Amount),
    entries[n]? = some entry → entry.number = n + 1
  known : ∀ number ∈ withdrawn, 0 < number ∧ number ≤ entries.length

variable {Party Good Amount : Type}

def empty : Ledger Party Good Amount := ⟨[], [], by simp, by simp⟩

def nextEntry (ledger : Ledger Party Good Amount) (party : Party) (good : Good)
    (amount : Amount) : Entry Party Good Amount := ⟨ledger.entries.length + 1, party, good, amount⟩

def issue (ledger : Ledger Party Good Amount) (party : Party) (good : Good) (amount : Amount) :
    Ledger Party Good Amount where
  entries := ledger.entries ++ [nextEntry ledger party good amount]
  withdrawn := ledger.withdrawn
  numbered := by
    intro n entry present
    rcases (snoc_entry _ _ _ n).mp present with old | ⟨last, new⟩
    · exact ledger.numbered n entry old
    · rw [← new, last]
      rfl
  known := by
    intro number member
    have bounds := ledger.known number member
    simp only [List.length_append, List.length_cons, List.length_nil]
    omega

def Issued (ledger : Ledger Party Good Amount) (number : Int) : Prop :=
  0 < number ∧ number ≤ ledger.entries.length

instance (ledger : Ledger Party Good Amount) (number : Int) : Decidable (Issued ledger number) :=
  inferInstanceAs (Decidable (_ ∧ _))

def withdraw (ledger : Ledger Party Good Amount) (number : Int) : Ledger Party Good Amount :=
  if issued : Issued ledger number then
    { ledger with
      withdrawn := number :: ledger.withdrawn
      known := by
        intro other member
        rcases List.mem_cons.mp member with same | old
        · exact same ▸ issued
        · exact ledger.known other old }
  else ledger

/-- Issued and not struck out. -/
def Standing (ledger : Ledger Party Good Amount) (number : Int) : Prop :=
  Issued ledger number ∧ number ∉ ledger.withdrawn

/-- The standing entries of one party, oldest first. -/
def account [DecidableEq Party] (ledger : Ledger Party Good Amount) (party : Party) :
    List (Entry Party Good Amount) :=
  ledger.entries.filter fun entry => entry.party = party ∧ entry.number ∉ ledger.withdrawn

theorem entry_issued (ledger : Ledger Party Good Amount) (entry : Entry Party Good Amount)
    (member : entry ∈ ledger.entries) : Issued ledger entry.number := by
  obtain ⟨n, present⟩ := List.mem_iff_getElem?.mp member
  have value := ledger.numbered n entry present
  have inside := (List.getElem?_eq_some_iff.mp present).1
  constructor <;> omega

theorem issued_entry (ledger : Ledger Party Good Amount) (number : Int)
    (issued : Issued ledger number) : ∃ entry ∈ ledger.entries, entry.number = number := by
  have inside : (number - 1).toNat < ledger.entries.length := by
    have bounds := issued
    unfold Issued at bounds
    omega
  refine ⟨ledger.entries[(number - 1).toNat], List.getElem_mem inside, ?_⟩
  have value := ledger.numbered _ _ (List.getElem?_eq_getElem inside)
  have positive := issued.1
  omega

theorem entries_increasing (ledger : Ledger Party Good Amount) :
    ledger.entries.Pairwise fun earlier later => earlier.number < later.number := by
  rw [List.pairwise_iff_getElem]
  intro n m small large before
  have first := ledger.numbered n _ (List.getElem?_eq_getElem small)
  have second := ledger.numbered m _ (List.getElem?_eq_getElem large)
  omega

theorem entry_unique (ledger : Ledger Party Good Amount) (left right : Entry Party Good Amount)
    (first : left ∈ ledger.entries) (second : right ∈ ledger.entries)
    (same : left.number = right.number) : left = right := by
  obtain ⟨n, present⟩ := List.mem_iff_getElem?.mp first
  obtain ⟨m, there⟩ := List.mem_iff_getElem?.mp second
  have here := ledger.numbered n left present
  have also := ledger.numbered m right there
  have equal : n = m := by omega
  subst equal
  exact Option.some.inj (present.symm.trans there)

variable [DecidableEq Party]

theorem mem_account (ledger : Ledger Party Good Amount) (party : Party)
    (entry : Entry Party Good Amount) : entry ∈ account ledger party ↔
      entry ∈ ledger.entries ∧ entry.party = party ∧ entry.number ∉ ledger.withdrawn := by
  simp [account]

theorem account_increasing (ledger : Ledger Party Good Amount) (party : Party) :
    (account ledger party).Pairwise fun earlier later => earlier.number < later.number :=
  (entries_increasing ledger).filter _

theorem standing_account (ledger : Ledger Party Good Amount) (number : Int) :
    Standing ledger number ↔ ∃ party, ∃ entry ∈ account ledger party, entry.number = number := by
  constructor
  · rintro ⟨issued, kept⟩
    obtain ⟨entry, member, value⟩ := issued_entry ledger number issued
    exact ⟨entry.party, entry, (mem_account _ _ _).mpr ⟨member, rfl, value ▸ kept⟩, value⟩
  · rintro ⟨party, entry, member, rfl⟩
    have facts := (mem_account _ _ _).mp member
    exact ⟨entry_issued ledger entry facts.1, facts.2.2⟩

theorem account_unique (ledger : Ledger Party Good Amount) (left right : Party)
    (first second : Entry Party Good Amount) (here : first ∈ account ledger left)
    (there : second ∈ account ledger right) (same : first.number = second.number) :
    left = right := by
  have one := (mem_account _ _ _).mp here
  have two := (mem_account _ _ _).mp there
  exact one.2.1 ▸ two.2.1 ▸ congrArg Entry.party (entry_unique ledger first second one.1 two.1 same)

theorem account_issue (ledger : Ledger Party Good Amount) (party other : Party) (good : Good)
    (amount : Amount) : account (issue ledger party good amount) other =
      account ledger other ++
        if party = other then [nextEntry ledger party good amount] else [] := by
  have fresh : (ledger.entries.length : Int) + 1 ∉ ledger.withdrawn := by
    intro member
    have bounds := ledger.known _ member
    omega
  simp only [account, issue, List.filter_append]
  congr 1
  by_cases same : party = other <;> simp [nextEntry, same, fresh]

theorem account_withdraw (ledger : Ledger Party Good Amount) (number : Int) (party : Party) :
    account (withdraw ledger number) party =
      (account ledger party).filter fun entry => entry.number ≠ number := by
  by_cases issued : Issued ledger number
  · simp only [account, withdraw, issued, ↓reduceDIte, List.filter_filter]
    apply List.filter_congr
    intro entry _
    by_cases here : entry.number = number <;> simp [here]
  · have absent : ∀ entry ∈ account ledger party, entry.number ≠ number := by
      rintro entry member rfl
      exact issued (entry_issued ledger entry ((mem_account _ _ _).mp member).1)
    rw [List.filter_eq_self.mpr (by simpa using absent)]
    simp [withdraw, issued]

end EE360P.OrderLedger
