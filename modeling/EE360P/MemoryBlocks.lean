import Mathlib.Algebra.BigOperators.Intervals
import Mathlib.Algebra.GroupWithZero.Nat

/-! A memory that is cut into blocks of one size; the last ones may be shorter, or empty.
Memories that hold blocks of one original, and what a copied range adds to them. -/

namespace EE360P.MemoryBlocks

variable {Byte : Type}

section Ranges

def load (memory : Nat → Byte) (offset size : Nat) : List Byte :=
  (List.range size).map fun i => memory (offset + i)

def store (memory : Nat → Byte) (offset : Nat) (bytes : List Byte) (address : Nat) : Byte :=
  if offset ≤ address then bytes.getD (address - offset) (memory address) else memory address

@[simp] theorem load_length (memory : Nat → Byte) (offset size : Nat) :
    (load memory offset size).length = size := by
  simp [load]

@[simp] theorem store_nil (memory : Nat → Byte) (offset : Nat) : store memory offset [] = memory := by
  funext address
  simp [store]

/-- A range that is copied to where it was. -/
theorem store_load (memory source : Nat → Byte) (offset size address : Nat) :
    store memory offset (load source offset size) address =
      if offset ≤ address ∧ address < offset + size then source address else memory address := by
  unfold store
  by_cases behind : offset ≤ address
  · by_cases inside : address < offset + size
    · have short : address - offset < size := by omega
      have place : offset + (address - offset) = address := by omega
      simp [behind, inside, load, List.getD_eq_getElem?_getD, short, place]
    · have long : size ≤ address - offset := by omega
      simp [behind, inside, load, List.getD_eq_getElem?_getD, long]
  · simp [behind]

theorem load_same (one other : Nat → Byte) (offset size : Nat)
    (same : ∀ address, offset ≤ address → address < offset + size → one address = other address) :
    load one offset size = load other offset size := by
  apply List.map_congr_left
  intro i member
  exact same _ (Nat.le_add_right _ _) (Nat.add_lt_add_left (List.mem_range.mp member) _)

end Ranges

section Blocks
variable (size total : Nat)

/-- Where the first blocks end. -/
def cut (count : Nat) : Nat := min total (count * size)

def blockSize (block : Nat) : Nat := min size (total - block * size)

theorem cut_succ (block : Nat) : cut size total block + blockSize size total block =
    cut size total (block + 1) := by
  unfold cut blockSize
  rw [Nat.succ_mul]
  omega

theorem blockSize_cut (block : Nat) : blockSize size total block =
    cut size total (block + 1) - cut size total block := by
  rw [← cut_succ, Nat.add_sub_cancel_left]

theorem cut_mono {low high : Nat} (ordered : low ≤ high) : cut size total low ≤ cut size total high :=
  min_le_min_left _ (Nat.mul_le_mul_right _ ordered)

theorem blocks_size {low high : Nat} (ordered : low ≤ high) :
    ∑ block ∈ Finset.Ico low high, blockSize size total block =
      cut size total high - cut size total low := by
  induction high, ordered using Nat.le_induction with
  | base => simp
  | succ high ordered ih =>
      have below := cut_mono size total ordered
      rw [Finset.sum_Ico_succ_top ordered, ih, ← cut_succ]
      omega

/-- The memory has the source's bytes in these blocks, and behind them all nothing is new. -/
structure Holds (source own memory : Nat → Byte) (blocks : Finset Nat) : Prop where
  inside : ∀ address < total, address / size ∈ blocks → memory address = source address
  behind : ∀ address, total ≤ address → memory address = own address

/-- A memory that has all of the source's bytes. -/
def filled (source own : Nat → Byte) (address : Nat) : Byte :=
  if address < total then source address else own address

variable {size total} {source own theirOwn memory other : Nat → Byte} {blocks more : Finset Nat}

theorem holds_less (included : more ⊆ blocks) (holds : Holds size total source own memory blocks) :
    Holds size total source own memory more where
  inside address short member := holds.inside address short (included member)
  behind := holds.behind

/-- Consecutive blocks that are copied from one memory to another. -/
theorem holds_copied (positive : 0 < size) {low high : Nat} (ordered : low ≤ high)
    (mine : Holds size total source own memory blocks)
    (theirs : Holds size total source theirOwn other (Finset.Ico low high)) :
    Holds size total source own
      (store memory (low * size) (load other (low * size) (cut size total high - cut size total low)))
      (blocks ∪ Finset.Ico low high) where
  inside address short member := by
    have among : address / size ∈ Finset.Ico low high ↔ low * size ≤ address ∧ address < high * size := by
      rw [Finset.mem_Ico, Nat.le_div_iff_mul_le positive, Nat.div_lt_iff_lt_mul positive]
    have wide := Nat.mul_le_mul_right size ordered
    rw [store_load]
    split
    · rename_i copied
      refine theirs.inside address short (among.mpr ⟨copied.1, ?_⟩)
      unfold cut at copied
      omega
    · rename_i kept
      refine mine.inside address short ((Finset.mem_union.mp member).resolve_right fun new => kept ?_)
      obtain ⟨after, before⟩ := among.mp new
      unfold cut
      omega
  behind address far := by
    have outside : ¬(low * size ≤ address ∧
        address < low * size + (cut size total high - cut size total low)) := by
      unfold cut
      omega
    rw [store_load, if_neg outside]
    exact mine.behind address far

theorem holds_all {count : Nat} (positive : 0 < size) (covered : total ≤ count * size)
    (holds : Holds size total source own memory (Finset.range count)) :
    memory = filled total source own := by
  funext address
  unfold filled
  split
  · rename_i short
    refine holds.inside address short (Finset.mem_range.mpr ?_)
    exact (Nat.div_lt_iff_lt_mul positive).mpr (Nat.lt_of_lt_of_le short covered)
  · rename_i far
    exact holds.behind address (Nat.not_lt.mp far)

end Blocks

end EE360P.MemoryBlocks
