import Mathlib.Data.List.Induction
import Mathlib.Data.List.Nodup
import Mathlib.Data.List.Perm.Subperm
import Mathlib.Logic.Function.Basic

/-! `MPIU_Find_local_and_external` of `util/procmap/local_proc.c`, and the two
communicators that `MPIR_Comm_commit` of `mpi/comm/commutil.c` makes of its result. A
rank of the communicator is written as the process that has it; -1 is `none`. Node
numbers are not negative. -/

namespace EE360P.NodePlacement

section Code
variable (node : Nat → Nat) (comm : List Nat) (me : Nat)

structure Located where
  nodes : Nat → Option Nat
  externalRanks : List Nat
  externalRank : Option Nat
  internodeTable : List (Option Nat)
  localRanks : List Nat
  localRank : Option Nat
  intranodeTable : List (Option Nat)

/-- One turn of the loop, for process `i` of the communicator. -/
def locate (located : Located) (i : Nat) : Located :=
  let fresh := located.nodes (node i) = none
  let nodes :=
    if fresh then Function.update located.nodes (node i) (some located.externalRanks.length)
    else located.nodes
  { nodes
    externalRanks := if fresh then located.externalRanks ++ [i] else located.externalRanks
    externalRank :=
      if fresh ∧ i = me then some located.externalRanks.length else located.externalRank
    internodeTable := located.internodeTable ++ [nodes (node i)]
    localRanks := if node i = node me then located.localRanks ++ [i] else located.localRanks
    localRank :=
      if node i = node me ∧ i = me then some located.localRanks.length else located.localRank
    intranodeTable := located.intranodeTable ++
      [if node i = node me then some located.localRanks.length else none] }

def findLocalAndExternal : Located :=
  comm.foldl (locate node me) ⟨fun _ => none, [], none, [], [], none, []⟩

/-- Whether `MPIR_Comm_commit` makes communicators and sets `hierarchy_kind` to
`MPID_HIERARCHY_PARENT`: where `num_external` is the size of the communicator, it leaves before. -/
def isNodeAware : Bool := (findLocalAndExternal node comm me).externalRanks.length ≠ comm.length

def nodeComm : Option (List Nat) :=
  let located := findLocalAndExternal node comm me
  if isNodeAware node comm me ∧ 1 < located.localRanks.length then some located.localRanks else none

def nodeRootsComm : Option (List Nat) :=
  let located := findLocalAndExternal node comm me
  if isNodeAware node comm me ∧ located.localRank = some 0 then some located.externalRanks else none

end Code

/-! What the loop finds: the first process of each node and the processes of one node. -/
section Found
variable (node : Nat → Nat)

def heads (comm : List Nat) : List Nat :=
  comm.foldl (fun found i => if found.any (node · = node i) then found else found ++ [i]) []

def mates (comm : List Nat) (i : Nat) : List Nat := comm.filter (node · = node i)

theorem heads_append (seen : List Nat) (i : Nat) : heads node (seen ++ [i]) =
    if (heads node seen).any (node · = node i) then heads node seen else heads node seen ++ [i] := by
  rw [heads, List.foldl_append]
  rfl

theorem mates_append (seen : List Nat) (i me : Nat) : mates node (seen ++ [i]) me =
    if node i = node me then mates node seen me ++ [i] else mates node seen me := by
  rw [mates, List.filter_append, List.filter_singleton]
  by_cases near : node i = node me
  · simp only [near, decide_true, cond_true, ↓reduceIte, mates]
  · simp only [near, decide_false, cond_false, ↓reduceIte, List.append_nil, mates]

theorem heads_inside (seen : List Nat) : ∀ e ∈ heads node seen, e ∈ seen := by
  induction seen using List.reverseRecOn with
  | nil => exact fun e member => member
  | append_singleton seen i ih =>
      intro e member
      rw [heads_append] at member
      rw [List.mem_append]
      split at member
      · exact Or.inl (ih e member)
      · exact (List.mem_append.mp member).imp_left (ih e)

theorem heads_covers (seen : List Nat) : ∀ i ∈ seen, ∃ e ∈ heads node seen, node e = node i := by
  induction seen using List.reverseRecOn with
  | nil => exact fun i member => absurd member List.not_mem_nil
  | append_singleton seen i ih =>
      intro j member
      rw [heads_append]
      rcases List.mem_append.mp member with old | new
      · obtain ⟨e, found, same⟩ := ih j old
        split
        · exact ⟨e, found, same⟩
        · exact ⟨e, List.mem_append_left [i] found, same⟩
      · obtain rfl := List.mem_singleton.mp new
        split
        · rename_i known
          obtain ⟨e, found, same⟩ := List.any_eq_true.mp known
          exact ⟨e, found, of_decide_eq_true same⟩
        · exact ⟨j, List.mem_append_right _ List.mem_cons_self, rfl⟩

/-- A found process is the first of its node. -/
theorem heads_first (seen : List Nat) : ∀ e ∈ heads node seen, (mates node seen e).head? = some e := by
  induction seen using List.reverseRecOn with
  | nil => exact fun e member => absurd member List.not_mem_nil
  | append_singleton seen i ih =>
      intro e member
      have kept : e ∈ heads node seen → (mates node (seen ++ [i]) e).head? = some e := by
        intro found
        rw [mates_append]
        split
        · rw [List.head?_append, ih e found]
          rfl
        · exact ih e found
      rw [heads_append] at member
      split at member
      · exact kept member
      · rename_i fresh
        rcases List.mem_append.mp member with old | new
        · exact kept old
        · obtain rfl := List.mem_singleton.mp new
          have none : mates node seen e = [] := by
            refine List.filter_eq_nil_iff.mpr fun j before same => fresh ?_
            obtain ⟨first, found, known⟩ := heads_covers node seen j before
            exact List.any_eq_true.mpr
              ⟨first, found, decide_eq_true (known.trans (of_decide_eq_true same))⟩
          rw [mates_append, if_pos rfl, none]
          rfl

theorem mates_same (comm : List Nat) (i j : Nat) (same : node i = node j) :
    mates node comm i = mates node comm j := by
  rw [mates, mates, same]

theorem mem_mates (comm : List Nat) (i j : Nat) :
    j ∈ mates node comm i ↔ j ∈ comm ∧ node j = node i := by
  simp [mates]

theorem mates_distinct {comm : List Nat} (distinct : comm.Nodup) (i : Nat) :
    (mates node comm i).Nodup := distinct.filter _

theorem heads_apart (comm : List Nat) (one other : Nat) (here : one ∈ heads node comm)
    (there : other ∈ heads node comm) (same : node one = node other) : one = other := by
  have first := heads_first node comm one here
  rw [mates_same node comm one other same, heads_first node comm other there] at first
  exact (Option.some.inj first).symm

/-- The first process of the same node. -/
def leader (comm : List Nat) (i : Nat) : Nat := (mates node comm i).headD i

theorem leader_found (comm : List Nat) (i : Nat) (member : i ∈ comm) :
    leader node comm i ∈ heads node comm ∧ node (leader node comm i) = node i := by
  obtain ⟨e, found, same⟩ := heads_covers node comm i member
  have first := heads_first node comm e found
  rw [mates_same node comm e i same] at first
  have leads : leader node comm i = e := by rw [leader, List.headD_eq_head?_getD, first]; rfl
  exact ⟨leads ▸ found, leads ▸ same⟩

theorem heads_distinct (seen : List Nat) : (heads node seen).Nodup := by
  induction seen using List.reverseRecOn with
  | nil => exact List.nodup_nil
  | append_singleton seen i ih =>
      rw [heads_append]
      split
      · exact ih
      · rename_i fresh
        refine List.nodup_append.mpr ⟨ih, List.nodup_singleton i, fun e found other new same => fresh ?_⟩
        obtain rfl := List.mem_singleton.mp new
        exact List.any_eq_true.mpr ⟨e, found, decide_eq_true (congrArg node same)⟩

end Found

section Loop
variable (node : Nat → Nat) (me : Nat)

structure Locates (seen : List Nat) (located : Located) : Prop where
  nodes : ∀ n, located.nodes n = (heads node seen).findIdx? (node · = n)
  externalRanks : located.externalRanks = heads node seen
  externalRank : located.externalRank = (heads node seen).idxOf? me
  internodeTable : located.internodeTable =
    seen.map fun i => (heads node seen).findIdx? (node · = node i)
  localRanks : located.localRanks = mates node seen me
  localRank : located.localRank = (mates node seen me).idxOf? me
  intranodeTable : located.intranodeTable = seen.map (mates node seen me).idxOf?

theorem findIdx?_snoc (found : List Nat) (i : Nat) (test : Nat → Bool) :
    (found ++ [i]).findIdx? test =
      (found.findIdx? test).or (if test i then some found.length else none) := by
  rw [List.findIdx?_append]
  by_cases last : test i <;> simp [last]

theorem idxOf?_snoc (found : List Nat) (i j : Nat) (new : i ∉ found) :
    (found ++ [i]).idxOf? j = if i = j then some found.length else found.idxOf? j := by
  rw [List.idxOf?, findIdx?_snoc]
  by_cases same : i = j
  · subst same
    have none : found.findIdx? (· == i) = none := by
      simpa [List.findIdx?_eq_none_iff] using fun e member (same : e = i) => new (same ▸ member)
    simp [none]
  · simp [same]

theorem locals_step (seen : List Nat) (i j : Nat) (new : i ∉ seen) :
    (mates node (seen ++ [i]) me).idxOf? j =
      if node i = node me ∧ i = j then some (mates node seen me).length
      else (mates node seen me).idxOf? j := by
  have fresh : i ∉ mates node seen me := fun member => new (List.mem_of_mem_filter member)
  rw [mates_append]
  by_cases near : node i = node me
  · simp only [near, ↓reduceIte, true_and]
    exact idxOf?_snoc _ i j fresh
  · simp only [near, ↓reduceIte, false_and]

theorem known_iff (seen : List Nat) (i : Nat) : (heads node seen).findIdx? (node · = node i) = none ↔
    (heads node seen).any (node · = node i) = false := by
  simp [List.findIdx?_eq_none_iff]

theorem seen_known (seen : List Nat) (i j : Nat) (old : j ∈ seen) :
    (heads node (seen ++ [i])).findIdx? (node · = node j) =
      (heads node seen).findIdx? (node · = node j) := by
  rw [heads_append]
  split
  · rfl
  · obtain ⟨e, found, same⟩ := heads_covers node seen j old
    have known : ((heads node seen).findIdx? (node · = node j)).isSome := by
      rw [List.findIdx?_isSome]
      exact List.any_eq_true.mpr ⟨e, found, decide_eq_true same⟩
    obtain ⟨k, place⟩ := Option.isSome_iff_exists.mp known
    rw [findIdx?_snoc, place]
    rfl

theorem locate_step (seen : List Nat) (i : Nat) (located : Located) (new : i ∉ seen)
    (locates : Locates node me seen located) :
    Locates node me (seen ++ [i]) (locate node me located i) := by
  have unlisted : i ∉ heads node seen := fun member => new (heads_inside node seen i member)
  have nodesNow : ∀ n, (locate node me located i).nodes n =
      (heads node (seen ++ [i])).findIdx? (node · = n) := by
    intro n
    simp only [locate, locates.nodes, known_iff, heads_append, locates.externalRanks]
    by_cases known : (heads node seen).any (node · = node i) = true
    · simp only [known, Bool.true_eq_false, ↓reduceIte, locates.nodes]
    · have fresh := Bool.eq_false_iff.mpr known
      simp only [fresh, ↓reduceIte, Bool.false_eq_true, findIdx?_snoc]
      by_cases same : n = node i
      · subst same
        rw [Function.update_self, (known_iff node seen i).mpr fresh]
        simp
      · rw [Function.update_of_ne same, locates.nodes]
        simp [Ne.symm same]
  refine ⟨nodesNow, ?_, ?_, ?_, ?_, ?_, ?_⟩
  · simp only [locate, locates.nodes, known_iff, heads_append, locates.externalRanks]
    by_cases known : (heads node seen).any (node · = node i) = true
    · simp [known]
    · simp [Bool.eq_false_iff.mpr known]
  · simp only [locate, locates.nodes, known_iff, heads_append, locates.externalRanks,
      locates.externalRank]
    by_cases known : (heads node seen).any (node · = node i) = true
    · simp [known]
    · simp only [Bool.eq_false_iff.mpr known, true_and, Bool.false_eq_true, ↓reduceIte]
      exact (idxOf?_snoc _ i me unlisted).symm
  · rw [List.map_append, List.map_singleton]
    have last : (locate node me located i).internodeTable =
        located.internodeTable ++ [(locate node me located i).nodes (node i)] := rfl
    rw [last, nodesNow, locates.internodeTable]
    congr 1
    exact List.map_congr_left fun j old => (seen_known node seen i j old).symm
  · simp only [locate, locates.localRanks, mates_append]
  · simp only [locate, locates.localRanks, locates.localRank, locals_step node me seen i me new]
  · rw [List.map_append, List.map_singleton]
    simp only [locate, locates.localRanks, locates.intranodeTable]
    congr 1
    · refine List.map_congr_left fun j old => ?_
      have other : i ≠ j := fun same => new (same ▸ old)
      simp [locals_step node me seen i j new, other]
    · have absent : i ∉ mates node seen me := fun member => new (List.mem_of_mem_filter member)
      simp [locals_step node me seen i i new, List.idxOf?_eq_none_iff.mpr absent]

theorem locates (comm : List Nat) (distinct : comm.Nodup) :
    Locates node me comm (findLocalAndExternal node comm me) := by
  induction comm using List.reverseRecOn with
  | nil => exact ⟨fun _ => rfl, rfl, rfl, rfl, rfl, rfl, rfl⟩
  | append_singleton seen i ih =>
      obtain ⟨before, _, apart⟩ := List.nodup_append.mp distinct
      rw [findLocalAndExternal, List.foldl_append]
      exact locate_step node me seen i _ (fun old => apart i old i List.mem_cons_self rfl) (ih before)

end Loop

section Communicators
variable (node : Nat → Nat) (comm : List Nat) (distinct : comm.Nodup)
include distinct

theorem isNodeAware_iff (me : Nat) :
    isNodeAware node comm me = true ↔ (heads node comm).length ≠ comm.length := by
  simp only [isNodeAware, (locates node me comm distinct).externalRanks, decide_eq_true_eq]

/-- With as many nodes as processes every process is alone on its node. -/
theorem mates_few (same : (heads node comm).length = comm.length) (me : Nat) :
    (mates node comm me).length ≤ 1 := by
  have all : ∀ i ∈ comm, i ∈ heads node comm := fun i member =>
    ((List.Nodup.subperm (heads_distinct node comm) (heads_inside node comm)).perm_of_length_le
      (Nat.le_of_eq same.symm)).mem_iff.mpr member
  match shape : mates node comm me with
  | [] => exact Nat.zero_le 1
  | [_] => exact Nat.le_refl 1
  | one :: other :: rest =>
      have here := (mem_mates node comm me one).mp (by rw [shape]; exact List.mem_cons_self)
      have there := (mem_mates node comm me other).mp
        (by rw [shape]; exact List.mem_cons_of_mem one List.mem_cons_self)
      have equal := heads_apart node comm one other (all one here.1) (all other there.1)
        (here.2.trans there.2.symm)
      have apart := mates_distinct node distinct me
      rw [shape, equal] at apart
      exact absurd List.mem_cons_self (List.nodup_cons.mp apart).1

theorem nodeComm_eq (me : Nat) : nodeComm node comm me =
    if 1 < (mates node comm me).length then some (mates node comm me) else none := by
  simp only [nodeComm, (locates node me comm distinct).localRanks, isNodeAware_iff node comm distinct me]
  by_cases more : 1 < (mates node comm me).length
  · have aware : (heads node comm).length ≠ comm.length := fun same =>
      absurd (mates_few node comm distinct same me) (Nat.not_le.mpr more)
    rw [if_pos ⟨aware, more⟩, if_pos more]
  · rw [if_neg fun both => more both.2, if_neg more]

omit distinct in
/-- The first process of a node is also the one that is external. -/
theorem heads_iff (me : Nat) (member : me ∈ comm) :
    me ∈ heads node comm ↔ (mates node comm me).idxOf? me = some 0 := by
  have among : me ∈ mates node comm me := (mem_mates node comm me me).mpr ⟨member, rfl⟩
  constructor
  · intro found
    have first := heads_first node comm me found
    cases shape : mates node comm me with
    | nil => simp [shape] at among
    | cons e rest =>
        obtain rfl : e = me := by simpa [shape] using first
        simp [List.idxOf?_cons]
  · intro zero
    obtain ⟨e, found, same⟩ := heads_covers node comm me member
    have first := heads_first node comm e found
    rw [mates_same node comm e me same] at first
    cases shape : mates node comm me with
    | nil => simp [shape] at among
    | cons head rest =>
        obtain rfl : head = e := by simpa [shape] using first
        simp only [shape, List.idxOf?_cons] at zero
        split at zero
        · rename_i equal
          exact eq_of_beq equal ▸ found
        · simp at zero

theorem nodeRootsComm_eq (me : Nat) (member : me ∈ comm) : nodeRootsComm node comm me =
    if (heads node comm).length ≠ comm.length ∧ me ∈ heads node comm then some (heads node comm)
    else none := by
  simp only [nodeRootsComm, isNodeAware_iff node comm distinct me,
    (locates node me comm distinct).externalRanks, (locates node me comm distinct).localRank,
    heads_iff node comm me member]

end Communicators

end EE360P.NodePlacement
