import EE360P.MatrixShares

/-! Which collective calls the processes of `matrix_mult.c` get to. The rank
guard and the root's early `return` make them differ. -/

namespace EE360P.MatrixTraces
open Collectives MatrixProduct MatrixShares

def allCalls : List Call := [.bcast, .bcast, .scatterv, .bcast, .gatherv, .barrier, .finalize]

/-- The calls of a process outside the rank guard. -/
def idleCalls : List Call := [.bcast, .bcast, .barrier, .finalize]

variable (processes : Nat) (files : Files)

/-- A process that has been told the sizes. -/
def guarded (matrixRowSize : Int) (columns rank : Nat) : Rank :=
  if (rank : Int) < matrixRowSize then
    if (columns : Int) = 0 then .ended [] .trapped
    else distribute processes rank files matrixRowSize.toNat columns
  else farewell [] none

theorem bcast_answer (positive : 0 < processes) (sent : Nat → Message) (rank : Nat) :
    answer .bcast ((List.range processes).map sent) rank = sent 0 := by
  obtain ⟨before, rfl⟩ := Nat.exists_eq_succ_of_ne_zero (Nat.ne_of_gt positive)
  simp [answer, List.range_succ_eq_map]

theorem scatter_answer (positive : 0 < processes) (sent : Nat → Message) (rank : Nat) :
    answer .scatterv ((List.range processes).map sent) rank = [(sent 0).getD rank []] := by
  obtain ⟨before, rfl⟩ := Nat.exists_eq_succ_of_ne_zero (Nat.ne_of_gt positive)
  simp [answer, List.range_succ_eq_map]

theorem gather_answer (sent : Nat → Message) :
    answer .gatherv ((List.range processes).map sent) 0 = (List.range processes).flatMap sent := by
  simp only [answer, ↓reduceIte, ← List.flatMap_def]

section Accesses
variable (kind : Call) (marks : List Access) (sent : Message) (next : Message → Rank)

theorem enter_inside (inside : ∀ access ∈ marks, access.inside) :
    enter kind marks sent next = .call kind marks sent next :=
  if_pos inside

theorem enter_none : enter kind [] sent next = .call kind [] sent next :=
  enter_inside kind [] sent next (by simp)

theorem farewell_inside (resultFile : Option (List Cell)) (inside : ∀ access ∈ marks, access.inside) :
    farewell marks resultFile = .call .barrier marks [] fun _ => .call .finalize [] [] fun _ =>
      .ended [] (.finished resultFile) := by
  rw [farewell, enter_inside _ _ _ _ inside]
  simp only [enter_none]

theorem rootOnly_inside (rank : Nat) (inside : ∀ access ∈ marks, access.inside) :
    ∀ access ∈ (if rank = 0 then marks else []), access.inside := by
  split
  · exact inside
  · simp

/-- An end that an access outside its buffer has led to. -/
def Overrun (marks : List Access) (outcome : Outcome) : Prop :=
  (¬ ∀ access ∈ marks, access.inside) ∧ outcome = .undefined

/-- A process that goes wrong whatever it is answered, or already here. -/
theorem enter_ends (calls : Nat) (free : awaited kind = false)
    (later : ∀ reply, (next reply).Ends awaited Overrun calls) :
    (enter kind marks sent next).Ends awaited Overrun (calls + 1) := by
  unfold enter
  split
  · exact ⟨free, later⟩
  · rename_i outside
    exact ⟨outside, rfl⟩

theorem enter_overrun (calls : Nat) (outside : ¬ ∀ access ∈ marks, access.inside) :
    (enter kind marks sent next).Ends awaited Overrun calls := by
  rw [enter, if_neg outside]
  cases calls <;> exact ⟨outside, rfl⟩

end Accesses

/-- One of the files does not open. -/
def Closed : Prop := files.matrixFile = none ∨ files.vectorFile = none

/-- Both files open and tell these sizes. -/
def Opened (matrixRowSize : Int) (columns : Nat) : Prop :=
  ∃ entries numbers, files.matrixFile = some (matrixRowSize, entries) ∧
    files.vectorFile = some numbers ∧ numbers.length = columns

/-- What the processes are as they start. -/
theorem main_opened (matrixRowSize : Int) (entries numbers : List Int)
    (matrixOpen : files.matrixFile = some (matrixRowSize, entries))
    (vectorOpen : files.vectorFile = some numbers) (rank : Nat) :
    main processes rank files =
      enter .bcast (readTouches numbers.length rank)
        [[if rank = 0 then some matrixRowSize else none]] fun rowSize =>
          enter .bcast [] [[if rank = 0 then some (numbers.length : Int) else none]] fun columnSize =>
            if (rank : Int) < toldSize rowSize then
              if toldSize columnSize = 0 then .ended [] .trapped
              else distribute processes rank files (toldSize rowSize).toNat (toldSize columnSize).toNat
            else farewell [] none := by
  by_cases root : rank = 0 <;> simp [main, root, matrixOpen, vectorOpen, sizes, readTouches]

section Told
variable (matrixRowSize : Int) (columns : Nat)
variable (opened : Opened files matrixRowSize columns)
include opened

/-- Both files open: two broadcasts tell every process the root's sizes. -/
theorem run_opened (positive : 0 < processes) (small : columns ≤ 1000) :
    (run processes files).members =
      play awaited answer 5 ((List.range processes).map fun rank =>
        ⟨[.bcast, .bcast], readTouches columns rank,
          guarded processes files matrixRowSize columns rank⟩) := by
  obtain ⟨entries, numbers, matrixOpen, vectorOpen, rfl⟩ := opened
  have read := fun rank => readTouches_inside numbers.length rank small
  simp only [run, Member.start,
    main_opened processes files matrixRowSize entries numbers matrixOpen vectorOpen,
    enter_inside _ _ _ _ (read _), enter_none]
  rw [play_round awaited answer processes _ _ _ _ _ _ 6 positive]
  simp only [bcast_answer processes positive]
  rw [play_round awaited answer processes _ _ _ _ _ _ 5 positive]
  simp only [bcast_answer processes positive, List.append_nil, List.nil_append, ↓reduceIte]
  rfl

theorem run_read (large : 1000 < columns) :
    (main processes 0 files).Ends awaited Overrun 0 := by
  obtain ⟨entries, numbers, matrixOpen, vectorOpen, rfl⟩ := opened
  rw [main_opened processes files matrixRowSize entries numbers matrixOpen vectorOpen]
  refine enter_overrun _ _ _ _ _ fun inside => ?_
  have last := inside _ (touches_mem .temporaryVector 1000 0 numbers.length 1000 large)
  exact Nat.lt_irrefl 1000 last

end Told

/-- Everybody is at the barrier. -/
theorem play_farewell (positive : 0 < processes) (rounds : Nat) (answered : Nat → List Call)
    (before marks : Nat → List Access) (resultFile : Nat → Option (List Cell))
    (inside : ∀ rank, ∀ access ∈ marks rank, access.inside) :
    play awaited answer (rounds + 2) ((List.range processes).map fun rank =>
        ⟨answered rank, before rank, farewell (marks rank) (resultFile rank)⟩) =
      (List.range processes).map fun rank =>
        ⟨answered rank ++ [.barrier, .finalize], before rank ++ marks rank,
          .ended [] (.finished (resultFile rank))⟩ := by
  simp only [farewell_inside _ _ (inside _)]
  rw [play_round awaited answer processes _ _ _ _ _ _ (rounds + 1) positive,
    play_round awaited answer processes _ _ _ _ _ _ rounds positive, play_ended]
  · simp only [List.append_nil, List.append_assoc, List.cons_append, List.nil_append]
  · intro member first
    obtain ⟨rank, _, rfl⟩ := List.mem_map.mp (List.mem_of_mem_head? first)
    rfl

section Shared
variable (rows columns : Nat)

def products : Message := (List.range processes).flatMap fun rank =>
  if rank < rows then
    [gatherPiece processes rank rows columns
      (received rows columns (share processes files rows columns rank)) (vector files columns)]
  else []

/-- Nobody is left without a row. -/
theorem products_all (enough : processes ≤ rows) : products processes files rows columns =
    (List.range processes).map fun rank => gatherPiece processes rank rows columns
      (received rows columns (share processes files rows columns rank)) (vector files columns) := by
  rw [products, ← List.flatMap_pure_eq_map]
  refine List.flatMap_congr fun rank member => ?_
  rw [if_pos (Nat.lt_of_lt_of_le (List.mem_range.mp member) enough)]
  rfl

/-- What the root prints. -/
def printed : List Cell :=
  (List.range rows).map
    (load (resultantVector processes rows columns (products processes files rows columns)))

/-- One call of the processes inside the rank guard; the others are at the barrier. -/
theorem play_inside (rounds : Nat) (kind : Call) (answered : Nat → List Call)
    (before marks : Nat → List Access) (sent : Nat → Message) (next : Nat → Message → Rank)
    (here after : Nat → Rank) (idle : Nat → Member Call Message Access Outcome)
    (positive : 0 < processes) (some : 0 < rows) (free : awaited kind = false)
    (resting : ∀ rank, (idle rank).process.pending = Option.some .barrier)
    (calls : ∀ rank < processes, here rank = .call kind (marks rank) (sent rank) (next rank))
    (goes : ∀ rank < processes, rank < rows →
      next rank (answer kind ((List.range processes).map fun other =>
        if other < rows then sent other else []) rank) = after rank) :
    play awaited answer (rounds + 1) ((List.range processes).map fun rank =>
        if rank < rows then ⟨answered rank, before rank, here rank⟩ else idle rank) =
      play awaited answer rounds ((List.range processes).map fun rank =>
        if rank < rows then ⟨answered rank ++ [kind], before rank ++ marks rank, after rank⟩
        else idle rank) := by
  have shape : ((List.range processes).map fun rank =>
      if rank < rows then (⟨answered rank, before rank, here rank⟩ : Member Call Message Access Outcome)
      else idle rank) = (List.range processes).map fun rank =>
        if rank < rows then
          ⟨answered rank, before rank, .call kind (marks rank) (sent rank) (next rank)⟩
        else idle rank :=
    List.map_congr_left fun rank member => by rw [calls rank (List.mem_range.mp member)]
  have elsewhere : ∀ rank < processes, ¬ rank < rows → (idle rank).process.pending ≠ Option.some kind := by
    intro rank _ _
    rw [resting]
    rintro ⟨rfl⟩
    cases free
  rw [shape, play_led awaited answer processes answered before kind (· < rows) marks sent next idle
    elsewhere rounds positive some free]
  congr 1
  refine List.map_congr_left fun rank member => ?_
  by_cases inside : rank < rows
  · rw [if_pos inside, if_pos inside]
    exact congrArg _ (goes rank (List.mem_range.mp member) inside)
  · rw [if_neg inside, if_neg inside]

variable (positive : 0 < processes) (some : 0 < rows) (room : rows ≤ columns) (small : columns ≤ 1000)
include positive some room small

/-- Three calls of the processes inside the guard, and everybody is at the barrier. -/
theorem play_guarded :
    play awaited answer 5 ((List.range processes).map fun rank =>
        ⟨[.bcast, .bcast], readTouches columns rank, guarded processes files rows columns rank⟩) =
      play awaited answer 2 ((List.range processes).map fun rank =>
        if rank < rows then
          ⟨[.bcast, .bcast, .scatterv, .bcast, .gatherv],
            readTouches columns rank ++ (if rank = 0 then rootTouches processes rows columns else []) ++
              arrivedTouches rows columns (share processes files rows columns rank) ++
              computeTouches processes rank rows columns
                (received rows columns (share processes files rows columns rank)) (vector files columns),
            farewell (if rank = 0 then resultTouches processes rows columns else [])
              (if rank = 0 then Option.some (printed processes files rows columns) else none)⟩
        else ⟨[.bcast, .bcast], readTouches columns rank, farewell [] none⟩) := by
  have wide : 0 < columns := by omega
  let idle : Nat → Member Call Message Access Outcome := fun rank =>
    ⟨[.bcast, .bcast], readTouches columns rank, farewell [] none⟩
  have resting : ∀ rank, (idle rank).process.pending = Option.some .barrier := by
    intro rank
    simp only [idle, farewell_inside [] none (by simp)]
    rfl
  calc
    _ = play awaited answer 5 ((List.range processes).map fun rank =>
          if rank < rows then
            ⟨[.bcast, .bcast], readTouches columns rank, distribute processes rank files rows columns⟩
          else idle rank) := by
        congr 1
        refine List.map_congr_left fun rank _ => ?_
        by_cases inside : rank < rows <;> simp [guarded, inside, Nat.ne_of_gt wide, idle]
    _ = play awaited answer 4 ((List.range processes).map fun rank =>
          if rank < rows then
            ⟨[.bcast, .bcast, .scatterv],
              readTouches columns rank ++ if rank = 0 then rootTouches processes rows columns else [],
              enter .bcast (arrivedTouches rows columns (share processes files rows columns rank))
                [if rank = 0 then vector files columns else blank columns] fun vectorReply =>
                  compute processes rank rows columns
                    (received rows columns (share processes files rows columns rank))
                    (vectorReply.headD [])⟩
          else idle rank) := by
        refine play_inside processes rows 4 .scatterv _ _ _ _ _ _ _ idle positive some rfl resting
          (fun rank _ => enter_inside _ _ _ _ (rootOnly_inside _ rank
            (rootTouches_inside processes rows columns wide small))) fun rank _ _ => ?_
        rw [scatter_answer processes positive, if_pos some, if_pos rfl]
        rfl
    _ = play awaited answer 3 ((List.range processes).map fun rank =>
          if rank < rows then
            ⟨[.bcast, .bcast, .scatterv, .bcast],
              readTouches columns rank ++ (if rank = 0 then rootTouches processes rows columns else []) ++
                arrivedTouches rows columns (share processes files rows columns rank),
              compute processes rank rows columns
                (received rows columns (share processes files rows columns rank)) (vector files columns)⟩
          else idle rank) := by
        refine play_inside processes rows 3 .bcast _ _ _ _ _ _ _ idle positive some rfl resting
          (fun rank inside => enter_inside _ _ _ _
            (arrivedTouches_inside processes rows columns files wide rank inside)) fun rank _ _ => ?_
        rw [bcast_answer processes positive, if_pos some, if_pos rfl]
        rfl
    _ = _ := by
        refine play_inside processes rows 2 .gatherv _ _ _ _ _ _ _ idle positive some rfl resting
          (fun rank inside => enter_inside _ _ _ _
            (computeTouches_inside processes rows columns files wide room rank inside)) fun rank _ _ => ?_
        by_cases root : rank = 0
        · subst root
          rw [gather_answer]
          rfl
        · simp only [report, root, ↓reduceIte]

/-- Everything fits: the processes inside the guard make all calls, the others meet them
at the barrier, and the root prints. -/
theorem run_shared (opened : Opened files rows columns) :
    (run processes files).members = (List.range processes).map fun rank =>
      { answered := if rank < rows then allCalls else idleCalls
        marks := readTouches columns rank ++
          if rank < rows then touched processes files rows columns rank else []
        process := .ended [] (.finished
          (if rank = 0 then Option.some (printed processes files rows columns) else none)) } := by
  have wide : 0 < columns := by omega
  rw [run_opened processes files rows columns opened positive small,
    play_guarded processes files rows columns positive some room small]
  have together := play_farewell processes positive 0
    (fun rank => if rank < rows then [.bcast, .bcast, .scatterv, .bcast, .gatherv] else [.bcast, .bcast])
    (fun rank => readTouches columns rank ++
      if rank < rows then
        (if rank = 0 then rootTouches processes rows columns else []) ++
          arrivedTouches rows columns (share processes files rows columns rank) ++
          computeTouches processes rank rows columns
            (received rows columns (share processes files rows columns rank)) (vector files columns)
      else [])
    (fun rank => if rank = 0 then resultTouches processes rows columns else [])
    (fun rank => if rank = 0 then Option.some (printed processes files rows columns) else none)
    (fun rank => rootOnly_inside _ rank (resultTouches_inside processes rows columns wide room))
  refine Eq.trans ?_ (together.trans ?_)
  · congr 1
    refine List.map_congr_left fun rank _ => ?_
    by_cases inside : rank < rows
    · simp [inside]
    · have apart : rank ≠ 0 := by omega
      simp [inside, apart]
  · refine List.map_congr_left fun rank _ => ?_
    by_cases inside : rank < rows
    · simp [inside, allCalls, touched]
    · have apart : rank ≠ 0 := by omega
      simp [inside, apart, idleCalls]

theorem run_inside (opened : Opened files rows columns) :
    ∀ access ∈ (run processes files).allMarks, access.inside := by
  intro access member
  rw [Played.allMarks, run_shared processes files rows columns positive some room small opened] at member
  simp only [List.flatMap_map, Process.marks, List.append_nil, List.mem_flatMap, List.mem_append] at member
  obtain ⟨rank, listed, read | shared⟩ := member
  · exact readTouches_inside columns rank small access read
  · split at shared
    · exact touched_inside processes rows columns files (by omega) small room rank
        (List.mem_range.mp listed) access shared
    · cases shared

end Shared

section Overruns

/-- An access of the run is outside its buffer, and a process is left undefined. -/
def Broken (played : Played Call Message Access Outcome) : Prop :=
  (¬ ∀ access ∈ played.allMarks, access.inside) ∧
    ∃ process ∈ played.processes, process.result = some .undefined

/-- The root goes wrong by itself. -/
theorem play_overrun (calls rounds : Nat) (members : Nat → Member Call Message Access Outcome)
    (positive : 0 < processes) (enough : calls ≤ rounds)
    (ends : (members 0).process.Ends awaited Overrun calls) :
    Broken ⟨play awaited answer rounds ((List.range processes).map members)⟩ := by
  obtain ⟨before, rfl⟩ := Nat.exists_eq_succ_of_ne_zero (Nat.ne_of_gt positive)
  rw [List.range_succ_eq_map, List.map_cons]
  obtain ⟨member, marks, result, among, ended, outside, rfl⟩ :=
    play_ends awaited answer Overrun calls rounds (members 0) _ enough ends
  constructor
  · intro inside
    refine outside fun access listed => inside access (List.mem_flatMap.mpr ⟨member, among, ?_⟩)
    rw [ended]
    exact List.mem_append_right _ listed
  · refine ⟨member.process, List.mem_map_of_mem among, ?_⟩
    rw [ended]
    rfl

variable (rows columns : Nat)

/-- The root fills and prints `rows` numbers of a `resultant_vector` of `columns`. -/
theorem distribute_ends (large : columns < rows) :
    (distribute processes 0 files rows columns).Ends awaited Overrun 3 := by
  refine enter_ends _ _ _ _ 2 rfl fun reply => enter_ends _ _ _ _ 1 rfl fun vectorReply =>
    enter_ends _ _ _ _ 0 rfl fun pieces => enter_overrun _ _ _ _ 0 fun inside => ?_
  have last := inside _ (List.mem_append_right _
    (touches_mem .resultantVector columns 0 rows columns large))
  simp [Access.inside] at last

theorem run_overrun (positive : 0 < processes) (matrixRowSize : Int)
    (opened : Opened files matrixRowSize columns)
    (large : 1000 < columns ∨ 0 < columns ∧ (columns : Int) < matrixRowSize) :
    Broken (run processes files) := by
  by_cases small : columns ≤ 1000
  · rcases large with beyond | ⟨wide, beyond⟩
    · omega
    · have ran := run_opened processes files matrixRowSize columns opened positive small
      have inside : guarded processes files matrixRowSize columns 0 =
          distribute processes 0 files matrixRowSize.toNat columns := by
        simp [guarded, Nat.ne_of_gt wide, show (0 : Int) < matrixRowSize by omega]
      have broken := play_overrun processes 3 5 (fun rank => ⟨[.bcast, .bcast], readTouches columns rank,
        guarded processes files matrixRowSize columns rank⟩) positive (by decide) (by
          rw [inside]
          exact distribute_ends processes files matrixRowSize.toNat columns (by omega))
      rw [← ran] at broken
      exact broken
  · exact play_overrun processes 0 7 (fun rank => .start (main processes rank files)) positive
      (Nat.zero_le _) (run_read processes files matrixRowSize columns opened (by omega))

end Overruns

section Traces

/-- Every process makes the seven calls, and no access outside a buffer leaves one undefined. -/
def AllCall : Prop :=
  (∀ process ∈ (run processes files).processes, process.result ≠ some .undefined) ∧
    ∀ calls ∈ (run processes files).issued, calls = allCalls

/-- No two processes make different calls, and no access outside a buffer leaves one undefined. -/
def NoneDiffer : Prop :=
  (∀ process ∈ (run processes files).processes, process.result ≠ some .undefined) ∧
    ∀ one ∈ (run processes files).issued, ∀ other ∈ (run processes files).issued, one = other

section Known
variable (members : Nat → Member Call Message Access Outcome)
variable (ran : (run processes files).members = (List.range processes).map members)
include ran

theorem issued_members (calls : List Call) :
    calls ∈ (run processes files).issued ↔ ∃ rank < processes, (members rank).issued = calls := by
  simp [Played.issued, ran]

variable (defined : ∀ rank, (members rank).process.result ≠ some .undefined)
include defined

theorem run_defined :
    ∀ process ∈ (run processes files).processes, process.result ≠ some .undefined := by
  intro process member
  rw [Played.processes, ran, List.map_map] at member
  obtain ⟨rank, _, rfl⟩ := List.mem_map.mp member
  exact defined rank

theorem allCall_members :
    AllCall processes files ↔ ∀ rank < processes, (members rank).issued = allCalls := by
  have known := issued_members processes files members ran
  constructor
  · intro all rank inside
    exact all.2 _ ((known _).mpr ⟨rank, inside, rfl⟩)
  · intro all
    refine ⟨run_defined processes files members ran defined, fun calls member => ?_⟩
    obtain ⟨rank, inside, rfl⟩ := (known _).mp member
    exact all rank inside

theorem noneDiffer_members : NoneDiffer processes files ↔
    ∀ one < processes, ∀ other < processes, (members one).issued = (members other).issued := by
  have known := issued_members processes files members ran
  constructor
  · intro same one here other there
    exact same.2 _ ((known _).mpr ⟨one, here, rfl⟩) _ ((known _).mpr ⟨other, there, rfl⟩)
  · intro same
    refine ⟨run_defined processes files members ran defined, fun calls member calls' member' => ?_⟩
    obtain ⟨one, here, rfl⟩ := (known _).mp member
    obtain ⟨other, there, rfl⟩ := (known _).mp member'
    exact same one here other there

end Known

theorem closed_traces (positive : 0 < processes) (closed : Closed files) :
    ¬ AllCall processes files ∧ (NoneDiffer processes files ↔ processes = 1) := by
  have root : main processes 0 files = .ended [] .leftEarly := by
    rcases closed with missing | missing
    · simp [main, missing]
    · cases rowFile : files.matrixFile <;> simp [main, missing, rowFile]
  have waiting : ∀ rank, rank ≠ 0 → main processes rank files = .call .bcast [] [[none]] fun rowSize =>
      enter .bcast [] [[none]] fun columnSize =>
        if (rank : Int) < toldSize rowSize then
          if toldSize columnSize = 0 then .ended [] .trapped
          else distribute processes rank files (toldSize rowSize).toNat (toldSize columnSize).toNat
        else farewell [] none := by
    intro rank other
    rw [main, if_neg other, sizes, enter_none]
  have ran : (run processes files).members =
      (List.range processes).map fun rank => .start (main processes rank files) := by
    refine play_ended awaited answer 7 _ fun member first => ?_
    obtain ⟨before, rfl⟩ := Nat.exists_eq_succ_of_ne_zero (Nat.ne_of_gt positive)
    rw [List.range_succ_eq_map] at first
    cases first
    simp [Member.start, root, Process.pending]
  have issued : ∀ rank, (Member.start (main processes rank files)).issued =
      if rank = 0 then [] else [.bcast] := by
    intro rank
    by_cases zero : rank = 0
    · subst zero
      simp [Member.issued, Member.start, root, Process.pending]
    · simp [Member.issued, Member.start, waiting rank zero, zero, Process.pending]
  have defined : ∀ rank, (Member.start (main processes rank files)).process.result ≠
      some .undefined := by
    intro rank
    by_cases zero : rank = 0
    · subst zero
      simp [Member.start, root, Process.result]
    · simp [Member.start, waiting rank zero, Process.result]
  rw [allCall_members processes files _ ran defined, noneDiffer_members processes files _ ran defined]
  simp only [issued]
  constructor
  · intro all
    exact absurd (all 0 positive) (by decide)
  · constructor
    · intro same
      by_contra more
      exact absurd (same 0 positive 1 (by omega)) (by decide)
    · rintro rfl one here other there
      rw [Nat.lt_one_iff.mp here, Nat.lt_one_iff.mp there]

section Sizes
variable (matrixRowSize : Int) (columns : Nat) (positive : 0 < processes)
variable (opened : Opened files matrixRowSize columns)
include positive opened

theorem broken_traces (large : 1000 < columns ∨ 0 < columns ∧ (columns : Int) < matrixRowSize) :
    ¬ AllCall processes files ∧ ¬ NoneDiffer processes files := by
  obtain ⟨_, process, member, undefined⟩ :=
    run_overrun processes files columns positive matrixRowSize opened large
  exact ⟨fun all => all.1 process member undefined, fun same => same.1 process member undefined⟩

/-- All processes skip the rank guard. -/
theorem skipped_traces (small : columns ≤ 1000) (skipped : matrixRowSize ≤ 0) :
    ¬ AllCall processes files ∧ NoneDiffer processes files := by
  have outside : ∀ rank, guarded processes files matrixRowSize columns rank = farewell [] none := by
    intro rank
    rw [guarded, if_neg (by omega)]
  have ran : (run processes files).members = (List.range processes).map fun rank =>
      ⟨idleCalls, readTouches columns rank ++ [], .ended [] (.finished none)⟩ := by
    rw [run_opened processes files matrixRowSize columns opened positive small]
    simp only [outside]
    exact play_farewell processes positive 3 (fun _ => [.bcast, .bcast]) (readTouches columns)
      (fun _ => []) (fun _ => none) (by simp)
  rw [allCall_members processes files _ ran (by simp [Process.result]),
    noneDiffer_members processes files _ ran (by simp [Process.result])]
  refine ⟨fun all => ?_, fun _ _ _ _ => rfl⟩
  have root := all 0 positive
  simp [Member.issued, Process.pending, idleCalls, allCalls] at root

/-- The division by the column count traps every process inside the guard. -/
theorem trapped_traces (some : 0 < matrixRowSize) (narrow : columns = 0) :
    ¬ AllCall processes files ∧ (NoneDiffer processes files ↔ (processes : Int) ≤ matrixRowSize) := by
  subst narrow
  have inside : ∀ rank : Nat, (rank : Int) < matrixRowSize →
      guarded processes files matrixRowSize 0 rank = .ended [] .trapped := by
    intro rank low
    simp [guarded, low]
  have outside : ∀ rank : Nat, ¬ (rank : Int) < matrixRowSize →
      guarded processes files matrixRowSize 0 rank = .call .barrier [] [] fun _ =>
        .call .finalize [] [] fun _ => .ended [] (.finished none) := by
    intro rank high
    rw [guarded, if_neg high, farewell_inside [] none (by simp)]
  have ran : (run processes files).members = (List.range processes).map fun rank =>
      ⟨[.bcast, .bcast], readTouches 0 rank, guarded processes files matrixRowSize 0 rank⟩ := by
    rw [run_opened processes files matrixRowSize 0 opened positive (by decide)]
    refine play_ended awaited answer 5 _ fun member first => ?_
    obtain ⟨before, rfl⟩ := Nat.exists_eq_succ_of_ne_zero (Nat.ne_of_gt positive)
    rw [List.range_succ_eq_map] at first
    cases first
    simp [inside 0 some, Process.pending]
  have defined : ∀ rank, (guarded processes files matrixRowSize 0 rank).result ≠
      Option.some .undefined := by
    intro rank
    by_cases low : (rank : Int) < matrixRowSize
    · simp [inside rank low, Process.result]
    · simp [outside rank low, Process.result]
  rw [allCall_members processes files _ ran defined, noneDiffer_members processes files _ ran defined]
  constructor
  · intro all
    have root := all 0 positive
    simp [Member.issued, inside 0 some, Process.pending, allCalls] at root
  · constructor
    · intro same
      by_contra few
      have differ := same 0 positive (processes - 1) (by omega)
      simp [Member.issued, inside 0 some, outside (processes - 1) (by omega), Process.pending] at differ
    · intro enough one here other there
      simp only [Member.issued]
      rw [inside one (by omega), inside other (by omega)]

/-- Everything fits. -/
theorem shared_traces (some : 0 < matrixRowSize) (room : matrixRowSize ≤ columns)
    (small : columns ≤ 1000) :
    (AllCall processes files ↔ (processes : Int) ≤ matrixRowSize) ∧
      (NoneDiffer processes files ↔ (processes : Int) ≤ matrixRowSize) := by
  obtain ⟨rows, rfl⟩ := Int.eq_ofNat_of_zero_le (Int.le_of_lt some)
  have ran := run_shared processes files rows columns positive (by omega) (by omega) small opened
  rw [allCall_members processes files _ ran (by simp [Process.result]),
    noneDiffer_members processes files _ ran (by simp [Process.result])]
  simp only [Member.issued, Process.pending, Option.toList_none, List.append_nil]
  constructor
  · constructor
    · intro all
      by_contra few
      have last := all (processes - 1) (by omega)
      rw [if_neg (by omega)] at last
      exact absurd last (by decide)
    · intro enough rank inside
      rw [if_pos (by omega)]
  · constructor
    · intro same
      by_contra few
      have differ := same 0 positive (processes - 1) (by omega)
      rw [if_pos (by omega), if_neg (by omega)] at differ
      exact absurd differ (by decide)
    · intro enough one here other there
      rw [if_pos (by omega), if_pos (by omega)]

theorem opened_traces :
    (AllCall processes files ↔
      (processes : Int) ≤ matrixRowSize ∧ matrixRowSize ≤ columns ∧ columns ≤ 1000) ∧
    (NoneDiffer processes files ↔ columns ≤ 1000 ∧ (matrixRowSize ≤ 0 ∨
      (processes : Int) ≤ matrixRowSize ∧ (matrixRowSize ≤ columns ∨ columns = 0))) := by
  by_cases small : columns ≤ 1000
  · rcases Int.lt_or_le 0 matrixRowSize with some | skipped
    · by_cases narrow : columns = 0
      · have traces := trapped_traces processes files matrixRowSize columns positive opened some narrow
        refine ⟨iff_of_false traces.1 (by omega), traces.2.trans ⟨fun enough => ?_, fun wanted => ?_⟩⟩
        · exact ⟨small, Or.inr ⟨enough, Or.inr narrow⟩⟩
        · omega
      · by_cases room : matrixRowSize ≤ columns
        · have traces := shared_traces processes files matrixRowSize columns positive opened some room small
          refine ⟨traces.1.trans ⟨fun enough => ⟨enough, room, small⟩, fun wanted => wanted.1⟩,
            traces.2.trans ⟨fun enough => ⟨small, Or.inr ⟨enough, Or.inl room⟩⟩, fun wanted => ?_⟩⟩
          omega
        · have traces := broken_traces processes files matrixRowSize columns positive opened
            (Or.inr ⟨by omega, by omega⟩)
          exact ⟨iff_of_false traces.1 (by omega), iff_of_false traces.2 (by omega)⟩
    · have traces := skipped_traces processes files matrixRowSize columns positive opened small skipped
      exact ⟨iff_of_false traces.1 (by omega), iff_of_true traces.2 ⟨small, Or.inl skipped⟩⟩
  · have traces := broken_traces processes files matrixRowSize columns positive opened
      (Or.inl (by omega))
    exact ⟨iff_of_false traces.1 (by omega), iff_of_false traces.2 (by omega)⟩

end Sizes

theorem opened_unique (matrixRowSize other : Int) (columns width : Nat)
    (opened : Opened files matrixRowSize columns) (also : Opened files other width) :
    other = matrixRowSize ∧ width = columns := by
  obtain ⟨entries, numbers, matrixOpen, vectorOpen, rfl⟩ := opened
  obtain ⟨entries', numbers', matrixOpen', vectorOpen', rfl⟩ := also
  rw [matrixOpen] at matrixOpen'
  rw [vectorOpen] at vectorOpen'
  cases matrixOpen'
  cases vectorOpen'
  exact ⟨rfl, rfl⟩

theorem closed_unopened (closed : Closed files) (matrixRowSize : Int) (columns : Nat) :
    ¬ Opened files matrixRowSize columns := by
  rintro ⟨entries, numbers, matrixOpen, vectorOpen, _⟩
  rcases closed with missing | missing
  · rw [missing] at matrixOpen
    cases matrixOpen
  · rw [missing] at vectorOpen
    cases vectorOpen

theorem opened_or_closed :
    Closed files ∨ ∃ matrixRowSize columns, Opened files matrixRowSize columns := by
  rcases matrixOpen : files.matrixFile with _ | ⟨matrixRowSize, entries⟩
  · exact Or.inl (Or.inl matrixOpen)
  · rcases vectorOpen : files.vectorFile with _ | numbers
    · exact Or.inl (Or.inr vectorOpen)
    · exact Or.inr ⟨matrixRowSize, numbers.length, entries, numbers, matrixOpen, vectorOpen, rfl⟩

/-- All processes make the seven calls exactly when the files open, no process is left
without a row and the numbers fit into the buffers. They at least make the same calls, too,
when the root is alone and a file does not open, when the guard shuts out every process,
and when it lets every process in to divide by zero columns. -/
theorem calls_agree (positive : 0 < processes) :
    (AllCall processes files ↔ ∃ matrixRowSize columns, Opened files matrixRowSize columns ∧
      (processes : Int) ≤ matrixRowSize ∧ matrixRowSize ≤ columns ∧ columns ≤ 1000) ∧
    (NoneDiffer processes files ↔ Closed files ∧ processes = 1 ∨ ∃ matrixRowSize columns,
      Opened files matrixRowSize columns ∧ columns ≤ 1000 ∧ (matrixRowSize ≤ 0 ∨
        (processes : Int) ≤ matrixRowSize ∧ (matrixRowSize ≤ columns ∨ columns = 0))) := by
  rcases opened_or_closed files with closed | ⟨matrixRowSize, columns, opened⟩
  · have traces := closed_traces processes files positive closed
    have unopened := closed_unopened files closed
    refine ⟨iff_of_false traces.1 ?_, traces.2.trans ⟨fun alone => Or.inl ⟨closed, alone⟩, ?_⟩⟩
    · rintro ⟨matrixRowSize, columns, opened, _⟩
      exact unopened matrixRowSize columns opened
    · rintro (⟨_, alone⟩ | ⟨matrixRowSize, columns, opened, _⟩)
      · exact alone
      · exact absurd opened (unopened matrixRowSize columns)
  · have traces := opened_traces processes files matrixRowSize columns positive opened
    have unique := opened_unique files matrixRowSize
    constructor
    · refine traces.1.trans ⟨fun condition => ⟨matrixRowSize, columns, opened, condition⟩, ?_⟩
      rintro ⟨other, width, also, condition⟩
      obtain ⟨rfl, rfl⟩ := unique other columns width opened also
      exact condition
    · refine traces.2.trans ⟨fun condition => Or.inr ⟨matrixRowSize, columns, opened, condition⟩, ?_⟩
      rintro (⟨closed, _⟩ | ⟨other, width, also, condition⟩)
      · exact absurd opened (closed_unopened files closed matrixRowSize columns)
      · obtain ⟨rfl, rfl⟩ := unique other columns width opened also
        exact condition

theorem calls_agree_two_rows :
    (AllCall 2 ⟨some (2, [1, 2, 3, 4]), some [5, 6]⟩ ↔ ∃ matrixRowSize columns,
      Opened ⟨some (2, [1, 2, 3, 4]), some [5, 6]⟩ matrixRowSize columns ∧
        ((2 : Nat) : Int) ≤ matrixRowSize ∧ matrixRowSize ≤ columns ∧ columns ≤ 1000) ∧
    (NoneDiffer 2 ⟨some (2, [1, 2, 3, 4]), some [5, 6]⟩ ↔
      Closed ⟨some (2, [1, 2, 3, 4]), some [5, 6]⟩ ∧ 2 = 1 ∨ ∃ matrixRowSize columns,
        Opened ⟨some (2, [1, 2, 3, 4]), some [5, 6]⟩ matrixRowSize columns ∧ columns ≤ 1000 ∧
          (matrixRowSize ≤ 0 ∨ ((2 : Nat) : Int) ≤ matrixRowSize ∧
            (matrixRowSize ≤ columns ∨ columns = 0))) :=
  calls_agree 2 ⟨some (2, [1, 2, 3, 4]), some [5, 6]⟩ (by decide)

-- Two processes and one row: the second one skips the guard and goes straight to the barrier.
theorem calls_differ :
    (run 2 ⟨some (1, [7]), some [3]⟩).issued = [allCalls, idleCalls] ∧
      ¬ AllCall 2 ⟨some (1, [7]), some [3]⟩ ∧ ¬ NoneDiffer 2 ⟨some (1, [7]), some [3]⟩ := by
  have issued : (run 2 ⟨some (1, [7]), some [3]⟩).issued = [allCalls, idleCalls] := by decide
  refine ⟨issued, fun all => ?_, fun same => ?_⟩
  · exact absurd (all.2 idleCalls (by simp [issued])) (by decide)
  · exact absurd (same.2 allCalls (by simp [issued]) idleCalls (by simp [issued])) (by decide)

end Traces

end EE360P.MatrixTraces
