import Mathlib.Data.List.Basic

/-! Processes that meet in collective calls. A process is the tree of what it
still does: it sends a message with its next call and goes on from the answer,
or it has ended. The first process leads. Its call takes place among those that
are at a call of one kind with it, and the others stay where they are, with
nothing to give and nothing to take; but some kinds of call wait for everybody.
Kinds, messages and marks (what a process records between its calls) are arbitrary. -/

namespace EE360P.Collectives

inductive Process (Kind Message Mark Result : Type) where
  | call (kind : Kind) (marks : List Mark) (sent : Message)
      (next : Message → Process Kind Message Mark Result)
  | ended (marks : List Mark) (result : Result)

variable {Kind Message Mark Result : Type}

def Process.pending : Process Kind Message Mark Result → Option Kind
  | .call kind _ _ _ => some kind
  | .ended _ _ => none

def Process.sent : Process Kind Message Mark Result → Option Message
  | .call _ _ sent _ => some sent
  | .ended _ _ => none

def Process.marks : Process Kind Message Mark Result → List Mark
  | .call _ marks _ _ => marks
  | .ended marks _ => marks

def Process.result : Process Kind Message Mark Result → Option Result
  | .call _ _ _ _ => none
  | .ended _ result => some result

def Process.resume (answer : Message) :
    Process Kind Message Mark Result → Process Kind Message Mark Result
  | .call _ _ _ next => next answer
  | .ended marks result => .ended marks result

/-- A process, the calls of it that have taken place and what it has recorded. -/
structure Member (Kind Message Mark Result : Type) where
  answered : List Kind
  marks : List Mark
  process : Process Kind Message Mark Result

def Member.start (process : Process Kind Message Mark Result) : Member Kind Message Mark Result :=
  ⟨[], [], process⟩

/-- Every call that the process got to, the last one perhaps unanswered. -/
def Member.issued (member : Member Kind Message Mark Result) : List Kind :=
  member.answered ++ member.process.pending.toList

structure Played (Kind Message Mark Result : Type) where
  members : List (Member Kind Message Mark Result)

def Played.processes (played : Played Kind Message Mark Result) :
    List (Process Kind Message Mark Result) :=
  played.members.map Member.process

def Played.issued (played : Played Kind Message Mark Result) : List (List Kind) :=
  played.members.map Member.issued

def Played.allMarks (played : Played Kind Message Mark Result) : List Mark :=
  played.members.flatMap fun member => member.marks ++ member.process.marks

variable [DecidableEq Kind]

def Process.isAt (kind : Kind) (process : Process Kind Message Mark Result) : Bool :=
  decide (process.pending = some kind)

/-- What a process brings to a call of this kind. -/
def Process.brings [Inhabited Message] (kind : Kind) (process : Process Kind Message Mark Result) :
    Message :=
  if process.isAt kind then process.sent.getD default else default

def Member.advance (kind : Kind) (reply : Message) (member : Member Kind Message Mark Result) :
    Member Kind Message Mark Result :=
  if member.process.isAt kind then
    { answered := member.answered ++ [kind]
      marks := member.marks ++ member.process.marks
      process := member.process.resume reply }
  else member

variable (awaited : Kind → Bool)

/-- The call that takes place next. -/
def nextCall (processes : List (Process Kind Message Mark Result)) : Option Kind :=
  match processes.head?.bind Process.pending with
  | none => none
  | some kind => if awaited kind && !processes.all (Process.isAt kind) then none else some kind

theorem nextCall_led (count : Nat) (kind : Kind) (processes : Nat → Process Kind Message Mark Result)
    (positive : 0 < count) (led : (processes 0).pending = some kind)
    (free : awaited kind = true → ∀ rank < count, (processes rank).pending = some kind) :
    nextCall awaited ((List.range count).map processes) = some kind := by
  have first : (((List.range count).map processes).head?).bind Process.pending = some kind := by
    simp [List.head?_range, Nat.ne_of_gt positive, led]
  rw [nextCall, first]
  by_cases closed : awaited kind = true
  · have all : ((List.range count).map processes).all (Process.isAt kind) = true := by
      rw [List.all_map, List.all_eq_true]
      exact fun rank member => decide_eq_true (free closed rank (List.mem_range.mp member))
    simp [all]
  · simp [closed]

theorem nextCall_ended (processes : List (Process Kind Message Mark Result))
    (ended : ∀ process ∈ processes.head?, process.pending = none) :
    nextCall awaited processes = none := by
  cases processes with
  | nil => rfl
  | cons first rest => simp [nextCall, ended first rfl]

variable [Inhabited Message] (answer : Kind → List Message → Nat → Message)

def exchange (kind : Kind) (members : List (Member Kind Message Mark Result)) :
    List (Member Kind Message Mark Result) :=
  members.mapIdx fun rank member =>
    member.advance kind (answer kind (members.map fun other => other.process.brings kind) rank)

def play : Nat → List (Member Kind Message Mark Result) → List (Member Kind Message Mark Result)
  | 0, members => members
  | rounds + 1, members =>
      match nextCall awaited (members.map Member.process) with
      | none => members
      | some kind => play rounds (exchange answer kind members)

section Rounds
variable (count : Nat)

theorem play_ended (rounds : Nat) (members : List (Member Kind Message Mark Result))
    (ended : ∀ member ∈ members.head?, member.process.pending = none) :
    play awaited answer rounds members = members := by
  cases rounds with
  | zero => rfl
  | succ rounds =>
      have quiet : nextCall awaited (members.map Member.process) = none := by
        refine nextCall_ended awaited _ fun process first => ?_
        rw [List.head?_map, Option.mem_def, Option.map_eq_some_iff] at first
        obtain ⟨member, head, rfl⟩ := first
        exact ended member head
      rw [play, quiet]

section Led
variable (answered : Nat → List Kind) (before : Nat → List Mark) (kind : Kind)
variable (here : Nat → Prop) [DecidablePred here] (marks : Nat → List Mark) (sent : Nat → Message)
variable (next : Nat → Message → Process Kind Message Mark Result)
variable (elsewhere : Nat → Member Kind Message Mark Result)
variable (apart : ∀ rank < count, ¬ here rank → (elsewhere rank).process.pending ≠ some kind)
include apart

theorem exchange_led :
    exchange answer kind ((List.range count).map fun rank =>
        if here rank then
          ⟨answered rank, before rank, .call kind (marks rank) (sent rank) (next rank)⟩
        else elsewhere rank) =
      (List.range count).map fun rank =>
        if here rank then
          ⟨answered rank ++ [kind], before rank ++ marks rank,
            next rank (answer kind ((List.range count).map fun rank =>
              if here rank then sent rank else default) rank)⟩
        else elsewhere rank := by
  have brought : ((List.range count).map fun rank =>
      if here rank then
        (⟨answered rank, before rank, .call kind (marks rank) (sent rank) (next rank)⟩ :
          Member Kind Message Mark Result)
      else elsewhere rank).map (fun other => other.process.brings kind) =
      (List.range count).map fun rank => if here rank then sent rank else default := by
    rw [List.map_map]
    refine List.map_congr_left fun rank member => ?_
    by_cases attending : here rank
    · simp [attending, Process.brings, Process.isAt, Process.pending, Process.sent]
    · simp [attending, Process.brings, Process.isAt, apart rank (List.mem_range.mp member) attending]
  rw [exchange, brought, List.mapIdx_eq_iff]
  intro rank
  by_cases inside : rank < count
  · by_cases attending : here rank
    · simp [inside, attending, Member.advance, Process.isAt, Process.pending, Process.marks,
        Process.resume]
    · simp [inside, attending, Member.advance, Process.isAt, apart rank inside attending]
  · simp [inside]

/-- One round: the first process and some others are at one call that waits for nobody,
the rest are elsewhere. -/
theorem play_led (rounds : Nat) (positive : 0 < count) (led : here 0) (free : awaited kind = false) :
    play awaited answer (rounds + 1) ((List.range count).map fun rank =>
        if here rank then
          ⟨answered rank, before rank, .call kind (marks rank) (sent rank) (next rank)⟩
        else elsewhere rank) =
      play awaited answer rounds ((List.range count).map fun rank =>
        if here rank then
          ⟨answered rank ++ [kind], before rank ++ marks rank,
            next rank (answer kind ((List.range count).map fun rank =>
              if here rank then sent rank else default) rank)⟩
        else elsewhere rank) := by
  have called : nextCall awaited (((List.range count).map fun rank =>
      if here rank then
        (⟨answered rank, before rank, .call kind (marks rank) (sent rank) (next rank)⟩ :
          Member Kind Message Mark Result)
      else elsewhere rank).map Member.process) = some kind := by
    rw [List.map_map]
    refine nextCall_led awaited count kind _ positive ?_ fun closed => ?_
    · simp [led, Process.pending]
    · rw [free] at closed
      cases closed
  rw [play, called]
  exact congrArg (play awaited answer rounds)
    (exchange_led answer count answered before kind here marks sent next elsewhere apart)

end Led

section Together
variable (answered : Nat → List Kind) (before : Nat → List Mark) (kind : Kind)
variable (marks : Nat → List Mark) (sent : Nat → Message)
variable (next : Nat → Message → Process Kind Message Mark Result)

/-- Every process is at the same kind of call. -/
theorem exchange_round :
    exchange answer kind ((List.range count).map fun rank =>
        ⟨answered rank, before rank, .call kind (marks rank) (sent rank) (next rank)⟩) =
      (List.range count).map fun rank =>
        ⟨answered rank ++ [kind], before rank ++ marks rank,
          next rank (answer kind ((List.range count).map sent) rank)⟩ := by
  have led := exchange_led answer count answered before kind (fun _ => True) marks sent next
    (fun rank => .start (.call kind (marks rank) (sent rank) (next rank)))
    (fun _ _ absent => absurd trivial absent)
  simpa only [if_true] using led

theorem play_round (rounds : Nat) (positive : 0 < count) :
    play awaited answer (rounds + 1) ((List.range count).map fun rank =>
        ⟨answered rank, before rank, .call kind (marks rank) (sent rank) (next rank)⟩) =
      play awaited answer rounds ((List.range count).map fun rank =>
        ⟨answered rank ++ [kind], before rank ++ marks rank,
          next rank (answer kind ((List.range count).map sent) rank)⟩) := by
  have called : nextCall awaited (((List.range count).map fun rank =>
      (⟨answered rank, before rank, .call kind (marks rank) (sent rank) (next rank)⟩ :
        Member Kind Message Mark Result)).map Member.process) = some kind := by
    rw [List.map_map]
    exact nextCall_led awaited count kind _ positive rfl fun _ _ _ => rfl
  rw [play, called]
  exact congrArg (play awaited answer rounds)
    (exchange_round answer count answered before kind marks sent next)

end Together

end Rounds

section Leader
variable (wanted : List Mark → Result → Prop)

/-- Whatever it is answered, the process soon ends in the wanted way, and no call of it
on the way there waits for others. -/
def Process.Ends : Nat → Process Kind Message Mark Result → Prop
  | _, .ended marks result => wanted marks result
  | 0, .call _ _ _ _ => False
  | calls + 1, .call kind _ _ next => awaited kind = false ∧ ∀ reply, Process.Ends calls (next reply)

/-- The first process goes on by itself. -/
theorem play_ends (calls rounds : Nat) (first : Member Kind Message Mark Result)
    (rest : List (Member Kind Message Mark Result)) (enough : calls ≤ rounds)
    (ends : first.process.Ends awaited wanted calls) :
    ∃ member marks result, member ∈ play awaited answer rounds (first :: rest) ∧
      member.process = .ended marks result ∧ wanted marks result := by
  obtain ⟨answered, before, process⟩ := first
  induction calls generalizing rounds answered before process rest with
  | zero =>
      cases process with
      | call kind marks sent next => exact ends.elim
      | ended marks result =>
          rw [play_ended awaited answer rounds _ fun member head => by cases head; rfl]
          exact ⟨_, marks, result, List.mem_cons_self, rfl, ends⟩
  | succ calls ih =>
      cases process with
      | ended marks result =>
          rw [play_ended awaited answer rounds _ fun member head => by cases head; rfl]
          exact ⟨_, marks, result, List.mem_cons_self, rfl, ends⟩
      | call kind marks sent next =>
          obtain ⟨rounds, rfl⟩ := Nat.exists_eq_succ_of_ne_zero (Nat.ne_of_gt (Nat.zero_lt_of_lt enough))
          have called : nextCall awaited
              (((⟨answered, before, .call kind marks sent next⟩ : Member Kind Message Mark Result) ::
                rest).map Member.process) = some kind := by
            simp [nextCall, Process.pending, ends.1]
          rw [play, called]
          dsimp only
          rw [exchange, List.mapIdx_cons, Member.advance, if_pos (by simp [Process.isAt, Process.pending])]
          exact ih rounds _ (Nat.le_of_succ_le_succ enough) _ _ _ (ends.2 _)

end Leader

end EE360P.Collectives
