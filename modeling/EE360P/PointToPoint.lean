import Mathlib.Data.List.Nodup
import Mathlib.Logic.Function.Basic
import EE360P.ConfluentRuns

/-! Processes that pass messages from one to another. Sends and receives are posted
and waited for later; a receive names its source and a tag, and the messages from one
process to one other under one tag arrive in the order in which they were sent. A wait
for a send is sure to end once as many receives are posted for it as messages are under
way; it may end earlier when the message is buffered, unless the send is synchronous. -/

namespace EE360P.PointToPoint
open ConfluentRuns

variable {Tag Message Result : Type}

inductive Process (Tag Message Result : Type) where
  | irecv (source : Nat) (tag : Tag) (next : Process Tag Message Result)
  | isend (dest : Nat) (tag : Tag) (sent : Message) (next : Process Tag Message Result)
  | waitSend (dest : Nat) (tag : Tag) (synchronous : Bool) (next : Process Tag Message Result)
  | waitRecv (source : Nat) (tag : Tag) (next : Message → Process Tag Message Result)
  | ended (result : Result)

/-- From one process to one other, under one tag: the messages sent and not yet received,
and how many receives are posted and not yet completed. -/
structure Channel (Message : Type) where
  sent : List Message
  posted : Nat
  deriving DecidableEq, Repr

/-- A channel is named by its source, its destination and its tag. -/
abbrev Link (Tag : Type) := Nat × Nat × Tag

structure System (Tag Message Result : Type) where
  process : Nat → Process Tag Message Result
  channel : Link Tag → Channel Message

def quiet : Link Tag → Channel Message := fun _ => ⟨[], 0⟩

section Steps

/-- The channel that the next step of the process is about. -/
def Process.link (me : Nat) : Process Tag Message Result → Option (Link Tag)
  | .irecv source tag _ => some (source, me, tag)
  | .isend dest tag _ _ => some (me, dest, tag)
  | .waitSend dest tag _ _ => some (me, dest, tag)
  | .waitRecv source tag _ => some (source, me, tag)
  | .ended _ => none

/-- `early` says whether a message may be buffered. -/
def Process.move (early : Bool) :
    Process Tag Message Result → Channel Message → Option (Process Tag Message Result × Channel Message)
  | .irecv _ _ next, channel => some (next, { channel with posted := channel.posted + 1 })
  | .isend _ _ sent next, channel => some (next, { channel with sent := channel.sent ++ [sent] })
  | .waitSend _ _ synchronous next, channel =>
      if (early && !synchronous) || channel.sent.length ≤ channel.posted then some (next, channel)
      else none
  | .waitRecv _ _ next, ⟨sent :: rest, posted + 1⟩ => some (next sent, ⟨rest, posted⟩)
  | .waitRecv _ _ _, _ => none
  | .ended _, _ => none

theorem move_possible (process next : Process Tag Message Result) (channel after : Channel Message)
    (moved : process.move false channel = some (next, after)) :
    process.move true channel = some (next, after) := by
  cases process with
  | waitSend dest tag synchronous rest =>
      simp only [Process.move, Bool.false_and, Bool.false_or, decide_eq_true_eq] at moved
      split at moved
      · rename_i matched
        simp only [Process.move, matched, decide_true, Bool.or_true, ↓reduceIte, moved]
      · cases moved
  | waitRecv source tag rest =>
      obtain ⟨_ | ⟨sent, others⟩, _ | posted⟩ := channel <;> exact moved
  | _ => exact moved

/-- The process is the source of the channel that its next step is about. -/
def Process.sends : Process Tag Message Result → Bool
  | .isend _ _ _ _ => true
  | .waitSend _ _ _ _ => true
  | _ => false

theorem link_end (me : Nat) (process : Process Tag Message Result) (link : Link Tag)
    (linked : process.link me = some link) : (if process.sends then link.1 else link.2.1) = me := by
  cases process <;> cases linked <;> rfl

/-- The source appends what it sends, the destination posts and takes what is first. -/
theorem ends_commute (early late : Bool) (source dest sourceNext destNext : Process Tag Message Result)
    (channel first second : Channel Message) (sends : source.sends = true) (takes : dest.sends = false)
    (sourceMoved : source.move early channel = some (sourceNext, first))
    (destMoved : dest.move late channel = some (destNext, second)) :
    ∃ both, dest.move late first = some (destNext, both) ∧
      source.move early second = some (sourceNext, both) := by
  obtain ⟨sent, posted⟩ := channel
  cases source with
  | isend _ _ message next =>
      cases sourceMoved
      cases dest with
      | irecv _ _ rest =>
          cases destMoved
          exact ⟨_, rfl, rfl⟩
      | waitRecv _ _ rest =>
          obtain _ | ⟨head, tail⟩ := sent <;> obtain _ | posted := posted <;> cases destMoved
          exact ⟨_, rfl, rfl⟩
      | ended _ => cases destMoved
      | _ => cases takes
  | waitSend _ _ synchronous next =>
      simp only [Process.move] at sourceMoved
      split at sourceMoved
      · rename_i ready
        cases sourceMoved
        simp only [Bool.or_eq_true, decide_eq_true_eq] at ready
        cases dest with
        | irecv _ _ rest =>
            cases destMoved
            refine ⟨_, rfl, ?_⟩
            simp only [Process.move, Bool.or_eq_true, decide_eq_true_eq]
            exact if_pos (ready.imp_right Nat.le_succ_of_le)
        | waitRecv _ _ rest =>
            obtain _ | ⟨head, tail⟩ := sent <;> obtain _ | posted := posted <;> cases destMoved
            refine ⟨_, rfl, ?_⟩
            simp only [Process.move, Bool.or_eq_true, decide_eq_true_eq]
            exact if_pos (ready.imp_right Nat.le_of_succ_le_succ)
        | ended _ => cases destMoved
        | _ => cases takes
      · cases sourceMoved
  | _ => cases sends

theorem moves_commute (one other : Nat) (left right leftNext rightNext : Process Tag Message Result)
    (link : Link Tag) (channel first second : Channel Message) (apart : one ≠ other)
    (leftLinked : left.link one = some link) (rightLinked : right.link other = some link)
    (leftMoved : left.move true channel = some (leftNext, first))
    (rightMoved : right.move false channel = some (rightNext, second)) :
    ∃ both, right.move false first = some (rightNext, both) ∧
      left.move true second = some (leftNext, both) := by
  have here := link_end one left link leftLinked
  have there := link_end other right link rightLinked
  cases out : left.sends with
  | true =>
      cases back : right.sends with
      | true =>
          simp only [out, back, ↓reduceIte] at here there
          exact absurd (here.symm.trans there) apart
      | false => exact ends_commute true false left right _ _ _ _ _ out back leftMoved rightMoved
  | false =>
      cases back : right.sends with
      | true =>
          obtain ⟨both, after, before⟩ :=
            ends_commute false true right left _ _ _ _ _ back out rightMoved leftMoved
          exact ⟨both, before, after⟩
      | false =>
          simp only [out, back, Bool.false_eq_true, ↓reduceIte] at here there
          exact absurd (here.symm.trans there) apart

variable [DecidableEq Tag]

def step (early : Bool) (system : System Tag Message Result) (me : Nat) :
    Option (System Tag Message Result) :=
  ((system.process me).link me).bind fun link =>
    ((system.process me).move early (system.channel link)).map fun moved =>
      ⟨Function.update system.process me moved.1, Function.update system.channel link moved.2⟩

def may : System Tag Message Result → Nat → Option (System Tag Message Result) := step true

def sure : System Tag Message Result → Nat → Option (System Tag Message Result) := step false

theorem step_moved (early : Bool) (system : System Tag Message Result) (me : Nat) (link : Link Tag)
    (next : Process Tag Message Result) (channel : Channel Message)
    (linked : (system.process me).link me = some link)
    (moved : (system.process me).move early (system.channel link) = some (next, channel)) :
    step early system me =
      some ⟨Function.update system.process me next, Function.update system.channel link channel⟩ := by
  simp [step, linked, moved]

theorem step_cases (early : Bool) (before after : System Tag Message Result) (me : Nat)
    (taken : step early before me = some after) : ∃ link next channel,
      (before.process me).link me = some link ∧
      (before.process me).move early (before.channel link) = some (next, channel) ∧
      after = ⟨Function.update before.process me next, Function.update before.channel link channel⟩ := by
  simp only [step, Option.bind_eq_some_iff, Option.map_eq_some_iff] at taken
  obtain ⟨link, linked, ⟨next, channel⟩, moved, rfl⟩ := taken
  exact ⟨link, next, channel, linked, moved, rfl⟩

theorem passing_confluent :
    Confluent (may : System Tag Message Result → Nat → Option (System Tag Message Result)) sure where
  possible := by
    intro before party after taken
    obtain ⟨link, next, channel, linked, moved, rfl⟩ := step_cases false before after party taken
    exact step_moved true before party link next channel linked
      (move_possible _ next _ channel moved)
  commutes := by
    intro before one other left right apart first second
    obtain ⟨link, next, channel, linked, moved, rfl⟩ := step_cases true before left one first
    obtain ⟨there, rest, content, joined, passed, rfl⟩ := step_cases false before right other second
    by_cases same : link = there
    · subst same
      obtain ⟨both, after, again⟩ :=
        moves_commute one other _ _ _ _ link _ _ _ apart linked joined moved passed
      refine ⟨⟨Function.update (Function.update before.process one next) other rest,
        Function.update before.channel link both⟩, ?_, ?_⟩
      · rw [sure, step_moved false _ other link rest both]
        · simp only [Function.update_idem]
        · simpa only [Function.update_of_ne apart.symm] using joined
        · simpa only [Function.update_of_ne apart.symm, Function.update_self] using after
      · rw [may, step_moved true _ one link next both]
        · simp only [Function.update_idem, Function.update_comm apart.symm]
        · simpa only [Function.update_of_ne apart] using linked
        · simpa only [Function.update_of_ne apart, Function.update_self] using again
    · refine ⟨⟨Function.update (Function.update before.process one next) other rest,
        Function.update (Function.update before.channel link channel) there content⟩, ?_, ?_⟩
      · rw [sure, step_moved false _ other there rest content]
        · simpa only [Function.update_of_ne apart.symm] using joined
        · simpa only [Function.update_of_ne apart.symm, Function.update_of_ne (Ne.symm same)]
            using passed
      · rw [may, step_moved true _ one link next channel]
        · simp only [Function.update_comm apart.symm, Function.update_comm (Ne.symm same)]
        · simpa only [Function.update_of_ne apart] using linked
        · simpa only [Function.update_of_ne apart, Function.update_of_ne same] using moved

end Steps

end EE360P.PointToPoint
