import EE360P.Collectives
import EE360P.MessageRules

/-! Programs of collective calls, with every call carried out by messages. When the
messages of each call lead from its arguments to its answers, the program's messages lead
to what the program itself ends with. -/

namespace EE360P.LoweredCollectives
open Collectives MessageRules

variable {Kind Message Mark Result Tag : Type}

/-- Every call replaced by the messages that carry it out for this process. -/
def lower (implement : Kind → Message → (Message → PointToPoint.Process Tag Message Result) →
      PointToPoint.Process Tag Message Result) :
    Process Kind Message Mark Result → PointToPoint.Process Tag Message Result
  | .call kind _ sent next => implement kind sent fun reply => lower implement (next reply)
  | .ended _ result => .ended result

variable [DecidableEq Kind] [Inhabited Message] (awaited : Kind → Bool)
variable (answer : Kind → List Message → Nat → Message)

/-- What a process sends in a call of this kind, if it is at one. -/
def offers (kind : Kind) (process : Process Kind Message Mark Result) : Option Message :=
  if process.isAt kind then process.sent else none

/-- The calls that take place, each with what the processes sent. -/
def exchanged : Nat → List (Member Kind Message Mark Result) → List (Kind × List (Option Message))
  | 0, _ => []
  | rounds + 1, members =>
      match nextCall awaited (members.map Member.process) with
      | none => []
      | some kind =>
          (kind, members.map fun member => offers kind member.process) ::
            exchanged rounds (exchange answer kind members)

variable (count : Nat)

theorem exchanged_round (rounds : Nat) (kind : Kind) (answered : Nat → List Kind)
    (before marks : Nat → List Mark) (sent : Nat → Message)
    (next : Nat → Message → Process Kind Message Mark Result) (positive : 0 < count) :
    exchanged awaited answer (rounds + 1) ((List.range count).map fun rank =>
        ⟨answered rank, before rank, .call kind (marks rank) (sent rank) (next rank)⟩) =
      (kind, ((List.range count).map sent).map some) ::
        exchanged awaited answer rounds ((List.range count).map fun rank =>
          ⟨answered rank ++ [kind], before rank ++ marks rank,
            next rank (answer kind ((List.range count).map sent) rank)⟩) := by
  have called : nextCall awaited (((List.range count).map fun rank =>
      (⟨answered rank, before rank, .call kind (marks rank) (sent rank) (next rank)⟩ :
        Member Kind Message Mark Result)).map Member.process) = some kind := by
    rw [List.map_map]
    exact nextCall_led awaited count kind _ positive rfl fun _ _ _ => rfl
  have offered : ((List.range count).map fun rank =>
      (⟨answered rank, before rank, .call kind (marks rank) (sent rank) (next rank)⟩ :
        Member Kind Message Mark Result)).map (fun member => offers kind member.process) =
      ((List.range count).map sent).map some := by
    simp [offers, Process.isAt, Process.pending, Process.sent]
  have after := exchange_round answer count answered before kind marks sent next
  rw [exchanged, called]
  dsimp only
  rw [offered, after]

omit [Inhabited Message] in
/-- Everybody has sent something, so everybody is at the call. -/
theorem offered_calls (processes : Nat → Process Kind Message Mark Result) (kind : Kind)
    (messages : List Message) (offered : ((List.range count).map fun rank => offers kind (processes rank)) =
      messages.map some) (called : nextCall awaited ((List.range count).map processes) = some kind) :
    ∃ (marks : Nat → List Mark) (sent : Nat → Message)
      (next : Nat → Message → Process Kind Message Mark Result),
      (∀ rank < count, processes rank = .call kind (marks rank) (sent rank) (next rank)) ∧
        messages = (List.range count).map sent ∧ 0 < count := by
  have atCall : ∀ rank < count, ∃ marks sent next, processes rank = .call kind marks sent next := by
    intro rank inside
    have own : offers kind (processes rank) ∈ messages.map some := by
      rw [← offered]
      exact List.mem_map.mpr ⟨rank, List.mem_range.mpr inside, rfl⟩
    obtain ⟨message, _, same⟩ := List.mem_map.mp own
    generalize processes rank = process at same
    cases process with
    | call other marks sent next =>
        by_cases equal : other = kind
        · subst equal
          exact ⟨marks, sent, next, rfl⟩
        · simp [offers, Process.isAt, Process.pending, equal] at same
    | ended marks result => simp [offers, Process.isAt, Process.pending] at same
  have positive : 0 < count := by
    rcases Nat.eq_zero_or_pos count with rfl | positive
    · cases called
    · exact positive
  obtain ⟨mark, message, go, _⟩ := atCall 0 positive
  let marks := fun rank => if inside : rank < count then (atCall rank inside).choose else mark
  let sent := fun rank =>
    if inside : rank < count then (atCall rank inside).choose_spec.choose else message
  let next := fun rank =>
    if inside : rank < count then (atCall rank inside).choose_spec.choose_spec.choose else go
  have calls : ∀ rank < count, processes rank = .call kind (marks rank) (sent rank) (next rank) := by
    intro rank inside
    simp only [marks, sent, next, dif_pos inside]
    exact (atCall rank inside).choose_spec.choose_spec.choose_spec
  refine ⟨marks, sent, next, calls, ?_, positive⟩
  have sends : ((List.range count).map fun rank => offers kind (processes rank)) =
      ((List.range count).map sent).map some := by
    rw [List.map_map]
    refine List.map_congr_left fun rank member => ?_
    rw [calls rank (List.mem_range.mp member)]
    simp [offers, Process.isAt, Process.pending, Process.sent]
  rw [sends] at offered
  exact (List.map_injective_iff.mpr (fun _ _ => Option.some.inj) offered).symm

variable [DecidableEq Tag]

/-- What carries out the calls whose arguments are agreed on. -/
def Realizes (Agreed : Kind → List Message → Prop) (implement : Nat → Kind → Message →
    (Message → PointToPoint.Process Tag Message Result) → PointToPoint.Process Tag Message Result) :
    Prop :=
  ∀ (kind : Kind) (sent : Nat → Message), Agreed kind ((List.range count).map sent) →
    ∀ next : Nat → Message → PointToPoint.Process Tag Message Result, Leads (List.range count)
    (fun rank => implement rank kind (sent rank) (next rank))
    fun rank => next rank (answer kind ((List.range count).map sent) rank)

/-- When the calls alone bring every process to its end, with everybody at every call,
so do the messages. -/
theorem lowered_leads (Agreed : Kind → List Message → Prop) (implement : Nat → Kind → Message →
    (Message → PointToPoint.Process Tag Message Result) → PointToPoint.Process Tag Message Result)
    (realizes : Realizes answer count Agreed implement) (rounds : Nat)
    (members : Nat → Member Kind Message Mark Result) (result : Nat → Result)
    (agreed : ∀ call ∈ exchanged awaited answer rounds ((List.range count).map members),
      ∃ sent : List Message, call.2 = sent.map some ∧ Agreed call.1 sent)
    (complete : (play awaited answer rounds ((List.range count).map members)).map
        (fun member => member.process.result) =
      (List.range count).map fun rank => some (result rank)) :
    Leads (List.range count) (fun rank => lower (implement rank) (members rank).process)
      fun rank => .ended (result rank) := by
  have finished : ∀ reached : Nat → Member Kind Message Mark Result,
      ((List.range count).map reached).map (fun member => member.process.result) =
        (List.range count).map (fun rank => some (result rank)) →
      Leads (List.range count) (fun rank => lower (implement rank) (reached rank).process)
        fun rank => .ended (result rank) := by
    intro reached same
    refine leads_same fun rank member => ?_
    rw [List.map_map, List.map_inj_left] at same
    have last := same rank member
    simp only [Function.comp_apply] at last
    generalize (reached rank).process = process at last ⊢
    cases process with
    | call kind marks sent next => cases last
    | ended marks own =>
        obtain rfl := Option.some.inj last
        rfl
  induction rounds generalizing members with
  | zero => exact finished members complete
  | succ rounds ih =>
      cases called : nextCall awaited (((List.range count).map members).map Member.process) with
      | none =>
          simp only [play, called] at complete
          exact finished members complete
      | some kind =>
          obtain ⟨messages, offered, fitting⟩ := agreed (kind, ((List.range count).map members).map
            fun member => offers kind member.process) (by
              rw [exchanged, called]
              exact List.mem_cons_self)
          rw [List.map_map] at called offered
          obtain ⟨marks, sent, next, calls, rfl, positive⟩ :=
            offered_calls awaited count _ kind messages offered called
          have shape : (List.range count).map members = (List.range count).map fun rank =>
              ⟨(members rank).answered, (members rank).marks,
                .call kind (marks rank) (sent rank) (next rank)⟩ :=
            List.map_congr_left fun rank member => by
              rw [← calls rank (List.mem_range.mp member)]
          rw [shape, play_round awaited answer count _ _ kind marks sent next rounds positive] at complete
          rw [shape, exchanged_round awaited answer count rounds kind _ _ marks sent next positive] at agreed
          have later := ih (fun rank =>
            ⟨(members rank).answered ++ [kind], (members rank).marks ++ marks rank,
              next rank (answer kind ((List.range count).map sent) rank)⟩)
            (fun call member => agreed call (List.mem_cons_of_mem _ member)) complete
          refine leads_trans (leads_congr (fun rank member => ?_) (fun _ _ => rfl)
            (realizes kind sent fitting fun rank reply => lower (implement rank) (next rank reply))) later
          rw [show (members rank).process = _ from calls rank (List.mem_range.mp member)]
          rfl

end EE360P.LoweredCollectives
