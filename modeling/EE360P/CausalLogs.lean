import Mathlib.Data.List.Basic
import Mathlib.Logic.Relation

/-! Logical clocks over a log of what processes do, in the order in which they do
it. A process draws a request with a clock of its own, builds a message that
carries its clock, and handles a message of another; a message may be built long
before it is sent. -/

namespace EE360P.CausalLogs
variable {Process Request Message : Type}

inductive Act (Request Message : Type) where
  | issued (request : Request)
  | built (message : Message)
  | handled (message : Message)
  deriving DecidableEq, Repr

/-- `clock` is what the clock of the process shows after the act. -/
structure Event (Process Request Message : Type) where
  process : Process
  clock : Int
  act : Act Request Message
  deriving DecidableEq, Repr

section Order
variable (log : List (Event Process Request Message))

/-- One process does both, or it handles what the other has built. -/
def Direct (early late : Nat) : Prop :=
  early < late ∧ ∃ first second, log[early]? = some first ∧ log[late]? = some second ∧
    (first.process = second.process ∨
      ∃ message, first.act = .built message ∧ second.act = .handled message)

/-- A chain of such steps leads from one place of the log to the other. -/
def Precedes : Nat → Nat → Prop := Relation.TransGen (Direct log)

def issued : List Request :=
  log.filterMap fun event =>
    match event.act with
    | .issued request => some request
    | _ => none

end Order

section Clocks
variable (owner : Request → Process) (time : Request → Int) (carried : Message → Int)

/-- An act whose clock fits what it is about. -/
def Fits (event : Event Process Request Message) : Prop :=
  match event.act with
  | .issued request => owner request = event.process ∧ time request = event.clock
  | .built message => carried message = event.clock
  | .handled message => carried message < event.clock

def issues (event : Event Process Request Message) : Prop := ∃ request, event.act = .issued request

/-- Clocks never fall, and a request gets one that its process has not had. -/
def Advances (first second : Event Process Request Message) : Prop :=
  first.process = second.process →
    first.clock ≤ second.clock ∧ (issues second → first.clock < second.clock)

structure Timed (log : List (Event Process Request Message)) : Prop where
  fits : ∀ event ∈ log, Fits owner time carried event
  advances : log.Pairwise Advances

variable {owner time carried} {log : List (Event Process Request Message)}

theorem timed_empty : Timed owner time carried ([] : List (Event Process Request Message)) :=
  ⟨fun _ member => absurd member List.not_mem_nil, .nil⟩

theorem timed_append (events : List (Event Process Request Message))
    (timed : Timed owner time carried log) (fresh : Timed owner time carried events)
    (later : ∀ first ∈ log, ∀ second ∈ events, Advances first second) :
    Timed owner time carried (log ++ events) := by
  constructor
  · intro event member
    rcases List.mem_append.mp member with old | new
    · exact timed.fits event old
    · exact fresh.fits event new
  · exact List.pairwise_append.mpr ⟨timed.advances, fresh.advances, later⟩

theorem direct_clock (timed : Timed owner time carried log) (early late : Nat) (direct : Direct log early late)
    (first second : Event Process Request Message) (here : log[early]? = some first)
    (there : log[late]? = some second) :
    first.clock ≤ second.clock ∧ (issues second → first.clock < second.clock) := by
  obtain ⟨before, left, right, foundLeft, foundRight, relation⟩ := direct
  rw [here, Option.some.injEq] at foundLeft
  rw [there, Option.some.injEq] at foundRight
  subst foundLeft foundRight
  rcases relation with own | ⟨message, built, handled⟩
  · obtain ⟨inside, hit⟩ := List.getElem?_eq_some_iff.mp here
    obtain ⟨within, target⟩ := List.getElem?_eq_some_iff.mp there
    have apart := List.pairwise_iff_getElem.mp timed.advances early late inside within before
    rw [hit, target] at apart
    exact apart own
  · have sent := timed.fits first (List.mem_of_getElem? here)
    have received := timed.fits second (List.mem_of_getElem? there)
    simp only [Fits, built] at sent
    simp only [Fits, handled] at received
    constructor
    · omega
    · rintro ⟨request, issuing⟩
      rw [handled] at issuing
      cases issuing

/-- Along a chain the clocks never fall, and a request at its end has a later
clock than what comes before. -/
theorem precedes_clock (timed : Timed owner time carried log) (early late : Nat)
    (precedes : Precedes log early late) (first second : Event Process Request Message)
    (here : log[early]? = some first) (there : log[late]? = some second) :
    first.clock ≤ second.clock ∧ (issues second → first.clock < second.clock) := by
  induction precedes generalizing second with
  | single direct => exact direct_clock timed _ _ direct first second here there
  | tail chain direct ih =>
      obtain ⟨_, middle, _, reached, _⟩ := id direct
      have earlier := (ih middle reached).1
      have step := direct_clock timed _ _ direct middle second reached there
      exact ⟨Int.le_trans earlier step.1, fun issuing => Int.lt_of_le_of_lt earlier (step.2 issuing)⟩

theorem requests_ordered (timed : Timed owner time carried log) (early late : Nat)
    (precedes : Precedes log early late) (first second : Event Process Request Message)
    (here : log[early]? = some first) (there : log[late]? = some second) (left right : Request)
    (made : first.act = .issued left) (also : second.act = .issued right) : time left < time right := by
  have before := timed.fits first (List.mem_of_getElem? here)
  have after := timed.fits second (List.mem_of_getElem? there)
  have clocks := (precedes_clock timed early late precedes first second here there).2 ⟨right, also⟩
  simp only [Fits, made] at before
  simp only [Fits, also] at after
  rw [before.2, after.2]
  exact clocks

theorem issued_apart (timed : Timed owner time carried log) (first second : Event Process Request Message)
    (here : first ∈ log) (there : second ∈ log) (advances : Advances first second) (left right : Request)
    (made : first.act = .issued left) (also : second.act = .issued right) : left ≠ right := by
  rintro rfl
  have before := timed.fits first here
  have after := timed.fits second there
  simp only [Fits, made] at before
  simp only [Fits, also] at after
  have clocks := (advances (before.1.symm.trans after.1)).2 ⟨left, also⟩
  omega

/-- No request is drawn twice. -/
theorem issued_nodup (timed : Timed owner time carried log) : (issued log).Nodup := by
  apply List.pairwise_filterMap.mpr
  apply timed.advances.imp_of_mem
  intro first second here there advances left made right also
  cases one : first.act with
  | issued request =>
      cases two : second.act with
      | issued other =>
          simp only [one, Option.some.injEq] at made
          simp only [two, Option.some.injEq] at also
          exact issued_apart timed first second here there advances left right (made ▸ one) (also ▸ two)
      | built message => simp [two] at also
      | handled message => simp [two] at also
  | built message => simp [one] at made
  | handled message => simp [one] at made

end Clocks

end EE360P.CausalLogs
