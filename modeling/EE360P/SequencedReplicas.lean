import Mathlib.Data.List.Nodup
import Mathlib.Data.List.Perm.Subperm
import Mathlib.Logic.Function.Basic

/-! Replicas that apply the commands of one order, each as far as it has come.
A replica may be behind but is never out of turn, so two replicas that have
applied everything hold the same state. -/

namespace EE360P.SequencedReplicas

variable {Replica Command State : Type*}

@[ext] structure Ledger (Replica Command State : Type*) where
  order : List Command
  applied : Replica → List Command
  state : Replica → State

section Moves
variable (apply : State → Command → State)

/-- A replica applies one more command. -/
def Ledger.advance [DecidableEq Replica] (replica : Replica) (command : Command)
    (ledger : Ledger Replica Command State) : Ledger Replica Command State :=
  { ledger with
    applied := Function.update ledger.applied replica (ledger.applied replica ++ [command])
    state := Function.update ledger.state replica (apply (ledger.state replica) command) }

/-- A command takes its place at the end of the order. -/
def Ledger.place (command : Command) (ledger : Ledger Replica Command State) :
    Ledger Replica Command State :=
  { ledger with order := ledger.order ++ [command] }

end Moves

section Laws
variable (apply : State → Command → State) (initial : State)

structure Sequenced (ledger : Ledger Replica Command State) : Prop where
  distinct : ledger.order.Nodup
  inTurn : ∀ replica, ledger.applied replica <+: ledger.order
  stored : ∀ replica, ledger.state replica = (ledger.applied replica).foldl apply initial

variable (ledger : Ledger Replica Command State) (sequenced : Sequenced apply initial ledger)

include sequenced

theorem place_sequenced (command : Command) (new : command ∉ ledger.order) :
    Sequenced apply initial (ledger.place command) := by
  constructor
  · simpa [Ledger.place] using sequenced.distinct.concat new
  · intro replica
    exact (sequenced.inTurn replica).trans (List.prefix_append _ _)
  · exact sequenced.stored

theorem advance_sequenced [DecidableEq Replica] (replica : Replica) (command : Command)
    (next : ledger.applied replica ++ [command] <+: ledger.order) :
    Sequenced apply initial (ledger.advance apply replica command) := by
  constructor
  · exact sequenced.distinct
  · intro other
    by_cases same : other = replica
    · subst same
      simpa [Ledger.advance] using next
    · simpa [Ledger.advance, same] using sequenced.inTurn other
  · intro other
    by_cases same : other = replica
    · subst same
      simp [Ledger.advance, List.foldl_append, sequenced.stored other]
    · simpa [Ledger.advance, same] using sequenced.stored other

theorem current_whole (replica : Replica)
    (current : ∀ command ∈ ledger.order, command ∈ ledger.applied replica) :
    ledger.applied replica = ledger.order := by
  apply (sequenced.inTurn replica).eq_of_length_le
  exact (sequenced.distinct.subperm current).length_le

/-- Replicas that have applied the whole order hold the same state. -/
theorem current_agree
    (current : ∀ replica, ∀ command ∈ ledger.order, command ∈ ledger.applied replica)
    (first second : Replica) : ledger.state first = ledger.state second := by
  rw [sequenced.stored first, sequenced.stored second,
    current_whole apply initial ledger sequenced first (current first),
    current_whole apply initial ledger sequenced second (current second)]

end Laws

end EE360P.SequencedReplicas
