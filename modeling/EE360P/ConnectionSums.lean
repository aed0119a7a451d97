import Mathlib.Algebra.Order.BigOperators.Group.List
import Mathlib.Algebra.Order.Group.Nat
import EE360P.ClusterSteps

/-! Sums over the connections of a cluster. A summand may look at the server,
the line and the task of a connection, so a step changes the summand of the
handler that moved and adds that of the connection it opens. -/

namespace EE360P.ConnectionSums
open ReplicatedServer ServerCluster ClusterSteps

section Sums
variable (weight : Connection → Nat)

def total (connections : List Connection) : Nat := (connections.map weight).sum

theorem weight_le_total (connections : List Connection) (connection : Connection)
    (member : connection ∈ connections) : weight connection ≤ total weight connections :=
  List.le_sum_of_mem (List.mem_map_of_mem member)

theorem total_le (heavier : Connection → Nat) (connections : List Connection)
    (less : ∀ connection, weight connection ≤ heavier connection) :
    total weight connections ≤ total heavier connections :=
  List.sum_le_sum fun connection _ => less connection

/-- The weight does not look at what has been printed. -/
def Steady : Prop :=
  ∀ connection later : Connection, later.server = connection.server →
    later.message = connection.message → later.task = connection.task →
      weight later = weight connection

variable (steady : Steady weight)

include steady

theorem wired_total (me : Int) (number : Nat) (connections : List Connection) (wire : Wire) :
    total weight (wired me number connections wire) =
      total weight connections + total weight (fresh me wire) := by
  have printed : ∀ text other, weight (printOpen text other) = weight other := by
    intro text other
    obtain ⟨server, _, message, _, task⟩ := printOpen_fields other text
    exact steady other _ server message task
  unfold total
  cases wire with
  | silent => simp [wired, fresh]
  | opened peer message => simp [wired, fresh]
  | answer text =>
      rw [wired, ListEntries.modify_map_same weight (print text) fun other => steady other _ rfl rfl rfl]
      simp [fresh]
  | wrote target =>
      rw [wired, ListEntries.modify_map_same weight write fun other => steady other _ rfl rfl rfl]
      simp [fresh]
  | reply target text =>
      rw [wired, ListEntries.modify_map_same weight _ (printed text)]
      simp [fresh]
  | close =>
      rw [wired, ListEntries.modify_map_same weight close fun other => steady other _ rfl rfl rfl]
      simp [fresh]

/-- A handler's step changes its own summand and adds that of a new connection. -/
theorem after_total (before : Cluster) (number : Nat) (me : Int) (outcome : Outcome)
    (connection : Connection) (found : before.connections[number]? = some connection) :
    total weight (before.after number me outcome).connections + weight connection =
      total weight before.connections + weight (setTask outcome.task connection) +
        total weight (fresh me outcome.wire) := by
  have moved := ListEntries.modify_sum weight (setTask outcome.task) before.connections number
    connection found
  have wire := wired_total weight steady me number
    (before.connections.modify number (setTask outcome.task)) outcome.wire
  change total weight (before.connections.modify number (setTask outcome.task)) + _ =
    total weight before.connections + _ at moved
  simp only [Cluster.after, wire]
  omega

/-- Clients open connections for commands only. -/
theorem outside_total (config : Config) (before after : Cluster) (action : Action)
    (unserved : ∀ server number command,
      weight (opened server (.client number) (.command command)) = 0)
    (stepped : Stepped config before action after) (outside : ∀ number, action ≠ .server number) :
    total weight after.connections = total weight before.connections := by
  cases stepped with
  | connected number call server rest found connecting first up =>
      simp [total, setCall, unserved]
  | wrote number call socket found writing =>
      exact congrArg List.sum
        (ListEntries.modify_map_same weight write (fun other => steady other _ rfl rfl rfl) _ _)
  | handled number connection flow found alive advanced moved => exact absurd rfl (outside number)
  | _ => rfl

end Sums

end EE360P.ConnectionSums
