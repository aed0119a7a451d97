import EE360P.RecordedRequests
import EE360P.WinningCommands

/-! The client commands that wait at a server, with an observer who notes each
one when its handler reads it. `ClientInformation` cannot be compared, so the
priority queue takes a second command only after the first was polled. -/

namespace EE360P.PendingCommands
open JavaText ReplicatedServer ServerCluster ProtocolLines ClusterSteps ClusterWiring SectionExclusion
open WinningCommands GuardedRuns

/-- A client command that a handler of `server` has read. It is `crowded` when
another one waited there. -/
structure Arrival where
  server : Int
  client : ClientInformation
  crowded : Bool
  deriving DecidableEq, Repr

section Notes
variable (config : Config)

/-- What `new ClientInformation` is made of, with the time of the request. -/
def information (server : Server) (me : Int) (command : Text) (socket : Nat) : ClientInformation :=
  ⟨command, socket, ⟨(setLogicalClockInternal config.counting server).logicalClock, me⟩⟩

/-- The arrival in a step of the handler of connection `number`. -/
def arrival (cluster : Cluster) (number : Nat) (connection : Connection) : Option Arrival :=
  let server := cluster.server connection.server
  match connection.task, connection.message with
  | .reading, .command command =>
      if connection.written then
        some ⟨connection.server, information config server connection.server command number,
          !server.clientCommands.isEmpty⟩
      else none
  | _, _ => none

def watch (cluster : Cluster) : Action → List Arrival → List Arrival
  | .server number, arrivals =>
      arrivals ++ ((cluster.connections[number]?).bind (arrival config cluster number)).toList
  | _, arrivals => arrivals

def observe : Cluster × List Arrival → Action → Option (Cluster × List Arrival) :=
  observed (step config) (watch config)

def start : Cluster × List Arrival := (initial config, [])

def arrivalsAt (me : Int) (arrivals : List Arrival) : List Arrival :=
  arrivals.filter fun arrival => arrival.server == me

/-- The arrivals that found nothing waiting. -/
def alone (arrivals : List Arrival) : List Arrival := arrivals.filter fun arrival => !arrival.crowded

/-- Every command that arrived was polled since or waits, in the order of arrival,
and the ones that wait are in the order of their requests. -/
structure Queued (me : Int) (cluster : Cluster) (arrivals : List Arrival) : Prop where
  kept : (arrivalsAt me arrivals).map Arrival.client =
    polled me cluster.history ++ (cluster.server me).clientCommands
  ordered : (cluster.server me).clientCommands.Pairwise fun earlier later =>
    earlier.request.compare later.request = 1

-- What is crowded is missing in one of the two lists.
theorem alone_all (arrivals : List Arrival) :
    (alone arrivals).map Arrival.client = arrivals.map Arrival.client ↔
      ∀ arrival ∈ arrivals, arrival.crowded = false := by
  constructor
  · intro same
    have sizes := congrArg List.length same
    rw [List.length_map, List.length_map] at sizes
    intro arrival member
    have free := List.length_filter_eq_length_iff.mp sizes arrival member
    exact Bool.not_eq_true' _ |>.mp free
  · intro free
    rw [alone, List.filter_eq_self.mpr]
    intro arrival member
    rw [free arrival member]
    rfl

end Notes

section Steps
variable (config : Config) {before : Cluster} {number : Nat} {connection : Connection}

theorem accept_commands (me : Int) (server : Server) (command : Text) (socket : Nat) :
    (flowServer (acceptCommand config me server command socket)).clientCommands =
      if server.clientCommands.isEmpty then [information config server me command socket]
      else server.clientCommands := by
  unfold acceptCommand
  cases waits : server.clientCommands with
  | nil =>
      simp only [setLogicalClockInternal, waits, requestCriticalSection, resume_server]
      rfl
  | cons first rest =>
      simp only [setLogicalClockInternal, waits]
      rfl

theorem advance_command (command : Text) (reading : connection.task = .reading)
    (message : connection.message = .command command) (written : connection.written = true)
    (readable : Readable config.counting connection.message) :
    advance config before number connection =
      some (acceptCommand config connection.server (before.server connection.server) command number) := by
  rw [message] at readable
  simp only [advance, reading, written, ↓reduceIte, message, Line.text, readLine,
    command_branch command readable]

theorem arrival_some (noted : Arrival) (arrives : arrival config before number connection = some noted) :
    ∃ command, connection.task = .reading ∧ connection.message = .command command ∧
      connection.written = true ∧
      noted = ⟨connection.server,
        information config (before.server connection.server) connection.server command number,
        !(before.server connection.server).clientCommands.isEmpty⟩ := by
  unfold arrival at arrives
  split at arrives
  · rename_i command reading message
    split at arrives
    · rename_i written
      exact ⟨command, reading, message, written, (Option.some.inj arrives).symm⟩
    · cases arrives
  · cases arrives

theorem arrival_own (noted : Arrival) (arrives : noted ∈ (arrival config before number connection).toList) :
    noted.server = connection.server := by
  obtain ⟨command, _, _, _, rfl⟩ := arrival_some config noted (Option.mem_toList.mp arrives)
  rfl

theorem arrival_none (command : Text) (none : arrival config before number connection = none)
    (reading : connection.task = .reading) (message : connection.message = .command command) :
    connection.written = false := by
  simpa only [arrival, reading, message, ite_eq_right_iff, reduceCtorEq, imp_false,
    Bool.not_eq_true] using none

variable {flow : Flow} (advanced : advance config before number connection = some flow)
  (readable : Readable config.counting connection.message)

include advanced readable

/-- A stretch of a handler adds the command that arrives in it, if it is alone. -/
theorem advance_commands : (flowServer flow).clientCommands =
    (before.server connection.server).clientCommands ++
      (alone (arrival config before number connection).toList).map Arrival.client := by
  cases arrives : arrival config before number connection with
  | some noted =>
      obtain ⟨command, reading, message, written, rfl⟩ := arrival_some config noted arrives
      rw [advance_command config command reading message written readable] at advanced
      rw [← Option.some.inj advanced, accept_commands]
      cases waits : (before.server connection.server).clientCommands with
      | nil => rfl
      | cons first rest => simp [alone]
  | none =>
      have moved := advance_moved config before number connection flow readable advanced
      have changed := moved_changed config before number connection flow moved
      have unread : ∀ command, connection.task = .reading → connection.message = .command command →
          flow = stay (before.server connection.server) .failed := by
        intro command reading message
        have unwritten := arrival_none config command arrives reading message
        simp only [advance, reading, unwritten, Bool.false_eq_true, ↓reduceIte] at advanced
        split at advanced
        · exact (Option.some.inj advanced).symm
        · cases advanced
      rw [Option.toList_none, alone, List.filter_nil, List.map_nil, List.append_nil]
      generalize same : flowServer flow = state at changed ⊢
      cases changed with
      | queued queued command reading message empty _ =>
          rw [← same, unread command reading message]
          rfl
      | _ => rfl

end Steps

section Runs
variable (config : Config)

/-- `single` keeps the crowd out of `clientCommands`. -/
structure Accounted (both : Cluster × List Arrival) : Prop where
  wired : Wired config both.1
  kept : ∀ me, (alone (arrivalsAt me both.2)).map Arrival.client =
    polled me both.1.history ++ (both.1.server me).clientCommands
  single : ∀ me, (both.1.server me).clientCommands.length ≤ 1

theorem watch_outside (cluster : Cluster) (action : Action) (arrivals : List Arrival)
    (outside : ∀ number, action ≠ .server number) : watch config cluster action arrivals = arrivals := by
  cases action with
  | server number => exact absurd rfl (outside number)
  | _ => rfl

variable {before : Cluster} {arrivals : List Arrival} {number : Nat} {connection : Connection}
  {flow : Flow} (accounted : Accounted config (before, arrivals))
  (found : before.connections[number]? = some connection)
  (advanced : advance config before number connection = some flow)

theorem arrivals_own (me : Int) : arrivalsAt me (arrival config before number connection).toList =
    if me = connection.server then (arrival config before number connection).toList else [] := by
  split
  · rename_i own
    apply List.filter_eq_self.mpr
    intro noted member
    rw [arrival_own config noted member, own, beq_iff_eq]
  · rename_i other
    apply List.filter_eq_nil_iff.mpr
    intro noted member
    rw [arrival_own config noted member, beq_iff_eq]
    exact Ne.symm other

include accounted found

theorem handled_readable : Readable config.counting connection.message :=
  wired_readable config before accounted.wired connection (List.mem_of_getElem? found)

include advanced

theorem handled_kept (me : Int) :
    (alone (arrivalsAt me (arrivals ++ (arrival config before number connection).toList))).map
        Arrival.client =
      polled me (before.after number connection.server
        (flow.finish config connection.server)).history ++
      ((before.after number connection.server (flow.finish config connection.server)).server
        me).clientCommands := by
  have readable := handled_readable config accounted found
  have moved := advance_moved config before number connection flow readable advanced
  have history : (before.after number connection.server (flow.finish config connection.server)).history =
    before.history ++ (flow.finish config connection.server).executed := rfl
  rw [arrivalsAt, List.filter_append, ← arrivalsAt, ← arrivalsAt, arrivals_own, alone,
    List.filter_append, ← alone, ← alone, List.map_append, accounted.kept me, history, polled_append]
  by_cases own : me = connection.server
  · rw [if_pos own, own, after_self, List.append_assoc, ← advance_commands config advanced readable,
      List.append_assoc, finish_polled config moved]
  · have foreign := foreign_requests config moved me own
    rw [requests_polled, List.map_eq_nil_iff] at foreign
    rw [if_neg own, after_others _ _ _ _ _ own, foreign, List.append_nil]
    exact List.append_nil _

theorem handled_single (me : Int) :
    ((before.after number connection.server (flow.finish config connection.server)).server
      me).clientCommands.length ≤ 1 := by
  have readable := handled_readable config accounted found
  have moved := advance_moved config before number connection flow readable advanced
  by_cases own : me = connection.server
  · have added := congrArg List.length (finish_polled config moved)
    rw [List.length_append] at added
    have bound : (flowServer flow).clientCommands.length ≤ 1 := by
      rcases RecordedRequests.moved_commands config number connection flow moved with
        same | ⟨_, client, only, _⟩
      · rw [same]
        exact accounted.single connection.server
      · rw [only]
        exact Nat.le_refl 1
    rw [own, after_self]
    omega
  · rw [after_others _ _ _ _ _ own]
    exact accounted.single me

end Runs

section Queues
variable (config : Config)

theorem initial_accounted : Accounted config (start config) := by
  constructor
  · exact initial_wired config
  · intro me
    rfl
  · intro me
    exact Nat.zero_le 1

theorem step_accounted (before after : Cluster × List Arrival) (action : Action)
    (accounted : Accounted config before) (taken : observe config before action = some after) :
    Accounted config after := by
  obtain ⟨stepping, watched⟩ := observed_taken (step config) (watch config) before after action taken
  have wired := step_wired config before.1 after.1 action accounted.wired stepping
  have stepped := step_stepped config before.1 after.1 action
    (wired_readable config before.1 accounted.wired) stepping
  obtain ⟨cluster, arrivals⟩ := after
  by_cases outside : ∀ number, action ≠ .server number
  · obtain ⟨servers, history⟩ := outside_same config before.1 cluster action stepped outside
    rw [watch_outside config before.1 action before.2 outside] at watched
    subst watched
    constructor
    · exact wired
    · rw [servers, history]
      exact accounted.kept
    · rw [servers]
      exact accounted.single
  · cases stepped with
    | handled number connection flow found alive advanced moved =>
        have noted : watch config before.1 (.server number) before.2 =
            before.2 ++ (arrival config before.1 number connection).toList := by
          simp only [watch, found, Option.bind_some]
        rw [noted] at watched
        subst watched
        constructor
        · exact wired
        · exact handled_kept config accounted found advanced
        · exact handled_single config accounted found advanced
    | _ => simp at outside

theorem reachable_accounted (both : Cluster × List Arrival)
    (reached : Reachable (observe config) (fun _ _ => True) (start config) both) :
    Accounted config both :=
  reachable_invariant (Accounted config) (initial_accounted config)
    (fun before action after accounted _ taken =>
      step_accounted config before after action accounted taken) reached

/-- At every moment of a run: what arrived at a server is kept, and is polled in
the order of its requests, exactly if nothing arrived while a command waited. -/
theorem commands_queued (cluster : Cluster) (arrivals : List Arrival)
    (reached : Reachable (observe config) (fun _ _ => True) (start config) (cluster, arrivals))
    (me : Int) :
    Queued me cluster arrivals ↔
      ∀ arrival ∈ arrivals, arrival.server = me → arrival.crowded = false := by
  have accounted := reachable_accounted config (cluster, arrivals) reached
  have free : (∀ arrival ∈ arrivals, arrival.server = me → arrival.crowded = false) ↔
      ∀ arrival ∈ arrivalsAt me arrivals, arrival.crowded = false := by
    simp [arrivalsAt]
  rw [free, ← alone_all, accounted.kept me]
  constructor
  · intro queued
    exact queued.kept.symm
  · intro kept
    constructor
    · exact kept.symm
    · have single : (cluster.server me).clientCommands.length ≤ 1 := accounted.single me
      cases commands : (cluster.server me).clientCommands with
      | nil => exact List.Pairwise.nil
      | cons first rest =>
          rw [commands, List.length_cons] at single
          rw [List.length_eq_zero_iff.mp (show rest.length = 0 by omega)]
          exact List.pairwise_singleton _ first

/-- A command to server 1, from the client's call to the end of its connections: the client,
the connection to server 1, and the ones of the `Request`, the `Update` and the `Release`. -/
def served (client : Nat) (own : Nat) : List Action :=
  .submit "list".toList [1] :: [.client client, .client client] ++
    [own, own, own, own + 1, own + 1, own, own, own, own + 1, own + 1, own + 2, own + 2, own, own, own,
      own + 2, own + 2, own + 3, own + 3, own, own].map Action.server ++
    .client client :: [own, own + 3, own + 3].map Action.server

-- Two commands to server 1 one after the other, and a third one that waits.
def threeCommands : List Action :=
  served 0 0 ++ served 1 4 ++
    [.submit "list".toList [1], .client 2, .client 2, .server 8, .server 8, .server 8]

theorem commands_queued_three : ∃ cluster arrivals,
    replay (observe twoServers) (fun _ _ => True) (start twoServers) threeCommands =
      some (cluster, arrivals) ∧ arrivals.length = 3 ∧ (polled 1 cluster.history).length = 2 ∧
      (cluster.server 1).clientCommands.length = 1 ∧ Queued 1 cluster arrivals := by
  have alone : ((replay (observe twoServers) (fun _ _ => True) (start twoServers)
      threeCommands).any fun both => both.2.all (fun arrival => !arrival.crowded) &&
        (both.2.length == 3 && ((polled 1 both.1.history).length == 2 &&
          (both.1.server 1).clientCommands.length == 1))) = true := by decide +kernel
  obtain ⟨⟨cluster, arrivals⟩, played, both⟩ := (Option.any_eq_true _ _).mp alone
  obtain ⟨free, counts⟩ := Bool.and_eq_true_iff.mp both
  obtain ⟨three, counts⟩ := Bool.and_eq_true_iff.mp counts
  obtain ⟨two, one⟩ := Bool.and_eq_true_iff.mp counts
  refine ⟨cluster, arrivals, played, beq_iff_eq.mp three, beq_iff_eq.mp two, beq_iff_eq.mp one, ?_⟩
  apply (commands_queued twoServers cluster arrivals (replayed _ _ played) 1).mpr
  intro arrival member _
  exact (Bool.not_eq_true' _).mp (List.all_eq_true.mp free arrival member)

-- The second command is read while the first waits for the acknowledgement.
def overlapping : List Action :=
  [.submit "list".toList [1], .submit "list".toList [1], .client 0, .client 0, .client 1, .client 1,
    .server 0, .server 1]

theorem command_lost : ¬ ∀ cluster arrivals me,
    Reachable (observe twoServers) (fun _ action => crashFree action = true) (start twoServers)
      (cluster, arrivals) → Queued me cluster arrivals := by
  intro queued
  have lost : ((replay (observe twoServers) (fun _ action => crashFree action = true) (start twoServers)
      overlapping).any fun both => both.1.history.isEmpty &&
        ((both.1.server 1).clientCommands.length == 1 && (arrivalsAt 1 both.2).length == 2)) = true := by
    decide +kernel
  obtain ⟨⟨cluster, arrivals⟩, played, both⟩ := (Option.any_eq_true _ _).mp lost
  obtain ⟨idle, sizes⟩ := Bool.and_eq_true_iff.mp both
  obtain ⟨one, two⟩ := Bool.and_eq_true_iff.mp sizes
  have kept := congrArg List.length (queued cluster arrivals 1 (replayed _ _ played)).kept
  rw [List.isEmpty_iff.mp idle, List.length_map, beq_iff_eq.mp two, List.length_append,
    beq_iff_eq.mp one] at kept
  cases kept

end Queues

end EE360P.PendingCommands
