import EE360P.ClusterWiring
import EE360P.PriorityExclusion
import EE360P.GuardedRuns

/-! When the critical sections of two servers exclude each other. A server is
in its section from a `checkCriticalSection` that passed with a command to the
start of `releaseCriticalSection`; a handler that dies in `execute` never gets
there. -/

namespace EE360P.SectionExclusion
open JavaText ReplicatedServer ServerCluster ProtocolLines ClusterSteps ClusterWiring
open GuardedRuns PriorityExclusion

section Sections

def purposeSection : Purpose → Option ClientInformation
  | .entering => none
  | .updating client _ => some client
  | .leaving _ _ => none

def taskSection : ServerTask → Option ClientInformation
  | .connecting sending _ => purposeSection sending.purpose
  | .writing sending _ _ => purposeSection sending.purpose
  | .awaiting sending _ _ => purposeSection sending.purpose
  | _ => none

/-- The commands of the server that are in the section. -/
def inSection (cluster : Cluster) (me : Int) : List ClientInformation :=
  (cluster.connections.filterMap fun connection =>
    if connection.server = me then taskSection connection.task else none) ++
  (cluster.history.filterMap fun execution =>
    if execution.server = me ∧ execution.own = true ∧ execution.succeeded = false then
      some execution.client
    else none)

theorem mem_inSection (cluster : Cluster) (me : Int) (client : ClientInformation) :
    client ∈ inSection cluster me ↔
      (∃ (n : Nat) (connection : Connection), cluster.connections[n]? = some connection ∧
        connection.server = me ∧ taskSection connection.task = some client) ∨
      ∃ execution ∈ cluster.history, execution.server = me ∧ execution.own = true ∧
        execution.succeeded = false ∧ execution.client = client := by
  simp only [inSection, List.mem_append, List.mem_filterMap, Option.ite_none_right_eq_some,
    Option.some.injEq, and_assoc]
  refine or_congr_left ⟨?_, ?_⟩
  · rintro ⟨connection, member, rest⟩
    obtain ⟨n, found⟩ := List.mem_iff_getElem?.mp member
    exact ⟨n, connection, found, rest⟩
  · rintro ⟨n, connection, found, rest⟩
    exact ⟨connection, List.mem_of_getElem? found, rest⟩

end Sections

/-! What a step does to clocks, queued commands and sections. -/
section Effects
variable (config : Config) (me : Int)

/-- The server in the state that is tested, or that the step leaves behind. -/
def flowServer : Flow → Server
  | .checking server => server
  | .done outcome => outcome.server

/-- The command with which `checkCriticalSection` passes. -/
def entered : Flow → Option ClientInformation
  | .checking server =>
      if isSmallest server.pendingQueue me then server.clientCommands.head? else none
  | .done _ => none

theorem entered_waiting (flow : Flow) (client : ClientInformation)
    (enters : entered me flow = some client) : client ∈ (flowServer flow).clientCommands := by
  cases flow with
  | checking server =>
      simp only [entered, Option.ite_none_right_eq_some] at enters
      exact List.mem_of_head? enters.2
  | done outcome => cases enters

theorem resume_server (server : Server) (sending : Sending) :
    flowServer (resume config me server sending) = server := by
  have resumed := resume_resumed config me server sending
  generalize resume config me server sending = flow at resumed ⊢
  cases resumed with
  | _ => rfl

theorem loop_section (server : Server) (sending : Sending) (ended : ServerTask)
    (client : ClientInformation)
    (within : taskSection (sendLoop me server sending ended) = some client) :
    purposeSection sending.purpose = some client ∨ taskSection ended = some client := by
  unfold sendLoop at within
  split at within
  · exact Or.inl within
  · exact Or.inr within

theorem release_section (server : Server) (owner : ClientInformation) (response : Text) :
    taskSection (releaseCriticalSection config me server owner response) = none := by
  cases within : taskSection (releaseCriticalSection config me server owner response) with
  | none => rfl
  | some client =>
      rcases loop_section me server _ _ client within with purpose | ended
      · cases purpose
      · cases ended

theorem entered_polled (server : Server) (client : ClientInformation)
    (rest : List ClientInformation) (smallest : isSmallest server.pendingQueue me = true)
    (waiting : server.clientCommands = client :: rest) :
    entered me (.checking server) = some client := by
  simp [entered, smallest, waiting]

/-- A check only polls a command and runs it. -/
theorem check_server (server : Server) : ∃ clientCommands store,
    (checkCriticalSection config me server).server = { server with clientCommands, store } := by
  have checked := check_checked config me server
  generalize checkCriticalSection config me server = outcome at checked ⊢
  cases checked with
  | _ => exact ⟨_, _, rfl⟩

/-- What `checkCriticalSection` does for the one command it polls. -/
theorem check_effect (server : Server) :
    (checkCriticalSection config me server).server.logicalClock = server.logicalClock ∧
    (checkCriticalSection config me server).server.clientCommands ⊆ server.clientCommands ∧
    ∀ client, taskSection (checkCriticalSection config me server).task = some client →
      entered me (.checking server) = some client := by
  have fewer : ∀ client rest, server.clientCommands = client :: rest →
      rest ⊆ server.clientCommands := by
    intro client rest waiting
    rw [waiting]
    exact List.subset_cons_self client rest
  have checked := check_checked config me server
  generalize checkCriticalSection config me server = outcome at checked ⊢
  cases checked with
  | behind larger => exact ⟨rfl, List.Subset.refl _, nofun⟩
  | idle smallest empty => exact ⟨rfl, List.Subset.refl _, nofun⟩
  | thrown client rest thrown smallest waiting failed => exact ⟨rfl, fewer client rest waiting, nofun⟩
  | served client rest response store smallest waiting result =>
      refine ⟨rfl, fewer client rest waiting, fun other within => ?_⟩
      rcases loop_section me _ _ _ other within with purpose | released
      · exact (entered_polled me server client rest smallest waiting).trans purpose
      · rw [release_section] at released
        cases released

theorem resume_section (server : Server) (sending : Sending) (client : ClientInformation)
    (within : taskSection ((resume config me server sending).finish config me).task =
      some client) :
    purposeSection sending.purpose = some client ∨
      entered me (resume config me server sending) = some client := by
  have resumed := resume_resumed config me server sending
  generalize resume config me server sending = flow at resumed within ⊢
  cases resumed with
  | next peer rest next => exact Or.inl within
  | requested ended entering => exact Or.inr ((check_effect config me server).2.2 client within)
  | updated owner response ended updating =>
      have outside := release_section config me server owner response
      exact absurd (outside.symm.trans within) nofun
  | released owner response ended leaving => cases within

variable (cluster : Cluster) (number : Nat) (connection : Connection) (flow : Flow)

/-- What a stretch of a handler does to the fields of its server before the check. -/
inductive Changed : Server → Prop where
  | ticked (logicalClock : Int) : Changed { cluster.server connection.server with logicalClock }
  | queued (queued : Server) (command : Text) (reading : connection.task = .reading)
      (message : connection.message = .command command)
      (empty : (cluster.server connection.server).clientCommands = [])
      (same : queued = queueCommand config (cluster.server connection.server) connection.server
        command number) :
      Changed { queued with
        pendingQueue := queued.pendingQueue ++ [⟨queued.logicalClock, connection.server⟩] }
  | enqueued (logicalClock serverID : Int)
      (message : connection.message = .request logicalClock serverID) :
      Changed { cluster.server connection.server with
        pendingQueue := (cluster.server connection.server).pendingQueue ++
          [⟨logicalClock, serverID⟩] }
  | released (logicalClock serverID received : Int)
      (message : connection.message = .release logicalClock serverID) :
      Changed (removeFirst serverID
        { cluster.server connection.server with logicalClock := received })
  | stored (received : Int) (store : OnlineStore.Store) :
      Changed { cluster.server connection.server with logicalClock := received, store }
  | unreachable (sending : Sending) (peer : Int)
      (connecting : connection.task = .connecting sending peer) (down : peer ∈ cluster.crashed) :
      Changed (deprecateServer peer (cluster.server connection.server))
  | lost (sending : Sending) (peer : Int) (socket : Nat) (target : Connection)
      (awaiting : connection.task = .awaiting sending peer socket)
      (reached : cluster.connections[socket]? = some target)
      (silent : (nextReply target.output).isSome = false)
      (dead : target.closed = true ∨ peer ∈ cluster.crashed) :
      Changed (deprecateServer peer (cluster.server connection.server))

theorem moved_changed (moved : Moved config cluster number connection flow) :
    Changed config cluster number connection (flowServer flow) := by
  cases moved with
  | queued command reading message empty =>
      rw [requestCriticalSection, resume_server]
      exact .queued _ command reading message empty rfl
  | requested logicalClock serverID reading message => exact .ticked _
  | refused command reading message full => exact .ticked _
  | enqueued logicalClock serverID handling message =>
      exact .enqueued logicalClock serverID message
  | released logicalClock serverID handling message =>
      exact .released logicalClock serverID _ message
  | updated logicalClock serverID client handling message =>
      simp only [applyUpdate]
      split
      · exact .stored _ _
      · exact .stored _ _
  | unreachable sending peer connecting down =>
      rw [resume_server]
      exact .unreachable sending peer connecting down
  | connected sending peer connecting up => exact .ticked _
  | heard sending peer socket target awaiting reached reply =>
      rw [resume_server]
      exact .ticked _
  | lost sending peer socket target awaiting reached silent dead =>
      rw [resume_server]
      exact .lost sending peer socket target awaiting reached silent dead
  | _ => exact .ticked (cluster.server connection.server).logicalClock

/-- A queued command is an old one, or new with the clock that the step sets. -/
theorem moved_waiting (moved : Moved config cluster number connection flow)
    (client : ClientInformation) (waits : client ∈ (flowServer flow).clientCommands) :
    client ∈ (cluster.server connection.server).clientCommands ∨
      client.request = ⟨(flowServer flow).logicalClock, connection.server⟩ ∧
        (flowServer flow).logicalClock =
          config.counting.wrap ((cluster.server connection.server).logicalClock + 1) := by
  have changed := moved_changed config cluster number connection flow moved
  generalize flowServer flow = state at changed waits ⊢
  cases changed with
  | queued queued command reading message empty same =>
      rw [same] at waits ⊢
      rw [List.mem_singleton.mp waits]
      exact Or.inr ⟨rfl, rfl⟩
  | _ => exact Or.inl waits

/-- A handler is in the section only if it was, or if the check just passed. -/
theorem moved_section (moved : Moved config cluster number connection flow)
    (client : ClientInformation)
    (within : taskSection (flow.finish config connection.server).task = some client) :
    taskSection connection.task = some client ∨ entered connection.server flow = some client := by
  cases moved with
  | queued command reading message empty =>
      rcases resume_section config connection.server _ _ client within with purpose | enters
      · cases purpose
      · exact Or.inr enters
  | released logicalClock serverID handling message =>
      exact Or.inr ((check_effect config connection.server _).2.2 client within)
  | updated logicalClock serverID owner handling message =>
      simp only [applyUpdate, Flow.finish] at within
      split at within
      · cases within
      · cases within
  | unreachable sending peer connecting down =>
      rw [connecting]
      exact resume_section config connection.server _ sending client within
  | connected sending peer connecting up =>
      rw [connecting]
      exact Or.inl within
  | wrote sending peer socket writing =>
      rw [writing]
      exact Or.inl within
  | heard sending peer socket target awaiting reached reply =>
      rw [awaiting]
      exact resume_section config connection.server _ sending client within
  | lost sending peer socket target awaiting reached silent dead =>
      rw [awaiting]
      exact resume_section config connection.server _ sending client within
  | _ => cases within

theorem finish_server : (flow.finish config me).server.logicalClock =
    (flowServer flow).logicalClock ∧
    (flow.finish config me).server.clientCommands ⊆ (flowServer flow).clientCommands := by
  cases flow with
  | checking server =>
      exact ⟨(check_effect config me server).1, (check_effect config me server).2.1⟩
  | done outcome => exact ⟨rfl, List.Subset.refl _⟩

/-- What a stretch of a handler executes, and what becomes of the store. -/
inductive Executes (entering : Option ClientInformation) (store : OnlineStore.Store)
    (outcome : Outcome) : Prop where
  | nothing (idle : outcome.executed = []) (same : outcome.server.store = store)
  | thrown (client : ClientInformation) (thrown : OnlineStore.Thrown)
      (enters : entering = some client)
      (ran : outcome.executed = [⟨connection.server, client, true, .error thrown⟩])
      (same : outcome.server.store = store)
  | served (client : ClientInformation) (response : Text) (enters : entering = some client)
      (ran : outcome.executed = [⟨connection.server, client, true, .ok response⟩])
      (next : outcome.task =
        sendUpdate config connection.server outcome.server client response)
      (result : OnlineStore.execute4 config.counting client.clientCommand store =
        .ok (response, outcome.server.store))
  | refused (logicalClock serverID : Int) (client : ClientInformation)
      (thrown : OnlineStore.Thrown) (handling : connection.task = .handling)
      (message : connection.message = .update logicalClock serverID client)
      (ran : outcome.executed = [⟨connection.server, client, false, .error thrown⟩])
      (result : OnlineStore.execute4 config.counting (cut client.clientCommand) store =
        .error thrown)
      (same : outcome.server.store = store)
  | carried (logicalClock serverID : Int) (client : ClientInformation) (response : Text)
      (handling : connection.task = .handling)
      (message : connection.message = .update logicalClock serverID client)
      (ran : outcome.executed = [⟨connection.server, client, false, .ok response⟩])
      (result : OnlineStore.execute4 config.counting (cut client.clientCommand) store =
        .ok (response, outcome.server.store))

theorem check_executes (server : Server) :
    Executes config connection (entered connection.server (.checking server)) server.store
      (checkCriticalSection config connection.server server) := by
  have checked := check_checked config connection.server server
  generalize checkCriticalSection config connection.server server = outcome at checked ⊢
  cases checked with
  | behind larger => exact .nothing rfl rfl
  | idle smallest empty => exact .nothing rfl rfl
  | thrown client rest thrown smallest waiting failed =>
      exact .thrown client thrown (entered_polled _ server client rest smallest waiting) rfl rfl
  | served client rest response store smallest waiting result =>
      exact .served client response (entered_polled _ server client rest smallest waiting) rfl rfl
        result

theorem resume_executes (server : Server) (sending : Sending) :
    Executes config connection (entered connection.server
        (resume config connection.server server sending)) server.store
      ((resume config connection.server server sending).finish config connection.server) := by
  have resumed := resume_resumed config connection.server server sending
  generalize resume config connection.server server sending = flow at resumed ⊢
  cases resumed with
  | requested ended entering => exact check_executes config connection server
  | _ => exact .nothing rfl rfl

theorem moved_executes (moved : Moved config cluster number connection flow) :
    Executes config connection (entered connection.server flow)
      (cluster.server connection.server).store (flow.finish config connection.server) := by
  cases moved with
  | queued command reading message empty => exact resume_executes config connection _ _
  | released logicalClock serverID handling message => exact check_executes config connection _
  | updated logicalClock serverID client handling message =>
      simp only [Flow.finish, applyUpdate]
      split
      · rename_i thrown failed
        exact .refused logicalClock serverID client thrown handling message rfl failed rfl
      · rename_i response store result
        exact .carried logicalClock serverID client response handling message rfl result
  | unreachable sending peer connecting down => exact resume_executes config connection _ _
  | heard sending peer socket target awaiting reached reply =>
      exact resume_executes config connection _ _
  | lost sending peer socket target awaiting reached silent dead =>
      exact resume_executes config connection _ _
  | _ => exact .nothing rfl rfl

-- A server runs a command of its own client only when the check passed.
theorem moved_executed (moved : Moved config cluster number connection flow)
    (execution : Execution) (own : execution.own = true)
    (ran : execution ∈ (flow.finish config connection.server).executed) :
    execution.server = connection.server ∧
      entered connection.server flow = some execution.client := by
  cases moved_executes config cluster number connection flow moved with
  | nothing idle same =>
      rw [idle] at ran
      cases ran
  | thrown client thrown enters executed same =>
      rw [executed, List.mem_singleton] at ran
      exact ran ▸ ⟨rfl, enters⟩
  | served client response enters executed next result =>
      rw [executed, List.mem_singleton] at ran
      exact ran ▸ ⟨rfl, enters⟩
  | refused logicalClock serverID client thrown handling message executed result same =>
      rw [executed, List.mem_singleton] at ran
      rw [ran] at own
      cases own
  | carried logicalClock serverID client response handling message executed result =>
      rw [executed, List.mem_singleton] at ran
      rw [ran] at own
      cases own

/-- A command with which the check passes came over a connection to the server. -/
theorem entered_submitted (wired : Wired config cluster)
    (found : cluster.connections[number]? = some connection)
    (moved : Moved config cluster number connection flow) (client : ClientInformation)
    (enters : entered connection.server flow = some client) :
    Submitted cluster.connections connection.server client := by
  have sound := moved_sound config cluster number connection flow wired found moved
  cases flow with
  | done outcome => cases enters
  | checking server => exact sound.queued client (entered_waiting connection.server _ client enters)

end Effects

section Runs
variable (config : Config)

/-- The state in which the check passes with this command is one in which
entering is safe: the other clocks have reached its request, the tested queue
holds the request of every command that another server has queued or is in the
section with, and the own entry that was compared is this command's. -/
def Clear (cluster : Cluster) (me : Int) (tested : Server) (client : ClientInformation) : Prop :=
  (∀ other ∈ config.serverIDs, other ≠ me →
    client.request.logicalClock ≤ (cluster.server other).logicalClock) ∧
  (∀ other ∈ config.serverIDs, other ≠ me →
    ∀ held ∈ (cluster.server other).clientCommands ++ inSection cluster other,
      held.request ∈ tested.pendingQueue) ∧
  search tested.pendingQueue me = some client.request

instance (cluster : Cluster) (me : Int) (tested : Server) (client : ClientInformation) :
    Decidable (Clear config cluster me tested client) :=
  inferInstanceAs (Decidable (_ ∧ _ ∧ _))

/-- No clock overflows, and a check passes only in a clear state. -/
def OrderlyFlow (cluster : Cluster) (me : Int) (flow : Flow) : Prop :=
  (cluster.server me).logicalClock ≤ (flowServer flow).logicalClock ∧
  ∀ client ∈ entered me flow, Clear config cluster me (flowServer flow) client

instance (cluster : Cluster) (me : Int) (flow : Flow) :
    Decidable (OrderlyFlow config cluster me flow) :=
  inferInstanceAs (Decidable (_ ∧ _))

def Orderly (cluster : Cluster) : Action → Prop
  | .submit _ _ => True
  | .client _ => True
  | .timeout _ => True
  | .server number => ∀ connection ∈ cluster.connections[number]?,
      ∀ flow ∈ advance config cluster number connection,
        OrderlyFlow config cluster connection.server flow
  | .crash _ => False

instance (cluster : Cluster) : ∀ action, Decidable (Orderly config cluster action)
  | .submit _ _ => isTrue trivial
  | .client _ => isTrue trivial
  | .timeout _ => isTrue trivial
  | .server _ => inferInstanceAs (Decidable (∀ _ ∈ _, ∀ _ ∈ _, _))
  | .crash _ => isFalse id

/-- The cluster as parties with clocks, queued commands and sections. -/
def view (cluster : Cluster) : View {id : Int // id ∈ config.serverIDs} ClientInformation where
  clock id := (cluster.server id).logicalClock
  waiting id client := client ∈ (cluster.server id).clientCommands
  inside id client := client ∈ inSection cluster id

def time (client : ClientInformation) : Int := client.request.logicalClock

def earlier (first second : ClientInformation) : Prop :=
  first.request.compare second.request = 1

theorem sooner_earlier (first second : ClientInformation) (sooner : time first < time second) :
    earlier first second := if_pos sooner

theorem earlier_asymmetric (first second : ClientInformation) (ahead : earlier first second) :
    ¬ earlier second first := by
  rw [earlier, compare_before] at *
  exact lt_asymm ahead

theorem compare_cases (this other : TimeStamp) (apart : this.processID ≠ other.processID)
    (notAfter : this.compare other ≠ -1) : this.compare other = 1 := by
  rw [Ne, compare_behind, not_lt] at notAfter
  rw [compare_before]
  exact lt_of_le_of_ne notAfter fun same => apart (congrArg TimeStamp.processID (rank_injective same))

-- The entry that `isSmallest` compares has priority over all entries of others.
theorem smallest_first (pendingQueue : List TimeStamp) (me : Int) (own entry : TimeStamp)
    (smallest : isSmallest pendingQueue me = true) (compared : search pendingQueue me = some own)
    (member : entry ∈ pendingQueue) (other : entry.processID ≠ me) : own.compare entry = 1 := by
  simp only [isSmallest, compared, List.all_eq_true, bne_iff_ne, ne_eq] at smallest
  have mine : own.processID = me := by
    have found := List.find?_some compared
    simpa using found
  exact compare_cases own entry (by rw [mine]; exact Ne.symm other) (smallest entry member)

theorem entered_smallest (me : Int) (flow : Flow) (client : ClientInformation)
    (enters : entered me flow = some client) :
    isSmallest (flowServer flow).pendingQueue me = true := by
  cases flow with
  | checking server =>
      simp only [entered, Option.ite_none_right_eq_some] at enters
      exact enters.1
  | done outcome => cases enters

/-- Requests carry the ID of the server that made them. -/
def Owned (cluster : Cluster) : Prop :=
  ∀ me, ∀ client ∈ (cluster.server me).clientCommands ++ inSection cluster me,
    client.request.processID = me

theorem wrap_moves (counting : Counting) (n : Int) : counting.wrap (n + 1) ≠ n := by
  cases counting with
  | exact =>
      simp only [exact_wrap]
      omega
  | int32 =>
      simp only [Counting.wrap, Int.bmod_def]
      omega

section Handled
variable (before : Cluster) (number : Nat) (connection : Connection) (flow : Flow)
  (found : before.connections[number]? = some connection)
  (moved : Moved config before number connection flow)

include found moved in
theorem after_section (me : Int) (client : ClientInformation) (within : client ∈ inSection
      (before.after number connection.server (flow.finish config connection.server)) me) :
    client ∈ inSection before me ∨
      (me = connection.server ∧ entered connection.server flow = some client) := by
  rcases (mem_inSection _ me client).mp within with ⟨n, later, present, server, located⟩ |
      ⟨execution, ran, server, own, failed, same⟩
  · rcases (after_found _ _ _ _ _ _).mp present with ⟨old, there, rfl⟩ | ⟨_, _, _, _, rfl⟩
    · rw [touched_server] at server
      rw [touched_task] at located
      by_cases here : n = number
      · subst here
        rw [there, Option.some.injEq] at found
        subst found
        rw [if_pos rfl] at located
        rcases moved_section config before n old flow moved client located with was | enters
        · exact Or.inl ((mem_inSection _ _ _).mpr (Or.inl ⟨n, old, there, server, was⟩))
        · exact Or.inr ⟨server.symm, enters⟩
      · rw [if_neg here] at located
        exact Or.inl ((mem_inSection _ _ _).mpr (Or.inl ⟨n, old, there, server, located⟩))
    · cases located
  · rcases List.mem_append.mp ran with old | new
    · exact Or.inl ((mem_inSection _ _ _).mpr
        (Or.inr ⟨execution, old, server, own, failed, same⟩))
    · obtain ⟨runs, enters⟩ := moved_executed config before number connection flow moved
        execution own new
      exact Or.inr ⟨server.symm.trans runs, same ▸ enters⟩

include moved in
theorem after_waiting (me : Int) (client : ClientInformation)
    (waits : client ∈ ((before.after number connection.server
      (flow.finish config connection.server)).server me).clientCommands) :
    client ∈ (before.server me).clientCommands ∨
      (me = connection.server ∧ client ∈ (flowServer flow).clientCommands ∧
        client.request = ⟨(flowServer flow).logicalClock, me⟩ ∧
        (flowServer flow).logicalClock =
          config.counting.wrap ((before.server me).logicalClock + 1)) := by
  by_cases mine : me = connection.server
  · subst mine
    simp only [Cluster.after, Function.update_self] at waits
    have queued := (finish_server config connection.server flow).2 waits
    exact (moved_waiting config before number connection flow moved client queued).imp_right
      fun new => ⟨rfl, queued, new⟩
  · simp only [Cluster.after, Function.update_of_ne mine] at waits
    exact Or.inl waits

include moved in
theorem flow_owned (owned : Owned before) (client : ClientInformation)
    (waits : client ∈ (flowServer flow).clientCommands) :
    client.request.processID = connection.server := by
  rcases moved_waiting config before number connection flow moved client waits with old | fresh
  · exact owned connection.server client (List.mem_append_left _ old)
  · rw [fresh.1]

include found moved in
theorem handled_owned (owned : Owned before) :
    Owned (before.after number connection.server (flow.finish config connection.server)) := by
  have new := flow_owned config before number connection flow moved owned
  intro me client member
  rcases List.mem_append.mp member with waits | within
  · rcases after_waiting config before number connection flow moved me client waits with
      old | ⟨rfl, queued, _⟩
    · exact owned me client (List.mem_append_left _ old)
    · exact new client queued
  · rcases after_section config before number connection flow found moved me client within with
      old | ⟨rfl, enters⟩
    · exact owned me client (List.mem_append_right _ old)
    · exact new client (entered_waiting connection.server flow client enters)

include found moved in
theorem handled_turn (owned : Owned before) (known : connection.server ∈ config.serverIDs)
    (orderly : OrderlyFlow config before connection.server flow) :
    Turn time earlier (view config before)
      (view config (before.after number connection.server (flow.finish config connection.server)))
      ⟨connection.server, known⟩ (fun client => entered connection.server flow = some client) := by
  obtain ⟨steady, clear⟩ := orderly
  have later : ∀ n, (flowServer flow).logicalClock =
      config.counting.wrap ((before.server connection.server).logicalClock + 1) →
      n = (flowServer flow).logicalClock →
      (before.server connection.server).logicalClock < n := by
    rintro n counted rfl
    have moves := wrap_moves config.counting (before.server connection.server).logicalClock
    rw [← counted] at moves
    omega
  constructor
  · rintro ⟨id, inside⟩ other
    have apart : id ≠ connection.server := fun same => other (Subtype.ext same)
    refine ⟨by simp [view, Cluster.after, apart], by simp [view, Cluster.after, apart], ?_⟩
    funext client
    refine propext ⟨fun within => ?_, fun within => ?_⟩
    · exact (after_section config before number connection flow found moved id client
        within).resolve_right fun mine => apart mine.1
    · rcases (mem_inSection _ _ _).mp within with ⟨n, old, there, server, located⟩ |
          ⟨execution, ran, rest⟩
      · have elsewhere : n ≠ number := by
          rintro rfl
          rw [there, Option.some.injEq] at found
          exact apart (server.symm.trans (congrArg _ found))
        refine (mem_inSection _ _ _).mpr (Or.inl ⟨n, _, (after_found _ _ _ _ _ _).mpr
          (Or.inl ⟨old, there, rfl⟩), ?_, ?_⟩)
        · exact (touched_server _ _ _ _).trans server
        · rw [touched_task, if_neg elsewhere]
          exact located
      · exact (mem_inSection _ _ _).mpr (Or.inr ⟨execution, List.mem_append_left _ ran, rest⟩)
  · simpa [view, Cluster.after, (finish_server config connection.server flow).1] using steady
  · intro client waits
    rcases after_waiting config before number connection flow moved connection.server client waits
      with old | ⟨_, _, request, counted⟩
    · exact Or.inl old
    · exact Or.inr (later _ counted (by rw [time, request]))
  · intro client within
    exact (after_section config before number connection flow found moved _ client within).imp_right
      And.right
  · intro client enters
    have waits := entered_waiting connection.server flow client enters
    rcases moved_waiting config before number connection flow moved client waits with old | new
    · exact Or.inl old
    · exact Or.inr (later _ new.2 (by rw [time, new.1]))
  · rintro client enters ⟨id, inside⟩ other
    exact (clear client enters).1 id inside fun same => other (Subtype.ext same)
  · rintro client enters ⟨id, inside⟩ other held present
    have apart : id ≠ connection.server := fun same => other (Subtype.ext same)
    have member := List.mem_append.mpr present
    exact smallest_first _ connection.server _ _
      (entered_smallest connection.server flow client enters) (clear client enters).2.2
      ((clear client enters).2.1 id inside apart held member)
      (by rw [owned id held member]; exact apart)

end Handled

-- The steps of clients leave every server's sections alone.
theorem outside_section (before after : Cluster) (action : Action)
    (stepped : Stepped config before action after) (outside : ∀ number, action ≠ .server number)
    (me : Int) : inSection after me ⊆ inSection before me := by
  intro client member
  rcases (mem_inSection _ _ _).mp member with ⟨n, later, found, server, located⟩ |
      ⟨execution, ran, rest⟩
  · rcases outside_found config before after action stepped outside n later found with
      ⟨old, there, rfl | rfl⟩ | ⟨_, _, _, _, _, _, _, rfl⟩
    · exact (mem_inSection _ _ _).mpr (Or.inl ⟨n, later, there, server, located⟩)
    · exact (mem_inSection _ _ _).mpr (Or.inl ⟨n, old, there, server, located⟩)
    · cases located
  · have history := (outside_same config before after action stepped outside).2
    exact (mem_inSection _ _ _).mpr (Or.inr ⟨execution, history ▸ ran, rest⟩)

theorem outside_owned (before after : Cluster) (action : Action)
    (stepped : Stepped config before action after) (outside : ∀ number, action ≠ .server number)
    (owned : Owned before) : Owned after := by
  have servers := (outside_same config before after action stepped outside).1
  have fewer := outside_section config before after action stepped outside
  intro me client member
  refine owned me client ?_
  rw [servers] at member
  exact List.mem_append.mpr ((List.mem_append.mp member).imp_right fun within => fewer me within)

theorem initial_owned : Owned (initial config) := by
  intro me client member
  simp [initial, Config.server, inSection] at member

theorem step_owned (before after : Cluster) (action : Action) (wired : Wired config before)
    (owned : Owned before) (taken : step config before action = some after) : Owned after := by
  have stepped := step_stepped config before after action (wired_readable config before wired) taken
  by_cases outside : ∀ number, action ≠ .server number
  · exact outside_owned config before after action stepped outside owned
  · cases stepped with
    | handled number connection flow found alive advanced moved =>
        exact handled_owned config before number connection flow found moved owned
    | _ => simp at outside

/-- What holds in every state of an orderly run. -/
structure Safe (cluster : Cluster) : Prop where
  wired : Wired config cluster
  owned : Owned cluster
  exclusive : Exclusive time earlier (view config cluster)

theorem initial_safe : Safe config (initial config) := by
  refine ⟨initial_wired config, initial_owned config, ⟨?_, ?_, ?_⟩⟩
  · intro id client inside
    simp [view, initial, inSection] at inside
  · intro id client inside
    simp [view, initial, inSection] at inside
  · intro id client inside
    simp [view, initial, inSection] at inside

/-- An orderly step keeps the sections apart. -/
theorem step_safe (before after : Cluster) (action : Action) (safe : Safe config before)
    (orderly : Orderly config before action) (taken : step config before action = some after) :
    Safe config after := by
  have wired := step_wired config before after action safe.wired taken
  have owned := step_owned config before after action safe.wired safe.owned taken
  have stepped := step_stepped config before after action
    (wired_readable config before safe.wired) taken
  by_cases outside : ∀ number, action ≠ .server number
  · have servers := (outside_same config before after action stepped outside).1
    have fewer := outside_section config before after action stepped outside
    refine ⟨wired, owned, shrink_exclusive safe.exclusive ?_ ?_ ?_⟩
    · simp only [view, servers]
    · intro id client waits
      simpa only [view, servers] using waits
    · intro id client inside
      exact fewer id inside
  · cases stepped with
    | handled number connection flow found alive advanced moved =>
        have known := (safe.wired.connections number connection found).known
        have turn := handled_turn config before number connection flow found moved safe.owned known
          (orderly connection found flow advanced)
        exact ⟨wired, owned,
          turn_exclusive sooner_earlier earlier_asymmetric safe.exclusive turn⟩
    | _ => exact absurd (fun number => nofun) outside

/-- In every state that an orderly run reaches, at most one server is in its
critical section. -/
theorem sections_exclude (cluster : Cluster)
    (reached : Reachable (step config) (Orderly config) (initial config) cluster) (left right : Int)
    (leftKnown : left ∈ config.serverIDs) (rightKnown : right ∈ config.serverIDs)
    (apart : left ≠ right) : inSection cluster left = [] ∨ inSection cluster right = [] := by
  have safe := reachable_invariant (Safe config) (initial_safe config)
    (fun before action after safe orderly taken =>
      step_safe config before after action safe orderly taken) reached
  by_cases empty : inSection cluster left = []
  · exact Or.inl empty
  · obtain ⟨client, inside⟩ := List.exists_mem_of_ne_nil _ empty
    refine Or.inr (List.eq_nil_iff_forall_not_mem.mpr fun other within => ?_)
    exact safe.exclusive.alone ⟨left, leftKnown⟩ client inside ⟨right, rightKnown⟩
      (fun same => apart (congrArg Subtype.val same).symm) other within

end Runs

section Examples

/-- Two servers that sell five phones, with `int` clocks. -/
def twoServers : Config :=
  ⟨.int32, 2, [⟨"phone".toList, 5⟩], by decide⟩

-- Two commands at once: server 1 is in its section, the command at server 2 waits.
def oneWaits : List Action :=
  [.submit "list".toList [1], .submit "list".toList [2], .client 0, .client 0, .client 1, .client 1,
    .server 0, .server 0, .server 0, .server 2, .server 2, .server 2, .server 2, .server 1,
    .server 1, .server 1, .server 3, .server 3, .server 3, .server 3, .server 1, .server 0]

theorem sections_exclude_one : ∃ cluster,
    replay (step twoServers) (Orderly twoServers) (initial twoServers) oneWaits = some cluster ∧
      inSection cluster 1 ≠ [] ∧ (cluster.server 2).clientCommands ≠ [] ∧
      (inSection cluster 1 = [] ∨ inSection cluster 2 = []) := by
  have entered : ((replay (step twoServers) (Orderly twoServers) (initial twoServers)
      oneWaits).any fun cluster =>
        inSection cluster 1 != [] && !(cluster.server 2).clientCommands.isEmpty) = true := by
    decide
  obtain ⟨cluster, played, found⟩ := (Option.any_eq_true _ _).mp entered
  obtain ⟨inside, waiting⟩ := Bool.and_eq_true_iff.mp found
  exact ⟨cluster, played, by simpa using inside, by simpa using waiting,
    sections_exclude twoServers cluster (replayed _ _ played) 1 2 (by decide) (by decide)
      (by decide)⟩

def crashFree : Action → Bool
  | .crash _ => false
  | _ => true

-- Server 1 makes its request before it hears of server 2's, and sends it after
-- server 2 has entered: it finds its own request smaller and enters as well.
def bothEnter : List Action :=
  [.submit "list".toList [1], .submit "list".toList [2], .client 0, .client 0, .client 1,
    .client 1, .server 0, .server 1, .server 1, .server 1, .server 2, .server 2, .server 1,
    .server 0, .server 0, .server 3, .server 3, .server 0]

theorem two_servers_in_section : ¬ ∀ cluster,
    Reachable (step twoServers) (fun _ action => crashFree action = true) (initial twoServers)
      cluster →
    ∀ left ∈ twoServers.serverIDs, ∀ right ∈ twoServers.serverIDs, left ≠ right →
      inSection cluster left = [] ∨ inSection cluster right = [] := by
  intro excludes
  have both : ((replay (step twoServers) (fun _ action => crashFree action = true)
      (initial twoServers) bothEnter).any fun cluster =>
        inSection cluster 1 != [] && inSection cluster 2 != []) = true := by decide
  obtain ⟨cluster, played, inside⟩ := (Option.any_eq_true _ _).mp both
  rcases excludes cluster (replayed _ _ played) 1 (by decide) 2 (by decide) (by decide) with
    empty | empty
  · simp [empty] at inside
  · simp [empty] at inside

end Examples

end EE360P.SectionExclusion
