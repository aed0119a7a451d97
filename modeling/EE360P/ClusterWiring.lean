import EE360P.ClusterSteps

/-! What is wired to what in every reachable state: a queued command belongs to
a client's connection at that server, a loop of `send` carries the line its
purpose asks for, a response that is on its way was computed by the execution
it answers, and every line can be read. -/

namespace EE360P.ClusterWiring
open JavaText ReplicatedServer ServerCluster ProtocolLines ClusterSteps

section Laws
variable (config : Config) (connections : List Connection) (calls : List Call)
  (history : List Execution)

/-- The server ran the command of its client, and this is the reply. -/
def Won (me : Int) (client : ClientInformation) (response : Text) : Prop :=
  ⟨me, client, true, .ok response⟩ ∈ history

/-- The command came over a connection to this server. -/
def Submitted (me : Int) (client : ClientInformation) : Prop :=
  ∃ connection, connections[client.clientSocket]? = some connection ∧
    connection.message = .command client.clientCommand ∧ connection.server = me

/-- A line that a server sends. -/
def MessageSound : Line → Prop
  | .command _ => False
  | .request logicalClock serverID =>
      config.counting.holds logicalClock = true ∧ config.counting.holds serverID = true
  | .release logicalClock serverID =>
      config.counting.holds logicalClock = true ∧ config.counting.holds serverID = true
  | .update logicalClock serverID client =>
      config.counting.holds logicalClock = true ∧ config.counting.holds serverID = true ∧
        accepted client.clientCommand = true ∧ ∃ response, Won history serverID client response

def PurposeSound (me : Int) (message : Line) : Purpose → Prop
  | .entering => ∃ logicalClock, message = .request logicalClock me
  | .updating client response =>
      Won history me client response ∧ ∃ logicalClock, message = .update logicalClock me client
  | .leaving client response =>
      Won history me client response ∧ ∃ logicalClock, message = .release logicalClock me

structure SendingSound (me : Int) (sending : Sending) : Prop where
  message : MessageSound config history sending.message
  purpose : PurposeSound history me sending.message sending.purpose
  rest : ∀ peer ∈ sending.rest, peer ∈ config.serverIDs

def TaskSound (me : Int) : ServerTask → Prop
  | .connecting sending peer =>
      SendingSound config history me sending ∧ peer ∈ config.serverIDs ∧ peer ≠ me
  | .writing sending peer _ =>
      SendingSound config history me sending ∧ peer ∈ config.serverIDs ∧ peer ≠ me
  | .awaiting sending peer _ =>
      SendingSound config history me sending ∧ peer ∈ config.serverIDs ∧ peer ≠ me
  | .replying client response => Won history me client response
  | _ => True

structure ServerSound (me : Int) (server : Server) : Prop where
  clock : config.counting.holds server.logicalClock = true
  queued : ∀ client ∈ server.clientCommands, Submitted connections me client

def ExecutionSound (execution : Execution) : Prop :=
  if execution.own then Submitted connections execution.server execution.client
  else ∃ me response, Won history me execution.client response

/-- `n` is the connection's number. -/
structure CommandSound (n : Nat) (connection : Connection) (command : Text) : Prop where
  valid : accepted command = true
  plain : connection.task ≠ .answering ∧ connection.task ≠ .handling
  caller : ∃ number call, connection.caller = .client number ∧ calls[number]? = some call ∧
    call.command = command
  output : ∀ text ∈ connection.output,
    ∃ me client, client.clientSocket = n ∧ Won history me client text

structure MessagingSound (connection : Connection) : Prop where
  message : MessageSound config history connection.message
  caller : ∃ serverID, connection.caller = .server serverID
  output : ∀ text ∈ connection.output, text = "Acknowledgement".toList ∨ text = "recieved".toList

structure ConnectionSound (n : Nat) (connection : Connection) : Prop where
  known : connection.server ∈ config.serverIDs
  task : TaskSound config history connection.server connection.task
  line : (∃ command, connection.message = .command command ∧
      CommandSound calls history n connection command) ∨ MessagingSound config history connection

/-- The connection of a call's latest attempt. -/
def socketOf : Progress → Option Nat
  | .writing socket => some socket
  | .awaiting socket => some socket
  | .returned socket _ => some socket
  | .connecting => none
  | .exhausted => none

structure CallSound (number : Nat) (call : Call) : Prop where
  valid : accepted call.command = true
  known : ∀ server ∈ call.servers, server ∈ config.serverIDs
  attempt : ∀ socket, socketOf call.progress = some socket → ∃ connection,
    connections[socket]? = some connection ∧ connection.caller = .client number ∧
      connection.message = .command call.command
  returned : ∀ socket response, call.progress = .returned socket response → ∃ connection,
    connections[socket]? = some connection ∧ nextReply connection.output = some response

end Laws

structure Wired (config : Config) (cluster : Cluster) : Prop where
  servers : ∀ me, ServerSound config cluster.connections me (cluster.server me)
  connections : ∀ (n : Nat) (connection : Connection), cluster.connections[n]? = some connection →
    ConnectionSound config cluster.calls cluster.history n connection
  calls : ∀ (number : Nat) (call : Call), cluster.calls[number]? = some call →
    CallSound config cluster.connections number call
  history : ∀ execution ∈ cluster.history,
    ExecutionSound cluster.connections cluster.history execution

/-! Nothing that was said is taken back. -/
section Growth

structure Kept (before after : Connection) : Prop where
  server : after.server = before.server
  caller : after.caller = before.caller
  message : after.message = before.message
  output : before.output <+: after.output

structure Grown (before after : Cluster) : Prop where
  connections : ∀ (n : Nat) (connection : Connection), before.connections[n]? = some connection →
    ∃ later, after.connections[n]? = some later ∧ Kept connection later
  calls : ∀ (number : Nat) (call : Call), before.calls[number]? = some call →
    ∃ later, after.calls[number]? = some later ∧ later.command = call.command
  history : before.history ⊆ after.history

theorem kept_self (connection : Connection) : Kept connection connection :=
  ⟨rfl, rfl, rfl, List.prefix_rfl⟩

theorem touched_kept (number n : Nat) (connection : Connection) (outcome : Outcome) :
    Kept connection (touched number n connection outcome) := by
  refine ⟨touched_server _ _ _ _, touched_caller _ _ _ _, touched_message _ _ _ _, ?_⟩
  rcases touched_output number n connection outcome with same | ⟨text, longer, _⟩
  · exact same ▸ List.prefix_rfl
  · exact longer ▸ List.prefix_append _ _

theorem written_kept (connection : Connection) : Kept connection (write connection) :=
  ⟨rfl, rfl, rfl, List.prefix_rfl⟩

theorem calls_set (calls : List Call) (number : Nat) (old call : Call)
    (found : calls[number]? = some old) (same : call.command = old.command) (n : Nat) (other : Call)
    (present : calls[n]? = some other) :
    ∃ later, (calls.set number call)[n]? = some later ∧ later.command = other.command := by
  by_cases here : number = n
  · subst here
    have inside := (List.getElem?_eq_some_iff.mp found).1
    rw [found, Option.some.injEq] at present
    exact ⟨call, by simp [inside], present ▸ same⟩
  · exact ⟨other, by simpa [here] using present, rfl⟩

theorem after_grown (before : Cluster) (number : Nat) (me : Int) (outcome : Outcome) :
    Grown before (before.after number me outcome) := by
  refine ⟨fun n connection present => ?_, fun n call present => ⟨call, present, rfl⟩,
    List.subset_append_left _ _⟩
  exact ⟨touched number n connection outcome,
    (after_found _ _ _ _ _ _).mpr (Or.inl ⟨connection, present, rfl⟩),
    touched_kept number n connection outcome⟩

theorem stepped_grown (config : Config) (before after : Cluster) (action : Action)
    (stepped : Stepped config before action after) : Grown before after := by
  have unchanged : ∀ (n : Nat) (connection : Connection), before.connections[n]? = some connection →
      ∃ later, before.connections[n]? = some later ∧ Kept connection later :=
    fun n connection present => ⟨connection, present, kept_self connection⟩
  have standing : ∀ (number : Nat) (call : Call), before.calls[number]? = some call →
      ∃ later, before.calls[number]? = some later ∧ later.command = call.command :=
    fun number call present => ⟨call, present, rfl⟩
  cases stepped with
  | submitted command servers valid known =>
      refine ⟨unchanged, fun number call present => ⟨call, ?_, rfl⟩, List.Subset.refl _⟩
      have inside := (List.getElem?_eq_some_iff.mp present).1
      simpa [List.getElem?_append_left inside] using present
  | exhausted number call found connecting none =>
      exact ⟨unchanged, calls_set _ number call _ found rfl, List.Subset.refl _⟩
  | skipped number call server rest found connecting first down =>
      exact ⟨unchanged, calls_set _ number call _ found rfl, List.Subset.refl _⟩
  | connected number call server rest found connecting first up =>
      refine ⟨fun n connection present => ⟨connection, ?_, kept_self connection⟩,
        calls_set _ number call _ found rfl, List.Subset.refl _⟩
      have inside := (List.getElem?_eq_some_iff.mp present).1
      simpa [setCall, List.getElem?_append_left inside] using present
  | wrote number call socket found writing =>
      refine ⟨fun n connection present => ?_, calls_set _ number call _ found rfl,
        List.Subset.refl _⟩
      by_cases here : socket = n
      · exact ⟨write connection, by simp [setCall, here, present],
          written_kept connection⟩
      · exact ⟨connection, by simp [setCall, here, present],
          kept_self connection⟩
  | returned number call socket target response found awaiting reached reply =>
      exact ⟨unchanged, calls_set _ number call _ found rfl, List.Subset.refl _⟩
  | retried number call socket target found awaiting reached silent dead =>
      exact ⟨unchanged, calls_set _ number call _ found rfl, List.Subset.refl _⟩
  | timedOut number call socket target found awaiting reached silent =>
      exact ⟨unchanged, calls_set _ number call _ found rfl, List.Subset.refl _⟩
  | handled number connection flow found alive advanced moved => exact after_grown before number _ _
  | crashed serverID known => exact ⟨unchanged, standing, List.Subset.refl _⟩

theorem grown_length {before after : Cluster} (grown : Grown before after) :
    before.connections.length ≤ after.connections.length := by
  by_contra shorter
  have inside : after.connections.length < before.connections.length := by omega
  obtain ⟨later, present, _⟩ := grown.connections _ _ (List.getElem?_eq_getElem inside)
  rw [List.getElem?_eq_none (Nat.le_refl _)] at present
  cases present

variable (config : Config) {before after : Cluster}

theorem submitted_grown (grown : Grown before after) (me : Int) (client : ClientInformation)
    (submitted : Submitted before.connections me client) : Submitted after.connections me client := by
  obtain ⟨connection, found, message, server⟩ := submitted
  obtain ⟨later, present, kept⟩ := grown.connections _ _ found
  exact ⟨later, present, kept.message.trans message, kept.server.trans server⟩

theorem message_grown (grown : Grown before after) (message : Line)
    (sound : MessageSound config before.history message) :
    MessageSound config after.history message := by
  cases message with
  | command text => exact sound
  | request logicalClock serverID => exact sound
  | release logicalClock serverID => exact sound
  | update logicalClock serverID client =>
      obtain ⟨clock, sender, valid, response, won⟩ := sound
      exact ⟨clock, sender, valid, response, grown.history won⟩

theorem purpose_grown (grown : Grown before after) (me : Int) (message : Line) (purpose : Purpose)
    (sound : PurposeSound before.history me message purpose) :
    PurposeSound after.history me message purpose := by
  cases purpose with
  | entering => exact sound
  | updating client response => exact ⟨grown.history sound.1, sound.2⟩
  | leaving client response => exact ⟨grown.history sound.1, sound.2⟩

theorem sending_grown (grown : Grown before after) (me : Int) (sending : Sending)
    (sound : SendingSound config before.history me sending) :
    SendingSound config after.history me sending :=
  ⟨message_grown config grown _ sound.message, purpose_grown grown me _ _ sound.purpose, sound.rest⟩

theorem task_grown (grown : Grown before after) (me : Int) (task : ServerTask)
    (sound : TaskSound config before.history me task) : TaskSound config after.history me task := by
  cases task with
  | connecting sending peer => exact ⟨sending_grown config grown me sending sound.1, sound.2⟩
  | writing sending peer socket => exact ⟨sending_grown config grown me sending sound.1, sound.2⟩
  | awaiting sending peer socket => exact ⟨sending_grown config grown me sending sound.1, sound.2⟩
  | replying client response => exact grown.history sound
  | _ => exact sound

theorem execution_connected (grown : Grown before after) (history : List Execution)
    (execution : Execution) (sound : ExecutionSound before.connections history execution) :
    ExecutionSound after.connections history execution := by
  unfold ExecutionSound at sound ⊢
  split
  · rename_i own
    rw [if_pos own] at sound
    exact submitted_grown grown _ _ sound
  · rename_i other
    rwa [if_neg other] at sound

theorem execution_grown (grown : Grown before after) (execution : Execution)
    (sound : ExecutionSound before.connections before.history execution) :
    ExecutionSound after.connections after.history execution := by
  have connected := execution_connected grown _ execution sound
  unfold ExecutionSound at connected ⊢
  split
  · rename_i own
    rwa [if_pos own] at connected
  · rename_i other
    rw [if_neg other] at connected
    obtain ⟨me, response, won⟩ := connected
    exact ⟨me, response, grown.history won⟩

theorem server_grown (grown : Grown before after) (me : Int) (server : Server)
    (sound : ServerSound config before.connections me server) :
    ServerSound config after.connections me server :=
  ⟨sound.clock, fun client member => submitted_grown grown me client (sound.queued client member)⟩

/-- A reply that can be read stays the first one. -/
theorem nextReply_grown (before after : List Text) (longer : before <+: after) (response : Text)
    (read : nextReply before = some response) : nextReply after = some response := by
  obtain ⟨more, rfl⟩ := longer
  unfold nextReply at read ⊢
  rw [List.flatMap_append, List.find?_append, read]
  rfl

theorem call_grown (grown : Grown before after) (number : Nat) (call : Call)
    (sound : CallSound config before.connections number call) :
    CallSound config after.connections number call := by
  refine ⟨sound.valid, sound.known, fun socket attempted => ?_, fun socket response back => ?_⟩
  · obtain ⟨connection, found, caller, message⟩ := sound.attempt socket attempted
    obtain ⟨later, present, kept⟩ := grown.connections _ _ found
    exact ⟨later, present, kept.caller.trans caller, kept.message.trans message⟩
  · obtain ⟨connection, found, reply⟩ := sound.returned socket response back
    obtain ⟨later, present, kept⟩ := grown.connections _ _ found
    exact ⟨later, present, nextReply_grown _ _ kept.output response reply⟩

end Growth

/-! What a handler's step hands over. -/
section Handlers
variable (config : Config) (connections : List Connection) (history : List Execution) (me : Int)

def WireSound : Wire → Prop
  | .answer text => text = "Acknowledgement".toList ∨ text = "recieved".toList
  | .opened server message => server ∈ config.serverIDs ∧ MessageSound config history message
  | .reply socket text => ∃ me client, client.clientSocket = socket ∧ Won history me client text
  | _ => True

/-- `history` is the one before the step. -/
structure OutcomeSound (outcome : Outcome) : Prop where
  server : ServerSound config connections me outcome.server
  task : TaskSound config (history ++ outcome.executed) me outcome.task
  wire : WireSound config (history ++ outcome.executed) outcome.wire
  executed : ∀ execution ∈ outcome.executed,
    ExecutionSound connections (history ++ outcome.executed) execution

def FlowSound : Flow → Prop
  | .checking server => ServerSound config connections me server
  | .done outcome => OutcomeSound config connections history me outcome

theorem ids_held (known : me ∈ config.serverIDs) : config.counting.holds me = true := by
  obtain ⟨n, inside, rfl⟩ := List.mem_map.mp known
  have below := List.mem_range.mp inside
  have held := config.instancesHeld
  cases counting : config.counting with
  | exact => rfl
  | int32 =>
      simp only [counting, Counting.holds, decide_eq_true_eq] at held ⊢
      constructor
      · omega
      · omega

theorem clock_held (counting : Counting) (server : Server) :
    counting.holds (setLogicalClockInternal counting server).logicalClock = true ∧
    counting.holds (setLogicalClockSend counting server).logicalClock = true ∧
    ∀ sender, counting.holds (setLogicalClockReceive counting sender server).logicalClock = true :=
  ⟨wrap_holds _ _, wrap_holds _ _, fun _ => wrap_holds _ _⟩

theorem nextServer_cases (server : Server) (targets : List Int) (peer : Int) (rest : List Int)
    (next : nextServer me server targets = some (peer, rest)) :
    peer ∈ targets ∧ rest ⊆ targets ∧ peer ≠ me ∧ peer ∉ server.timedOutServers := by
  induction targets with
  | nil => cases next
  | cons first targets ih =>
      by_cases taken : first ≠ me ∧ first ∉ server.timedOutServers
      · simp only [nextServer, taken, ne_eq, not_false_eq_true, and_self, ↓reduceIte,
          Option.some.injEq, Prod.mk.injEq] at next
        obtain ⟨rfl, rfl⟩ := next
        exact ⟨List.mem_cons_self, List.subset_cons_self _ _, taken⟩
      · simp only [nextServer, taken, ↓reduceIte] at next
        obtain ⟨member, subset, other⟩ := ih next
        exact ⟨List.mem_cons_of_mem first member, List.subset_cons_of_subset first subset, other⟩

theorem loop_sound (server : Server) (sending : Sending) (ended : ServerTask)
    (sound : SendingSound config history me sending) (after : TaskSound config history me ended) :
    TaskSound config history me (sendLoop me server sending ended) := by
  unfold sendLoop
  split
  · rename_i peer rest next
    obtain ⟨member, subset, other, _⟩ := nextServer_cases me server sending.rest peer rest next
    exact ⟨⟨sound.message, sound.purpose, fun other inside => sound.rest other (subset inside)⟩,
      sound.rest peer member, other⟩
  · exact after

theorem release_sound (server : Server) (client : ClientInformation) (response : Text)
    (known : me ∈ config.serverIDs) (clock : config.counting.holds server.logicalClock = true)
    (won : Won history me client response) :
    TaskSound config history me (releaseCriticalSection config me server client response) :=
  loop_sound config history me server _ _
    ⟨⟨clock, ids_held config me known⟩, ⟨won, server.logicalClock, rfl⟩, fun _ inside => inside⟩ won

theorem update_sound (server : Server) (client : ClientInformation) (response : Text)
    (known : me ∈ config.serverIDs) (clock : config.counting.holds server.logicalClock = true)
    (valid : accepted client.clientCommand = true) (won : Won history me client response) :
    TaskSound config history me (sendUpdate config me server client response) :=
  loop_sound config history me server _ _
    ⟨⟨clock, ids_held config me known, valid, response, won⟩, ⟨won, server.logicalClock, rfl⟩,
      fun _ inside => inside⟩
    (release_sound config history me server client response known clock won)

theorem check_sound (server : Server) (known : me ∈ config.serverIDs)
    (valid : ∀ client, Submitted connections me client → accepted client.clientCommand = true)
    (sound : ServerSound config connections me server) :
    OutcomeSound config connections history me (checkCriticalSection config me server) := by
  have submitted : ∀ client ∈ server.clientCommands, Submitted connections me client := sound.queued
  have checked := check_checked config me server
  generalize checkCriticalSection config me server = outcome at checked ⊢
  cases checked with
  | behind larger => exact ⟨sound, trivial, trivial, nofun⟩
  | idle smallest empty => exact ⟨sound, trivial, trivial, nofun⟩
  | thrown client rest thrown smallest waiting failed =>
      rw [waiting] at submitted
      obtain ⟨mine, left⟩ := List.forall_mem_cons.mp submitted
      refine ⟨⟨sound.clock, left⟩, trivial, trivial, ?_⟩
      simpa [ExecutionSound] using mine
  | served client rest response store smallest waiting result =>
      rw [waiting] at submitted
      obtain ⟨mine, left⟩ := List.forall_mem_cons.mp submitted
      refine ⟨⟨sound.clock, left⟩, ?_, trivial, ?_⟩
      · exact update_sound config _ me _ client response known sound.clock
          (valid client mine) (by simp [Won])
      · simpa [ExecutionSound] using mine

theorem finish_sound (flow : Flow) (known : me ∈ config.serverIDs)
    (valid : ∀ client, Submitted connections me client → accepted client.clientCommand = true)
    (sound : FlowSound config connections history me flow) :
    OutcomeSound config connections history me (flow.finish config me) := by
  cases flow with
  | checking server => exact check_sound config connections history me server known valid sound
  | done outcome => exact sound

theorem stay_sound (server : Server) (task : ServerTask)
    (sound : ServerSound config connections me server) (after : TaskSound config history me task) :
    FlowSound config connections history me (stay server task) :=
  ⟨sound, by simpa using after, trivial, by simp⟩

theorem resume_sound (server : Server) (sending : Sending) (known : me ∈ config.serverIDs)
    (sound : ServerSound config connections me server)
    (carried : SendingSound config history me sending) :
    FlowSound config connections history me (resume config me server sending) := by
  have purpose := carried.purpose
  have resumed := resume_resumed config me server sending
  generalize resume config me server sending = flow at resumed ⊢
  cases resumed with
  | next peer rest next =>
      obtain ⟨member, subset, other, _⟩ := nextServer_cases me server sending.rest peer rest next
      exact stay_sound config connections history me server _ sound
        ⟨⟨carried.message, carried.purpose, fun other inside => carried.rest other (subset inside)⟩,
          carried.rest peer member, other⟩
  | requested ended entering => exact sound
  | updated client response ended updating =>
      rw [updating] at purpose
      exact stay_sound config connections history me server _ sound
        (release_sound config history me server client response known sound.clock purpose.1)
  | released client response ended leaving =>
      rw [leaving] at purpose
      exact stay_sound config connections history me server _ sound purpose.1

theorem moved_sound (cluster : Cluster) (number : Nat) (connection : Connection) (flow : Flow)
    (wired : Wired config cluster) (found : cluster.connections[number]? = some connection)
    (moved : Moved config cluster number connection flow) :
    FlowSound config cluster.connections cluster.history connection.server flow := by
  have server := wired.servers connection.server
  have sound := wired.connections number connection found
  have task := sound.task
  have clocks := clock_held config.counting
  cases moved with
  | gone reading unwritten left => exact stay_sound _ _ _ _ _ _ server trivial
  | requested logicalClock serverID reading message =>
      exact stay_sound _ _ _ _ _ _ ⟨(clocks _).2.1, server.queued⟩ trivial
  | told reading message => exact stay_sound _ _ _ _ _ _ server trivial
  | queued command reading message empty =>
      refine resume_sound config _ _ _ _ _ sound.known ⟨(clocks _).1, ?_⟩
        ⟨⟨(clocks _).1, ids_held config _ sound.known⟩, ⟨_, rfl⟩, fun _ inside => inside⟩
      intro client member
      rw [List.mem_singleton.mp member]
      exact ⟨connection, found, message, rfl⟩
  | refused command reading message full =>
      exact stay_sound _ _ _ _ _ _ ⟨(clocks _).1, server.queued⟩ trivial
  | answered text answering plain => exact ⟨server, trivial, plain, by simp⟩
  | enqueued logicalClock serverID handling message =>
      exact stay_sound _ _ _ _ _ _ ⟨server.clock, server.queued⟩ trivial
  | released logicalClock serverID handling message =>
      exact ⟨(clocks _).2.2 _, server.queued⟩
  | updated logicalClock serverID client handling message =>
      obtain ⟨_, line, _⟩ | messaging := sound.line
      · rw [message] at line
        cases line
      · have update := messaging.message
        rw [message] at update
        obtain ⟨_, _, _, response, won⟩ := update
        simp only [applyUpdate]
        split
        · refine ⟨⟨(clocks _).2.2 _, server.queued⟩, trivial, trivial, ?_⟩
          intro execution member
          rw [List.mem_singleton.mp member]
          exact ⟨serverID, response, List.mem_append_left _ won⟩
        · refine ⟨⟨(clocks _).2.2 _, server.queued⟩, trivial, trivial, ?_⟩
          intro execution member
          rw [List.mem_singleton.mp member]
          exact ⟨serverID, response, List.mem_append_left _ won⟩
  | misplaced command handling message => exact stay_sound _ _ _ _ _ _ server trivial
  | unreachable sending peer connecting down =>
      rw [connecting] at task
      exact resume_sound config _ _ _ _ _ sound.known ⟨server.clock, server.queued⟩ task.1
  | connected sending peer connecting up =>
      rw [connecting] at task
      refine ⟨⟨(clocks _).2.1, server.queued⟩, ?_, ⟨task.2.1, ?_⟩, by simp⟩
      · simpa [TaskSound] using task
      · simpa using task.1.message
  | wrote sending peer socket writing =>
      rw [writing] at task
      exact ⟨server, by simpa [TaskSound] using task, trivial, by simp⟩
  | heard sending peer socket target awaiting reached reply =>
      rw [awaiting] at task
      exact resume_sound config _ _ _ _ _ sound.known server task.1
  | lost sending peer socket target awaiting reached silent dead =>
      rw [awaiting] at task
      exact resume_sound config _ _ _ _ _ sound.known ⟨server.clock, server.queued⟩ task.1
  | replied client response replying =>
      rw [replying] at task
      exact ⟨server, trivial, ⟨connection.server, client, rfl, by simpa [Won, TaskSound] using task⟩, by simp⟩
  | closed closing => exact ⟨server, trivial, trivial, by simp⟩

end Handlers

/-! The socket operation and the task a step ends in. -/
section Endings
variable (config : Config) (me : Int)

/-- Not in the branches that answer a server's line. -/
def Plain (task : ServerTask) : Prop := task ≠ .answering ∧ task ≠ .handling

/-- Where code that goes on with `send`, or with the check, can stop. -/
def Onward : ServerTask → Prop
  | .connecting _ _ => True
  | .replying _ _ => True
  | .closing => True
  | .failed => True
  | _ => False

theorem loop_onward (server : Server) (sending : Sending) (ended : ServerTask)
    (onward : Onward ended) : Onward (sendLoop me server sending ended) := by
  unfold sendLoop
  split
  · trivial
  · exact onward

theorem release_onward (server : Server) (client : ClientInformation) (response : Text) :
    Onward (releaseCriticalSection config me server client response) :=
  loop_onward me server _ _ trivial

theorem check_ending (server : Server) : Onward (checkCriticalSection config me server).task ∧
    (checkCriticalSection config me server).wire = .silent := by
  have checked := check_checked config me server
  generalize checkCriticalSection config me server = outcome at checked ⊢
  cases checked with
  | served client rest response store smallest waiting result =>
      exact ⟨loop_onward me _ _ _ (release_onward config me _ _ _), rfl⟩
  | _ => exact ⟨trivial, rfl⟩

theorem resume_ending (server : Server) (sending : Sending) :
    Onward ((resume config me server sending).finish config me).task ∧
    ((resume config me server sending).finish config me).wire = .silent := by
  have resumed := resume_resumed config me server sending
  generalize resume config me server sending = flow at resumed ⊢
  cases resumed with
  | next peer rest next => exact ⟨trivial, rfl⟩
  | requested ended entering => exact check_ending config me server
  | updated client response ended updating => exact ⟨release_onward config me _ _ _, rfl⟩
  | released client response ended leaving => exact ⟨trivial, rfl⟩

theorem onward_plain (task : ServerTask) (onward : Onward task) : Plain task := by
  constructor
  · rintro rfl
    exact onward
  · rintro rfl
    exact onward

variable (cluster : Cluster) (number : Nat) (connection : Connection) (flow : Flow)

-- Only the branches of `serviceServerTask` for servers' lines print an answer.
theorem moved_plain (command : Text) (line : connection.message = .command command)
    (plain : Plain connection.task) (moved : Moved config cluster number connection flow) :
    Plain (flow.finish config connection.server).task ∧
    ∀ text, (flow.finish config connection.server).wire ≠ .answer text := by
  cases moved with
  | gone reading unwritten left => exact ⟨⟨nofun, nofun⟩, nofun⟩
  | requested logicalClock serverID reading message => exact absurd (line.symm.trans message) nofun
  | told reading message =>
      obtain ⟨_, _, message⟩ | ⟨_, _, _, message⟩ := message
      · exact absurd (line.symm.trans message) nofun
      · exact absurd (line.symm.trans message) nofun
  | queued command reading message empty =>
      have ending := resume_ending config connection.server
      exact ⟨onward_plain _ (ending _ _).1, fun text printed => by
        rw [requestCriticalSection, (ending _ _).2] at printed
        cases printed⟩
  | refused command reading message full => exact ⟨⟨nofun, nofun⟩, nofun⟩
  | answered text answering _ => exact absurd answering plain.1
  | enqueued logicalClock serverID handling message => exact absurd handling plain.2
  | released logicalClock serverID handling message => exact absurd handling plain.2
  | updated logicalClock serverID client handling message => exact absurd handling plain.2
  | misplaced command handling message => exact absurd handling plain.2
  | unreachable sending peer connecting down =>
      have ending := resume_ending config connection.server
      exact ⟨onward_plain _ (ending _ _).1, fun text printed => by
        rw [(ending _ _).2] at printed
        cases printed⟩
  | connected sending peer connecting up => exact ⟨⟨nofun, nofun⟩, nofun⟩
  | wrote sending peer socket writing => exact ⟨⟨nofun, nofun⟩, nofun⟩
  | heard sending peer socket target awaiting reached reply =>
      have ending := resume_ending config connection.server
      exact ⟨onward_plain _ (ending _ _).1, fun text printed => by
        rw [(ending _ _).2] at printed
        cases printed⟩
  | lost sending peer socket target awaiting reached silent dead =>
      have ending := resume_ending config connection.server
      exact ⟨onward_plain _ (ending _ _).1, fun text printed => by
        rw [(ending _ _).2] at printed
        cases printed⟩
  | replied client response replying => exact ⟨⟨nofun, nofun⟩, nofun⟩
  | closed closing => exact ⟨⟨nofun, nofun⟩, nofun⟩

end Endings

section Preservation
variable (config : Config) (before : Cluster)

theorem wired_readable (wired : Wired config before) : AllReadable config before := by
  intro connection member
  obtain ⟨n, found⟩ := List.mem_iff_getElem?.mp member
  obtain ⟨command, line, sound⟩ | messaging := (wired.connections n connection found).line
  · rw [line]
    exact sound.valid
  · have message := messaging.message
    cases line : connection.message with
    | command text =>
        rw [line] at message
        exact message.elim
    | request logicalClock serverID =>
        rw [line] at message
        exact message
    | release logicalClock serverID =>
        rw [line] at message
        exact message
    | update logicalClock serverID client =>
        rw [line] at message
        exact ⟨message.1, message.2.1, message.2.2.1⟩

theorem submitted_valid (wired : Wired config before) (me : Int) (client : ClientInformation)
    (submitted : Submitted before.connections me client) :
    accepted client.clientCommand = true := by
  obtain ⟨connection, found, message, _⟩ := submitted
  have readable := wired_readable config before wired connection (List.mem_of_getElem? found)
  rwa [message] at readable

variable (number : Nat) (connection : Connection) (flow : Flow)

-- A response is only ever printed to the connection of its command.
theorem won_command (connections : List Connection) (history : List Execution)
    (ran : ∀ execution ∈ history, ExecutionSound connections history execution) (me : Int)
    (client : ClientInformation) (response : Text) (won : Won history me client response) :
    ∃ submitted, connections[client.clientSocket]? = some submitted ∧
      submitted.message = .command client.clientCommand := by
  have sound := ran _ won
  simp only [ExecutionSound, if_true] at sound
  obtain ⟨submitted, found, message, _⟩ := sound
  exact ⟨submitted, found, message⟩

section Handled
variable (wired : Wired config before) (found : before.connections[number]? = some connection)
  (moved : Moved config before number connection flow)
  (outcome : OutcomeSound config before.connections before.history connection.server
    (flow.finish config connection.server))

include wired outcome in
theorem handled_executions (execution : Execution) (member : execution ∈
    (before.after number connection.server (flow.finish config connection.server)).history) :
    ExecutionSound before.connections
      (before.after number connection.server (flow.finish config connection.server)).history
      execution := by
  rcases List.mem_append.mp member with old | new
  · have sound := wired.history execution old
    unfold ExecutionSound at sound ⊢
    split
    · rename_i own
      rwa [if_pos own] at sound
    · rename_i other
      rw [if_neg other] at sound
      obtain ⟨me, response, won⟩ := sound
      exact ⟨me, response, List.mem_append_left _ won⟩
  · exact outcome.executed execution new

include wired found moved outcome in
theorem touched_line (n : Nat) (old : Connection) (present : before.connections[n]? = some old) :
    (∃ command, (touched number n old (flow.finish config connection.server)).message =
        .command command ∧ CommandSound before.calls
          (before.after number connection.server (flow.finish config connection.server)).history n
          (touched number n old (flow.finish config connection.server)) command) ∨
      MessagingSound config
        (before.after number connection.server (flow.finish config connection.server)).history
        (touched number n old (flow.finish config connection.server)) := by
  have executions := handled_executions config before number connection flow wired outcome
  have printed := touched_output number n old (flow.finish config connection.server)
  have wire := outcome.wire
  obtain ⟨command, line, sound⟩ | messaging := (wired.connections n old present).line
  · refine Or.inl ⟨command, by simpa using line, sound.valid, ?_, by simpa using sound.caller, ?_⟩
    · rw [touched_task]
      by_cases own : n = number
      · subst own
        rw [present, Option.some.injEq] at found
        subst found
        rw [if_pos rfl]
        exact (moved_plain config before n old flow command line sound.plain moved).1
      · simpa [own] using sound.plain
    · have kept : ∀ text ∈ old.output, ∃ me client, client.clientSocket = n ∧
          Won (before.history ++ (flow.finish config connection.server).executed) me client text := by
        intro text member
        obtain ⟨me, client, socket, won⟩ := sound.output text member
        exact ⟨me, client, socket, List.mem_append_left _ won⟩
      rcases printed with same | ⟨text, longer, ⟨answer, own⟩ | ⟨reply, _⟩⟩
      · rw [same]
        exact kept
      · subst own
        rw [present, Option.some.injEq] at found
        subst found
        exact absurd answer ((moved_plain config before n old flow command line sound.plain moved).2
          text)
      · rw [longer]
        rw [reply] at wire
        intro other member
        rcases List.mem_append.mp member with before | new
        · exact kept other before
        · rw [List.mem_singleton.mp new]
          exact wire
  · refine Or.inr ⟨?_, by simpa using messaging.caller, ?_⟩
    · rw [touched_message]
      exact message_grown config (after_grown before number connection.server _) _
        messaging.message
    · rcases printed with same | ⟨text, longer, ⟨answer, own⟩ | ⟨reply, _⟩⟩
      · rw [same]
        exact messaging.output
      · rw [answer] at wire
        rw [longer]
        intro other member
        rcases List.mem_append.mp member with before | new
        · exact messaging.output other before
        · rw [List.mem_singleton.mp new]
          exact wire
      · rw [reply] at wire
        obtain ⟨me, client, socket, won⟩ := wire
        obtain ⟨submitted, there, command⟩ := won_command _ _ executions me client text won
        rw [socket, present, Option.some.injEq] at there
        have message := messaging.message
        rw [there, command] at message
        exact message.elim

end Handled

theorem handled_wired (wired : Wired config before)
    (found : before.connections[number]? = some connection)
    (moved : Moved config before number connection flow) :
    Wired config
      (before.after number connection.server (flow.finish config connection.server)) := by
  have grown := after_grown before number connection.server
    (flow.finish config connection.server)
  have here := wired.connections number connection found
  have outcome := finish_sound config before.connections before.history connection.server flow
    here.known (submitted_valid config before wired connection.server)
    (moved_sound config before number connection flow wired found moved)
  refine ⟨fun me => ?_, fun n later present => ?_, fun n call present => ?_,
    fun execution member => ?_⟩
  · by_cases own : me = connection.server
    · subst own
      simpa [Cluster.after] using server_grown config grown _ _ outcome.server
    · simpa [Cluster.after, own] using server_grown config grown _ _ (wired.servers me)
  · rcases (after_found _ _ _ _ _ _).mp present with ⟨old, there, rfl⟩ | ⟨_, server, message, opening, rfl⟩
    · have sound := wired.connections n old there
      refine ⟨by simpa using sound.known, ?_,
        touched_line config before number connection flow wired found moved outcome n old there⟩
      rw [touched_server, touched_task]
      by_cases own : n = number
      · subst own
        rw [there, Option.some.injEq] at found
        subst found
        rw [if_pos rfl]
        exact outcome.task
      · simpa [own] using task_grown config grown _ _ sound.task
    · have wire := outcome.wire
      rw [opening] at wire
      exact ⟨wire.1, trivial, Or.inr ⟨wire.2, ⟨_, rfl⟩, by simp [opened]⟩⟩
  · exact call_grown config grown n call (wired.calls n call present)
  · exact execution_connected grown _ execution
      (handled_executions config before number connection flow wired outcome execution member)

theorem connection_grown {after : Cluster} (grown : Grown before after) (n : Nat)
    (connection : Connection)
    (sound : ConnectionSound config before.calls before.history n connection) :
    ConnectionSound config after.calls after.history n connection := by
  refine ⟨sound.known, task_grown config grown _ _ sound.task, ?_⟩
  obtain ⟨command, line, sound⟩ | messaging := sound.line
  · refine Or.inl ⟨command, line, sound.valid, sound.plain, ?_, fun text member => ?_⟩
    · obtain ⟨number, call, caller, found, same⟩ := sound.caller
      obtain ⟨later, present, kept⟩ := grown.calls number call found
      exact ⟨number, later, caller, present, kept.trans same⟩
    · obtain ⟨me, client, socket, won⟩ := sound.output text member
      exact ⟨me, client, socket, grown.history won⟩
  · exact Or.inr ⟨message_grown config grown _ messaging.message, messaging.caller,
      messaging.output⟩

/-- A step of a client, or a crash: it leaves the servers and the history alone. -/
theorem outside_wired {after : Cluster} (wired : Wired config before) (grown : Grown before after)
    (servers : after.server = before.server) (history : after.history = before.history)
    (connections : ∀ (n : Nat) (connection : Connection), after.connections[n]? = some connection →
      ConnectionSound config after.calls after.history n connection)
    (calls : ∀ (n : Nat) (call : Call), after.calls[n]? = some call →
      CallSound config after.connections n call) : Wired config after := by
  refine ⟨fun me => ?_, connections, calls, fun execution member => ?_⟩
  · rw [servers]
    exact server_grown config grown me _ (wired.servers me)
  · rw [history] at member
    exact execution_grown grown execution (wired.history execution member)

theorem set_sound {after : Cluster} (wired : Wired config before) (grown : Grown before after)
    (number : Nat) (call : Call) (calls : after.calls = before.calls.set number call)
    (sound : CallSound config after.connections number call) (n : Nat) (other : Call)
    (present : after.calls[n]? = some other) : CallSound config after.connections n other := by
  rw [calls, List.getElem?_set] at present
  by_cases here : number = n
  · subst here
    by_cases inside : number < before.calls.length
    · simp only [inside, ↓reduceIte, Option.some.injEq] at present
      exact present ▸ sound
    · simp [inside] at present
  · simp only [here, ↓reduceIte] at present
    exact call_grown config grown n other (wired.calls n other present)

-- A call that has given up on a server has no connection.
theorem deprecated_sound {connections others : List Connection} {number : Nat} {call : Call}
    (sound : CallSound config connections number call) : CallSound config others number
      { call with servers := call.servers.tail, progress := .connecting } := by
  refine ⟨sound.valid, fun other member => sound.known other (List.mem_of_mem_tail member), ?_, ?_⟩
  · intro socket attempted
    cases attempted
  · intro socket response back
    cases back

/-- A step keeps the wiring. -/
theorem step_wired (after : Cluster) (action : Action) (wired : Wired config before)
    (taken : step config before action = some after) : Wired config after := by
  have stepped := step_stepped config before after action (wired_readable config before wired) taken
  have grown := stepped_grown config before after action stepped
  have standing : ∀ (n : Nat) (connection : Connection), before.connections[n]? = some connection →
      ConnectionSound config after.calls after.history n connection := fun n connection present =>
    connection_grown config before grown n connection (wired.connections n connection present)
  cases stepped with
  | submitted command servers valid known =>
      refine outside_wired config before wired grown rfl rfl standing fun n call present => ?_
      rcases (ListEntries.snoc_entry _ _ _ _).mp present with old | ⟨_, rfl⟩
      · exact call_grown config grown n call (wired.calls n call old)
      · refine ⟨valid, known, fun socket attempted => ?_, fun socket response back => ?_⟩
        · cases attempted
        · cases back
  | exhausted number call found connecting none =>
      have sound := wired.calls number call found
      refine outside_wired config before wired grown rfl rfl standing
        (set_sound config before wired grown number _ rfl ⟨sound.valid, sound.known, ?_, ?_⟩)
      · intro socket attempted
        cases attempted
      · intro socket response back
        cases back
  | skipped number call server rest found connecting first down =>
      have sound := wired.calls number call found
      refine outside_wired config before wired grown rfl rfl standing
        (set_sound config before wired grown number _ rfl ⟨sound.valid, ?_, ?_, ?_⟩)
      · intro other member
        exact sound.known other (by simp [first, member])
      · intro socket attempted
        simp [connecting, socketOf] at attempted
      · intro socket response back
        cases connecting.symm.trans back
  | connected number call server rest found connecting first up =>
      have sound := wired.calls number call found
      have last : (before.connections ++
          [opened server (.client number) (.command call.command)])[before.connections.length]? =
            some (opened server (.client number) (.command call.command)) := by simp
      refine outside_wired config before wired grown rfl rfl (fun n connection present => ?_)
        (set_sound config before wired grown number _ rfl ⟨sound.valid, sound.known, ?_, ?_⟩)
      · rcases (ListEntries.snoc_entry _ _ _ _).mp present with old | ⟨_, rfl⟩
        · exact standing n connection old
        · refine ⟨sound.known server (by simp [first]), trivial, Or.inl ⟨call.command, rfl,
            sound.valid, by simp [opened], ?_, by simp [opened]⟩⟩
          obtain ⟨later, there, same⟩ := grown.calls number call found
          exact ⟨number, later, rfl, there, same⟩
      · intro socket attempted
        simp only [socketOf, Option.some.injEq] at attempted
        exact ⟨_, attempted ▸ last, rfl, rfl⟩
      · intro socket response back
        cases back
  | wrote number call socket found writing =>
      have sound := wired.calls number call found
      refine outside_wired config before wired grown rfl rfl (fun n connection present => ?_)
        (set_sound config before wired grown number _ rfl ⟨sound.valid, sound.known, ?_, ?_⟩)
      · rw [setCall, List.getElem?_modify] at present
        obtain ⟨old, there, rfl⟩ := Option.map_eq_some_iff.mp present
        have same := standing n old there
        split
        · refine ⟨same.known, same.task, same.line.imp ?_ ?_⟩
          · rintro ⟨command, line, sound⟩
            exact ⟨command, line, sound.valid, sound.plain, sound.caller, sound.output⟩
          · intro messaging
            exact ⟨messaging.message, messaging.caller, messaging.output⟩
        · exact same
      · intro other attempted
        simp only [socketOf, Option.some.injEq] at attempted
        subst attempted
        obtain ⟨connection, there, caller, message⟩ := sound.attempt socket (by rw [writing]; rfl)
        obtain ⟨later, present, kept⟩ := grown.connections _ _ there
        exact ⟨later, present, kept.caller.trans caller, kept.message.trans message⟩
      · intro other response back
        cases back
  | returned number call socket target response found awaiting reached reply =>
      have sound := wired.calls number call found
      refine outside_wired config before wired grown rfl rfl standing
        (set_sound config before wired grown number _ rfl ⟨sound.valid, sound.known, ?_, ?_⟩)
      · intro other attempted
        exact sound.attempt other (by rw [awaiting]; exact attempted)
      · rintro other text back
        cases back
        exact ⟨target, reached, reply⟩
  | retried number call socket target found awaiting reached silent dead =>
      exact outside_wired config before wired grown rfl rfl standing
        (set_sound config before wired grown number _ rfl
          (deprecated_sound config (wired.calls number call found)))
  | timedOut number call socket target found awaiting reached silent =>
      exact outside_wired config before wired grown rfl rfl standing
        (set_sound config before wired grown number _ rfl
          (deprecated_sound config (wired.calls number call found)))
  | handled number connection flow found alive advanced moved =>
      exact handled_wired config before number connection flow wired found moved
  | crashed serverID known =>
      exact outside_wired config before wired grown rfl rfl standing fun n call present =>
        call_grown config grown n call (wired.calls n call present)

end Preservation

theorem initial_wired (config : Config) : Wired config (initial config) := by
  refine ⟨fun me => ⟨?_, by simp [initial, Config.server]⟩, by simp [initial], by simp [initial],
    by simp [initial]⟩
  cases counting : config.counting <;> simp [initial, Config.server, Counting.holds]

end EE360P.ClusterWiring
