import Mathlib.Data.List.Nodup
import EE360P.ConnectionSums
import EE360P.SectionExclusion

/-! Where the one right to run a command is. Until its own server runs it, it is
at the unread line or in `clientCommands`; then it is handed out once for each
server: to the server's own run, to a peer still to be told, to an `Update`
not yet carried out, or to the run that carried it out. -/

namespace EE360P.CommandTokens
open JavaText ReplicatedServer ServerCluster ClusterSteps ClusterWiring SectionExclusion
open ConnectionSums

section Tokens
variable (socket : Nat) (server : Int)

/-- Peers that a loop of `send` has still to tell of the command. -/
def loopTokens (me : Int) (targets : List Int) : Purpose → Nat
  | .updating client _ =>
      if client.clientSocket = socket ∧ me ≠ server then targets.count server else 0
  | _ => 0

def taskTokens (me : Int) : ServerTask → Nat
  | .connecting sending peer => loopTokens socket server me (peer :: sending.rest) sending.purpose
  | .writing sending _ _ => loopTokens socket server me sending.rest sending.purpose
  | .awaiting sending _ _ => loopTokens socket server me sending.rest sending.purpose
  | _ => 0

def unapplied : ServerTask → Bool
  | .reading => true
  | .answering => true
  | .handling => true
  | _ => false

/-- An `Update` for the command that this handler has not carried out. -/
def lineTokens (me : Int) (task : ServerTask) : Line → Nat
  | .update _ _ client =>
      if client.clientSocket = socket ∧ me = server ∧ unapplied task = true then 1 else 0
  | _ => 0

def connectionTokens (connection : Connection) : Nat :=
  lineTokens socket server connection.server connection.task connection.message +
    taskTokens socket server connection.server connection.task

/-- How often the server ran the command that came over this connection. -/
def runs (history : List Execution) : Nat :=
  history.countP fun execution =>
    execution.client.clientSocket == socket && execution.server == server

/-- What has been handed out to the server. -/
def spread (cluster : Cluster) : Nat :=
  (cluster.connections.map (connectionTokens socket server)).sum +
    runs socket server cluster.history

def unread (connection : Connection) : Nat :=
  match connection.message, connection.task with
  | .command _, .reading => 1
  | _, _ => 0

def queued (server : Server) : Nat :=
  server.clientCommands.countP fun client => client.clientSocket == socket

/-- What has not been handed out. -/
def unrun (cluster : Cluster) : Nat :=
  match cluster.connections[socket]? with
  | none => 0
  | some connection => unread connection + queued socket (cluster.server connection.server)

/-- The command with which the check passes, if it is this one. -/
def admitted (me : Int) (flow : Flow) : Nat :=
  if (entered me flow).any fun client => client.clientSocket == socket then 1 else 0

end Tokens

section Loops
variable (config : Config) (socket : Nat) (server me : Int)

theorem nextServer_count (state : Server) (targets : List Int) (apart : me ≠ server) :
    match nextServer me state targets with
    | none => server ∉ state.timedOutServers → targets.count server = 0
    | some (peer, rest) => (peer :: rest).count server ≤ targets.count server ∧
        (server ∉ state.timedOutServers → (peer :: rest).count server = targets.count server) := by
  induction targets with
  | nil => simp [nextServer]
  | cons first targets ih =>
      by_cases taken : first ≠ me ∧ first ∉ state.timedOutServers
      · simp [nextServer, taken]
      · have skipped : server ∉ state.timedOutServers → first ≠ server := by
          rintro active rfl
          exact taken ⟨Ne.symm apart, active⟩
        have more : targets.count server ≤ (first :: targets).count server :=
          List.count_le_count_cons
        have equal : server ∉ state.timedOutServers →
            (first :: targets).count server = targets.count server := fun active =>
          List.count_cons_of_ne (skipped active)
        simp only [nextServer, taken, ↓reduceIte]
        cases next : nextServer me state targets with
        | none =>
            simp only [next] at ih ⊢
            exact fun active => (equal active).trans (ih active)
        | some pair =>
            simp only [next] at ih ⊢
            exact ⟨ih.1.trans more, fun active => (ih.2 active).trans (equal active).symm⟩

/-- A loop does not pass over a peer that it has still to come to and trusts. -/
theorem next_found (state : Server) (targets : List Int) (apart : me ≠ server)
    (active : server ∉ state.timedOutServers) (member : server ∈ targets) :
    ∃ first rest, nextServer me state targets = some (first, rest) ∧ server ∈ first :: rest := by
  have count := nextServer_count server me state targets apart
  have positive := List.count_pos_iff.mpr member
  cases next : nextServer me state targets with
  | none =>
      simp only [next] at count
      have none := count active
      omega
  | some pair =>
      simp only [next] at count
      have same := count.2 active
      exact ⟨pair.1, pair.2, rfl, List.count_pos_iff.mp (by omega)⟩

/-- Going on with a loop hands out nothing, and loses only peers given up on. -/
theorem loop_tokens (state : Server) (sending : Sending) (ended : ServerTask)
    (quiet : taskTokens socket server me ended = 0) :
    taskTokens socket server me (sendLoop me state sending ended) ≤
        loopTokens socket server me sending.rest sending.purpose ∧
      (server ∉ state.timedOutServers → taskTokens socket server me (sendLoop me state sending ended) =
        loopTokens socket server me sending.rest sending.purpose) := by
  unfold sendLoop
  cases purpose : sending.purpose with
  | updating client response =>
      by_cases mine : client.clientSocket = socket ∧ me ≠ server
      · have count := nextServer_count server me state sending.rest mine.2
        cases next : nextServer me state sending.rest with
        | none =>
            simp only [next] at count ⊢
            simp only [loopTokens, mine, ne_eq, not_false_eq_true, and_self, ↓reduceIte, quiet]
            exact ⟨Nat.zero_le _, fun active => (count active).symm⟩
        | some pair =>
            simp only [next] at count ⊢
            simpa only [taskTokens, purpose, loopTokens, mine, ne_eq, not_false_eq_true, and_self,
              ↓reduceIte] using count
      · cases next : nextServer me state sending.rest with
        | none => simp [quiet, loopTokens, mine]
        | some pair => simp [taskTokens, loopTokens, mine]
  | _ =>
      cases next : nextServer me state sending.rest with
      | none => simp [quiet, loopTokens]
      | some pair => simp [taskTokens, loopTokens]

theorem release_tokens (state : Server) (client : ClientInformation) (response : Text) :
    taskTokens socket server me (releaseCriticalSection config me state client response) = 0 :=
  Nat.le_zero.mp (loop_tokens socket server me state _ _ rfl).1

theorem ids_nodup : config.serverIDs.Nodup := by
  refine List.Nodup.map (fun left right same => ?_) List.nodup_range
  simpa using same

theorem ids_count : config.serverIDs.count server ≤ 1 :=
  List.nodup_iff_count_le_one.mp (ids_nodup config) server

/-- The own run and the peers to tell: one token for each server. -/
theorem update_tokens (state : Server) (client : ClientInformation) (response : Text)
    (own : client.clientSocket = socket) :
    taskTokens socket server me (sendUpdate config me state client response) +
        (if me = server then 1 else 0) ≤ 1 ∧
      (server ∈ config.serverIDs → server ∉ state.timedOutServers →
        taskTokens socket server me (sendUpdate config me state client response) +
          (if me = server then 1 else 0) = 1) := by
  have loop := loop_tokens socket server me state
    ⟨.update state.logicalClock me client, .updating client response, config.serverIDs⟩
    (releaseCriticalSection config me state client response)
    (release_tokens config socket server me state client response)
  have few := ids_count config server
  by_cases mine : me = server
  · have none : loopTokens socket server me config.serverIDs (.updating client response) = 0 := by
      simp [loopTokens, mine]
    simp only [none] at loop
    have zero : taskTokens socket server me (sendUpdate config me state client response) = 0 :=
      Nat.le_zero.mp loop.1
    rw [zero, if_pos mine]
    exact ⟨Nat.le_refl 1, fun _ _ => rfl⟩
  · have all : loopTokens socket server me config.serverIDs (.updating client response) =
        config.serverIDs.count server := by
      simp [loopTokens, own, mine]
    simp only [all] at loop
    simp only [mine, ↓reduceIte, Nat.add_zero]
    refine ⟨loop.1.trans few, fun known active => ?_⟩
    exact (loop.2 active).trans (List.count_eq_one_of_mem (ids_nodup config) known)

theorem admitted_polled (state : Server) (client : ClientInformation) (rest : List ClientInformation)
    (smallest : isSmallest state.pendingQueue me = true)
    (waiting : state.clientCommands = client :: rest) :
    admitted socket me (.checking state) = if client.clientSocket = socket then 1 else 0 := by
  simp [admitted, entered_polled me state client rest smallest waiting]

theorem runs_single (execution : Execution) : runs socket server [execution] =
    if execution.client.clientSocket = socket ∧ execution.server = server then 1 else 0 := by
  simp [runs, List.countP_cons]

/-- A check that passes hands out at most one token for each server. -/
theorem check_tokens (state : Server) :
    taskTokens socket server me (checkCriticalSection config me state).task +
        runs socket server (checkCriticalSection config me state).executed ≤
      admitted socket me (.checking state) ∧
    (server ∈ config.serverIDs → server ∉ state.timedOutServers →
      (∀ execution ∈ (checkCriticalSection config me state).executed,
        execution.own = true → execution.client.clientSocket = socket →
          execution.succeeded = true) →
      taskTokens socket server me (checkCriticalSection config me state).task +
          runs socket server (checkCriticalSection config me state).executed =
        admitted socket me (.checking state)) := by
  have checked := check_checked config me state
  generalize checkCriticalSection config me state = outcome at checked ⊢
  cases checked with
  | behind larger =>
      have none : admitted socket me (.checking state) = 0 := by
        simp [admitted, entered, larger]
      simp [none, taskTokens, runs]
  | idle smallest empty =>
      have none : admitted socket me (.checking state) = 0 := by
        simp [admitted, entered, smallest, empty]
      simp [none, taskTokens, runs]
  | thrown client rest thrown smallest waiting failed =>
      rw [admitted_polled socket me state client rest smallest waiting]
      refine ⟨?_, fun _ _ succeeded => ?_⟩
      · simp only [taskTokens, runs_single, Nat.zero_add]
        split
        · rename_i own
          rw [if_pos own.1]
        · exact Nat.zero_le _
      · have other : client.clientSocket ≠ socket := fun same => by
          have impossible := succeeded _ (List.mem_singleton.mpr rfl) rfl same
          simp [Execution.succeeded, Except.toBool] at impossible
        simp [taskTokens, runs_single, other]
  | served client rest response store smallest waiting result =>
      rw [admitted_polled socket me state client rest smallest waiting]
      simp only [runs_single]
      by_cases own : client.clientSocket = socket
      · have spread := update_tokens config socket server me
          { state with clientCommands := rest, store } client response own
        simp only [own, true_and, ↓reduceIte]
        exact ⟨spread.1, fun known active _ => spread.2 known active⟩
      · have loop := loop_tokens socket server me { state with clientCommands := rest, store }
          ⟨.update state.logicalClock me client, .updating client response, config.serverIDs⟩
          (releaseCriticalSection config me { state with clientCommands := rest, store } client
            response) (release_tokens config socket server me _ client response)
        simp only [loopTokens, own, false_and, ↓reduceIte, Nat.le_zero] at loop
        simp only [own, false_and, ↓reduceIte, Nat.add_zero]
        exact ⟨Nat.le_of_eq loop.1, fun _ _ _ => loop.1⟩

theorem resume_tokens (state : Server) (sending : Sending) :
    taskTokens socket server me ((resume config me state sending).finish config me).task +
        runs socket server ((resume config me state sending).finish config me).executed ≤
      loopTokens socket server me sending.rest sending.purpose +
        admitted socket me (resume config me state sending) ∧
    (server ∈ config.serverIDs → server ∉ state.timedOutServers →
      (∀ execution ∈ ((resume config me state sending).finish config me).executed,
        execution.own = true → execution.client.clientSocket = socket →
          execution.succeeded = true) →
      taskTokens socket server me ((resume config me state sending).finish config me).task +
          runs socket server ((resume config me state sending).finish config me).executed =
        loopTokens socket server me sending.rest sending.purpose +
          admitted socket me (resume config me state sending)) := by
  have loop := loop_tokens socket server me state sending .closing rfl
  have none : ∀ task, admitted socket me (stay state task) = 0 := fun task => rfl
  unfold sendLoop at loop
  unfold resume
  cases next : nextServer me state sending.rest with
  | some pair =>
      simp only [next] at loop ⊢
      simp only [none, Nat.add_zero]
      exact ⟨loop.1, fun _ active _ => loop.2 active⟩
  | none =>
      simp only [next] at loop ⊢
      cases purpose : sending.purpose with
      | entering =>
          simp only [loopTokens, Nat.zero_add]
          exact check_tokens config socket server me state
      | updating client response =>
          simp only [none, Nat.add_zero, purpose] at loop ⊢
          have released := release_tokens config socket server me state client response
          simp only [Flow.finish, stay, released, runs, List.countP_nil]
          exact ⟨Nat.zero_le _, fun _ active _ => loop.2 active⟩
      | leaving client response =>
          simp only [loopTokens, none, Nat.add_zero]
          exact ⟨Nat.le_refl 0, fun _ _ _ => rfl⟩

theorem onward_applied (task : ServerTask) (onward : Onward task) : unapplied task = false := by
  cases task with
  | reading => exact onward.elim
  | answering => exact onward.elim
  | handling => exact onward.elim
  | _ => rfl

theorem line_applied (task : ServerTask) (message : Line) (applied : unapplied task = false) :
    lineTokens socket server me task message = 0 := by
  cases message <;> simp [lineTokens, applied]

end Loops

section Moves
variable (config : Config) (socket : Nat) (server : Int) (cluster : Cluster) (number : Nat)
  (connection : Connection) (flow : Flow)

/-- What the step of a handler leaves handed out in its place. -/
def handedOut (outcome : Outcome) : Nat :=
  lineTokens socket server connection.server outcome.task connection.message +
    taskTokens socket server connection.server outcome.task +
    ((fresh connection.server outcome.wire).map (connectionTokens socket server)).sum +
    runs socket server outcome.executed

theorem check_handedOut (state : Server) :
    handedOut socket server connection (checkCriticalSection config connection.server state) =
      taskTokens socket server connection.server
          (checkCriticalSection config connection.server state).task +
        runs socket server (checkCriticalSection config connection.server state).executed := by
  simp only [handedOut, (check_ending config connection.server state).2, fresh, List.map_nil,
    List.sum_nil, line_applied _ _ _ _ _
      (onward_applied _ (check_ending config connection.server state).1)]
  omega

theorem resume_handedOut (state : Server) (sending : Sending) :
    handedOut socket server connection
        ((resume config connection.server state sending).finish config connection.server) =
      taskTokens socket server connection.server
          ((resume config connection.server state sending).finish config connection.server).task +
        runs socket server ((resume config connection.server state sending).finish config
          connection.server).executed := by
  simp only [handedOut, (resume_ending config connection.server state sending).2, fresh,
    List.map_nil, List.sum_nil,
    line_applied _ _ _ _ _
      (onward_applied _ (resume_ending config connection.server state sending).1)]
  omega

theorem stay_handedOut (state : Server) (task : ServerTask) (me : Int) :
    handedOut socket server connection ((stay state task).finish config me) =
      lineTokens socket server connection.server task connection.message +
        taskTokens socket server connection.server task := by
  simp [handedOut, stay, Flow.finish, fresh, runs]

theorem loop_fewer (me peer : Int) (rest : List Int) (purpose : Purpose) :
    loopTokens socket server me rest purpose ≤ loopTokens socket server me (peer :: rest) purpose ∧
      (peer ≠ server → loopTokens socket server me rest purpose =
        loopTokens socket server me (peer :: rest) purpose) := by
  cases purpose with
  | updating client response =>
      simp only [loopTokens]
      split
      · exact ⟨List.count_le_count_cons, fun other => (List.count_cons_of_ne other).symm⟩
      · exact ⟨Nat.le_refl 0, fun _ => rfl⟩
  | _ => exact ⟨Nat.le_refl 0, fun _ => rfl⟩

-- The peer's token moves from the loop to the new connection.
theorem connect_tokens (history : List Execution) (me peer : Int) (sending : Sending)
    (other : peer ≠ me) (sound : PurposeSound history me sending.message sending.purpose) :
    loopTokens socket server me sending.rest sending.purpose +
        lineTokens socket server peer .reading sending.message =
      loopTokens socket server me (peer :: sending.rest) sending.purpose := by
  obtain ⟨message, purpose, rest⟩ := sending
  cases purpose with
  | entering =>
      obtain ⟨logicalClock, rfl⟩ := sound
      rfl
  | leaving client response =>
      obtain ⟨_, logicalClock, rfl⟩ := sound
      rfl
  | updating client response =>
      obtain ⟨_, logicalClock, rfl⟩ := sound
      simp only [loopTokens, lineTokens, unapplied, and_true, List.count_cons]
      by_cases own : client.clientSocket = socket
      · by_cases mine : me = server
        · have apart : peer ≠ server := mine ▸ other
          simp [mine, apart]
        · by_cases target : peer = server
          · simp [own, mine, target]
          · simp [own, mine, target]
      · simp [own]

/-- A handler's step hands out one token for each server when a check passes
with the command, and none otherwise. -/
theorem moved_handedOut (wired : Wired config cluster)
    (found : cluster.connections[number]? = some connection)
    (moved : Moved config cluster number connection flow) :
    handedOut socket server connection (flow.finish config connection.server) ≤
        connectionTokens socket server connection + admitted socket connection.server flow ∧
      (cluster.crashed = [] → server ∈ config.serverIDs →
        server ∉ (flowServer flow).timedOutServers →
        (∀ execution ∈ (flow.finish config connection.server).executed,
          execution.own = true → execution.client.clientSocket = socket →
            execution.succeeded = true) →
        handedOut socket server connection (flow.finish config connection.server) =
          connectionTokens socket server connection + admitted socket connection.server flow) := by
  have task := (wired.connections number connection found).task
  have none : ∀ (state : Server) (task : ServerTask),
      admitted socket connection.server (stay state task) = 0 := fun _ _ => rfl
  have idle : ∀ outcome, admitted socket connection.server (.done outcome) = 0 := fun _ => rfl
  cases moved with
  | gone reading unwritten left =>
      rw [stay_handedOut, line_applied _ _ _ _ _ rfl]
      refine ⟨Nat.zero_le _, fun up => ?_⟩
      rw [up, abandoned_up] at left
      cases left
  | requested logicalClock serverID reading message =>
      rw [stay_handedOut, none]
      simp [connectionTokens, message, lineTokens, reading, taskTokens]
  | told reading message =>
      rw [stay_handedOut, none]
      obtain ⟨_, _, message⟩ | ⟨_, _, _, message⟩ := message
      · simp [connectionTokens, message, lineTokens, reading, taskTokens]
      · simp [connectionTokens, message, lineTokens, reading, taskTokens, unapplied]
  | queued command reading message empty =>
      rw [requestCriticalSection, resume_handedOut]
      have tokens := resume_tokens config socket server connection.server
      have before : connectionTokens socket server connection = 0 := by
        simp [connectionTokens, message, lineTokens, reading, taskTokens]
      rw [before]
      refine ⟨(tokens _ _).1, fun _ known active succeeded => ?_⟩
      rw [resume_server] at active
      exact (tokens _ _).2 known active succeeded
  | refused command reading message full =>
      rw [stay_handedOut, none]
      simp [connectionTokens, message, lineTokens, reading, taskTokens]
  | answered text answering plain =>
      have same : lineTokens socket server connection.server .handling connection.message =
          lineTokens socket server connection.server connection.task connection.message := by
        rw [answering]
        cases connection.message <;> rfl
      simp [handedOut, Flow.finish, fresh, runs, connectionTokens, answering, taskTokens, same,
        admitted, entered]
  | enqueued logicalClock serverID handling message =>
      rw [stay_handedOut, none]
      simp [connectionTokens, message, lineTokens, handling, taskTokens]
  | released logicalClock serverID handling message =>
      have before : connectionTokens socket server connection = 0 := by
        simp [connectionTokens, message, lineTokens, handling, taskTokens]
      have tokens := check_tokens config socket server connection.server
      rw [before, Nat.zero_add, Flow.finish, check_handedOut]
      exact ⟨(tokens _).1, fun _ known active succeeded => (tokens _).2 known active succeeded⟩
  | updated logicalClock serverID client handling message =>
      have before : connectionTokens socket server connection =
          if client.clientSocket = socket ∧ connection.server = server then 1 else 0 := by
        simp [connectionTokens, message, lineTokens, handling, taskTokens, unapplied]
      rw [before, idle, Nat.add_zero]
      have after : handedOut socket server connection (applyUpdate config connection.server
          (setLogicalClockReceive config.counting logicalClock
            (cluster.server connection.server)) client) =
          if client.clientSocket = socket ∧ connection.server = server then 1 else 0 := by
        simp only [applyUpdate]
        split
        · simp [handedOut, message, lineTokens, taskTokens, unapplied, fresh, runs_single]
        · simp [handedOut, message, lineTokens, taskTokens, unapplied, fresh, runs_single]
      rw [Flow.finish, after]
      exact ⟨Nat.le_refl _, fun _ _ _ _ => rfl⟩
  | misplaced command handling message =>
      rw [stay_handedOut, none]
      simp [connectionTokens, message, lineTokens, handling, taskTokens]
  | unreachable sending peer connecting down =>
      have before : connectionTokens socket server connection =
          loopTokens socket server connection.server (peer :: sending.rest) sending.purpose := by
        rw [connectionTokens, connecting, line_applied _ _ _ _ _ rfl, Nat.zero_add, taskTokens]
      have fewer := loop_fewer socket server connection.server peer sending.rest sending.purpose
      have tokens := resume_tokens config socket server connection.server
        (deprecateServer peer (cluster.server connection.server)) sending
      rw [resume_handedOut, before]
      refine ⟨tokens.1.trans (Nat.add_le_add_right fewer.1 _), fun _ known active succeeded => ?_⟩
      rw [resume_server] at active
      have other : peer ≠ server := by
        rintro rfl
        simp [deprecateServer, remove] at active
      rw [tokens.2 known active succeeded, fewer.2 other]
  | connected sending peer connecting up =>
      rw [connecting] at task
      have before : connectionTokens socket server connection =
          loopTokens socket server connection.server (peer :: sending.rest) sending.purpose := by
        rw [connectionTokens, connecting, line_applied _ _ _ _ _ rfl, Nat.zero_add, taskTokens]
      have moves := connect_tokens socket server cluster.history connection.server peer sending
        task.2.2 task.1.purpose
      have after : handedOut socket server connection
          ⟨setLogicalClockSend config.counting (cluster.server connection.server),
            .writing sending peer cluster.connections.length, .opened peer sending.message, []⟩ =
          loopTokens socket server connection.server (peer :: sending.rest) sending.purpose := by
        rw [← moves, handedOut, line_applied _ _ _ _ _ rfl]
        simp [taskTokens, fresh, connectionTokens, opened, runs]
      rw [Flow.finish, after, before, idle, Nat.add_zero]
      exact ⟨Nat.le_refl _, fun _ _ _ _ => rfl⟩
  | wrote sending peer target writing =>
      rw [Flow.finish, idle, handedOut, connectionTokens, writing, line_applied _ _ _ _ _ rfl,
        line_applied _ _ _ _ _ rfl]
      simp [taskTokens, fresh, runs]
  | heard sending peer target other awaiting reached reply =>
      have tokens := resume_tokens config socket server connection.server
        (cluster.server connection.server) sending
      rw [resume_handedOut, connectionTokens, awaiting, line_applied _ _ _ _ _ rfl, Nat.zero_add]
      refine ⟨tokens.1, fun _ known active succeeded => tokens.2 known ?_ succeeded⟩
      rwa [resume_server] at active
  | lost sending peer target other awaiting reached silent dead =>
      have tokens := resume_tokens config socket server connection.server
        (deprecateServer peer (cluster.server connection.server)) sending
      rw [resume_handedOut, connectionTokens, awaiting, line_applied _ _ _ _ _ rfl, Nat.zero_add]
      refine ⟨tokens.1, fun _ known active succeeded => tokens.2 known ?_ succeeded⟩
      rwa [resume_server] at active
  | replied client response replying =>
      rw [Flow.finish, idle, handedOut, connectionTokens, replying, line_applied _ _ _ _ _ rfl,
        line_applied _ _ _ _ _ rfl]
      simp [taskTokens, fresh, runs]
  | closed closing =>
      rw [Flow.finish, idle, handedOut, connectionTokens, closing, line_applied _ _ _ _ _ rfl,
        line_applied _ _ _ _ _ rfl]
      simp [taskTokens, fresh, runs]

end Moves

section Steps
variable (config : Config) (socket : Nat) (server : Int) (before : Cluster) (number : Nat)
  (connection : Connection) (flow : Flow)

theorem tokens_steady : Steady (connectionTokens socket server) := by
  intro connection later same message task
  simp only [connectionTokens, same, message, task]

theorem after_spread (outcome : Outcome)
    (found : before.connections[number]? = some connection) :
    spread socket server (before.after number connection.server outcome) +
        connectionTokens socket server connection =
      spread socket server before + handedOut socket server connection outcome := by
  have moved := after_total (connectionTokens socket server) (tokens_steady socket server) before
    number connection.server outcome connection found
  have turned : connectionTokens socket server (setTask outcome.task connection) =
      lineTokens socket server connection.server outcome.task connection.message +
        taskTokens socket server connection.server outcome.task := rfl
  have history : runs socket server (before.history ++ outcome.executed) =
      runs socket server before.history + runs socket server outcome.executed := by
    simp [runs, List.countP_append]
  change total (connectionTokens socket server) _ + runs socket server (_ ++ _) + _ =
    total (connectionTokens socket server) _ + _ + (_ + total (connectionTokens socket server) _ + _)
  omega

/-- A handler's step spreads a command only when its check passes with it. -/
theorem handled_spread (wiring : Wired config before)
    (found : before.connections[number]? = some connection)
    (moved : Moved config before number connection flow) :
    spread socket server
        (before.after number connection.server (flow.finish config connection.server)) ≤
      spread socket server before + admitted socket connection.server flow ∧
    (before.crashed = [] → server ∈ config.serverIDs →
      server ∉ (flowServer flow).timedOutServers →
      (∀ execution ∈ (flow.finish config connection.server).executed,
        execution.own = true → execution.client.clientSocket = socket →
          execution.succeeded = true) →
      spread socket server
          (before.after number connection.server (flow.finish config connection.server)) =
        spread socket server before + admitted socket connection.server flow) := by
  have balance := after_spread socket server before number connection
    (flow.finish config connection.server) found
  have handed := moved_handedOut config socket server before number connection flow wiring found
    moved
  refine ⟨by omega, fun up known active succeeded => ?_⟩
  have exact' := handed.2 up known active succeeded
  omega

theorem finish_queue (me : Int) : queued socket (flow.finish config me).server +
    admitted socket me flow ≤ queued socket (flowServer flow) := by
  cases flow with
  | done outcome => simp [Flow.finish, flowServer, admitted, entered]
  | checking state =>
      simp only [Flow.finish, flowServer]
      have checked := check_checked config me state
      generalize checkCriticalSection config me state = outcome at checked ⊢
      cases checked with
      | behind larger => simp [admitted, entered, larger]
      | idle smallest empty => simp [admitted, entered, smallest, empty]
      | thrown client rest thrown smallest waiting failed =>
          rw [admitted_polled socket me state client rest smallest waiting]
          simp [queued, waiting, List.countP_cons]
      | served client rest response store smallest waiting result =>
          rw [admitted_polled socket me state client rest smallest waiting]
          simp [queued, waiting, List.countP_cons]

theorem moved_queue (moved : Moved config before number connection flow) :
    queued socket (flowServer flow) ≤ queued socket (before.server connection.server) +
      if number = socket then unread connection else 0 := by
  have changed := moved_changed config before number connection flow moved
  generalize flowServer flow = state at changed ⊢
  cases changed with
  | queued queueing command reading message empty same =>
      have one : unread connection = 1 := by simp [unread, message, reading]
      simp [queued, same, queueCommand, List.countP_cons, one]
  | _ => exact Nat.le_add_right _ _

theorem finish_read (moved : Moved config before number connection flow) :
    (flow.finish config connection.server).task ≠ .reading := by
  have resumed : ∀ state sending, ((resume config connection.server state sending).finish config
      connection.server).task ≠ .reading := by
    intro state sending reading
    have onward := (resume_ending config connection.server state sending).1
    rw [reading] at onward
    exact onward
  have checked : ∀ state, (checkCriticalSection config connection.server state).task ≠
      .reading := by
    intro state reading
    have onward := (check_ending config connection.server state).1
    rw [reading] at onward
    exact onward
  cases moved with
  | queued command reading message empty => exact resumed _ _
  | released logicalClock serverID handling message => exact checked _
  | updated logicalClock serverID owner handling message =>
      simp only [applyUpdate, Flow.finish]
      split
      · intro reading
        cases reading
      · intro reading
        cases reading
  | unreachable sending peer connecting down => exact resumed _ _
  | heard sending peer target other awaiting reached reply => exact resumed _ _
  | lost sending peer target other awaiting reached silent dead => exact resumed _ _
  | _ =>
      intro reading
      cases reading

-- A command that is admitted came over a connection to the server.
theorem admitted_submitted (wiring : Wired config before)
    (found : before.connections[number]? = some connection)
    (moved : Moved config before number connection flow)
    (positive : admitted socket connection.server flow ≠ 0) :
    ∃ submitted, before.connections[socket]? = some submitted ∧
      submitted.server = connection.server := by
  unfold admitted at positive
  split at positive
  · rename_i admits
    obtain ⟨client, enters, same⟩ := (Option.any_eq_true _ _).mp admits
    obtain ⟨submitted, there, _, server⟩ :=
      entered_submitted config before number connection flow wiring found moved client enters
    exact ⟨submitted, (beq_iff_eq.mp same) ▸ there, server⟩
  · exact absurd rfl positive

theorem unknown_queue (wiring : Wired config before) (me : Int)
    (unknown : ∀ submitted, before.connections[socket]? = some submitted →
      ∀ command, submitted.message ≠ .command command) : queued socket (before.server me) = 0 := by
  refine List.countP_eq_zero.mpr fun client member same => ?_
  obtain ⟨submitted, there, message, _⟩ := (wiring.servers me).queued client member
  exact unknown submitted ((beq_iff_eq.mp same) ▸ there) _ message

/-- What a handler's step spreads was held back before. -/
theorem handled_unrun (wiring : Wired config before)
    (found : before.connections[number]? = some connection)
    (moved : Moved config before number connection flow) :
    unrun socket
        (before.after number connection.server (flow.finish config connection.server)) +
      admitted socket connection.server flow ≤ unrun socket before := by
  have after := handled_wired config before number connection flow wiring found moved
  have submitted := admitted_submitted config socket before number connection flow wiring found moved
  have own := (finish_queue config socket flow connection.server).trans
    (moved_queue config socket before number connection flow moved)
  have lookup := after_found number socket (flow.finish config connection.server) before
    connection.server
  cases there : before.connections[socket]? with
  | none =>
      have zero : admitted socket connection.server flow = 0 := by
        by_contra positive
        obtain ⟨_, present, _⟩ := submitted positive
        rw [there] at present
        cases present
      rw [zero, Nat.add_zero]
      have gone : unrun socket (before.after number connection.server
          (flow.finish config connection.server)) = 0 := by
        unfold unrun
        cases present : (before.after number connection.server
            (flow.finish config connection.server)).connections[socket]? with
        | none => rfl
        | some later =>
            have sound := after.connections socket later present
            rcases (lookup later).mp present with ⟨_, old, _⟩ | ⟨_, peer, message, _, rfl⟩
            · rw [there] at old
              cases old
            · obtain ⟨command, _, impossible⟩ | messaging := sound.line
              · obtain ⟨_, _, caller, _⟩ := impossible.caller
                cases caller
              · have line := messaging.message
                cases message with
                | command text => exact line.elim
                | _ =>
                    refine (Nat.zero_add _).trans
                      (unknown_queue config socket _ after peer fun submitted same command => ?_)
                    rw [present, Option.some.injEq] at same
                    rw [← same]
                    nofun
      omega
  | some target =>
      have present := (lookup (touched number socket target _)).mpr (Or.inl ⟨target, there, rfl⟩)
      have shape : unrun socket (before.after number connection.server
          (flow.finish config connection.server)) =
          unread (touched number socket target (flow.finish config connection.server)) +
            queued socket (Function.update before.server connection.server
              (flow.finish config connection.server).server target.server) := by
        unfold unrun
        rw [present]
        simp only [touched_server, Cluster.after]
      have start : unrun socket before = unread target + queued socket
          (before.server target.server) := by simp only [unrun, there]
      rw [shape, start]
      by_cases here : number = socket
      · subst here
        rw [there, Option.some.injEq] at found
        subst found
        have read := finish_read config before number target flow moved
        have spent : unread (touched number number target (flow.finish config target.server)) =
            0 := by
          unfold unread
          rw [touched_message, touched_task, if_pos rfl]
          split
          · rename_i reading
            exact absurd reading read
          · rfl
        simp only [spent, Function.update_self, ↓reduceIte] at own ⊢
        omega
      · have same : unread (touched number socket target (flow.finish config connection.server)) =
            unread target := by
          unfold unread
          rw [touched_message, touched_task, if_neg (Ne.symm here)]
        rw [same]
        by_cases mine : target.server = connection.server
        · simp only [here, mine, Function.update_self, ↓reduceIte, Nat.add_zero] at own ⊢
          omega
        · have zero : admitted socket connection.server flow = 0 := by
            by_contra positive
            obtain ⟨_, known, server⟩ := submitted positive
            rw [there, Option.some.injEq] at known
            exact mine (known ▸ server)
          rw [zero, Function.update_of_ne mine]
          omega

end Steps

section Runs
variable (config : Config) (socket : Nat) (server : Int)

theorem loop_known (me : Int) (targets : List Int) (purpose : Purpose)
    (other : ∀ client response, purpose = .updating client response →
      client.clientSocket ≠ socket) : loopTokens socket server me targets purpose = 0 := by
  cases purpose with
  | updating client response => simp [loopTokens, other client response rfl]
  | _ => rfl

/-- Nothing is handed out for a connection that does not exist. -/
theorem unknown_spread (cluster : Cluster) (wiring : Wired config cluster)
    (unknown : cluster.connections[socket]? = none) : spread socket server cluster = 0 := by
  have won : ∀ me client response, Won cluster.history me client response →
      client.clientSocket ≠ socket := by
    rintro me client response ran rfl
    obtain ⟨submitted, there, _⟩ := won_command cluster.connections cluster.history wiring.history
      me client response ran
    rw [unknown] at there
    cases there
  have history : runs socket server cluster.history = 0 := by
    refine List.countP_eq_zero.mpr fun execution ran same => ?_
    simp only [Bool.and_eq_true, beq_iff_eq] at same
    have sound := wiring.history execution ran
    unfold ExecutionSound at sound
    split at sound
    · obtain ⟨submitted, there, _⟩ := sound
      rw [same.1, unknown] at there
      cases there
    · obtain ⟨me, response, ran⟩ := sound
      exact won me _ response ran same.1
  have carried : ∀ me sending targets, SendingSound config cluster.history me sending →
      loopTokens socket server me targets sending.purpose = 0 := by
    intro me sending targets sound
    refine loop_known socket server me targets _ fun client response updating => ?_
    have purpose := sound.purpose
    rw [updating] at purpose
    exact won me client response purpose.1
  have connections : ∀ connection ∈ cluster.connections,
      connectionTokens socket server connection = 0 := by
    intro connection member
    obtain ⟨n, found⟩ := List.mem_iff_getElem?.mp member
    have sound := wiring.connections n connection found
    have line : lineTokens socket server connection.server connection.task connection.message =
        0 := by
      obtain ⟨command, message, _⟩ | messaging := sound.line
      · rw [message]
        rfl
      · have message := messaging.message
        cases told : connection.message with
        | update logicalClock serverID client =>
            rw [told] at message
            obtain ⟨_, _, _, response, ran⟩ := message
            simp [lineTokens, won _ client response ran]
        | _ => rfl
    have task : taskTokens socket server connection.server connection.task = 0 := by
      have sound := sound.task
      cases doing : connection.task with
      | connecting sending peer =>
          rw [doing] at sound
          exact carried _ sending _ sound.1
      | writing sending peer target =>
          rw [doing] at sound
          exact carried _ sending _ sound.1
      | awaiting sending peer target =>
          rw [doing] at sound
          exact carried _ sending _ sound.1
      | _ => rfl
    rw [connectionTokens, line, task]
  rw [spread, history, Nat.add_zero]
  exact List.sum_eq_zero fun amount member => by
    obtain ⟨connection, inside, rfl⟩ := List.mem_map.mp member
    exact connections connection inside

/-- A command is held back, or it has been handed out to each server once. -/
def Once (cluster : Cluster) : Prop :=
  ∀ socket server, unrun socket cluster + spread socket server cluster ≤ 1

theorem initial_once : Once (initial config) := by
  intro socket server
  simp [initial, unrun, spread, runs]

/-- Neither a client nor a crash hands a command out or loses it. -/
theorem outside_spread (before after : Cluster) (action : Action)
    (stepped : Stepped config before action after) (outside : ∀ number, action ≠ .server number) :
    spread socket server after = spread socket server before := by
  have still := outside_total (connectionTokens socket server) (tokens_steady socket server) config
    before after action
    (fun peer number command => by simp [connectionTokens, lineTokens, taskTokens, opened])
    stepped outside
  unfold total at still
  rw [spread, spread, still, (outside_same config before after action stepped outside).2]

/-- No step hands a command out again. -/
theorem step_once (before after : Cluster) (action : Action) (wiring : Wired config before)
    (once : Once before) (taken : step config before action = some after) : Once after := by
  intro socket server
  have bound := once socket server
  have stepped := step_stepped config before after action (wired_readable config before wiring) taken
  have outside := outside_spread config socket server before after action stepped
  cases stepped with
  | submitted command servers valid known => exact bound
  | exhausted number call found connecting none => exact bound
  | skipped number call peer rest found connecting first down => exact bound
  | connected number call peer rest found connecting first up =>
      let fresh := opened peer (.client number) (.command call.command)
      change unrun socket { before with connections := before.connections ++ [fresh] } + _ ≤ 1
      rw [outside nofun]
      rcases Nat.lt_trichotomy socket before.connections.length with old | new | beyond
      · have same : unrun socket { before with connections := before.connections ++ [fresh] } =
            unrun socket before := by
          simp only [unrun, List.getElem?_append_left old]
        rw [same]
        exact bound
      · subst new
        have quiet := unknown_queue config before.connections.length before wiring peer
          (by simp)
        have zero := unknown_spread config before.connections.length server before wiring
          (by simp)
        simp [unrun, zero, fresh, opened, unread, quiet]
      · have absent : (before.connections ++ [fresh])[socket]? = none :=
          List.getElem?_eq_none (by simp; omega)
        have zero := unknown_spread config socket server before wiring
          (List.getElem?_eq_none (by omega))
        simp [unrun, zero, absent]
  | wrote number call target found writing =>
      have same : unrun socket { before with
          connections := before.connections.modify target write } = unrun socket before := by
        simp only [unrun, List.getElem?_modify]
        cases there : before.connections[socket]? with
        | none => rfl
        | some connection =>
            simp only [Option.map_eq_map, Option.map_some]
            split <;> rfl
      change unrun socket { before with connections := before.connections.modify target write } +
        _ ≤ 1
      rw [outside nofun, same]
      exact bound
  | returned number call target reached response found awaiting there reply => exact bound
  | retried number call target reached found awaiting there silent dead => exact bound
  | timedOut number call target reached found awaiting there silent => exact bound
  | handled number connection flow found alive advanced moved =>
      have spreads := (handled_spread config socket server before number connection flow wiring found
        moved).1
      have held := handled_unrun config socket before number connection flow wiring found moved
      omega
  | crashed serverID known => exact bound

theorem countP_unique {Entry : Type} (found : Entry → Bool) (entries : List Entry)
    (few : entries.countP found ≤ 1) (first second : Entry) (here : first ∈ entries)
    (there : second ∈ entries) (hit : found first = true) (also : found second = true) :
    first = second := by
  rw [List.countP_eq_length_filter] at few
  have left := List.mem_filter.mpr ⟨here, hit⟩
  have right := List.mem_filter.mpr ⟨there, also⟩
  cases shape : entries.filter found with
  | nil =>
      rw [shape] at left
      cases left
  | cons entry rest =>
      rw [shape] at few left right
      have single : rest = [] := List.length_eq_zero_iff.mp (by simpa using few)
      subst single
      rw [List.mem_singleton.mp left, List.mem_singleton.mp right]

section Uniqueness
variable (cluster : Cluster) (wired : Wired config cluster) (once : Once cluster)

include once in
theorem few_runs : runs socket server cluster.history ≤ 1 := by
  have bound := once socket server
  unfold spread at bound
  omega

include wired once in
/-- A server runs what came over one connection at most once for its own client. -/
theorem own_unique (first second : Execution) (ran : first ∈ cluster.history)
    (also : second ∈ cluster.history) (own : first.own = true) (same : second.own = true)
    (socket : first.client.clientSocket = second.client.clientSocket) : first = second := by
  have here := wired.history first ran
  have there := wired.history second also
  simp only [ExecutionSound, own, same, if_true] at here there
  obtain ⟨submitted, found, _, server⟩ := here
  obtain ⟨other, present, _, answers⟩ := there
  rw [← socket, found, Option.some.injEq] at present
  subst present
  have sides : first.server = second.server := server.symm.trans answers
  exact countP_unique _ cluster.history
    (few_runs first.client.clientSocket first.server cluster once) first second ran also (by simp)
    (by simp [socket, sides])

include wired once in
theorem won_unique (left right : Int) (first second : ClientInformation) (reply answer : Text)
    (ran : Won cluster.history left first reply) (also : Won cluster.history right second answer)
    (socket : first.clientSocket = second.clientSocket) : first = second :=
  congrArg Execution.client (own_unique config cluster wired once _ _ ran also rfl rfl socket)

end Uniqueness

end Runs

end EE360P.CommandTokens
