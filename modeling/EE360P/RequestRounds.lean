import EE360P.ConnectionSums
import EE360P.ReliableDelivery

/-! Rounds of requests. As long as no server crashes, every request that a
server makes comes to each peer once: to a peer still to be asked, or to a
connection with its `Request` line. The entry for a server's own request is
added at once, and no step removes it again. -/

namespace EE360P.RequestRounds
open JavaText ReplicatedServer ServerCluster ClusterSteps ClusterWiring SectionExclusion
open CommandTokens ReliableDelivery ConnectionSums

section Senders
variable (config : Config)

def sender : Line → Option Int
  | .command _ => none
  | .request _ serverID => some serverID
  | .release _ serverID => some serverID
  | .update _ serverID _ => some serverID

/-- A server's line comes from another server, a `Release` from one that ran a
command. -/
structure Backed (history : List Execution) (connection : Connection) : Prop where
  foreign : sender connection.message ≠ some connection.server
  earned : ∀ logicalClock serverID, connection.message = .release logicalClock serverID →
    ∃ client response, Won history serverID client response

def AllBacked (cluster : Cluster) : Prop :=
  ∀ connection ∈ cluster.connections, Backed cluster.history connection

theorem initial_backed : AllBacked (initial config) := by
  intro connection member
  cases member

theorem purpose_sender (history : List Execution) (me : Int) (message : Line) (purpose : Purpose)
    (sound : PurposeSound history me message purpose) : sender message = some me := by
  cases purpose with
  | entering =>
      obtain ⟨logicalClock, rfl⟩ := sound
      rfl
  | updating client response =>
      obtain ⟨_, logicalClock, rfl⟩ := sound
      rfl
  | leaving client response =>
      obtain ⟨_, logicalClock, rfl⟩ := sound
      rfl

theorem purpose_release (history : List Execution) (me : Int) (purpose : Purpose)
    (logicalClock serverID : Int)
    (sound : PurposeSound history me (.release logicalClock serverID) purpose) :
    ∃ client response, purpose = .leaving client response ∧ Won history me client response := by
  cases purpose with
  | entering =>
      obtain ⟨_, same⟩ := sound
      cases same
  | updating client response =>
      obtain ⟨_, _, same⟩ := sound
      cases same
  | leaving client response => exact ⟨client, response, rfl, sound.1⟩

/-- Only a loop of `send` opens a connection. -/
theorem moved_opened (cluster : Cluster) (number : Nat) (connection : Connection) (flow : Flow)
    (moved : Moved config cluster number connection flow) (peer : Int) (message : Line)
    (opening : (flow.finish config connection.server).wire = .opened peer message) :
    ∃ sending, connection.task = .connecting sending peer ∧ peer ∉ cluster.crashed ∧
      message = sending.message := by
  have resumed : ∀ server sending, ((resume config connection.server server sending).finish config
      connection.server).wire ≠ .opened peer message := by
    intro server sending same
    rw [(resume_ending config connection.server server sending).2] at same
    cases same
  cases moved with
  | queued command reading line empty => exact absurd opening (resumed _ _)
  | released logicalClock serverID handling line =>
      rw [Flow.finish, (check_ending config connection.server _).2] at opening
      cases opening
  | updated logicalClock serverID client handling line =>
      simp only [applyUpdate, Flow.finish] at opening
      split at opening
      · cases opening
      · cases opening
  | unreachable sending target connecting down => exact absurd opening (resumed _ _)
  | connected sending target connecting up =>
      cases opening
      exact ⟨sending, connecting, up, rfl⟩
  | heard sending target socket other awaiting reached reply => exact absurd opening (resumed _ _)
  | lost sending target socket other awaiting reached silent dead =>
      exact absurd opening (resumed _ _)
  | _ => cases opening

theorem backed_grown {before after : List Execution} (more : before ⊆ after) (old later : Connection)
    (server : later.server = old.server) (message : later.message = old.message)
    (backed : Backed before old) : Backed after later := by
  constructor
  · rw [server, message]
    exact backed.foreign
  · intro logicalClock serverID line
    obtain ⟨client, response, won⟩ := backed.earned logicalClock serverID (message ▸ line)
    exact ⟨client, response, more won⟩

theorem step_backed (before after : Cluster) (action : Action) (wired : Wired config before)
    (backed : AllBacked before) (taken : step config before action = some after) :
    AllBacked after := by
  have stepped := step_stepped config before after action (wired_readable config before wired) taken
  intro later member
  obtain ⟨n, present⟩ := List.mem_iff_getElem?.mp member
  have kept : ∀ old, before.connections[n]? = some old → Backed before.history old :=
    fun old there => backed old (List.mem_of_getElem? there)
  by_cases outside : ∀ number, action ≠ .server number
  · rw [(outside_same config before after action stepped outside).2]
    rcases outside_found config before after action stepped outside n later present with
      ⟨old, there, rfl | rfl⟩ | ⟨_, number, call, server, _, _, _, rfl⟩
    · exact kept later there
    · exact backed_grown (List.Subset.refl _) old _ rfl rfl (kept old there)
    · constructor
      · intro same
        cases same
      · intro logicalClock serverID line
        cases line
  · cases stepped with
    | handled number connection flow found alive advanced moved =>
        have more : before.history ⊆ before.history ++
            (flow.finish config connection.server).executed := List.subset_append_left _ _
        rcases (after_found _ _ _ _ _ _).mp present with
          ⟨old, there, rfl⟩ | ⟨_, peer, message, opening, rfl⟩
        · exact backed_grown more old _ (touched_server _ _ _ _) (touched_message _ _ _ _)
            (kept old there)
        · obtain ⟨sending, connecting, _, rfl⟩ :=
            moved_opened config before number connection flow moved peer message opening
          have task := (wired.connections number connection found).task
          rw [connecting] at task
          constructor
          · simp only [opened]
            rw [purpose_sender _ _ _ _ task.1.purpose]
            exact fun same => task.2.2 (Option.some.inj same).symm
          · intro logicalClock serverID line
            simp only [opened] at line
            have mine := purpose_sender _ _ _ _ task.1.purpose
            rw [line] at mine
            cases mine
            have purpose := task.1.purpose
            rw [line] at purpose
            obtain ⟨client, response, _, won⟩ := purpose_release _ _ _ _ _ purpose
            exact ⟨client, response, more won⟩
    | _ => simp at outside

end Senders

section Rounds
variable (stamp : TimeStamp) (server : Int)

/-- The line that asks for the section with this timestamp. -/
def asking (stamp : TimeStamp) : Line := .request stamp.logicalClock stamp.processID

theorem request_asking (logicalClock serverID : Int) :
    Line.request logicalClock serverID = asking stamp ↔
      (⟨logicalClock, serverID⟩ : TimeStamp) = stamp := by
  cases stamp
  simp [asking]

/-- Peers that a round has still to ask. -/
def roundTokens (me : Int) (targets : List Int) (message : Line) : Nat :=
  if message = asking stamp ∧ me ≠ server then targets.count server else 0

def taskRound (me : Int) : ServerTask → Nat
  | .connecting sending peer => roundTokens stamp server me (peer :: sending.rest) sending.message
  | .writing sending _ _ => roundTokens stamp server me sending.rest sending.message
  | .awaiting sending _ _ => roundTokens stamp server me sending.rest sending.message
  | _ => 0

/-- A `Request` with this timestamp that came to the server. -/
def asks (connection : Connection) : Bool :=
  connection.server == server && connection.message == asking stamp

def roundWeight (connection : Connection) : Nat :=
  (asks stamp server connection).toNat +
    taskRound stamp server connection.server connection.task

/-- A `Request` whose handler is past its `pendingQueue.add`. -/
def appliedWeight (connection : Connection) : Nat :=
  (asks stamp server connection && !unapplied connection.task).toNat

/-- Commands that wait with this request. -/
def waits (server : Server) : Nat :=
  server.clientCommands.countP fun client => client.request == stamp

/-- Commands with this request that their own server ran. -/
def ran (history : List Execution) : Nat :=
  history.countP fun execution => execution.own && execution.server == stamp.processID &&
    execution.client.request == stamp

/-- How often the request was made. -/
def issued (cluster : Cluster) : Nat :=
  waits stamp (cluster.server stamp.processID) + ran stamp cluster.history

theorem round_steady : Steady (roundWeight stamp server) := by
  intro connection later same message task
  simp only [roundWeight, asks, same, message, task]

theorem applied_steady : Steady (appliedWeight stamp server) := by
  intro connection later same message task
  simp only [appliedWeight, asks, same, message, task]

variable (me : Int)

theorem loop_round (state : Server) (sending : Sending) (ended : ServerTask)
    (other : sending.message ≠ asking stamp) (quiet : taskRound stamp server me ended = 0) :
    taskRound stamp server me (sendLoop me state sending ended) = 0 := by
  unfold sendLoop
  split
  · exact if_neg fun both => other both.1
  · exact quiet

variable (config : Config)

theorem release_round (state : Server) (client : ClientInformation) (response : Text) :
    taskRound stamp server me (releaseCriticalSection config me state client response) = 0 :=
  loop_round stamp server me state _ _ nofun rfl

theorem check_round (state : Server) :
    taskRound stamp server me (checkCriticalSection config me state).task = 0 := by
  have checked := check_checked config me state
  generalize checkCriticalSection config me state = outcome at checked ⊢
  cases checked with
  | served client rest response store smallest waiting result =>
      exact loop_round stamp server me _ _ _ nofun (release_round stamp server me config _ _ _)
  | _ => rfl

/-- A loop that goes on asks no peer twice and, of those it trusts, leaves none out. -/
theorem resume_round (state : Server) (sending : Sending) (active : server ∉ state.timedOutServers) :
    taskRound stamp server me ((resume config me state sending).finish config me).task =
      roundTokens stamp server me sending.rest sending.message := by
  have ended : nextServer me state sending.rest = none →
      taskRound stamp server me ((resume config me state sending).finish config me).task = 0 := by
    intro next
    simp only [resume, next]
    cases sending.purpose with
    | entering => exact check_round stamp server me config state
    | updating client response => exact release_round stamp server me config state client response
    | leaving client response => rfl
  by_cases mine : sending.message = asking stamp ∧ me ≠ server
  · have count := nextServer_count server me state sending.rest mine.2
    cases next : nextServer me state sending.rest with
    | none =>
        simp only [next] at count
        rw [ended next, roundTokens, if_pos mine, count active]
    | some pair =>
        simp only [next] at count
        simp only [resume, next, stay, Flow.finish, taskRound, roundTokens, if_pos mine]
        exact count.2 active
  · rw [roundTokens, if_neg mine]
    cases next : nextServer me state sending.rest with
    | none => exact ended next
    | some pair =>
        simp only [resume, next, stay, Flow.finish, taskRound]
        exact if_neg mine

-- The peer's token moves from the loop to the new connection.
theorem ask_round (peer : Int) (sending : Sending) (other : peer ≠ me) :
    roundTokens stamp server me sending.rest sending.message +
        roundWeight stamp server (opened peer (.server me) sending.message) =
      roundTokens stamp server me (peer :: sending.rest) sending.message := by
  have quiet : taskRound stamp server peer .reading = 0 := rfl
  simp only [roundTokens, roundWeight, asks, opened, quiet, Nat.add_zero, List.count_cons]
  by_cases line : sending.message = asking stamp
  · by_cases mine : me = server
    · have apart : peer ≠ server := mine ▸ other
      simp [mine, apart]
    · by_cases target : peer = server
      · simp [line, mine, target]
      · simp [line, mine, target]
  · simp [line]

end Rounds

/-! What a step does to the requests made so far. -/
section Requests
variable (config : Config) (stamp : TimeStamp) {before : Cluster} (number : Nat)
  (connection : Connection) (flow : Flow)

theorem finish_pending (me : Int) :
    (flow.finish config me).server.pendingQueue = (flowServer flow).pendingQueue := by
  cases flow with
  | done outcome => rfl
  | checking server =>
      obtain ⟨_, _, same⟩ := check_server config me server
      rw [Flow.finish, same]
      rfl

theorem ran_single (execution : Execution) : ran stamp [execution] =
    (execution.own && execution.server == stamp.processID &&
      execution.client.request == stamp).toNat := by
  cases hit : (execution.own && execution.server == stamp.processID &&
    execution.client.request == stamp) <;> simp [ran, hit]

-- The command that is polled is the one that is run.
theorem check_issued (me : Int) (own : stamp.processID = me) (state : Server) :
    waits stamp (checkCriticalSection config me state).server +
      ran stamp (checkCriticalSection config me state).executed = waits stamp state := by
  have polled : ∀ client rest, state.clientCommands = client :: rest → waits stamp state =
      rest.countP (fun other => other.request == stamp) + (client.request == stamp).toNat := by
    intro client rest waiting
    rw [waits, waiting, List.countP_cons]
    cases client.request == stamp <;> rfl
  have checked := check_checked config me state
  generalize checkCriticalSection config me state = outcome at checked ⊢
  cases checked with
  | behind larger => rfl
  | idle smallest empty => rfl
  | thrown client rest thrown smallest waiting failed =>
      rw [polled client rest waiting]
      simp [waits, ran_single, own]
  | served client rest response store smallest waiting result =>
      rw [polled client rest waiting]
      simp [waits, ran_single, own]

theorem moved_issued (moved : Moved config before number connection flow)
    (own : stamp.processID = connection.server) :
    waits stamp (flow.finish config connection.server).server +
      ran stamp (flow.finish config connection.server).executed = waits stamp (flowServer flow) := by
  cases flow with
  | checking state => exact check_issued config stamp connection.server own state
  | done outcome =>
      have none : ran stamp outcome.executed = 0 := by
        refine List.countP_eq_zero.mpr fun execution member hit => ?_
        simp only [Bool.and_eq_true] at hit
        have enters := (moved_executed config before number connection _ moved execution hit.1.1
          member).2
        cases enters
      simp [Flow.finish, flowServer, none]

theorem moved_elsewhere (moved : Moved config before number connection flow)
    (other : stamp.processID ≠ connection.server) :
    ran stamp (flow.finish config connection.server).executed = 0 := by
  refine List.countP_eq_zero.mpr fun execution member hit => ?_
  simp only [Bool.and_eq_true, beq_iff_eq] at hit
  have here := (moved_executed config before number connection flow moved execution hit.1.1
    member).1
  exact other (hit.1.2.symm.trans here)

theorem foreign_waits (me : Int) (server : Server) (other : stamp.processID ≠ me)
    (owned : ∀ client ∈ server.clientCommands, client.request.processID = me) :
    waits stamp server = 0 := by
  refine List.countP_eq_zero.mpr fun client member hit => other ?_
  rw [← beq_iff_eq.mp hit, owned client member]

/-- A request is made when a client's command is queued. -/
theorem after_issued (moved : Moved config before number connection flow) (owned : Owned before) :
    issued stamp (before.after number connection.server (flow.finish config connection.server)) +
        waits stamp (before.server connection.server) =
      issued stamp before + waits stamp (flowServer flow) := by
  have history : ran stamp (before.history ++ (flow.finish config connection.server).executed) =
      ran stamp before.history + ran stamp (flow.finish config connection.server).executed := by
    simp [ran, List.countP_append]
  by_cases own : stamp.processID = connection.server
  · have polled := moved_issued config stamp number connection flow moved own
    simp only [issued, Cluster.after, own, Function.update_self, history]
    omega
  · have idle := moved_elsewhere config stamp number connection flow moved own
    rw [foreign_waits stamp connection.server _ own fun client member =>
        owned connection.server client (List.mem_append_left _ member),
      foreign_waits stamp connection.server _ own
        (flow_owned config before number connection flow moved owned)]
    simp only [issued, Cluster.after, Function.update_of_ne own, history, idle, Nat.add_zero]

theorem outside_issued (after : Cluster) (action : Action)
    (stepped : Stepped config before action after) (outside : ∀ number, action ≠ .server number) :
    issued stamp after = issued stamp before := by
  have same := outside_same config before after action stepped outside
  simp only [issued, same.1, same.2]

end Requests

/-! Without a crash every peer of the requesting server gets the request once. -/
section Asked
variable (config : Config) (stamp : TimeStamp) (server : Int) {before : Cluster}
  (wired : Wired config before) (reliable : Reliable before) (number : Nat)
  (connection : Connection) (flow : Flow)
  (found : before.connections[number]? = some connection)
  (moved : Moved config before number connection flow)

include wired reliable found moved

/-- A handler's step keeps the tokens of a round, or queues a command and hands
out one for each peer. -/
theorem moved_round (known : server ∈ config.serverIDs) (peer : server ≠ stamp.processID) :
    taskRound stamp server connection.server (flow.finish config connection.server).task +
        total (roundWeight stamp server)
          (fresh connection.server (flow.finish config connection.server).wire) +
        waits stamp (before.server connection.server) =
      taskRound stamp server connection.server connection.task + waits stamp (flowServer flow) := by
  have task := (wired.connections number connection found).task
  have trusts : server ∉ (before.server connection.server).timedOutServers := by
    rw [reliable.trusting]
    exact List.not_mem_nil
  have silent : ∀ state sending, total (roundWeight stamp server) (fresh connection.server
      ((resume config connection.server state sending).finish config connection.server).wire) =
        0 := by
    intro state sending
    rw [(resume_ending config connection.server state sending).2]
    rfl
  cases moved with
  | queued command reading message empty =>
      let state := queueCommand config (before.server connection.server) connection.server command
        number
      have none : waits stamp (before.server connection.server) = 0 := by
        rw [waits, empty]
        rfl
      have one : waits stamp state =
          if (⟨state.logicalClock, connection.server⟩ : TimeStamp) = stamp then 1 else 0 := by
        simp [waits, state, queueCommand, List.countP_cons]
      have asked := resume_round stamp server connection.server config
        { state with pendingQueue := state.pendingQueue ++ [⟨state.logicalClock, connection.server⟩] }
        ⟨.request state.logicalClock connection.server, .entering, config.serverIDs⟩ trusts
      rw [requestCriticalSection, silent, resume_server, none, reading, asked]
      change roundTokens stamp server connection.server config.serverIDs
        (.request state.logicalClock connection.server) + 0 + 0 = 0 + waits stamp state
      rw [one, roundTokens]
      by_cases mine : (⟨state.logicalClock, connection.server⟩ : TimeStamp) = stamp
      · subst mine
        have other : connection.server ≠ server := Ne.symm peer
        have once := List.count_eq_one_of_mem (ids_nodup config) known
        simp [asking, other, once]
      · have line : Line.request state.logicalClock connection.server ≠ asking stamp := fun same =>
          mine ((request_asking stamp _ _).mp same)
        simp [line, mine]
  | updated logicalClock serverID client handling message =>
      rw [handling]
      simp only [Flow.finish, applyUpdate, flowServer]
      split
      · rfl
      · rfl
  | released logicalClock serverID handling message =>
      rw [handling, Flow.finish, check_round, (check_ending config connection.server _).2]
      rfl
  | unreachable sending target connecting down =>
      rw [reliable.up] at down
      cases down
  | connected sending target connecting up =>
      rw [connecting] at task ⊢
      have asked := ask_round stamp server connection.server target sending task.2.2
      simp only [Flow.finish, flowServer, taskRound, fresh, total, List.map_cons, List.map_nil,
        List.sum_cons, List.sum_nil, Nat.add_zero, asked]
      rfl
  | wrote sending target socket writing =>
      rw [writing]
      rfl
  | heard sending target socket other awaiting reached reply =>
      rw [resume_round stamp server connection.server config _ _ trusts, silent, resume_server,
        awaiting]
      rfl
  | lost sending target socket other awaiting reached quiet dead =>
      exact absurd dead (never_lost config wired reliable number connection other sending target
        socket found awaiting reached quiet)
  | gone reading unwritten left =>
      rw [reading]
      rfl
  | requested logicalClock serverID reading message =>
      rw [reading]
      rfl
  | told reading message =>
      rw [reading]
      rfl
  | refused command reading message full =>
      rw [reading]
      rfl
  | answered text answering plain =>
      rw [answering]
      rfl
  | enqueued logicalClock serverID handling message =>
      rw [handling]
      rfl
  | misplaced command handling message =>
      rw [handling]
      rfl
  | replied client response replying =>
      rw [replying]
      rfl
  | closed closing =>
      rw [closing]
      rfl

theorem handled_round (owned : Owned before) (known : server ∈ config.serverIDs)
    (peer : server ≠ stamp.processID)
    (even : total (roundWeight stamp server) before.connections = issued stamp before) :
    total (roundWeight stamp server) (before.after number connection.server
        (flow.finish config connection.server)).connections =
      issued stamp (before.after number connection.server
        (flow.finish config connection.server)) := by
  have sums := after_total (roundWeight stamp server) (round_steady stamp server) before number
    connection.server (flow.finish config connection.server) connection found
  have made := after_issued config stamp number connection flow moved owned
  have tokens := moved_round config stamp server wired reliable number connection flow found moved
    known peer
  have turned : roundWeight stamp server (setTask (flow.finish config connection.server).task
      connection) = (asks stamp server connection).toNat +
        taskRound stamp server connection.server (flow.finish config connection.server).task := rfl
  have stood : roundWeight stamp server connection = (asks stamp server connection).toNat +
      taskRound stamp server connection.server connection.task := rfl
  omega

end Asked

/-! What a step does to the entries of a queue. -/
section Entries
variable (config : Config) (stamp : TimeStamp) {before : Cluster} (wired : Wired config before)
  (number : Nat) (connection : Connection) (flow : Flow)
  (found : before.connections[number]? = some connection)
  (moved : Moved config before number connection flow)

theorem single_other (logicalClock serverID : Int) (other : stamp.processID ≠ serverID) :
    [(⟨logicalClock, serverID⟩ : TimeStamp)].count stamp = 0 := by
  refine List.count_eq_zero.mpr fun member => other ?_
  rw [List.mem_singleton.mp member]

/-- The server's own entries, in the order in which they were added. -/
def ownEntries (me : Int) (pendingQueue : List TimeStamp) : List TimeStamp :=
  pendingQueue.filter fun timeStamp => timeStamp.processID == me

theorem own_count (pendingQueue : List TimeStamp) (me : Int) (own : stamp.processID = me) :
    pendingQueue.count stamp = (ownEntries me pendingQueue).count stamp := by
  rw [ownEntries, List.count_filter]
  exact beq_iff_eq.mpr own

theorem append_own (pendingQueue : List TimeStamp) (me : Int) (entry : TimeStamp) :
    ownEntries me (pendingQueue ++ [entry]) =
      ownEntries me pendingQueue ++ if entry.processID = me then [entry] else [] := by
  simp [ownEntries, List.filter_cons]

theorem erase_own (pendingQueue : List TimeStamp) (me serverID : Int) (other : serverID ≠ me) :
    ownEntries me (pendingQueue.eraseP fun timeStamp => timeStamp.processID == serverID) =
      ownEntries me pendingQueue := by
  induction pendingQueue with
  | nil => rfl
  | cons first rest ih =>
      by_cases hit : first.processID = serverID
      · have apart : first.processID ≠ me := hit ▸ other
        simp [ownEntries, hit, other]
      · rw [List.eraseP_cons_of_neg (by simpa using hit)]
        simp only [ownEntries, List.filter_cons] at ih ⊢
        rw [ih]

theorem deprecate_own (peer me : Int) (server : Server) (other : peer ≠ me) :
    ownEntries me (deprecateServer peer server).pendingQueue =
      ownEntries me server.pendingQueue := by
  simp only [ownEntries, deprecateServer, remove, List.filter_filter]
  refine List.filter_congr fun entry _ => ?_
  by_cases mine : entry.processID = me
  · simp [mine, Ne.symm other]
  · simp [mine]

include wired found moved in
/-- A server's own entries stay, and a new one is the request of a new command. -/
theorem moved_entries (backed : Backed before.history connection) :
    (ownEntries connection.server (flowServer flow).pendingQueue =
        ownEntries connection.server (before.server connection.server).pendingQueue ∧
      (flowServer flow).clientCommands = (before.server connection.server).clientCommands) ∨
    ((before.server connection.server).clientCommands = [] ∧ ∃ client,
      (flowServer flow).clientCommands = [client] ∧
      client.request = ⟨(flowServer flow).logicalClock, connection.server⟩ ∧
      ownEntries connection.server (flowServer flow).pendingQueue =
        ownEntries connection.server (before.server connection.server).pendingQueue ++
          [client.request]) := by
  have task := (wired.connections number connection found).task
  have foreign : ∀ serverID, sender connection.message = some serverID →
      serverID ≠ connection.server := by
    rintro serverID line rfl
    exact backed.foreign line
  have changed := moved_changed config before number connection flow moved
  generalize flowServer flow = state at changed ⊢
  cases changed with
  | queued queued command reading message empty same =>
      rw [same]
      refine Or.inr ⟨empty, _, rfl, rfl, ?_⟩
      rw [append_own, if_pos rfl]
      rfl
  | enqueued logicalClock serverID message =>
      have other := foreign serverID (by rw [message]; rfl)
      refine Or.inl ⟨?_, rfl⟩
      simp only [append_own, if_neg other, List.append_nil]
  | released logicalClock serverID received message =>
      have other := foreign serverID (by rw [message]; rfl)
      exact Or.inl ⟨erase_own _ _ serverID other, rfl⟩
  | unreachable sending peer connecting down =>
      rw [connecting] at task
      exact Or.inl ⟨deprecate_own peer _ _ task.2.2, rfl⟩
  | lost sending peer socket target awaiting reached silent dead =>
      rw [awaiting] at task
      exact Or.inl ⟨deprecate_own peer _ _ task.2.2, rfl⟩
  | _ => exact Or.inl ⟨rfl, rfl⟩

include wired found moved in
/-- A request is queued together with the entry for it, which stays. -/
theorem moved_own (backed : Backed before.history connection)
    (own : stamp.processID = connection.server) :
    (flowServer flow).pendingQueue.count stamp + waits stamp (before.server connection.server) =
      (before.server connection.server).pendingQueue.count stamp +
        waits stamp (flowServer flow) := by
  rw [own_count stamp _ _ own, own_count stamp (before.server connection.server).pendingQueue _ own]
  rcases moved_entries config wired number connection flow found moved backed with
    ⟨entries, commands⟩ | ⟨empty, client, single, _, entries⟩
  · rw [entries, waits, waits, commands]
  · have one : [client.request].count stamp = [client].countP fun other => other.request == stamp := by
      simp [List.countP_cons, List.count_cons]
    rw [entries, waits, waits, empty, single, List.count_append, one]
    rfl

theorem applied_other (server : Int) (other : connection.message ≠ asking stamp) :
    appliedWeight stamp server connection = 0 := by
  simp [appliedWeight, asks, other]

include wired found moved in
/-- Without a crash an entry of another server is added by the handler of its
`Request`, and removed only by a `Release`. -/
theorem moved_stored (reliable : Reliable before) (other : stamp.processID ≠ connection.server)
    (kept : connection.task = .handling →
      ∀ logicalClock serverID, connection.message ≠ .release logicalClock serverID) :
    (flowServer flow).pendingQueue.count stamp + appliedWeight stamp connection.server connection =
      (before.server connection.server).pendingQueue.count stamp +
        appliedWeight stamp connection.server
          (setTask (flow.finish config connection.server).task connection) := by
  have waiting : ∀ task, unapplied task = true →
      appliedWeight stamp connection.server (setTask task connection) = 0 := by
    intro task early
    simp [appliedWeight, setTask, early]
  have past : ∀ task, unapplied task = false → unapplied connection.task = false →
      appliedWeight stamp connection.server (setTask task connection) =
        appliedWeight stamp connection.server connection := by
    intro task late done
    simp [appliedWeight, asks, setTask, late, done]
  have unasked : connection.message ≠ asking stamp → ∀ task,
      appliedWeight stamp connection.server (setTask task connection) = 0 := by
    intro line task
    simp [appliedWeight, asks, setTask, line]
  have early : unapplied connection.task = true →
      appliedWeight stamp connection.server connection = 0 := waiting connection.task
  cases moved with
  | gone reading unwritten left =>
      rw [reliable.up, abandoned_up] at left
      cases left
  | requested logicalClock serverID reading message =>
      rw [early (by rw [reading]; rfl), stay, Flow.finish, waiting _ rfl]
      rfl
  | told reading message =>
      rw [early (by rw [reading]; rfl), stay, Flow.finish, waiting _ rfl]
      rfl
  | queued command reading message empty =>
      have line : connection.message ≠ asking stamp := by
        rw [message]
        intro line
        cases line
      rw [applied_other stamp connection _ line, unasked line, requestCriticalSection,
        resume_server, List.count_append, single_other stamp _ _ other]
      rfl
  | refused command reading message full =>
      have line : connection.message ≠ asking stamp := by
        rw [message]
        intro line
        cases line
      rw [applied_other stamp connection _ line, unasked line]
      rfl
  | answered text answering plain =>
      rw [early (by rw [answering]; rfl), Flow.finish, waiting _ rfl]
      rfl
  | enqueued logicalClock serverID handling message =>
      rw [early (by rw [handling]; rfl), stay, Flow.finish, flowServer, List.count_append,
        Nat.add_zero]
      refine congrArg ((before.server connection.server).pendingQueue.count stamp + ·) ?_
      by_cases same : (⟨logicalClock, serverID⟩ : TimeStamp) = stamp
      · have line : connection.message = asking stamp :=
          message.trans ((request_asking stamp logicalClock serverID).mpr same)
        simp [appliedWeight, asks, setTask, line, unapplied, same]
      · have line : connection.message ≠ asking stamp := fun line =>
          same ((request_asking stamp logicalClock serverID).mp (message.symm.trans line))
        simp [unasked line, same]
  | released logicalClock serverID handling message =>
      exact absurd message (kept handling logicalClock serverID)
  | updated logicalClock serverID client handling message =>
      have line : connection.message ≠ asking stamp := by
        rw [message]
        intro line
        cases line
      rw [applied_other stamp connection _ line, unasked line]
      simp only [flowServer, applyUpdate]
      split
      · rfl
      · rfl
  | misplaced command handling message =>
      have line : connection.message ≠ asking stamp := by
        rw [message]
        intro line
        cases line
      rw [applied_other stamp connection _ line, unasked line]
      rfl
  | unreachable sending peer connecting down =>
      rw [reliable.up] at down
      cases down
  | connected sending peer connecting up =>
      rw [Flow.finish, past _ rfl (by rw [connecting]; rfl)]
      rfl
  | wrote sending peer socket writing =>
      rw [Flow.finish, past _ rfl (by rw [writing]; rfl)]
      rfl
  | heard sending peer socket target awaiting reached reply =>
      have onward := onward_applied _ (resume_ending config connection.server
        (before.server connection.server) sending).1
      rw [past _ onward (by rw [awaiting]; rfl), resume_server]
  | lost sending peer socket target awaiting reached silent dead =>
      exact absurd dead (never_lost config wired reliable number connection target sending peer
        socket found awaiting reached silent)
  | replied client response replying =>
      rw [Flow.finish, past _ rfl (by rw [replying]; rfl)]
      rfl
  | closed closing =>
      rw [Flow.finish, past _ rfl (by rw [closing]; rfl)]
      rfl

/-! The applied `Request` lines and the entries they left. -/

theorem fresh_applied (server me : Int) (wire : Wire) :
    total (appliedWeight stamp server) (fresh me wire) = 0 := by
  cases wire with
  | opened peer message => simp [fresh, total, appliedWeight, opened, unapplied]
  | _ => rfl

include found in
theorem applied_still (server : Int) (unasked : asks stamp server connection = false)
    (outcome : Outcome) : total (appliedWeight stamp server)
      (before.after number connection.server outcome).connections =
        total (appliedWeight stamp server) before.connections := by
  have sums := after_total (appliedWeight stamp server) (applied_steady stamp server) before number
    connection.server outcome connection found
  have stood : appliedWeight stamp server connection = 0 := by simp [appliedWeight, unasked]
  have turned : appliedWeight stamp server (setTask outcome.task connection) = 0 := by
    have same : asks stamp server (setTask outcome.task connection) = asks stamp server connection :=
      rfl
    simp [appliedWeight, same, unasked]
  rw [stood, turned, fresh_applied] at sums
  omega

include wired found moved in
theorem applied_stored (reliable : Reliable before) (other : stamp.processID ≠ connection.server)
    (kept : connection.task = .handling →
      ∀ logicalClock serverID, connection.message ≠ .release logicalClock serverID) :
    total (appliedWeight stamp connection.server) (before.after number connection.server
          (flow.finish config connection.server)).connections +
        (before.server connection.server).pendingQueue.count stamp =
      total (appliedWeight stamp connection.server) before.connections +
        (flowServer flow).pendingQueue.count stamp := by
  have sums := after_total (appliedWeight stamp connection.server)
    (applied_steady stamp connection.server) before number connection.server
    (flow.finish config connection.server) connection found
  have entries := moved_stored config stamp wired number connection flow found moved reliable other
    kept
  rw [fresh_applied] at sums
  omega

end Entries

section Runs
variable (config : Config)

/-- What holds in every run. -/
structure Recorded (cluster : Cluster) : Prop where
  wired : Wired config cluster
  owned : Owned cluster
  backed : AllBacked cluster
  ran : ∀ execution ∈ cluster.history, execution.own = true →
    execution.client.request.processID = execution.server
  kept : ∀ stamp : TimeStamp, (cluster.server stamp.processID).pendingQueue.count stamp =
    issued stamp cluster

theorem initial_recorded : Recorded config (initial config) := by
  constructor
  · exact initial_wired config
  · exact initial_owned config
  · exact initial_backed config
  · intro execution ran
    cases ran
  · intro stamp
    rfl

theorem handled_kept (before : Cluster) (recorded : Recorded config before) (number : Nat)
    (connection : Connection) (flow : Flow)
    (found : before.connections[number]? = some connection)
    (moved : Moved config before number connection flow) (stamp : TimeStamp) :
    ((before.after number connection.server (flow.finish config connection.server)).server
        stamp.processID).pendingQueue.count stamp =
      issued stamp (before.after number connection.server
        (flow.finish config connection.server)) := by
  have made := after_issued config stamp number connection flow moved recorded.owned
  have old := recorded.kept stamp
  by_cases own : stamp.processID = connection.server
  · have entries := moved_own config stamp recorded.wired number connection flow found moved
      (recorded.backed connection (List.mem_of_getElem? found)) own
    have queue : ((before.after number connection.server (flow.finish config
        connection.server)).server stamp.processID).pendingQueue.count stamp =
          (flowServer flow).pendingQueue.count stamp := by
      rw [own, after_self, finish_pending]
    rw [own] at old
    omega
  · have idle := foreign_waits stamp connection.server (before.server connection.server) own
      fun client member => recorded.owned connection.server client (List.mem_append_left _ member)
    have still := foreign_waits stamp connection.server (flowServer flow) own
      (flow_owned config before number connection flow moved recorded.owned)
    have queue : (before.after number connection.server (flow.finish config
        connection.server)).server stamp.processID = before.server stamp.processID :=
      after_others _ _ _ _ _ own
    rw [queue]
    omega

theorem step_recorded (before : Cluster) (action : Action) (after : Cluster)
    (recorded : Recorded config before) (taken : step config before action = some after) :
    Recorded config after := by
  have stepped := step_stepped config before after action
    (wired_readable config before recorded.wired) taken
  constructor
  · exact step_wired config before after action recorded.wired taken
  · exact step_owned config before after action recorded.wired recorded.owned taken
  · exact step_backed config before after action recorded.wired recorded.backed taken
  · intro execution member own
    by_cases outside : ∀ number, action ≠ .server number
    · rw [(outside_same config before after action stepped outside).2] at member
      exact recorded.ran execution member own
    · cases stepped with
      | handled number connection flow found alive advanced moved =>
          rcases List.mem_append.mp member with old | new
          · exact recorded.ran execution old own
          · obtain ⟨here, enters⟩ :=
              moved_executed config before number connection flow moved execution own new
            rw [here]
            exact flow_owned config before number connection flow moved recorded.owned _
              (entered_waiting connection.server flow _ enters)
      | _ => simp at outside
  · intro stamp
    by_cases outside : ∀ number, action ≠ .server number
    · rw [outside_issued config stamp after action stepped outside,
        (outside_same config before after action stepped outside).1]
      exact recorded.kept stamp
    · cases stepped with
      | handled number connection flow found alive advanced moved =>
          exact handled_kept config before recorded number connection flow found moved stamp
      | _ => simp at outside

/-- What holds in every run without a crash. -/
structure Asked (cluster : Cluster) : Prop where
  recorded : Recorded config cluster
  reliable : Reliable cluster
  rounds : ∀ stamp : TimeStamp, ∀ server ∈ config.serverIDs, server ≠ stamp.processID →
    total (roundWeight stamp server) cluster.connections = issued stamp cluster

theorem initial_asked : Asked config (initial config) := by
  constructor
  · exact initial_recorded config
  · exact initial_reliable config
  · intro stamp server known peer
    rfl

/-- Without a crash no peer is left out of a round. -/
theorem step_asked (before : Cluster) (action : Action) (after : Cluster)
    (asked : Asked config before) (up : crashFree action = true)
    (taken : step config before action = some after) : Asked config after := by
  have wired := asked.recorded.wired
  have stepped := step_stepped config before after action (wired_readable config before wired) taken
  constructor
  · exact step_recorded config before action after asked.recorded taken
  · exact step_reliable config action up wired asked.reliable taken
  · intro stamp server known peer
    have even := asked.rounds stamp server known peer
    by_cases outside : ∀ number, action ≠ .server number
    · rw [outside_issued config stamp after action stepped outside,
        outside_total (roundWeight stamp server) (round_steady stamp server) config before after
          action (fun peer number command => by simp [roundWeight, asks, opened, asking, taskRound])
          stepped outside]
      exact even
    · cases stepped with
      | handled number connection flow found alive advanced moved =>
          exact handled_round config stamp server wired asked.reliable number connection flow found
            moved asked.recorded.owned known peer even
      | _ => simp at outside

end Runs

end EE360P.RequestRounds
