import Mathlib.Data.List.Basic
import EE360P.ProtocolLines

/-! What one step of the cluster can be. Every invariant below splits on these
cases and none of them opens `advance`, `clientStep`, `checkCriticalSection` or
`resume` again. -/

namespace EE360P.ClusterSteps
open JavaText ReplicatedServer ServerCluster ProtocolLines

/-- A line that its reader takes for what it is. -/
def Readable (counting : Counting) : Line → Prop
  | .command text => accepted text = true
  | .request logicalClock serverID =>
      counting.holds logicalClock = true ∧ counting.holds serverID = true
  | .release logicalClock serverID =>
      counting.holds logicalClock = true ∧ counting.holds serverID = true
  | .update logicalClock serverID client =>
      counting.holds logicalClock = true ∧ counting.holds serverID = true ∧
        accepted client.clientCommand = true

section Moves
variable (config : Config)

/-- The `Update` branch after its `println`, for a command of another server. -/
def applyUpdate (me : Int) (server : Server) (client : ClientInformation) : Outcome :=
  match OnlineStore.execute4 config.counting (cut client.clientCommand) server.store with
  | .error thrown => ⟨server, .failed, .silent, [⟨me, client, false, .error thrown⟩]⟩
  | .ok (response, store) =>
      ⟨{ server with store }, .closing, .silent, [⟨me, client, false, .ok response⟩]⟩

/-- The ways through `checkCriticalSection`. -/
inductive Checked (me : Int) (server : Server) : Outcome → Prop where
  | behind (larger : isSmallest server.pendingQueue me = false) :
      Checked me server ⟨server, .closing, .silent, []⟩
  | idle (smallest : isSmallest server.pendingQueue me = true)
      (empty : server.clientCommands = []) : Checked me server ⟨server, .failed, .silent, []⟩
  | thrown (client : ClientInformation) (rest : List ClientInformation)
      (thrown : OnlineStore.Thrown) (smallest : isSmallest server.pendingQueue me = true)
      (waiting : server.clientCommands = client :: rest)
      (failed : OnlineStore.execute4 config.counting client.clientCommand server.store =
        .error thrown) :
      Checked me server ⟨{ server with clientCommands := rest }, .failed, .silent,
        [⟨me, client, true, .error thrown⟩]⟩
  | served (client : ClientInformation) (rest : List ClientInformation) (response : Text)
      (store : OnlineStore.Store) (smallest : isSmallest server.pendingQueue me = true)
      (waiting : server.clientCommands = client :: rest)
      (result : OnlineStore.execute4 config.counting client.clientCommand server.store =
        .ok (response, store)) :
      Checked me server ⟨{ server with clientCommands := rest, store },
        sendUpdate config me { server with clientCommands := rest, store } client response, .silent,
        [⟨me, client, true, .ok response⟩]⟩

theorem check_checked (me : Int) (server : Server) :
    Checked config me server (checkCriticalSection config me server) := by
  unfold checkCriticalSection
  by_cases smallest : isSmallest server.pendingQueue me = true
  · rw [if_pos smallest]
    split
    · rename_i empty
      exact .idle smallest empty
    · rename_i client rest waiting
      split
      · rename_i thrown failed
        exact .thrown client rest thrown smallest waiting failed
      · rename_i response store result
        exact .served client rest response store smallest waiting result
  · rw [if_neg smallest]
    exact .behind (Bool.eq_false_iff.mpr smallest)

/-- How a loop of `send` goes on after one peer. -/
inductive Resumed (me : Int) (server : Server) (sending : Sending) : Flow → Prop where
  | next (peer : Int) (rest : List Int)
      (next : nextServer me server sending.rest = some (peer, rest)) :
      Resumed me server sending (stay server (.connecting { sending with rest } peer))
  | requested (ended : nextServer me server sending.rest = none)
      (entering : sending.purpose = .entering) : Resumed me server sending (.checking server)
  | updated (client : ClientInformation) (response : Text)
      (ended : nextServer me server sending.rest = none)
      (updating : sending.purpose = .updating client response) :
      Resumed me server sending
        (stay server (releaseCriticalSection config me server client response))
  | released (client : ClientInformation) (response : Text)
      (ended : nextServer me server sending.rest = none)
      (leaving : sending.purpose = .leaving client response) :
      Resumed me server sending (stay server (.replying client response))

theorem resume_resumed (me : Int) (server : Server) (sending : Sending) :
    Resumed config me server sending (resume config me server sending) := by
  unfold resume
  cases next : nextServer me server sending.rest with
  | some pair => exact .next pair.1 pair.2 next
  | none =>
      cases purpose : sending.purpose with
      | entering => exact .requested next purpose
      | updating client response => exact .updated client response next purpose
      | leaving client response => exact .released client response next purpose

/-- A client's command on its way into `requestCriticalSection`. -/
def queueCommand (server : Server) (me : Int) (command : Text) (socket : Nat) : Server :=
  let ticked := setLogicalClockInternal config.counting server
  { ticked with clientCommands := [⟨command, socket, ⟨ticked.logicalClock, me⟩⟩] }

/-- The stretches of a handler's code, one for each way through it. -/
inductive Moved (cluster : Cluster) (number : Nat) (connection : Connection) : Flow → Prop where
  | gone (reading : connection.task = .reading) (unwritten : connection.written = false)
      (left : abandoned cluster.crashed connection = true) :
      Moved cluster number connection (stay (cluster.server connection.server) .failed)
  | requested (logicalClock serverID : Int) (reading : connection.task = .reading)
      (message : connection.message = .request logicalClock serverID) :
      Moved cluster number connection
        (stay (setLogicalClockSend config.counting (setLogicalClockReceive config.counting
          logicalClock (cluster.server connection.server))) .answering)
  | told (reading : connection.task = .reading)
      (message : (∃ logicalClock serverID, connection.message = .release logicalClock serverID) ∨
        ∃ logicalClock serverID client, connection.message = .update logicalClock serverID client) :
      Moved cluster number connection (stay (cluster.server connection.server) .answering)
  | queued (command : Text) (reading : connection.task = .reading)
      (message : connection.message = .command command)
      (empty : (cluster.server connection.server).clientCommands = []) :
      Moved cluster number connection (requestCriticalSection config connection.server
        (queueCommand config (cluster.server connection.server) connection.server command number))
  | refused (command : Text) (reading : connection.task = .reading)
      (message : connection.message = .command command)
      (full : (cluster.server connection.server).clientCommands ≠ []) :
      Moved cluster number connection
        (stay (setLogicalClockInternal config.counting (cluster.server connection.server)) .failed)
  | answered (text : Text) (answering : connection.task = .answering)
      (plain : text = "Acknowledgement".toList ∨ text = "recieved".toList) :
      Moved cluster number connection
        (.done ⟨cluster.server connection.server, .handling, .answer text, []⟩)
  | enqueued (logicalClock serverID : Int) (handling : connection.task = .handling)
      (message : connection.message = .request logicalClock serverID) :
      Moved cluster number connection
        (stay { cluster.server connection.server with
          pendingQueue := (cluster.server connection.server).pendingQueue ++
            [⟨logicalClock, serverID⟩] } .closing)
  | released (logicalClock serverID : Int) (handling : connection.task = .handling)
      (message : connection.message = .release logicalClock serverID) :
      Moved cluster number connection
        (.checking (removeFirst serverID (setLogicalClockReceive config.counting logicalClock
          (cluster.server connection.server))))
  | updated (logicalClock serverID : Int) (client : ClientInformation)
      (handling : connection.task = .handling)
      (message : connection.message = .update logicalClock serverID client) :
      Moved cluster number connection
        (.done (applyUpdate config connection.server (setLogicalClockReceive config.counting
          logicalClock (cluster.server connection.server)) client))
  | misplaced (command : Text) (handling : connection.task = .handling)
      (message : connection.message = .command command) :
      Moved cluster number connection (stay (cluster.server connection.server) .failed)
  | unreachable (sending : Sending) (peer : Int)
      (connecting : connection.task = .connecting sending peer) (down : peer ∈ cluster.crashed) :
      Moved cluster number connection (resume config connection.server
        (deprecateServer peer (cluster.server connection.server)) sending)
  | connected (sending : Sending) (peer : Int)
      (connecting : connection.task = .connecting sending peer) (up : peer ∉ cluster.crashed) :
      Moved cluster number connection
        (.done ⟨setLogicalClockSend config.counting (cluster.server connection.server),
          .writing sending peer cluster.connections.length, .opened peer sending.message, []⟩)
  | wrote (sending : Sending) (peer : Int) (socket : Nat)
      (writing : connection.task = .writing sending peer socket) :
      Moved cluster number connection
        (.done ⟨cluster.server connection.server, .awaiting sending peer socket, .wrote socket, []⟩)
  | heard (sending : Sending) (peer : Int) (socket : Nat) (target : Connection)
      (awaiting : connection.task = .awaiting sending peer socket)
      (found : cluster.connections[socket]? = some target)
      (reply : (nextReply target.output).isSome = true) :
      Moved cluster number connection
        (resume config connection.server (cluster.server connection.server) sending)
  | lost (sending : Sending) (peer : Int) (socket : Nat) (target : Connection)
      (awaiting : connection.task = .awaiting sending peer socket)
      (found : cluster.connections[socket]? = some target)
      (silent : (nextReply target.output).isSome = false)
      (dead : target.closed = true ∨ peer ∈ cluster.crashed) :
      Moved cluster number connection (resume config connection.server
        (deprecateServer peer (cluster.server connection.server)) sending)
  | replied (client : ClientInformation) (response : Text)
      (replying : connection.task = .replying client response) :
      Moved cluster number connection
        (.done ⟨cluster.server connection.server, .closing,
          .reply client.clientSocket response, []⟩)
  | closed (closing : connection.task = .closing) :
      Moved cluster number connection
        (.done ⟨cluster.server connection.server, .finished, .close, []⟩)

theorem read_moved (cluster : Cluster) (number : Nat) (connection : Connection)
    (reading : connection.task = .reading)
    (readable : Readable config.counting connection.message) :
    Moved config cluster number connection (readLine config connection.server
      (cluster.server connection.server) connection.message.text number) := by
  cases message : connection.message with
  | command text =>
      rw [message] at readable
      have client := command_branch text readable
      simp only [Line.text, readLine, client, acceptCommand]
      cases waiting : (cluster.server connection.server).clientCommands with
      | nil =>
          simp only [setLogicalClockInternal, waiting]
          exact .queued text reading message waiting
      | cons first rest =>
          simp only [setLogicalClockInternal, waiting]
          have refused : Moved config cluster number connection _ :=
            .refused text reading message (by simp [waiting])
          simp only [setLogicalClockInternal, waiting] at refused
          exact refused
  | request logicalClock serverID =>
      rw [message] at readable
      have clock := token_parsed config.counting
        [requestWord, intText logicalClock, intText serverID] 1 logicalClock readable.1 rfl
      simp only [readLine, request_tokens, branch_request, clock]
      exact .requested logicalClock serverID reading message
  | release logicalClock serverID =>
      simp only [readLine, release_tokens, branch_release]
      exact .told reading (Or.inl ⟨logicalClock, serverID, message⟩)
  | update logicalClock serverID client =>
      simp only [readLine, update_tokens, branch_update]
      exact .told reading (Or.inr ⟨logicalClock, serverID, client, message⟩)

theorem handle_moved (cluster : Cluster) (number : Nat) (connection : Connection)
    (handling : connection.task = .handling)
    (readable : Readable config.counting connection.message) :
    Moved config cluster number connection
      (handleLine config connection.server (cluster.server connection.server)
        connection.message) := by
  cases message : connection.message with
  | command text =>
      rw [message] at readable
      simp only [Line.text, handleLine, command_branch text readable]
      exact .misplaced text handling message
  | request logicalClock serverID =>
      rw [message] at readable
      have clock := token_parsed config.counting
        [requestWord, intText logicalClock, intText serverID] 1 logicalClock readable.1 rfl
      have sender := token_parsed config.counting
        [requestWord, intText logicalClock, intText serverID] 2 serverID readable.2 rfl
      simp only [handleLine, request_tokens, branch_request, clock, sender]
      exact .enqueued logicalClock serverID handling message
  | release logicalClock serverID =>
      rw [message] at readable
      have clock := token_parsed config.counting
        [releaseWord, intText logicalClock, intText serverID] 1 logicalClock readable.1 rfl
      have sender := token_parsed config.counting
        [releaseWord, intText logicalClock, intText serverID] 2 serverID readable.2 rfl
      simp only [handleLine, release_tokens, branch_release, clock, sender]
      exact .released logicalClock serverID handling message
  | update logicalClock serverID client =>
      rw [message] at readable
      obtain ⟨rest, shape⟩ := accepted_pieces client.clientCommand readable.2.2
      have clock := token_parsed config.counting
        (updateWord :: intText logicalClock :: intText serverID :: cut client.clientCommand :: rest)
        1 logicalClock readable.1 rfl
      have moved : Moved config cluster number connection _ :=
        .updated logicalClock serverID client handling message
      simp only [handleLine, update_tokens, branch_update, shape, clock, executeUpdate,
        List.getElem?_cons_succ, List.getElem?_cons_zero, Line.executedFor]
      exact moved

/-- The cases are all there are. -/
theorem advance_moved (cluster : Cluster) (number : Nat) (connection : Connection) (flow : Flow)
    (readable : Readable config.counting connection.message)
    (taken : advance config cluster number connection = some flow) :
    Moved config cluster number connection flow := by
  unfold advance at taken
  cases task : connection.task with
  | reading =>
      simp only [task] at taken
      by_cases written : connection.written = true
      · simp only [written, ↓reduceIte, Option.some.injEq] at taken
        exact taken ▸ read_moved config cluster number connection task readable
      · by_cases left : abandoned cluster.crashed connection = true
        · simp only [written, left, Bool.false_eq_true, ↓reduceIte, Option.some.injEq] at taken
          exact taken ▸ .gone task (by simpa using written) left
        · simp [written, left] at taken
  | answering =>
      simp only [task, Option.some.injEq] at taken
      refine taken ▸ .answered _ task ?_
      unfold answerText
      split
      · exact Or.inl rfl
      · exact Or.inr rfl
  | handling =>
      simp only [task, Option.some.injEq] at taken
      exact taken ▸ handle_moved config cluster number connection task readable
  | connecting sending peer =>
      simp only [task] at taken
      by_cases down : peer ∈ cluster.crashed
      · simp only [down, ↓reduceIte, Option.some.injEq] at taken
        exact taken ▸ .unreachable sending peer task down
      · simp only [down, ↓reduceIte, Option.some.injEq] at taken
        exact taken ▸ .connected sending peer task down
  | writing sending peer socket =>
      simp only [task, Option.some.injEq] at taken
      exact taken ▸ .wrote sending peer socket task
  | awaiting sending peer socket =>
      simp only [task, Option.bind_eq_some_iff] at taken
      obtain ⟨target, found, taken⟩ := taken
      by_cases reply : (nextReply target.output).isSome = true
      · simp only [reply, ↓reduceIte, Option.some.injEq] at taken
        exact taken ▸ .heard sending peer socket target task found reply
      · by_cases dead : target.closed = true ∨ peer ∈ cluster.crashed
        · simp only [reply, dead, Bool.false_eq_true, ↓reduceIte, Option.some.injEq] at taken
          exact taken ▸ .lost sending peer socket target task found (by simpa using reply) dead
        · simp [reply, dead] at taken
  | replying client response =>
      simp only [task, Option.some.injEq] at taken
      exact taken ▸ .replied client response task
  | closing =>
      simp only [task, Option.some.injEq] at taken
      exact taken ▸ .closed task
  | finished => simp [task] at taken
  | failed => simp [task] at taken

end Moves

section Steps
variable (config : Config)

/-- The steps of the cluster. -/
inductive Stepped (before : Cluster) : Action → Cluster → Prop where
  | submitted (command : Text) (servers : List Int) (valid : accepted command = true)
      (known : ∀ server ∈ servers, server ∈ config.serverIDs) :
      Stepped before (.submit command servers)
        { before with calls := before.calls ++ [⟨command, servers, .connecting⟩] }
  | exhausted (number : Nat) (call : Call) (found : before.calls[number]? = some call)
      (connecting : call.progress = .connecting) (none : call.servers = []) :
      Stepped before (.client number) (setCall number { call with progress := .exhausted } before)
  | skipped (number : Nat) (call : Call) (server : Int) (rest : List Int)
      (found : before.calls[number]? = some call) (connecting : call.progress = .connecting)
      (first : call.servers = server :: rest) (down : server ∈ before.crashed) :
      Stepped before (.client number) (setCall number { call with servers := rest } before)
  | connected (number : Nat) (call : Call) (server : Int) (rest : List Int)
      (found : before.calls[number]? = some call) (connecting : call.progress = .connecting)
      (first : call.servers = server :: rest) (up : server ∉ before.crashed) :
      Stepped before (.client number)
        (setCall number { call with progress := .writing before.connections.length }
          { before with connections := before.connections ++
              [opened server (.client number) (.command call.command)] })
  | wrote (number : Nat) (call : Call) (socket : Nat) (found : before.calls[number]? = some call)
      (writing : call.progress = .writing socket) :
      Stepped before (.client number) (setCall number { call with progress := .awaiting socket }
        { before with connections := before.connections.modify socket write })
  | returned (number : Nat) (call : Call) (socket : Nat) (target : Connection) (response : Text)
      (found : before.calls[number]? = some call) (awaiting : call.progress = .awaiting socket)
      (reached : before.connections[socket]? = some target)
      (reply : nextReply target.output = some response) :
      Stepped before (.client number)
        (setCall number { call with progress := .returned socket response } before)
  | retried (number : Nat) (call : Call) (socket : Nat) (target : Connection)
      (found : before.calls[number]? = some call) (awaiting : call.progress = .awaiting socket)
      (reached : before.connections[socket]? = some target)
      (silent : nextReply target.output = none)
      (dead : target.closed = true ∨ target.server ∈ before.crashed) :
      Stepped before (.client number)
        (setCall number { call with
          servers := call.servers.tail, progress := .connecting } before)
  | timedOut (number : Nat) (call : Call) (socket : Nat) (target : Connection)
      (found : before.calls[number]? = some call) (awaiting : call.progress = .awaiting socket)
      (reached : before.connections[socket]? = some target)
      (silent : nextReply target.output = none) :
      Stepped before (.timeout number)
        (setCall number { call with
          servers := call.servers.tail, progress := .connecting } before)
  | handled (number : Nat) (connection : Connection) (flow : Flow)
      (found : before.connections[number]? = some connection)
      (alive : connection.server ∉ before.crashed)
      (advanced : advance config before number connection = some flow)
      (moved : Moved config before number connection flow) :
      Stepped before (.server number)
        (before.after number connection.server (flow.finish config connection.server))
  | crashed (serverID : Int) (known : serverID ∈ config.serverIDs) :
      Stepped before (.crash serverID) { before with crashed := serverID :: before.crashed }

theorem client_stepped (before after : Cluster) (number : Nat) (call : Call)
    (found : before.calls[number]? = some call)
    (taken : clientStep before number call = some after) :
    Stepped config before (.client number) after := by
  obtain ⟨command, servers, progress⟩ := call
  cases progress with
  | connecting =>
      cases servers with
      | nil =>
          simp only [clientStep, Option.some.injEq] at taken
          subst taken
          exact .exhausted number _ found rfl rfl
      | cons server rest =>
          by_cases down : server ∈ before.crashed
          · simp only [clientStep, down, ↓reduceIte, Option.some.injEq] at taken
            subst taken
            exact .skipped number _ server rest found rfl rfl down
          · simp only [clientStep, down, ↓reduceIte, Option.some.injEq] at taken
            subst taken
            exact .connected number _ server rest found rfl rfl down
  | writing socket =>
      simp only [clientStep, Option.some.injEq] at taken
      subst taken
      exact .wrote number _ socket found rfl
  | awaiting socket =>
      simp only [clientStep, Option.bind_eq_some_iff] at taken
      obtain ⟨target, reached, taken⟩ := taken
      cases reply : nextReply target.output with
      | some response =>
          simp only [reply, Option.some.injEq] at taken
          subst taken
          exact .returned number _ socket target response found rfl reached reply
      | none =>
          by_cases dead : target.closed = true ∨ target.server ∈ before.crashed
          · simp only [reply, dead, ↓reduceIte, Option.some.injEq] at taken
            subst taken
            exact .retried number _ socket target found rfl reached reply dead
          · simp [reply, dead] at taken
  | returned socket response => simp [clientStep] at taken
  | exhausted => simp [clientStep] at taken

theorem timeout_stepped (before after : Cluster) (number : Nat) (call : Call)
    (found : before.calls[number]? = some call)
    (taken : timeOut before number call = some after) :
    Stepped config before (.timeout number) after := by
  unfold timeOut at taken
  split at taken
  · rename_i socket awaiting
    obtain ⟨target, reached, taken⟩ := Option.bind_eq_some_iff.mp taken
    obtain ⟨silent, gone⟩ := Option.ite_none_right_eq_some.mp taken
    obtain rfl := Option.some.inj gone
    exact .timedOut number call socket target found awaiting reached silent
  · cases taken

theorem abandoned_up (connection : Connection) : abandoned [] connection = false := by
  unfold abandoned
  split
  · rfl
  · rfl

/-- Every line that is under way can be read. -/
def AllReadable (cluster : Cluster) : Prop :=
  ∀ connection ∈ cluster.connections, Readable config.counting connection.message

theorem step_stepped (before after : Cluster) (action : Action)
    (readable : AllReadable config before) (taken : step config before action = some after) :
    Stepped config before action after := by
  cases action with
  | submit command servers =>
      simp only [step, Option.ite_none_right_eq_some, Option.some.injEq] at taken
      obtain ⟨⟨valid, known⟩, rfl⟩ := taken
      exact .submitted command servers valid known
  | client number =>
      simp only [step, Option.bind_eq_some_iff] at taken
      obtain ⟨call, found, taken⟩ := taken
      exact client_stepped config before after number call found taken
  | timeout number =>
      simp only [step, Option.bind_eq_some_iff] at taken
      obtain ⟨call, found, taken⟩ := taken
      exact timeout_stepped config before after number call found taken
  | server number =>
      simp only [step, Option.bind_eq_some_iff] at taken
      obtain ⟨connection, found, taken⟩ := taken
      by_cases down : connection.server ∈ before.crashed
      · simp [down] at taken
      · simp only [down, ↓reduceIte, Option.map_eq_some_iff] at taken
        obtain ⟨flow, advanced, rfl⟩ := taken
        have moved := advance_moved config before number connection flow
          (readable connection (List.mem_of_getElem? found)) advanced
        exact .handled number connection flow found down advanced moved
  | crash serverID =>
      simp only [step, Option.ite_none_right_eq_some, Option.some.injEq] at taken
      obtain ⟨known, rfl⟩ := taken
      exact .crashed serverID known

end Steps

/-! The connections after a step of a client, or a crash. -/
section Outside
variable (config : Config) (before after : Cluster) (action : Action)

theorem modify_write (connections : List Connection) (socket n : Nat) (later : Connection) :
    (connections.modify socket write)[n]? = some later ↔
      ∃ old, connections[n]? = some old ∧ later = if socket = n then write old else old := by
  rw [List.getElem?_modify]
  constructor
  · intro present
    obtain ⟨old, there, same⟩ := Option.map_eq_some_iff.mp present
    exact ⟨old, there, same.symm⟩
  · rintro ⟨old, there, rfl⟩
    exact Option.map_eq_some_iff.mpr ⟨old, there, rfl⟩

variable (stepped : Stepped config before action after)
  (outside : ∀ number, action ≠ .server number)

include stepped outside

theorem outside_same : after.server = before.server ∧ after.history = before.history := by
  cases stepped with
  | handled number connection flow found alive advanced moved => exact absurd rfl (outside number)
  | _ => exact ⟨rfl, rfl⟩

theorem outside_stays (n : Nat) (old : Connection) (there : before.connections[n]? = some old) :
    after.connections[n]? = some old ∨ after.connections[n]? = some (write old) := by
  cases stepped with
  | connected number call server rest found connecting first up =>
      have inside := (List.getElem?_eq_some_iff.mp there).1
      exact Or.inl (by simpa [setCall, List.getElem?_append_left inside] using there)
  | wrote number call socket found writing =>
      by_cases here : socket = n
      · exact Or.inr ((modify_write _ _ _ _).mpr ⟨old, there, by rw [if_pos here]⟩)
      · exact Or.inl ((modify_write _ _ _ _).mpr ⟨old, there, by rw [if_neg here]⟩)
  | handled number connection flow found alive advanced moved => exact absurd rfl (outside number)
  | _ => exact Or.inl there

/-- A connection was there before, or a client that was connecting opened it. -/
theorem outside_found (n : Nat) (later : Connection)
    (present : after.connections[n]? = some later) :
    (∃ old, before.connections[n]? = some old ∧ (later = old ∨ later = write old)) ∨
      (n = before.connections.length ∧ ∃ number call server, before.calls[number]? = some call ∧
        call.progress = .connecting ∧
        after.calls = before.calls.set number { call with progress := .writing n } ∧
        later = opened server (.client number) (.command call.command)) := by
  cases stepped with
  | connected number call server rest found connecting first up =>
      rcases (ListEntries.snoc_entry _ _ _ _).mp present with old | ⟨rfl, rfl⟩
      · exact Or.inl ⟨later, old, Or.inl rfl⟩
      · exact Or.inr ⟨rfl, number, call, server, found, connecting, rfl, rfl⟩
  | wrote number call socket found writing =>
      obtain ⟨old, there, rfl⟩ := (modify_write _ _ _ _).mp present
      refine Or.inl ⟨old, there, ?_⟩
      split
      · exact Or.inr rfl
      · exact Or.inl rfl
  | handled number connection flow found alive advanced moved => exact absurd rfl (outside number)
  | _ => exact Or.inl ⟨later, present, Or.inl rfl⟩

theorem outside_task (n : Nat) (later : Connection)
    (present : after.connections[n]? = some later) : later.task = .reading ∨
      ∃ old, before.connections[n]? = some old ∧ old.task = later.task := by
  rcases outside_found config before after action stepped outside n later present with
    ⟨old, there, rfl | rfl⟩ | ⟨_, number, call, server, _, _, _, rfl⟩
  · exact Or.inr ⟨later, there, rfl⟩
  · exact Or.inr ⟨old, there, rfl⟩
  · exact Or.inl rfl

end Outside

/-! The connections after a handler's step. -/
section Touched
variable (number n : Nat) (connection : Connection) (outcome : Outcome)

/-- What the socket operation of handler `number` does to connection `n`. -/
def onWire : Wire → Connection
  | .silent => connection
  | .answer text => if n = number then print text connection else connection
  | .opened _ _ => connection
  | .wrote socket => if n = socket then write connection else connection
  | .reply socket text => if n = socket then printOpen text connection else connection
  | .close => if n = number then close connection else connection

/-- What a handler's step makes of the connection with number `n`. -/
def touched : Connection :=
  onWire number n (if n = number then setTask outcome.task connection else connection) outcome.wire

/-- The connection that a step opens. -/
def fresh (me : Int) : Wire → List Connection
  | .opened server message => [opened server (.server me) message]
  | _ => []

theorem printOpen_fields (text : Text) :
    (printOpen text connection).server = connection.server ∧
    (printOpen text connection).caller = connection.caller ∧
    (printOpen text connection).message = connection.message ∧
    (printOpen text connection).closed = connection.closed ∧
    (printOpen text connection).task = connection.task := by
  unfold printOpen
  split
  · simp
  · simp [print]

theorem wire_fields (wire : Wire) :
    (onWire number n connection wire).server = connection.server ∧
    (onWire number n connection wire).caller = connection.caller ∧
    (onWire number n connection wire).message = connection.message ∧
    (onWire number n connection wire).task = connection.task := by
  cases wire with
  | silent => simp [onWire]
  | opened server message => simp [onWire]
  | answer text =>
      simp only [onWire]
      split <;> simp [print]
  | wrote socket =>
      simp only [onWire]
      split <;> simp [write]
  | reply socket text =>
      have kept := printOpen_fields connection text
      simp only [onWire]
      split
      · exact ⟨kept.1, kept.2.1, kept.2.2.1, kept.2.2.2.2⟩
      · simp
  | close =>
      simp only [onWire]
      split <;> simp [close]

@[simp] theorem touched_server : (touched number n connection outcome).server = connection.server := by
  rw [touched, (wire_fields _ _ _ _).1]
  split <;> rfl

@[simp] theorem touched_caller : (touched number n connection outcome).caller = connection.caller := by
  rw [touched, (wire_fields _ _ _ _).2.1]
  split <;> rfl

@[simp] theorem touched_message :
    (touched number n connection outcome).message = connection.message := by
  rw [touched, (wire_fields _ _ _ _).2.2.1]
  split <;> rfl

@[simp] theorem touched_task : (touched number n connection outcome).task =
    if n = number then outcome.task else connection.task := by
  rw [touched, (wire_fields _ _ _ _).2.2.2]
  split <;> rfl

theorem wire_written (wire : Wire) (written : connection.written = true) :
    (onWire number n connection wire).written = true := by
  cases wire with
  | silent => exact written
  | opened server message => exact written
  | answer text =>
      simp only [onWire]
      split
      · exact written
      · exact written
  | wrote socket =>
      simp only [onWire]
      split
      · rfl
      · exact written
  | reply socket text =>
      simp only [onWire, printOpen]
      split
      · split
        · exact written
        · exact written
      · exact written
  | close =>
      simp only [onWire]
      split
      · exact written
      · exact written

theorem touched_written (written : connection.written = true) :
    (touched number n connection outcome).written = true := by
  apply wire_written
  split
  · exact written
  · exact written

-- What was printed stays; only an answer or a client's reply is added.
theorem wire_output (wire : Wire) : (onWire number n connection wire).output = connection.output ∨
    ∃ text, (onWire number n connection wire).output = connection.output ++ [text] ∧
      (wire = .answer text ∧ n = number ∨ wire = .reply n text ∧ connection.closed = false) := by
  cases wire with
  | silent => exact Or.inl rfl
  | opened server message => exact Or.inl rfl
  | answer text =>
      by_cases own : n = number
      · exact Or.inr ⟨text, by simp [onWire, own, print], Or.inl ⟨rfl, own⟩⟩
      · exact Or.inl (by simp [onWire, own])
  | wrote socket =>
      refine Or.inl ?_
      simp only [onWire]
      split <;> simp [write]
  | reply socket text =>
      by_cases target : n = socket
      · subst target
        by_cases shut : connection.closed = true
        · exact Or.inl (by simp [onWire, printOpen, shut])
        · exact Or.inr ⟨text, by simp [onWire, printOpen, shut, print],
            Or.inr ⟨rfl, by simpa using shut⟩⟩
      · exact Or.inl (by simp [onWire, target])
  | close =>
      refine Or.inl ?_
      simp only [onWire]
      split <;> simp [close]

theorem wire_closed (wire : Wire) : (onWire number n connection wire).closed = true ↔
    connection.closed = true ∨ (n = number ∧ wire = .close) := by
  cases wire with
  | silent => simp [onWire]
  | opened server message => simp [onWire]
  | answer text =>
      simp only [onWire]
      split <;> simp [print]
  | wrote socket =>
      simp only [onWire]
      split <;> simp [write]
  | reply socket text =>
      have kept := printOpen_fields connection text
      simp only [onWire]
      split
      · simp [kept.2.2.2.1]
      · simp
  | close =>
      by_cases own : n = number
      · simp [onWire, own, close]
      · simp [onWire, own]

theorem moved_fields : (if n = number then setTask outcome.task connection else connection).output =
    connection.output ∧ (if n = number then setTask outcome.task connection else connection).closed =
    connection.closed := by
  split <;> simp [setTask]

theorem touched_output : (touched number n connection outcome).output = connection.output ∨
    ∃ text, (touched number n connection outcome).output = connection.output ++ [text] ∧
      (outcome.wire = .answer text ∧ n = number ∨
        outcome.wire = .reply n text ∧ connection.closed = false) := by
  have printed := wire_output number n
    (if n = number then setTask outcome.task connection else connection) outcome.wire
  rw [(moved_fields number n connection outcome).1,
    (moved_fields number n connection outcome).2] at printed
  exact printed

theorem touched_closed : (touched number n connection outcome).closed = true ↔
    connection.closed = true ∨ (n = number ∧ outcome.wire = .close) := by
  rw [touched, wire_closed, (moved_fields number n connection outcome).2]

theorem modify_wire (me : Int) (connections : List Connection) (wire : Wire)
    (there : n < connections.length) :
    (wired me number connections wire)[n]? =
      connections[n]?.map fun connection => onWire number n connection wire := by
  have present := List.getElem?_eq_getElem there
  cases wire with
  | silent => simp [wired, onWire]
  | opened server message => simp [wired, onWire, List.getElem?_append_left there]
  | answer text =>
      simp only [wired, List.getElem?_modify, present, onWire]
      by_cases own : number = n
      · simp [own]
      · simp [own, Ne.symm own]
  | wrote socket =>
      simp only [wired, List.getElem?_modify, present, onWire]
      by_cases own : socket = n
      · simp [own]
      · simp [own, Ne.symm own]
  | reply socket text =>
      simp only [wired, List.getElem?_modify, present, onWire]
      by_cases own : socket = n
      · simp [own]
      · simp [own, Ne.symm own]
  | close =>
      simp only [wired, List.getElem?_modify, present, onWire]
      by_cases own : number = n
      · simp [own]
      · simp [own, Ne.symm own]

theorem wired_split (me : Int) (connections : List Connection) (wire : Wire) :
    ∃ old, old.length = connections.length ∧
      wired me number connections wire = old ++ fresh me wire := by
  cases wire with
  | silent => exact ⟨connections, rfl, by simp [wired, fresh]⟩
  | opened server message => exact ⟨connections, rfl, rfl⟩
  | answer text => exact ⟨connections.modify number (print text), by simp, by simp [wired, fresh]⟩
  | wrote socket => exact ⟨connections.modify socket write, by simp, by simp [wired, fresh]⟩
  | reply socket text =>
      exact ⟨connections.modify socket (printOpen text), by simp, by simp [wired, fresh]⟩
  | close => exact ⟨connections.modify number close, by simp, by simp [wired, fresh]⟩

theorem fresh_found (me : Int) (wire : Wire) (found : Connection) (k : Nat) :
    (fresh me wire)[k]? = some found ↔
      k = 0 ∧ ∃ server message,
        wire = .opened server message ∧ found = opened server (.server me) message := by
  cases wire with
  | opened server message =>
      cases k with
      | zero => simp [fresh, eq_comm]
      | succ k => simp [fresh]
  | _ => simp [fresh]

theorem after_old (cluster : Cluster) (me : Int) (there : n < cluster.connections.length) :
    (cluster.after number me outcome).connections[n]? =
      cluster.connections[n]?.map fun connection => touched number n connection outcome := by
  have modified : n < (cluster.connections.modify number (setTask outcome.task)).length := by
    simpa using there
  rw [Cluster.after, modify_wire number n me _ outcome.wire modified, List.getElem?_modify,
    List.getElem?_eq_getElem there]
  by_cases own : number = n
  · simp [touched, own]
  · simp [touched, own, Ne.symm own]

theorem after_found (cluster : Cluster) (me : Int) (found : Connection) :
    (cluster.after number me outcome).connections[n]? = some found ↔
      (∃ connection, cluster.connections[n]? = some connection ∧
        found = touched number n connection outcome) ∨
      (n = cluster.connections.length ∧ ∃ server message,
        outcome.wire = .opened server message ∧ found = opened server (.server me) message) := by
  by_cases there : n < cluster.connections.length
  · rw [after_old number n outcome cluster me there, Option.map_eq_some_iff]
    constructor
    · rintro ⟨connection, present, rfl⟩
      exact Or.inl ⟨connection, present, rfl⟩
    · rintro (⟨connection, present, rfl⟩ | ⟨rfl, _⟩)
      · exact ⟨connection, present, rfl⟩
      · exact absurd there (Nat.lt_irrefl _)
  · obtain ⟨old, length, shape⟩ := wired_split number me
      (cluster.connections.modify number (setTask outcome.task)) outcome.wire
    have late : old.length ≤ n := by
      rw [length, List.length_modify]
      exact Nat.le_of_not_lt there
    have absent := List.getElem?_eq_none (Nat.le_of_not_lt there)
    rw [Cluster.after, shape, List.getElem?_append_right late, fresh_found, length,
      List.length_modify, absent]
    have reached := Nat.le_of_not_lt there
    constructor
    · rintro ⟨first, opening⟩
      exact Or.inr ⟨by omega, opening⟩
    · rintro (⟨_, impossible, _⟩ | ⟨rfl, opening⟩)
      · cases impossible
      · exact ⟨by omega, opening⟩

theorem after_self (cluster : Cluster) (me : Int) :
    (cluster.after number me outcome).server me = outcome.server := Function.update_self _ _ _

theorem after_others (cluster : Cluster) (me other : Int) (apart : other ≠ me) :
    (cluster.after number me outcome).server other = cluster.server other :=
  Function.update_of_ne apart _ _

theorem touched_reply (text : Text) (reply : outcome.wire = .reply n text)
    (unshut : connection.closed = false) :
    (touched number n connection outcome).output = connection.output ++ [text] := by
  have fields := moved_fields number n connection outcome
  rw [touched, reply, onWire, if_pos rfl, printOpen, fields.2, unshut, if_neg Bool.false_ne_true,
    print, fields.1]

end Touched

end EE360P.ClusterSteps
