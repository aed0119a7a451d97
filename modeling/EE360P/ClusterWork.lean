import EE360P.CommandTokens
import EE360P.ConnectionSums
import EE360P.MeteredRuns

/-! How long handlers and `Client.send` can go on. Every step of theirs uses up
something: a loop of `send` comes nearer to its end, a line nearer to its answer, a
client nearer to the end of its list of servers. Only a call of `Client.send` brings in
new work. Crashes, reads that time out and clocks that overflow make no difference. The
`alive` lines are no steps here: a command that throws leaves `StillAlive` printing
and its client reading for good. -/

namespace EE360P.ClusterWork
open JavaText ReplicatedServer ServerCluster ClusterSteps ClusterWiring ConnectionSums
open SectionExclusion CommandTokens GuardedRuns MeteredRuns

/-! The steps left, with those of the handlers of the lines that are still to be sent. -/
section Prices
variable (config : Config)

/-- What follows a loop of `send`. -/
def purposeLeft : Purpose → Nat
  | .entering => 1
  | .updating _ _ => 7 * config.serverInstances + 2
  | .leaving _ _ => 2

/-- A command whose turn has come: the `Update` and the `Release` loop, and the reply. -/
def serving : Nat := 14 * config.serverInstances + 2

/-- A client's line: the `Request` loop, and the command's turn. -/
def accepting : Nat := 21 * config.serverInstances + 4

/-- One attempt of `Client.send` at one server. -/
def attempting : Nat := accepting config + 3

def taskLeft (message : Line) : ServerTask → Nat
  | .reading => match message with
      | .command _ => accepting config
      | _ => 4
  | .answering => 3
  | .handling => 2
  | .connecting sending _ => 7 * (sending.rest.length + 1) + purposeLeft config sending.purpose
  | .writing sending _ _ => 7 * sending.rest.length + 2 + purposeLeft config sending.purpose
  | .awaiting sending _ _ => 7 * sending.rest.length + 1 + purposeLeft config sending.purpose
  | .replying _ _ => 2
  | .closing => 1
  | .finished => 0
  | .failed => 0

def connectionLeft (connection : Connection) : Nat :=
  taskLeft config connection.message connection.task

def waitingLeft (server : Server) : Nat := serving config * server.clientCommands.length

def callLeft (call : Call) : Nat :=
  match call.progress with
  | .connecting => attempting config * call.servers.length + 1
  | .writing _ => attempting config * call.servers.tail.length + 3
  | .awaiting _ => attempting config * call.servers.tail.length + 2
  | .returned _ _ => 0
  | .exhausted => 0

def queuesLeft (server : Int → Server) : Nat :=
  (config.serverIDs.map fun serverID => waitingLeft config (server serverID)).sum

def workLeft (cluster : Cluster) : Nat :=
  total (connectionLeft config) cluster.connections + queuesLeft config cluster.server +
    (cluster.calls.map (callLeft config)).sum

/-- The steps of the program itself, with the reads that time out. -/
def works : Action → Bool
  | .submit _ _ => false
  | .client _ => true
  | .timeout _ => true
  | .server _ => true
  | .crash _ => false

def income : Action → Nat
  | .submit _ servers => attempting config * servers.length + 1
  | _ => 0

end Prices

section Loops
variable (config : Config) (me : Int) (message : Line)

theorem next_shorter (server : Server) (peers : List Int) (peer : Int) (rest : List Int)
    (next : nextServer me server peers = some (peer, rest)) : rest.length + 1 ≤ peers.length := by
  induction peers with
  | nil => cases next
  | cons first others ih =>
      rw [nextServer] at next
      split at next
      · cases next
        exact Nat.le_refl _
      · exact Nat.le_succ_of_le (ih next)

theorem loop_left (server : Server) (sending : Sending) (ended : ServerTask)
    (after : taskLeft config message ended ≤ purposeLeft config sending.purpose) :
    taskLeft config message (sendLoop me server sending ended) ≤
      7 * sending.rest.length + purposeLeft config sending.purpose := by
  unfold sendLoop
  cases next : nextServer me server sending.rest with
  | some pair =>
      have shorter := next_shorter me server sending.rest pair.1 pair.2 next
      simp only [taskLeft]
      omega
  | none => exact Nat.le_add_left_of_le after

theorem serverIDs_length : config.serverIDs.length = config.serverInstances := by
  simp [Config.serverIDs]

theorem release_left (server : Server) (client : ClientInformation) (response : Text) :
    taskLeft config message (releaseCriticalSection config me server client response) ≤
      7 * config.serverInstances + 2 := by
  have loop := loop_left config me message server
    ⟨.release server.logicalClock me, .leaving client response, config.serverIDs⟩
    (.replying client response) (Nat.le_refl 2)
  rwa [serverIDs_length] at loop

theorem update_left (server : Server) (client : ClientInformation) (response : Text) :
    taskLeft config message (sendUpdate config me server client response) ≤ serving config := by
  have loop := loop_left config me message server
    ⟨.update server.logicalClock me client, .updating client response, config.serverIDs⟩ _
    (release_left config me message server client response)
  rw [serverIDs_length, purposeLeft] at loop
  rw [serving, sendUpdate]
  omega

/-- What an outcome leaves to be done: by its handler, for the commands that wait at its
server, and by the handler of the line it sends. -/
def outcomeLeft (outcome : Outcome) : Nat :=
  taskLeft config message outcome.task + waitingLeft config outcome.server +
    total (connectionLeft config) (fresh me outcome.wire)

theorem silent_left (server : Server) (task : ServerTask) (executed : List Execution) :
    outcomeLeft config me message ⟨server, task, .silent, executed⟩ =
      taskLeft config message task + waitingLeft config server := rfl

theorem stay_left (server : Server) (task : ServerTask) :
    outcomeLeft config me message ((stay server task).finish config me) =
      taskLeft config message task + waitingLeft config server := rfl

/-- A check costs one step, unless it begins what was reserved for a waiting command. -/
theorem check_left (server : Server) :
    outcomeLeft config me message (checkCriticalSection config me server) ≤
      1 + waitingLeft config server := by
  have checked := check_checked config me server
  generalize checkCriticalSection config me server = outcome at checked ⊢
  cases checked with
  | behind larger => exact Nat.le_refl _
  | idle smallest empty => exact Nat.add_le_add_right (Nat.zero_le 1) _
  | thrown client rest thrown smallest waiting failed =>
      rw [silent_left]
      simp only [taskLeft, waitingLeft, waiting, List.length_cons, Nat.mul_add]
      omega
  | served client rest response store smallest waiting result =>
      have update := update_left config me message
        { server with clientCommands := rest, store } client response
      rw [silent_left]
      simp only [waitingLeft, waiting, List.length_cons, Nat.mul_add]
      omega

theorem resume_left (server : Server) (sending : Sending) :
    outcomeLeft config me message ((resume config me server sending).finish config me) ≤
      7 * sending.rest.length + purposeLeft config sending.purpose + waitingLeft config server := by
  have resumed := resume_resumed config me server sending
  generalize resume config me server sending = flow at resumed ⊢
  cases resumed with
  | next peer rest next =>
      have shorter := next_shorter me server sending.rest peer rest next
      rw [stay_left, taskLeft]
      dsimp only
      omega
  | requested ended entering =>
      have check := check_left config me message server
      rw [entering, purposeLeft]
      exact Nat.le_trans check (Nat.add_le_add_right (Nat.le_add_left _ _) _)
  | updated client response ended updating =>
      have release := release_left config me message server client response
      rw [stay_left, updating, purposeLeft]
      omega
  | released client response ended leaving =>
      rw [stay_left, leaving, purposeLeft, taskLeft]
      omega

end Loops

section Steps
variable (config : Config)

theorem update_fits (me : Int) (message : Line) (server : Server) (client : ClientInformation) :
    outcomeLeft config me message (applyUpdate config me server client) ≤
      1 + waitingLeft config server := by
  unfold applyUpdate
  split
  · exact Nat.add_le_add_right (Nat.zero_le 1) _
  · exact Nat.le_refl _

theorem reading_left (message : Line) : 4 ≤ taskLeft config message .reading := by
  cases message with
  | command text => exact Nat.le_add_left 4 _
  | _ => exact Nat.le_refl 4

/-- A step that leaves the queue alone and opens nothing. -/
theorem fewer_left (me : Int) (message : Line) (old : Server) (before : ServerTask)
    (outcome : Outcome) (same : outcome.server.clientCommands = old.clientCommands)
    (unopened : fresh me outcome.wire = [])
    (fewer : taskLeft config message outcome.task < taskLeft config message before) :
    1 + outcomeLeft config me message outcome ≤
      taskLeft config message before + waitingLeft config old := by
  rw [outcomeLeft, unopened, waitingLeft, waitingLeft, same]
  simp only [total, List.map_nil, List.sum_nil]
  omega

/-- A loop of `send` that goes on after one peer. -/
theorem resumed_left (me : Int) (message : Line) (old server : Server) (before : ServerTask)
    (sending : Sending) (same : server.clientCommands = old.clientCommands)
    (more : 7 * sending.rest.length + purposeLeft config sending.purpose <
      taskLeft config message before) :
    1 + outcomeLeft config me message ((resume config me server sending).finish config me) ≤
      taskLeft config message before + waitingLeft config old := by
  have loop := resume_left config me message server sending
  rw [waitingLeft, same, ← waitingLeft] at loop
  omega

theorem sent_left (history : List Execution) (me peer : Int) (message : Line)
    (sound : MessageSound config history message) :
    connectionLeft config (opened peer (.server me) message) = 4 := by
  cases message with
  | command text => exact sound.elim
  | _ => rfl

/-- A handler's step pays for itself and for what it leaves to be done. -/
theorem moved_left (cluster : Cluster) (number : Nat) (connection : Connection) (flow : Flow)
    (wired : Wired config cluster) (found : cluster.connections[number]? = some connection)
    (moved : Moved config cluster number connection flow) :
    1 + outcomeLeft config connection.server connection.message
          (flow.finish config connection.server) ≤
      taskLeft config connection.message connection.task +
        waitingLeft config (cluster.server connection.server) := by
  cases moved with
  | gone reading unwritten left =>
      refine fewer_left config _ _ _ _ _ rfl rfl ?_
      rw [reading]
      exact Nat.lt_of_lt_of_le (Nat.succ_pos 3) (reading_left config _)
  | requested logicalClock serverID reading message =>
      refine fewer_left config _ _ _ _ _ rfl rfl ?_
      rw [reading]
      exact reading_left config _
  | told reading message =>
      refine fewer_left config _ _ _ _ _ rfl rfl ?_
      rw [reading]
      exact reading_left config _
  | queued command reading message empty =>
      have loop := resume_left config connection.server (.command command)
      rw [requestCriticalSection, reading, message]
      refine Nat.le_trans (Nat.add_le_add_left (loop _ _) 1) ?_
      simp only [serverIDs_length, purposeLeft, waitingLeft, queueCommand, empty, serving, taskLeft,
        accepting, List.length_singleton, List.length_nil]
      omega
  | refused command reading message full =>
      refine fewer_left config _ _ _ _ _ rfl rfl ?_
      rw [reading]
      exact Nat.lt_of_lt_of_le (Nat.succ_pos 3) (reading_left config _)
  | answered text answering plain =>
      refine fewer_left config _ _ _ _ _ rfl rfl ?_
      rw [answering]
      exact Nat.lt_succ_self 2
  | enqueued logicalClock serverID handling message =>
      refine fewer_left config _ _ _ _ _ rfl rfl ?_
      rw [handling]
      exact Nat.lt_succ_self 1
  | released logicalClock serverID handling message =>
      have check := check_left config connection.server connection.message
      rw [handling, Flow.finish]
      exact Nat.le_trans (Nat.add_le_add_left (check _) 1) (Nat.add_assoc 1 1 _).ge
  | updated logicalClock serverID client handling message =>
      have fits := update_fits config connection.server connection.message
      rw [handling, Flow.finish]
      exact Nat.le_trans (Nat.add_le_add_left (fits _ _) 1) (Nat.add_assoc 1 1 _).ge
  | misplaced command handling message =>
      refine fewer_left config _ _ _ _ _ rfl rfl ?_
      rw [handling]
      exact Nat.succ_pos 1
  | unreachable sending peer connecting down =>
      refine resumed_left config _ _ _ _ _ sending rfl ?_
      rw [connecting, taskLeft]
      omega
  | connected sending peer connecting up =>
      have sound := (wired.connections number connection found).task
      rw [connecting] at sound
      have sent := sent_left config cluster.history connection.server peer sending.message
        sound.1.message
      simp only [Flow.finish, outcomeLeft, fresh, total, List.map_cons, List.map_nil, List.sum_cons,
        List.sum_nil, sent, connecting, taskLeft, waitingLeft, setLogicalClockSend]
      omega
  | wrote sending peer socket writing =>
      refine fewer_left config _ _ _ _ _ rfl rfl ?_
      rw [writing, Flow.finish, taskLeft, taskLeft]
      omega
  | heard sending peer socket target awaiting reached reply =>
      refine resumed_left config _ _ _ _ _ sending rfl ?_
      rw [awaiting, taskLeft]
      omega
  | lost sending peer socket target awaiting reached silent dead =>
      refine resumed_left config _ _ _ _ _ sending rfl ?_
      rw [awaiting, taskLeft]
      omega
  | replied client response replying =>
      refine fewer_left config _ _ _ _ _ rfl rfl ?_
      rw [replying]
      exact Nat.lt_succ_self 1
  | closed closing =>
      refine fewer_left config _ _ _ _ _ rfl rfl ?_
      rw [closing]
      exact Nat.lt_succ_self 0

theorem queues_updated (me : Int) (known : me ∈ config.serverIDs) (server : Int → Server)
    (changed : Server) : queuesLeft config (Function.update server me changed) +
      waitingLeft config (server me) = queuesLeft config server + waitingLeft config changed := by
  have once := ids_nodup config
  unfold queuesLeft
  generalize config.serverIDs = ids at known once
  induction ids with
  | nil => cases known
  | cons first rest ih =>
      obtain ⟨absent, once⟩ := List.nodup_cons.mp once
      rw [List.map_cons, List.sum_cons, List.map_cons, List.sum_cons]
      by_cases here : me = first
      · subst here
        have same : (rest.map fun serverID =>
            waitingLeft config (Function.update server me changed serverID)) =
              rest.map fun serverID => waitingLeft config (server serverID) := by
          refine List.map_congr_left fun serverID member => ?_
          rw [Function.update_of_ne (ne_of_mem_of_not_mem member absent)]
        rw [same, Function.update_self]
        omega
      · have later := ih ((List.mem_cons.mp known).resolve_left here) once
        rw [Function.update_of_ne (Ne.symm here)]
        omega

theorem left_steady : Steady (connectionLeft config) := by
  intro connection later _ message task
  rw [connectionLeft, connectionLeft, message, task]

theorem handled_left (before : Cluster) (number : Nat) (connection : Connection) (flow : Flow)
    (wired : Wired config before) (found : before.connections[number]? = some connection)
    (moved : Moved config before number connection flow) :
    1 + workLeft config (before.after number connection.server
      (flow.finish config connection.server)) ≤ workLeft config before := by
  have paid := moved_left config before number connection flow wired found moved
  have known := (wired.connections number connection found).known
  have sum := after_total (connectionLeft config) (left_steady config) before number
    connection.server (flow.finish config connection.server) connection found
  have queues := queues_updated config connection.server known before.server
    (flow.finish config connection.server).server
  simp only [outcomeLeft] at paid
  simp only [workLeft, Cluster.after, connectionLeft, setTask] at sum queues ⊢
  omega

theorem call_left (cluster : Cluster) (number : Nat) (old call : Call)
    (found : cluster.calls[number]? = some old) :
    ((cluster.calls.set number call).map (callLeft config)).sum + callLeft config old =
      (cluster.calls.map (callLeft config)).sum + callLeft config call := by
  have changed := ListEntries.modify_sum (callLeft config) (fun _ => call) cluster.calls number old
    found
  rwa [List.modify_eq_set_getElem?, found] at changed

/-- A client's step pays for itself; a new call brings in what it may use up. -/
theorem stepped_left (before after : Cluster) (action : Action) (wired : Wired config before)
    (stepped : Stepped config before action after) :
    (works action).toNat + workLeft config after ≤ workLeft config before + income config action := by
  have calls := call_left config before
  cases stepped with
  | submitted command servers valid known =>
      simp only [workLeft, List.map_append, List.sum_append, List.map_cons, List.map_nil,
        List.sum_cons, List.sum_nil, callLeft, income, works, Bool.toNat_false]
      omega
  | exhausted number call found connecting none =>
      have changed := calls number call { call with progress := .exhausted } found
      simp only [callLeft, connecting] at changed
      simp only [workLeft, setCall, works, Bool.toNat_true, income]
      omega
  | skipped number call server rest found connecting first down =>
      have changed := calls number call { call with servers := rest } found
      simp only [callLeft, connecting, first, List.length_cons, Nat.mul_add] at changed
      simp only [workLeft, setCall, works, Bool.toNat_true, income, connecting]
      rw [attempting] at changed
      omega
  | connected number call server rest found connecting first up =>
      have changed := calls number call
        { call with progress := .writing before.connections.length } found
      simp only [callLeft, connecting, first, List.length_cons, List.tail_cons, Nat.mul_add,
        Nat.mul_one] at changed
      simp only [workLeft, setCall, works, Bool.toNat_true, income, total, List.map_append,
        List.sum_append, List.map_cons, List.map_nil, List.sum_cons, List.sum_nil, connectionLeft,
        opened, taskLeft, first]
      rw [attempting] at changed
      omega
  | wrote number call socket found writing =>
      have changed := calls number call { call with progress := .awaiting socket } found
      have kept := ListEntries.modify_map_same (connectionLeft config) write
        (fun connection => left_steady config connection _ rfl rfl rfl) before.connections socket
      simp only [callLeft, writing] at changed
      simp only [workLeft, setCall, works, Bool.toNat_true, income, total, kept]
      omega
  | returned number call socket target response found awaiting reached reply =>
      have changed := calls number call { call with progress := .returned socket response } found
      simp only [callLeft, awaiting] at changed
      simp only [workLeft, setCall, works, Bool.toNat_true, income]
      omega
  | retried number call socket target found awaiting reached silent dead =>
      have changed := calls number call
        { call with servers := call.servers.tail, progress := .connecting } found
      simp only [callLeft, awaiting] at changed
      simp only [workLeft, setCall, works, Bool.toNat_true, income]
      omega
  | timedOut number call socket target found awaiting reached silent =>
      have changed := calls number call
        { call with servers := call.servers.tail, progress := .connecting } found
      simp only [callLeft, awaiting] at changed
      simp only [workLeft, setCall, works, Bool.toNat_true, income]
      omega
  | handled number connection flow found alive advanced moved =>
      exact handled_left config before number connection flow wired found moved
  | crashed serverID known => exact (Nat.zero_add _).le

theorem cluster_metered : Metered (step config) (fun _ _ => True) (Wired config) works
    (income config) (workLeft config) := by
  constructor
  · intro before action after wired _ taken
    exact step_wired config before after action wired taken
  · intro before action after wired _ taken
    exact stepped_left config before after action wired (step_stepped config before after action
      (wired_readable config before wired) taken)

theorem initial_left : workLeft config (initial config) = 0 := by
  have none : ∀ ids : List Int, (ids.map fun _ => waitingLeft config config.server).sum = 0 := by
    intro ids
    simp [waitingLeft, Config.server]
  simp only [workLeft, initial, total, queuesLeft, List.map_nil, List.sum_nil, none, Nat.add_zero]

end Steps

section Runs
variable (config : Config)

end Runs

/-- One client with a list of two servers, of which the first one crashes at once. -/
def failsOver : List Action :=
  [.submit "list".toList [1, 2], .crash 1, .client 0, .client 0, .client 0, .server 0]

end EE360P.ClusterWork
