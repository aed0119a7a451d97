import EE360P.CausalLogs
import EE360P.RequestRounds

/-! The requests of a run in the order of their timestamps. An observer logs when
a server puts a request of its own into its queue, builds the text of a line and
takes over the clock of a line. The clock in a line is read once, for all peers;
sending it to one of them moves the clock on. -/

namespace EE360P.RequestOrder
open JavaText ReplicatedServer ServerCluster ClusterSteps ClusterWiring SectionExclusion
open ReliableDelivery GuardedRuns CausalLogs

section Observer
variable (config : Config) (cluster : Cluster) (connection : Connection) (outcome : Outcome)

abbrev Log := List (Event Int TimeStamp Line)

/-- The clock that a server's line carries. -/
def carriedClock : Line → Int
  | .command _ => 0
  | .request logicalClock _ => logicalClock
  | .release logicalClock _ => logicalClock
  | .update logicalClock _ _ => logicalClock

/-- The line whose clock `setLogicalClockReceive` takes over in the next stretch. -/
def received : Option Line :=
  match connection.task, connection.message with
  | .reading, .request logicalClock serverID =>
      if connection.written then some (.request logicalClock serverID) else none
  | .handling, .release logicalClock serverID => some (.release logicalClock serverID)
  | .handling, .update logicalClock serverID client => some (.update logicalClock serverID client)
  | _, _ => none

/-- What `requestCriticalSection` adds to the queue; nothing else adds to it
before the answer to a line. -/
def drawn : Option TimeStamp :=
  if connection.task = .reading then
    outcome.server.pendingQueue[(cluster.server connection.server).pendingQueue.length]?
  else none

/-- The line that a loop of `send` is about. -/
def looping : ServerTask → Option Line
  | .connecting sending _ => some sending.message
  | .writing sending _ _ => some sending.message
  | .awaiting sending _ _ => some sending.message
  | _ => none

/-- The line of a loop that the stretch has begun. -/
def built : Option Line :=
  if looping outcome.task = looping connection.task then none else looping outcome.task

def acts : List (Act TimeStamp Line) :=
  ((received connection).map .handled).toList ++
    ((drawn cluster connection outcome).map .issued).toList ++
    ((built connection outcome).map .built).toList

def events : Log :=
  (acts cluster connection outcome).map fun act =>
    ⟨connection.server, outcome.server.logicalClock, act⟩

def watch : Action → Log → Log
  | .server number, log =>
      match cluster.connections[number]? with
      | none => log
      | some connection =>
          match advance config cluster number connection with
          | none => log
          | some flow => log ++ events cluster connection (flow.finish config connection.server)
  | _, log => log

def observe : Cluster × Log → Action → Option (Cluster × Log) := observed (step config) (watch config)

def start : Cluster × Log := (initial config, [])

omit connection outcome in
theorem watch_outside (action : Action) (log : Log) (outside : ∀ number, action ≠ .server number) :
    watch config cluster action log = log := by
  cases action with
  | server number => exact absurd rfl (outside number)
  | _ => rfl

end Observer

/-! What a stretch does to the clock of its server, and to the lines. -/
section Stretches
variable (config : Config)

/-- A line of `checkCriticalSection`: it has the clock of its server. -/
def Announces (server : Server) (line : Line) : Prop :=
  carriedClock line = server.logicalClock ∧ ∀ logicalClock serverID, line ≠ .request logicalClock serverID

theorem loop_looping (me : Int) (server : Server) (sending : Sending) (ended : ServerTask) (line : Line)
    (carries : looping (sendLoop me server sending ended) = some line) :
    line = sending.message ∨ looping ended = some line := by
  unfold sendLoop at carries
  split at carries
  · exact Or.inl (Option.some.inj carries).symm
  · exact Or.inr carries

theorem release_looping (me : Int) (server : Server) (client : ClientInformation) (response : Text)
    (line : Line) (carries : looping (releaseCriticalSection config me server client response) = some line) :
    Announces server line := by
  rcases loop_looping me server _ _ line carries with rfl | none
  · exact ⟨rfl, nofun⟩
  · cases none

theorem check_looping (me : Int) (server : Server) (line : Line)
    (carries : looping (checkCriticalSection config me server).task = some line) : Announces server line := by
  have checked := check_checked config me server
  generalize checkCriticalSection config me server = outcome at checked carries
  cases checked with
  | served client rest response store smallest waiting result =>
      rcases loop_looping me _ _ _ line carries with rfl | released
      · exact ⟨rfl, nofun⟩
      · have announced := release_looping config me _ client response line released
        exact announced
  | _ => cases carries

theorem resume_looping (me : Int) (server : Server) (sending : Sending) (line : Line)
    (carries : looping ((resume config me server sending).finish config me).task = some line) :
    line = sending.message ∨ Announces server line := by
  have resumed := resume_resumed config me server sending
  generalize resume config me server sending = flow at resumed carries
  cases resumed with
  | next peer rest next => exact Or.inl (Option.some.inj carries).symm
  | requested ended entering => exact Or.inr (check_looping config me server line carries)
  | updated client response ended updating =>
      exact Or.inr (release_looping config me server client response line carries)
  | released client response ended leaving => cases carries

section Exact
variable (exact_ : config.counting = .exact) (server : Server)

include exact_

theorem internal_clock : (setLogicalClockInternal config.counting server).logicalClock =
    server.logicalClock + 1 := by simp only [setLogicalClockInternal, exact_, exact_wrap]

theorem send_clock : (setLogicalClockSend config.counting server).logicalClock =
    server.logicalClock + 1 := by simp only [setLogicalClockSend, exact_, exact_wrap]

theorem receive_clock (sender : Int) : (setLogicalClockReceive config.counting sender server).logicalClock =
    max server.logicalClock sender + 1 := by simp only [setLogicalClockReceive, exact_, exact_wrap]

theorem applied_clock (me sender : Int) (client : ClientInformation) : (applyUpdate config me
    (setLogicalClockReceive config.counting sender server) client).server.logicalClock =
      max server.logicalClock sender + 1 := by
  unfold applyUpdate
  split
  · exact receive_clock config exact_ server sender
  · exact receive_clock config exact_ server sender

end Exact

theorem received_line (connection : Connection) (line : Line) (takes : received connection = some line) :
    connection.message = line ∧
      ((connection.task = .reading ∧ connection.written = true ∧
        ∃ logicalClock serverID, line = .request logicalClock serverID) ∨
      (connection.task = .handling ∧ ∀ logicalClock serverID, line ≠ .request logicalClock serverID)) := by
  unfold received at takes
  split at takes
  · rename_i logicalClock serverID reading message
    split at takes
    · rename_i written
      cases takes
      exact ⟨message, Or.inl ⟨reading, written, logicalClock, serverID, rfl⟩⟩
    · cases takes
  · rename_i logicalClock serverID handling message
    cases takes
    exact ⟨message, Or.inr ⟨handling, nofun⟩⟩
  · rename_i logicalClock serverID client handling message
    cases takes
    exact ⟨message, Or.inr ⟨handling, nofun⟩⟩
  · cases takes

variable {cluster : Cluster} {number : Nat} {connection : Connection} {flow : Flow}
  (moved : Moved config cluster number connection flow)

include moved

/-- A loop goes on, or it is about a new line: one of the section, or the request
that this stretch has put into the queue. -/
theorem moved_looping (line : Line)
    (carries : looping (flow.finish config connection.server).task = some line) :
    looping connection.task = some line ∨ Announces (flowServer flow) line ∨
      (received connection = none ∧
        line = .request (flowServer flow).logicalClock connection.server ∧
        drawn cluster connection (flow.finish config connection.server) =
          some ⟨(flowServer flow).logicalClock, connection.server⟩) := by
  cases moved with
  | queued command reading message empty =>
      rcases resume_looping config connection.server _ _ line carries with rfl | announced
      · have queue := RequestRounds.finish_pending config
          (requestCriticalSection config connection.server (queueCommand config
            (cluster.server connection.server) connection.server command number)) connection.server
        refine Or.inr (Or.inr ⟨by simp [received, reading, message], ?_, ?_⟩)
        · rw [requestCriticalSection, resume_server]
        · rw [drawn, if_pos reading, queue, requestCriticalSection, resume_server]
          simp [queueCommand, setLogicalClockInternal]
      · rw [requestCriticalSection, resume_server]
        exact Or.inr (Or.inl announced)
  | released logicalClock serverID handling message =>
      exact Or.inr (Or.inl (check_looping config connection.server _ line carries))
  | updated logicalClock serverID client handling message =>
      simp only [applyUpdate, Flow.finish] at carries
      split at carries
      · cases carries
      · cases carries
  | unreachable sending peer connecting down =>
      rw [connecting, resume_server]
      exact (resume_looping config connection.server _ sending line carries).imp
        (fun same => by rw [same]; rfl) Or.inl
  | connected sending peer connecting up =>
      rw [connecting]
      exact Or.inl carries
  | wrote sending peer socket writing =>
      rw [writing]
      exact Or.inl carries
  | heard sending peer socket target awaiting found reply =>
      rw [awaiting, resume_server]
      exact (resume_looping config connection.server _ sending line carries).imp
        (fun same => by rw [same]; rfl) Or.inl
  | lost sending peer socket target awaiting found silent dead =>
      rw [awaiting, resume_server]
      exact (resume_looping config connection.server _ sending line carries).imp
        (fun same => by rw [same]; rfl) Or.inl
  | _ => cases carries

variable (exact_ : config.counting = .exact)

include exact_

theorem moved_rises : (cluster.server connection.server).logicalClock ≤ (flowServer flow).logicalClock := by
  cases moved with
  | queued command reading message empty =>
      rw [requestCriticalSection, resume_server]
      change _ ≤ (setLogicalClockInternal config.counting _).logicalClock
      rw [internal_clock config exact_]
      omega
  | requested logicalClock serverID reading message =>
      rw [stay, flowServer, send_clock config exact_, receive_clock config exact_]
      omega
  | refused command reading message full =>
      rw [stay, flowServer, internal_clock config exact_]
      omega
  | released logicalClock serverID handling message =>
      change _ ≤ (setLogicalClockReceive config.counting logicalClock _).logicalClock
      rw [receive_clock config exact_]
      omega
  | updated logicalClock serverID client handling message =>
      rw [flowServer, applied_clock config exact_]
      omega
  | unreachable sending peer connecting down =>
      rw [resume_server]
      exact Int.le_refl _
  | connected sending peer connecting up =>
      rw [flowServer, send_clock config exact_]
      omega
  | heard sending peer socket target awaiting found reply => rw [resume_server]
  | lost sending peer socket target awaiting found silent dead =>
      rw [resume_server]
      exact Int.le_refl _
  | _ => exact Int.le_refl _

theorem moved_received (line : Line) (takes : received connection = some line) :
    carriedClock line < (flowServer flow).logicalClock := by
  obtain ⟨same, taking⟩ := received_line connection line takes
  cases moved with
  | gone reading unwritten left =>
      rcases taking with ⟨_, written, _⟩ | ⟨handling, _⟩
      · rw [unwritten] at written
        cases written
      · rw [reading] at handling
        cases handling
  | requested logicalClock serverID reading message =>
      rw [← same, message, stay, flowServer, send_clock config exact_, receive_clock config exact_]
      simp only [carriedClock]
      omega
  | told reading message =>
      rcases taking with ⟨_, _, logicalClock, serverID, asks⟩ | ⟨handling, _⟩
      · rcases message with ⟨_, _, other⟩ | ⟨_, _, _, other⟩
        · rw [same, asks] at other
          cases other
        · rw [same, asks] at other
          cases other
      · rw [reading] at handling
        cases handling
  | enqueued logicalClock serverID handling message =>
      rcases taking with ⟨reading, _⟩ | ⟨_, unasked⟩
      · rw [handling] at reading
        cases reading
      · exact absurd (same.symm.trans message) (unasked logicalClock serverID)
  | released logicalClock serverID handling message =>
      change _ < (setLogicalClockReceive config.counting logicalClock _).logicalClock
      rw [← same, message, receive_clock config exact_]
      simp only [carriedClock]
      omega
  | updated logicalClock serverID client handling message =>
      rw [← same, message, flowServer, applied_clock config exact_]
      simp only [carriedClock]
      omega
  | queued command reading message empty => simp [received, reading, message] at takes
  | refused command reading message full => simp [received, reading, message] at takes
  | misplaced command handling message => simp [received, handling, message] at takes
  | _ => simp_all

theorem moved_drawn (stamp : TimeStamp)
    (draws : drawn cluster connection (flow.finish config connection.server) = some stamp) :
    stamp = ⟨(flowServer flow).logicalClock, connection.server⟩ ∧ received connection = none ∧
      (cluster.server connection.server).logicalClock < (flowServer flow).logicalClock := by
  have queue := RequestRounds.finish_pending config flow connection.server
  unfold drawn at draws
  split at draws
  · rename_i reading
    rw [queue] at draws
    cases moved with
    | queued command _ message empty =>
        rw [requestCriticalSection, resume_server] at draws ⊢
        have clock := internal_clock config exact_ (cluster.server connection.server)
        simp only [queueCommand, setLogicalClockInternal, List.getElem?_concat_length,
          Option.some.injEq] at draws clock ⊢
        exact ⟨draws.symm, by simp [received, reading, message], by omega⟩
    | enqueued logicalClock serverID handling message =>
        rw [reading] at handling
        cases handling
    | _ => simp_all [stay, flowServer, setLogicalClockSend, setLogicalClockReceive, setLogicalClockInternal]
  · cases draws

end Stretches

/-! What a stretch adds to the log. -/
section Entries
variable (config : Config) (exact_ : config.counting = .exact) {cluster : Cluster} {number : Nat}
  {connection : Connection} {flow : Flow}
  (moved : Moved config cluster number connection flow)

theorem mem_acts (outcome : Outcome) (act : Act TimeStamp Line) :
    act ∈ acts cluster connection outcome ↔
      (∃ line, received connection = some line ∧ act = .handled line) ∨
      (∃ stamp, drawn cluster connection outcome = some stamp ∧ act = .issued stamp) ∨
      (∃ line, built connection outcome = some line ∧ act = .built line) := by
  simp [acts, eq_comm]

theorem mem_issued (log : Log) (stamp : TimeStamp) :
    stamp ∈ issued log ↔ ∃ event ∈ log, event.act = .issued stamp := by
  simp only [issued, List.mem_filterMap]
  constructor
  · rintro ⟨event, member, made⟩
    refine ⟨event, member, ?_⟩
    split at made
    · rename_i request act
      rw [act, Option.some.inj made]
    · cases made
  · rintro ⟨event, member, act⟩
    exact ⟨event, member, by rw [act]⟩

/-- A Request line is built with the request that was put into the queue just
before. -/
def Paired (log : Log) : Prop :=
  ∀ place event logicalClock serverID, log[place]? = some event →
    event.act = .built (.request logicalClock serverID) → ∃ earlier, 0 < place ∧
      log[place - 1]? = some earlier ∧ earlier.process = event.process ∧
        earlier.act = .issued ⟨logicalClock, serverID⟩

theorem paired_append (log more : Log) (paired : Paired log) (also : Paired more) :
    Paired (log ++ more) := by
  intro place event logicalClock serverID found act
  by_cases old : place < log.length
  · rw [List.getElem?_append_left old] at found
    obtain ⟨earlier, positive, before, process, drew⟩ := paired place event _ _ found act
    exact ⟨earlier, positive, by rw [List.getElem?_append_left (by omega), before], process, drew⟩
  · rw [List.getElem?_append_right (by omega)] at found
    obtain ⟨earlier, positive, before, process, drew⟩ := also _ event _ _ found act
    have place_ : place - 1 - log.length = place - log.length - 1 := by omega
    exact ⟨earlier, by omega, by rw [List.getElem?_append_right (by omega), place_, before], process, drew⟩

theorem built_looping (outcome : Outcome) (line : Line) (begins : built connection outcome = some line) :
    looping outcome.task = some line ∧ looping connection.task ≠ some line := by
  unfold built at begins
  split at begins
  · cases begins
  · rename_i other
    exact ⟨begins, fun same => other (begins.trans same.symm)⟩

include moved

/-- A new line has the clock of its server, and a new Request line stands next to
the request that it carries. -/
theorem moved_built (line : Line)
    (begins : built connection (flow.finish config connection.server) = some line) :
    carriedClock line = (flowServer flow).logicalClock ∧
      ∀ logicalClock serverID, line = .request logicalClock serverID → received connection = none ∧
        drawn cluster connection (flow.finish config connection.server) =
          some ⟨logicalClock, serverID⟩ := by
  obtain ⟨carries, fresh⟩ := built_looping _ line begins
  rcases moved_looping config moved line carries with old | announced | ⟨none, rfl, draws⟩
  · exact absurd old fresh
  · exact ⟨announced.1, fun logicalClock serverID asks => absurd asks (announced.2 logicalClock serverID)⟩
  · constructor
    · rfl
    · intro logicalClock serverID asks
      cases asks
      exact ⟨none, draws⟩

theorem events_paired : Paired (events cluster connection (flow.finish config connection.server)) := by
  intro place event logicalClock serverID found act
  have member : event.act ∈ acts cluster connection (flow.finish config connection.server) := by
    obtain ⟨other, inside, rfl⟩ := List.mem_map.mp (List.mem_of_getElem? found)
    exact inside
  rcases (mem_acts _ _).mp member with ⟨line, _, other⟩ | ⟨stamp, _, other⟩ | ⟨line, begins, other⟩
  · rw [act] at other
    cases other
  · rw [act] at other
    cases other
  · rw [act] at other
    cases other
    obtain ⟨none, draws⟩ := (moved_built config moved _ begins).2 logicalClock serverID rfl
    have both : events cluster connection (flow.finish config connection.server) =
        [⟨connection.server, (flow.finish config connection.server).server.logicalClock,
            .issued ⟨logicalClock, serverID⟩⟩,
          ⟨connection.server, (flow.finish config connection.server).server.logicalClock,
            .built (.request logicalClock serverID)⟩] := by
      simp [events, acts, none, draws, begins]
    rw [both] at found ⊢
    match place, found with
    | 0, found =>
        cases found
        cases act
    | 1, found =>
        cases found
        exact ⟨_, Nat.one_pos, rfl, rfl, rfl⟩

include exact_

theorem events_timed : Timed TimeStamp.processID TimeStamp.logicalClock carriedClock
    (events cluster connection (flow.finish config connection.server)) := by
  have clock := (finish_server config connection.server flow).1
  constructor
  · intro event member
    obtain ⟨act, inside, rfl⟩ := List.mem_map.mp member
    rcases (mem_acts _ _).mp inside with ⟨line, takes, rfl⟩ | ⟨stamp, draws, rfl⟩ | ⟨line, begins, rfl⟩
    · simp only [Fits, clock]
      exact moved_received config moved exact_ line takes
    · have same := (moved_drawn config moved exact_ stamp draws).1
      simp only [Fits, clock, same, and_self]
    · simp only [Fits, clock]
      exact (moved_built config moved line begins).1
  · have single : (acts cluster connection (flow.finish config connection.server)).Pairwise
        fun _ second => ∀ request, second ≠ .issued request := by
      cases draws : drawn cluster connection (flow.finish config connection.server) with
      | none =>
          cases takes : received connection <;>
            cases begins : built connection (flow.finish config connection.server) <;>
              simp [acts, draws, takes, begins]
      | some stamp =>
          have none := (moved_drawn config moved exact_ stamp draws).2.1
          cases begins : built connection (flow.finish config connection.server) <;>
            simp [acts, draws, none, begins]
    apply List.pairwise_map.mpr
    apply single.imp
    intro first second other _
    refine ⟨Int.le_refl _, fun issues => ?_⟩
    obtain ⟨request, issuing⟩ := issues
    exact absurd issuing (other request)

theorem events_later (log : Log)
    (past : ∀ event ∈ log, event.clock ≤ (cluster.server event.process).logicalClock)
    (first : Event Int TimeStamp Line) (old : first ∈ log) (second : Event Int TimeStamp Line)
    (new : second ∈ events cluster connection (flow.finish config connection.server)) :
    Advances first second := by
  have clock := (finish_server config connection.server flow).1
  have rises := moved_rises config moved exact_
  have bound := past first old
  obtain ⟨act, inside, rfl⟩ := List.mem_map.mp new
  intro own
  rw [show first.process = connection.server from own] at bound
  constructor
  · simp only [clock]
    omega
  · rintro ⟨request, issuing⟩
    have draws : drawn cluster connection (flow.finish config connection.server) = some request := by
      rcases (mem_acts _ _).mp inside with ⟨line, _, rfl⟩ | ⟨stamp, draws, rfl⟩ | ⟨line, _, rfl⟩
      · cases issuing
      · cases issuing
        exact draws
      · cases issuing
    have faster := (moved_drawn config moved exact_ request draws).2.2
    simp only [clock]
    omega

end Entries

/-! The log of a run. -/
section Runs
variable (config : Config)

def Told (log : Log) (me : Int) (line : Line) : Prop :=
  ∃ event ∈ log, event.process = me ∧ event.act = .built line

structure Logged (cluster : Cluster) (log : Log) : Prop where
  timed : Timed TimeStamp.processID TimeStamp.logicalClock carriedClock log
  past : ∀ event ∈ log, event.clock ≤ (cluster.server event.process).logicalClock
  paired : Paired log
  queued : ∀ server, ∀ entry ∈ (cluster.server server).pendingQueue, entry.processID = server →
    entry ∈ issued log
  looped : ∀ connection ∈ cluster.connections, ∀ line, looping connection.task = some line →
    Told log connection.server line
  travelled : ∀ connection ∈ cluster.connections, ∀ me, connection.caller = .server me →
    Told log me connection.message

theorem start_logged : Logged (initial config) [] := by
  constructor
  · exact timed_empty
  · exact fun _ member => absurd member List.not_mem_nil
  · intro place event _ _ found
    cases found
  · exact fun _ _ member => absurd member List.not_mem_nil
  · exact fun _ member => absurd member List.not_mem_nil
  · exact fun _ member => absurd member List.not_mem_nil

theorem told_more (log more : Log) (me : Int) (line : Line) (told : Told log me line) :
    Told (log ++ more) me line := by
  obtain ⟨event, member, process, act⟩ := told
  exact ⟨event, List.mem_append_left more member, process, act⟩

/-- A Request line carries a request of the server that built it. -/
theorem told_request (log : Log) (paired : Paired log)
    (timed : Timed TimeStamp.processID TimeStamp.logicalClock carriedClock log) (me : Int) (request : TimeStamp)
    (told : Told log me (.request request.logicalClock request.processID)) :
    request.processID = me ∧ request ∈ issued log := by
  obtain ⟨event, member, rfl, act⟩ := told
  obtain ⟨place, found⟩ := List.mem_iff_getElem?.mp member
  obtain ⟨earlier, _, before, process, drew⟩ := paired place event _ _ found act
  have inside := List.mem_of_getElem? before
  have fits := timed.fits earlier inside
  simp only [Fits, drew] at fits
  exact ⟨fits.1.trans process, (mem_issued log request).mpr ⟨earlier, inside, drew⟩⟩

variable {before : Cluster} {log : Log} (logged : Logged before log)

include logged

theorem outside_logged (after : Cluster) (action : Action) (stepped : Stepped config before action after)
    (outside : ∀ number, action ≠ .server number) : Logged after log := by
  have servers := (outside_same config before after action stepped outside).1
  constructor
  · exact logged.timed
  · rw [servers]
    exact logged.past
  · exact logged.paired
  · rw [servers]
    exact logged.queued
  · intro later member line carries
    obtain ⟨n, present⟩ := List.mem_iff_getElem?.mp member
    rcases outside_found config before after action stepped outside n later present with
      ⟨old, there, rfl | rfl⟩ | ⟨_, number, call, server, _, _, _, rfl⟩
    · exact logged.looped later (List.mem_of_getElem? there) line carries
    · exact logged.looped old (List.mem_of_getElem? there) line carries
    · cases carries
  · intro later member me caller
    obtain ⟨n, present⟩ := List.mem_iff_getElem?.mp member
    rcases outside_found config before after action stepped outside n later present with
      ⟨old, there, rfl | rfl⟩ | ⟨_, number, call, server, _, _, _, rfl⟩
    · exact logged.travelled later (List.mem_of_getElem? there) me caller
    · exact logged.travelled old (List.mem_of_getElem? there) me caller
    · cases caller

variable (wired : Wired config before) {number : Nat} {connection : Connection} {flow : Flow}
  (found : before.connections[number]? = some connection)
  (moved : Moved config before number connection flow)

omit logged in
include moved in
/-- What is in a queue was there before, or is a request of this server, or came
with a Request line. -/
theorem moved_entry (entry : TimeStamp) (member : entry ∈ (flowServer flow).pendingQueue) :
    entry ∈ (before.server connection.server).pendingQueue ∨
      drawn before connection (flow.finish config connection.server) = some entry ∨
      connection.message = .request entry.logicalClock entry.processID := by
  have queue := RequestRounds.finish_pending config flow connection.server
  cases moved with
  | queued command reading message empty =>
      have added : (flowServer (requestCriticalSection config connection.server (queueCommand config
          (before.server connection.server) connection.server command number))).pendingQueue =
            (before.server connection.server).pendingQueue ++ [⟨(queueCommand config
              (before.server connection.server) connection.server command number).logicalClock,
                connection.server⟩] := by
        rw [requestCriticalSection, resume_server]
        rfl
      rw [added] at member
      rcases List.mem_append.mp member with old | new
      · exact Or.inl old
      · rw [List.mem_singleton.mp new, drawn, if_pos reading, queue, added]
        exact Or.inr (Or.inl (by simp))
  | enqueued logicalClock serverID handling message =>
      rcases List.mem_append.mp member with old | new
      · exact Or.inl old
      · rw [List.mem_singleton.mp new]
        exact Or.inr (Or.inr message)
  | released logicalClock serverID handling message => exact Or.inl (List.mem_of_mem_eraseP member)
  | updated logicalClock serverID client handling message =>
      simp only [flowServer, applyUpdate] at member
      split at member
      · exact Or.inl member
      · exact Or.inl member
  | unreachable sending peer connecting down =>
      rw [resume_server] at member
      exact Or.inl (List.mem_of_mem_filter member)
  | heard sending peer socket target awaiting reached reply =>
      rw [resume_server] at member
      exact Or.inl member
  | lost sending peer socket target awaiting reached silent dead =>
      rw [resume_server] at member
      exact Or.inl (List.mem_of_mem_filter member)
  | _ => exact Or.inl member

omit logged in
theorem events_noted (outcome : Outcome) (act : Act TimeStamp Line)
    (inside : act ∈ acts before connection outcome) :
    ∃ event ∈ events before connection outcome, event.process = connection.server ∧ event.act = act :=
  ⟨_, List.mem_map.mpr ⟨act, inside, rfl⟩, rfl, rfl⟩

include found

-- A line was told before, or it is the one that this stretch has built.
theorem looping_told (outcome : Outcome) (line : Line) (carries : looping outcome.task = some line) :
    Told (log ++ events before connection outcome) connection.server line := by
  by_cases same : looping outcome.task = looping connection.task
  · exact told_more log _ _ _
      (logged.looped connection (List.mem_of_getElem? found) line (same ▸ carries))
  · obtain ⟨event, inside, noted⟩ := events_noted outcome (.built line)
      ((mem_acts outcome _).mpr (Or.inr (Or.inr ⟨line, by rw [built, if_neg same, carries], rfl⟩)))
    exact ⟨event, List.mem_append_right log inside, noted⟩

include wired moved

theorem entry_issued (server : Int) (entry : TimeStamp) (own : entry.processID = server)
    (member : entry ∈ ((before.after number connection.server
      (flow.finish config connection.server)).server server).pendingQueue) :
    entry ∈ issued (log ++ events before connection (flow.finish config connection.server)) := by
  have kept : entry ∈ issued log →
      entry ∈ issued (log ++ events before connection (flow.finish config connection.server)) := by
    intro old
    obtain ⟨event, inside, act⟩ := (mem_issued log entry).mp old
    exact (mem_issued _ entry).mpr ⟨event, List.mem_append_left _ inside, act⟩
  by_cases me : server = connection.server
  · rw [me, after_self, RequestRounds.finish_pending config flow] at member
    rcases moved_entry config moved entry member with old | draws | message
    · exact kept (logged.queued connection.server entry old (own.trans me))
    · obtain ⟨event, inside, _, act⟩ := events_noted _ (.issued entry)
        ((mem_acts _ _).mpr (Or.inr (Or.inl ⟨entry, draws, rfl⟩)))
      exact (mem_issued _ entry).mpr ⟨event, List.mem_append_right log inside, act⟩
    · rcases (wired.connections number connection found).line with ⟨command, other, _⟩ | messaging
      · rw [message] at other
        cases other
      · obtain ⟨sender, caller⟩ := messaging.caller
        have told := logged.travelled connection (List.mem_of_getElem? found) sender caller
        rw [message] at told
        exact kept (told_request log logged.paired logged.timed sender entry told).2
  · rw [after_others _ _ _ _ _ me] at member
    exact kept (logged.queued server entry member own)

theorem handled_logged (exact_ : config.counting = .exact) :
    Logged (before.after number connection.server (flow.finish config connection.server))
      (log ++ events before connection (flow.finish config connection.server)) := by
  have clock := (finish_server config connection.server flow).1
  have rises := moved_rises config moved exact_
  constructor
  · apply timed_append _ logged.timed (events_timed config exact_ moved)
    exact events_later config exact_ moved log logged.past
  · intro event member
    rcases List.mem_append.mp member with old | new
    · have bound := logged.past event old
      by_cases me : event.process = connection.server
      · rw [me] at bound
        rw [me, after_self, clock]
        omega
      · rwa [after_others _ _ _ _ _ me]
    · obtain ⟨act, _, rfl⟩ := List.mem_map.mp new
      rw [after_self]
  · exact paired_append log _ logged.paired (events_paired config moved)
  · intro server entry member own
    exact entry_issued config logged wired found moved server entry own member
  · intro later member line carries
    obtain ⟨n, present⟩ := List.mem_iff_getElem?.mp member
    rcases (after_found _ _ _ _ _ _).mp present with ⟨old, there, rfl⟩ | ⟨_, _, _, _, rfl⟩
    · rw [touched_server]
      rw [touched_task] at carries
      by_cases own : n = number
      · subst own
        rw [found, Option.some.injEq] at there
        subst there
        rw [if_pos rfl] at carries
        exact looping_told logged found _ line carries
      · rw [if_neg own] at carries
        exact told_more log _ _ _ (logged.looped old (List.mem_of_getElem? there) line carries)
    · cases carries
  · intro later member me caller
    obtain ⟨n, present⟩ := List.mem_iff_getElem?.mp member
    rcases (after_found _ _ _ _ _ _).mp present with ⟨old, there, rfl⟩ | ⟨_, peer, message, opening, rfl⟩
    · rw [touched_caller] at caller
      rw [touched_message]
      exact told_more log _ _ _ (logged.travelled old (List.mem_of_getElem? there) me caller)
    · cases caller
      obtain ⟨sending, connecting, _, rfl⟩ :=
        RequestRounds.moved_opened config before number connection flow moved peer message opening
      apply told_more
      exact logged.looped connection (List.mem_of_getElem? found) _ (by rw [connecting]; rfl)

omit wired logged found moved in
theorem step_logged (exact_ : config.counting = .exact) (before after : Cluster × Log) (action : Action)
    (wired : Wired config before.1) (logged : Logged before.1 before.2)
    (taken : observe config before action = some after) : Logged after.1 after.2 := by
  obtain ⟨stepping, watched⟩ := observed_taken (step config) (watch config) before after action taken
  have stepped := step_stepped config before.1 after.1 action (wired_readable config before.1 wired) stepping
  rw [watched]
  by_cases outside : ∀ number, action ≠ .server number
  · rw [watch_outside config before.1 action before.2 outside]
    exact outside_logged config logged after.1 action stepped outside
  · obtain ⟨cluster, log⟩ := after
    cases stepped with
    | handled number connection flow found alive advanced moved =>
        simp only [watch, found, advanced]
        exact handled_logged config logged wired found moved exact_
    | _ => simp at outside

end Runs

section Claims
variable (config : Config)

/-- The clocks of the servers never fall, and the timestamps order the requests. -/
structure Ordered (cluster : Cluster) (log : Log) : Prop where
  rises : ∀ action after, step config cluster action = some after →
    ∀ server, (cluster.server server).logicalClock ≤ (after.server server).logicalClock
  distinct : (issued log).Nodup
  queued : ∀ server, ∀ entry ∈ (cluster.server server).pendingQueue, entry.processID = server →
    entry ∈ issued log
  paired : Paired log
  sent : ∀ connection ∈ cluster.connections, ∀ request, connection.message = RequestRounds.asking request →
    connection.caller = .server request.processID ∧ request ∈ issued log
  told : ∀ connection ∈ cluster.connections, ∀ me, connection.caller = .server me →
    Told log me connection.message
  ordered : ∀ early late first second, Precedes log early late → log[early]? = some first →
    log[late]? = some second → ∀ left right, first.act = .issued left → second.act = .issued right →
      left.compare right = 1

theorem compare_sooner (left right : TimeStamp) (sooner : left.logicalClock < right.logicalClock) :
    left.compare right = 1 := if_pos sooner

theorem step_rises (exact_ : config.counting = .exact) (before after : Cluster) (action : Action)
    (wired : Wired config before) (taken : step config before action = some after) (server : Int) :
    (before.server server).logicalClock ≤ (after.server server).logicalClock := by
  have stepped := step_stepped config before after action (wired_readable config before wired) taken
  by_cases outside : ∀ number, action ≠ .server number
  · rw [(outside_same config before after action stepped outside).1]
  · cases stepped with
    | handled number connection flow found alive advanced moved =>
        have rises := moved_rises config moved exact_
        by_cases me : server = connection.server
        · rw [me, after_self, (finish_server config connection.server flow).1]
          exact rises
        · rw [after_others _ _ _ _ _ me]
    | _ => simp at outside

/-- Every run of the cluster is a run with a log. -/
theorem observe_reachable (cluster : Cluster) :
    Reachable (step config) (fun _ _ => True) (initial config) cluster ↔
      ∃ log, Reachable (observe config) (fun _ _ => True) (start config) (cluster, log) :=
  observed_reachable (step config) (watch config) (fun _ _ => True) (initial config) cluster []

theorem clocks_order_requests (exact_ : config.counting = .exact) (cluster : Cluster) (log : Log)
    (reached : Reachable (observe config) (fun _ _ => True) (start config) (cluster, log)) :
    Ordered config cluster log := by
  obtain ⟨wired, logged⟩ := reachable_invariant
    (fun both : Cluster × Log => Wired config both.1 ∧ Logged both.1 both.2)
    ⟨initial_wired config, start_logged config⟩
    (fun before action after ⟨wired, logged⟩ _ taken =>
      ⟨step_wired config before.1 after.1 action wired
          (observed_taken (step config) (watch config) before after action taken).1,
        step_logged config exact_ before after action wired logged taken⟩) reached
  constructor
  · intro action after taken server
    exact step_rises config exact_ cluster after action wired taken server
  · exact issued_nodup logged.timed
  · exact logged.queued
  · exact logged.paired
  · intro connection member request message
    obtain ⟨n, found⟩ := List.mem_iff_getElem?.mp member
    rcases (wired.connections n connection found).line with ⟨command, other, _⟩ | messaging
    · rw [message] at other
      cases other
    · obtain ⟨sender, caller⟩ := messaging.caller
      have told := logged.travelled connection member sender caller
      rw [message] at told
      obtain ⟨own, drew⟩ := told_request log logged.paired logged.timed sender request told
      exact ⟨by rw [caller, own], drew⟩
  · exact logged.travelled
  · intro early late first second precedes here there left right made also
    exact compare_sooner left right
      (requests_ordered logged.timed early late precedes first second here there left right made also)

/-- Two servers with exact clocks. -/
def exactServers : Config := ⟨.exact, 2, [⟨"phone".toList, 5⟩], by decide⟩

-- Server 2 draws a request after it has handled that of server 1.
def secondFollows : List Action :=
  [.submit "list".toList [1], .submit "list".toList [2], .client 0, .client 0, .server 0, .server 0,
    .server 0, .server 1, .client 1, .client 1, .server 2]

theorem clocks_order_two : ∃ both,
    replay (observe exactServers) (fun _ _ => True) (start exactServers) secondFollows = some both ∧
      issued both.2 = [⟨2, 1⟩, ⟨5, 2⟩] ∧ Ordered exactServers both.1 both.2 := by
  have drawn : ((replay (observe exactServers) (fun _ _ => True) (start exactServers) secondFollows).any
      fun both => issued both.2 == [⟨2, 1⟩, ⟨5, 2⟩]) = true := by decide +kernel
  obtain ⟨both, played, requests⟩ := (Option.any_eq_true _ _).mp drawn
  exact ⟨both, played, beq_iff_eq.mp requests,
    clocks_order_requests exactServers rfl both.1 both.2 (replayed _ _ played)⟩

end Claims

end EE360P.RequestOrder
