import EE360P.CommandTokens
import EE360P.LegibleReplies

/-! No server gives up on another one that is alive: a handler prints its answer
before it can close the socket, so `nextLine` of the server that waits finds it.
So without a crash every command that its own server ran is handed out to every
server, and once all handlers have ended each has run it. -/

namespace EE360P.ReliableDelivery
open JavaText ReplicatedServer ServerCluster ClusterSteps ClusterWiring SectionExclusion
open CommandTokens LegibleReplies GuardedRuns

section Sockets
variable (config : Config)

/-- The line a handler has sent or is about to send, and over which socket. -/
def plugged : ServerTask → Option (Line × Nat)
  | .writing sending _ socket => some (sending.message, socket)
  | .awaiting sending _ socket => some (sending.message, socket)
  | _ => none

/-- The loop of `send` that waits at a socket, for which peer, at which socket. -/
def plug : ServerTask → Option (Sending × Int × Nat)
  | .writing sending peer socket => some (sending, peer, socket)
  | .awaiting sending peer socket => some (sending, peer, socket)
  | _ => none

theorem plugged_plug (task : ServerTask) :
    plugged task = (plug task).map fun at_ => (at_.1.message, at_.2.2) := by
  cases task <;> rfl

theorem onward_unplugged (task : ServerTask) (onward : Onward task) : plug task = none := by
  cases task with
  | writing sending peer socket => exact onward.elim
  | awaiting sending peer socket => exact onward.elim
  | _ => rfl

variable (cluster : Cluster) (number : Nat) (connection : Connection) (flow : Flow)

/-- A handler keeps its socket, or opens a new one to the peer it has turned to. -/
theorem moved_plug (moved : Moved config cluster number connection flow) (sending : Sending)
    (peer : Int) (socket : Nat)
    (after : plug (flow.finish config connection.server).task = some (sending, peer, socket)) :
    plug connection.task = some (sending, peer, socket) ∨
      (socket = cluster.connections.length ∧ connection.task = .connecting sending peer ∧
        peer ∉ cluster.crashed ∧
        (flow.finish config connection.server).wire = .opened peer sending.message) := by
  have resumed : ∀ server other, plug ((resume config connection.server server other).finish
      config connection.server).task ≠ some (sending, peer, socket) := by
    intro server other same
    rw [onward_unplugged _ (resume_ending config connection.server server other).1] at same
    cases same
  cases moved with
  | queued command reading line empty => exact absurd after (resumed _ _)
  | released logicalClock serverID handling line =>
      rw [Flow.finish, onward_unplugged _ (check_ending config connection.server _).1] at after
      cases after
  | updated logicalClock serverID client handling line =>
      simp only [applyUpdate, Flow.finish] at after
      split at after
      · cases after
      · cases after
  | unreachable other target connecting down => exact absurd after (resumed _ _)
  | connected other target connecting up =>
      cases after
      exact Or.inr ⟨rfl, connecting, up, rfl⟩
  | wrote other target at_ writing =>
      rw [writing]
      exact Or.inl after
  | heard other target at_ answering awaiting reached reply => exact absurd after (resumed _ _)
  | lost other target at_ answering awaiting reached silent dead => exact absurd after (resumed _ _)
  | _ => cases after

theorem moved_plugged (moved : Moved config cluster number connection flow) (message : Line)
    (socket : Nat)
    (after : plugged (flow.finish config connection.server).task = some (message, socket)) :
    plugged connection.task = some (message, socket) ∨
      (socket = cluster.connections.length ∧
        ∃ peer, (flow.finish config connection.server).wire = .opened peer message) := by
  rw [plugged_plug] at after ⊢
  obtain ⟨⟨sending, peer, at_⟩, held, same⟩ := Option.map_eq_some_iff.mp after
  cases same
  rcases moved_plug config cluster number connection flow moved sending peer at_ held with
    old | ⟨new, _, _, opening⟩
  · exact Or.inl (Option.map_eq_some_iff.mpr ⟨_, old, rfl⟩)
  · exact Or.inr ⟨new, peer, opening⟩

end Sockets

section Laws

/-- A server gives up only on one that has crashed: whoever closes a server's
socket has printed an answer. -/
structure Trusting (cluster : Cluster) : Prop where
  dead : ∀ me, ∀ peer ∈ (cluster.server me).timedOutServers, peer ∈ cluster.crashed
  answered : ∀ (n : Nat) (connection : Connection), cluster.connections[n]? = some connection →
    (∀ command, connection.message ≠ .command command) → connection.output = [] →
      connection.closed = false ∧ (connection.task = .reading ∨ connection.task = .answering ∨
        connection.task = .failed)
  addressed : ∀ (n : Nat) (connection : Connection) (message : Line) (socket : Nat),
    cluster.connections[n]? = some connection → plugged connection.task = some (message, socket) →
      ∃ target, cluster.connections[socket]? = some target ∧ target.message = message

theorem initial_trusting (config : Config) : Trusting (initial config) := by
  constructor
  · intro me peer member
    cases member
  · simp [initial]
  · simp [initial]

/-- Nothing has been printed: the handler is still before its `println`. -/
def Unanswered (connection : Connection) : Prop :=
  connection.closed = false ∧ (connection.task = .reading ∨ connection.task = .answering)

structure Reliable (cluster : Cluster) : Prop where
  up : cluster.crashed = []
  trusting : ∀ me, (cluster.server me).timedOutServers = []
  answered : ∀ (n : Nat) (connection : Connection), cluster.connections[n]? = some connection →
    (∀ command, connection.message ≠ .command command) → connection.output = [] →
      Unanswered connection
  addressed : ∀ (n : Nat) (connection : Connection) (message : Line) (socket : Nat),
    cluster.connections[n]? = some connection → plugged connection.task = some (message, socket) →
      ∃ target, cluster.connections[socket]? = some target ∧ target.message = message

theorem initial_reliable (config : Config) : Reliable (initial config) := by
  constructor
  · rfl
  · intro me
    rfl
  · simp [initial]
  · simp [initial]

theorem reliable_trusting (cluster : Cluster) (reliable : Reliable cluster) : Trusting cluster := by
  constructor
  · intro me peer member
    rw [reliable.trusting] at member
    cases member
  · intro n connection found line empty
    obtain ⟨unclosed, task⟩ := reliable.answered n connection found line empty
    exact ⟨unclosed, task.imp_right Or.inl⟩
  · exact reliable.addressed

end Laws

section Steps
variable (config : Config) {before after : Cluster} (wired : Wired config before)
  (trusting : Trusting before)

theorem answer_legible (text : Text)
    (plain : text = "Acknowledgement".toList ∨ text = "recieved".toList) : Legible text := by
  rcases plain with rfl | rfl
  · exact ⟨by decide, by decide⟩
  · exact ⟨by decide, by decide⟩

theorem touched_answer (number : Nat) (connection : Connection) (outcome : Outcome) (text : Text)
    (answer : outcome.wire = .answer text) :
    (touched number number connection outcome).output = connection.output ++ [text] := by
  rw [touched, answer, onWire, if_pos rfl, print, (moved_fields number number connection outcome).1]

theorem messaging_line (n : Nat) (connection : Connection)
    (found : before.connections[n]? = some connection) (wired : Wired config before)
    (line : ∀ command, connection.message ≠ .command command) :
    MessagingSound config before.history connection := by
  obtain ⟨command, same, _⟩ | messaging := (wired.connections n connection found).line
  · exact absurd same (line command)
  · exact messaging

include wired trusting in
/-- Whoever closed a server's socket has answered, and the answer can be read. -/
theorem reply_there (n : Nat) (connection target : Connection) (sending : Sending) (peer : Int)
    (socket : Nat) (found : before.connections[n]? = some connection)
    (awaiting : connection.task = .awaiting sending peer socket)
    (reached : before.connections[socket]? = some target) (closed : target.closed = true) :
    (nextReply target.output).isSome = true := by
  have task := (wired.connections n connection found).task
  rw [awaiting] at task
  obtain ⟨other, there, message⟩ := trusting.addressed n connection sending.message socket found
    (by rw [awaiting]; rfl)
  rw [reached, Option.some.injEq] at there
  subst there
  have line : ∀ command, target.message ≠ .command command := by
    intro command same
    have sound := task.1.message
    rw [← message, same] at sound
    exact sound
  have messaging := messaging_line config socket target reached wired line
  cases output : target.output with
  | nil =>
      have silent := trusting.answered socket target reached line output
      exact absurd (closed.symm.trans silent.1) nofun
  | cons first rest =>
      have legible := answer_legible first (messaging.output first (by simp [output]))
      rw [legible_read first rest legible]
      rfl

include wired trusting in
/-- Who waits at a socket in vain waits for a crashed server. -/
theorem lost_crashed (n : Nat) (connection target : Connection) (sending : Sending) (peer : Int)
    (socket : Nat) (found : before.connections[n]? = some connection)
    (awaiting : connection.task = .awaiting sending peer socket)
    (reached : before.connections[socket]? = some target)
    (silent : (nextReply target.output).isSome = false)
    (dead : target.closed = true ∨ peer ∈ before.crashed) : peer ∈ before.crashed := by
  refine dead.resolve_left fun closed => ?_
  have reply := reply_there config wired trusting n connection target sending peer socket found
    awaiting reached closed
  rw [silent] at reply
  cases reply

include wired trusting in
/-- A step takes only a crashed server for dead. -/
theorem moved_dead (number : Nat) (connection : Connection) (flow : Flow)
    (found : before.connections[number]? = some connection)
    (moved : Moved config before number connection flow) :
    ∀ peer ∈ (flowServer flow).timedOutServers, peer ∈ before.crashed := by
  have dead := trusting.dead connection.server
  have deprecated : ∀ peer ∈ before.crashed, ∀ other ∈ (deprecateServer peer
      (before.server connection.server)).timedOutServers, other ∈ before.crashed := by
    intro peer down other member
    rcases List.mem_append.mp member with old | new
    · exact dead other old
    · exact List.mem_singleton.mp new ▸ down
  have changed := moved_changed config before number connection flow moved
  generalize flowServer flow = state at changed ⊢
  cases changed with
  | queued queued command reading message empty same =>
      rw [same]
      exact dead
  | unreachable sending peer connecting down => exact deprecated peer down
  | lost sending peer socket target awaiting reached silent lost =>
      exact deprecated peer (lost_crashed config wired trusting number connection target sending peer
        socket found awaiting reached silent lost)
  | _ => exact dead

theorem finish_trusting (me : Int) (flow : Flow) :
    (flow.finish config me).server.timedOutServers = (flowServer flow).timedOutServers := by
  cases flow with
  | done outcome => rfl
  | checking server =>
      obtain ⟨_, _, same⟩ := check_server config me server
      rw [Flow.finish, same]
      rfl

-- A handler that has not answered a server's line goes on to its `println`,
-- unless the server that opened the connection crashed before it wrote.
theorem moved_answered (number : Nat) (connection : Connection) (flow : Flow)
    (line : ∀ command, connection.message ≠ .command command)
    (early : connection.task = .reading ∨ connection.task = .answering)
    (moved : Moved config before number connection flow) :
    (∃ text, (flow.finish config connection.server).wire = .answer text) ∨
      ((flow.finish config connection.server).task = .answering ∨
        abandoned before.crashed connection = true ∧
          (flow.finish config connection.server).task = .failed) ∧
        (flow.finish config connection.server).wire ≠ .close := by
  cases moved with
  | gone reading unwritten left => exact Or.inr ⟨Or.inr ⟨left, rfl⟩, nofun⟩
  | requested logicalClock serverID reading message => exact Or.inr ⟨Or.inl rfl, nofun⟩
  | told reading message => exact Or.inr ⟨Or.inl rfl, nofun⟩
  | queued command reading message empty => exact absurd message (line command)
  | refused command reading message full => exact absurd message (line command)
  | answered text answering plain => exact Or.inl ⟨text, rfl⟩
  | enqueued logicalClock serverID handling message => simp [handling] at early
  | released logicalClock serverID handling message => simp [handling] at early
  | updated logicalClock serverID client handling message => simp [handling] at early
  | misplaced command handling message => simp [handling] at early
  | unreachable sending peer connecting down => simp [connecting] at early
  | connected sending peer connecting free => simp [connecting] at early
  | wrote sending peer socket writing => simp [writing] at early
  | heard sending peer socket target awaiting reached reply => simp [awaiting] at early
  | lost sending peer socket target awaiting reached quiet dead => simp [awaiting] at early
  | replied client response replying => simp [replying] at early
  | closed closing => simp [closing] at early

theorem moved_alive (number : Nat) (connection : Connection) (flow : Flow)
    (moved : Moved config before number connection flow) : connection.task ≠ .failed := by
  intro failed
  cases moved with
  | told reading message => exact absurd (reading.symm.trans failed) nofun
  | _ => simp_all

-- `early` are the program points before the `println` of the reply.
theorem handled_unprinted (early : ServerTask → Prop) (number : Nat) (connection : Connection)
    (outcome : Outcome) (found : before.connections[number]? = some connection)
    (quiet : ∀ (n : Nat) (old : Connection), before.connections[n]? = some old →
      (∀ command, old.message ≠ .command command) → old.output = [] →
        old.closed = false ∧ early old.task)
    (turns : (∀ command, connection.message ≠ .command command) → early connection.task →
      (∃ text, outcome.wire = .answer text) ∨ early outcome.task ∧ outcome.wire ≠ .close)
    (n : Nat) (old : Connection) (there : before.connections[n]? = some old)
    (line : ∀ command, old.message ≠ .command command)
    (empty : (touched number n old outcome).output = []) :
    (touched number n old outcome).closed = false ∧ early (touched number n old outcome).task := by
  have kept := (touched_kept number n old outcome).output
  rw [empty] at kept
  obtain ⟨unclosed, standing⟩ := quiet n old there line (List.prefix_nil.mp kept)
  have shut : (touched number n old outcome).closed = true → n = number ∧ outcome.wire = .close :=
    fun closed => ((touched_closed _ _ _ _).mp closed).resolve_left fun before =>
      absurd (unclosed.symm.trans before) nofun
  by_cases own : n = number
  · subst own
    rw [there, Option.some.injEq] at found
    subst found
    rcases turns line standing with ⟨text, answer⟩ | ⟨next, open_⟩
    · rw [touched_answer n old _ text answer] at empty
      simp at empty
    · refine ⟨Bool.eq_false_iff.mpr fun closed => open_ (shut closed).2, ?_⟩
      rw [touched_task, if_pos rfl]
      exact next
  · refine ⟨Bool.eq_false_iff.mpr fun closed => own (shut closed).1, ?_⟩
    rw [touched_task, if_neg own]
    exact standing

include wired trusting in
theorem handled_trusting (number : Nat) (connection : Connection) (flow : Flow)
    (found : before.connections[number]? = some connection)
    (moved : Moved config before number connection flow) :
    Trusting (before.after number connection.server (flow.finish config connection.server)) := by
  have grown := after_grown before number connection.server (flow.finish config connection.server)
  have old : ∀ (n : Nat) (other : Connection) (message : Line) (socket : Nat),
      before.connections[n]? = some other → plugged other.task = some (message, socket) →
        ∃ target, (before.after number connection.server
          (flow.finish config connection.server)).connections[socket]? = some target ∧
            target.message = message := by
    intro n other message socket there plug
    obtain ⟨target, reached, same⟩ := trusting.addressed n other message socket there plug
    obtain ⟨later, present, kept⟩ := grown.connections socket target reached
    exact ⟨later, present, kept.message.trans same⟩
  constructor
  · intro me
    by_cases own : me = connection.server
    · subst own
      rw [after_self, finish_trusting]
      exact moved_dead config wired trusting number connection flow found moved
    · rw [after_others _ _ _ _ _ own]
      exact trusting.dead me
  · intro n later present line empty
    rcases (after_found _ _ _ _ _ _).mp present with ⟨other, there, rfl⟩ | ⟨_, _, _, _, rfl⟩
    · rw [touched_message] at line
      refine handled_unprinted (fun task => task = .reading ∨ task = .answering ∨ task = .failed)
        number connection _ found trusting.answered (fun line early => ?_) n other there line empty
      have waiting := or_assoc.mpr early |>.resolve_right
        (moved_alive config number connection flow moved)
      rcases moved_answered config number connection flow line waiting moved with
        answer | ⟨standing, open_⟩
      · exact Or.inl answer
      · exact Or.inr ⟨Or.inr (standing.imp_right And.right), open_⟩
    · exact ⟨rfl, Or.inl rfl⟩
  · intro n later message socket present plug
    rcases (after_found _ _ _ _ _ _).mp present with ⟨other, there, rfl⟩ | ⟨_, _, _, _, rfl⟩
    · rw [touched_task] at plug
      by_cases own : n = number
      · subst own
        rw [there, Option.some.injEq] at found
        subst found
        rw [if_pos rfl] at plug
        rcases moved_plugged config before n other flow moved message socket plug with
          same | ⟨rfl, peer, opening⟩
        · exact old n other message socket there same
        · exact ⟨opened peer (.server other.server) message,
            (after_found _ _ _ _ _ _).mpr (Or.inr ⟨rfl, peer, message, opening, rfl⟩), rfl⟩
      · rw [if_neg own] at plug
        exact old n other message socket there plug
    · cases plug

theorem step_trusting (action : Action) (wired : Wired config before) (trusting : Trusting before)
    (taken : step config before action = some after) : Trusting after := by
  have stepped := step_stepped config before after action (wired_readable config before wired) taken
  by_cases outside : ∀ number, action ≠ .server number
  · have same := outside_same config before after action stepped outside
    have crashed : before.crashed ⊆ after.crashed := by
      cases stepped with
      | crashed serverID known => exact List.subset_cons_self serverID _
      | handled number connection flow found alive advanced moved =>
          exact absurd rfl (outside number)
      | _ => exact List.Subset.refl _
    constructor
    · intro me peer member
      rw [same.1] at member
      exact crashed (trusting.dead me peer member)
    · intro n later present line empty
      rcases outside_found config before after action stepped outside n later present with
        ⟨old, there, rfl | rfl⟩ | ⟨_, number, call, server, _, _, _, rfl⟩
      · exact trusting.answered n later there line empty
      · exact trusting.answered n old there line empty
      · exact absurd rfl (line call.command)
    · intro n later message socket present plug
      have stays : ∀ target, before.connections[socket]? = some target →
          target.message = message → ∃ target, after.connections[socket]? = some target ∧
            target.message = message := by
        intro target reached same
        rcases outside_stays config before after action stepped outside socket target reached with
          still | written
        · exact ⟨target, still, same⟩
        · exact ⟨write target, written, same⟩
      rcases outside_found config before after action stepped outside n later present with
        ⟨old, there, rfl | rfl⟩ | ⟨_, number, call, server, _, _, _, rfl⟩
      · obtain ⟨target, reached, same⟩ := trusting.addressed n later message socket there plug
        exact stays target reached same
      · obtain ⟨target, reached, same⟩ := trusting.addressed n old message socket there plug
        exact stays target reached same
      · cases plug
  · cases stepped with
    | handled number connection flow found alive advanced moved =>
        exact handled_trusting config wired trusting number connection flow found moved
    | _ => simp at outside

end Steps

/-! Without a crash nobody gives up on anybody. -/
section Crashless
variable (config : Config) {before after : Cluster} (wired : Wired config before)
  (reliable : Reliable before)

include wired reliable in
/-- Nobody waits at a socket in vain. -/
theorem never_lost (n : Nat) (connection target : Connection) (sending : Sending) (peer : Int)
    (socket : Nat) (found : before.connections[n]? = some connection)
    (awaiting : connection.task = .awaiting sending peer socket)
    (reached : before.connections[socket]? = some target)
    (silent : (nextReply target.output).isSome = false) :
    ¬ (target.closed = true ∨ peer ∈ before.crashed) := by
  intro dead
  have down := lost_crashed config wired (reliable_trusting before reliable) n connection target
    sending peer socket found awaiting reached silent dead
  rw [reliable.up] at down
  cases down

include wired reliable in
/-- No step takes a server for dead. -/
theorem moved_trusting (number : Nat) (connection : Connection) (flow : Flow)
    (found : before.connections[number]? = some connection)
    (moved : Moved config before number connection flow) :
    (flowServer flow).timedOutServers = [] := by
  refine List.eq_nil_iff_forall_not_mem.mpr fun peer member => ?_
  have down := moved_dead config wired (reliable_trusting before reliable) number connection flow
    found moved peer member
  rw [reliable.up] at down
  cases down

theorem handled_answered (reliable : Reliable before) (number : Nat) (connection : Connection)
    (flow : Flow) (found : before.connections[number]? = some connection)
    (moved : Moved config before number connection flow) (n : Nat) (old : Connection)
    (there : before.connections[n]? = some old)
    (line : ∀ command, old.message ≠ .command command)
    (empty : (touched number n old (flow.finish config connection.server)).output = []) :
    Unanswered (touched number n old (flow.finish config connection.server)) := by
  refine handled_unprinted (fun task => task = .reading ∨ task = .answering) number connection _
    found reliable.answered (fun line early => ?_) n old there line empty
  rcases moved_answered config number connection flow line early moved with
    answer | ⟨answering | ⟨left, _⟩, open_⟩
  · exact Or.inl answer
  · exact Or.inr ⟨Or.inr answering, open_⟩
  · rw [reliable.up, abandoned_up] at left
    cases left

theorem crashFree_up (action : Action) (up : crashFree action = true)
    (stepped : Stepped config before action after) (down : before.crashed = []) :
    after.crashed = [] := by
  cases stepped with
  | crashed serverID known => cases up
  | _ => exact down

/-- Without a crash every server goes on trusting every other one. -/
theorem step_reliable (action : Action) (up : crashFree action = true) (wired : Wired config before)
    (reliable : Reliable before) (taken : step config before action = some after) :
    Reliable after := by
  have stepped := step_stepped config before after action (wired_readable config before wired) taken
  have alive := crashFree_up config action up stepped reliable.up
  have trusting := step_trusting config action wired (reliable_trusting before reliable) taken
  constructor
  · exact alive
  · intro me
    refine List.eq_nil_iff_forall_not_mem.mpr fun peer member => ?_
    have down := trusting.dead me peer member
    rw [alive] at down
    cases down
  · intro n later present line empty
    by_cases outside : ∀ number, action ≠ .server number
    · rcases outside_found config before after action stepped outside n later present with
        ⟨old, there, rfl | rfl⟩ | ⟨_, number, call, server, _, _, _, rfl⟩
      · exact reliable.answered n later there line empty
      · exact reliable.answered n old there line empty
      · exact absurd rfl (line call.command)
    · cases stepped with
      | handled number connection flow found alive advanced moved =>
          rcases (after_found _ _ _ _ _ _).mp present with ⟨other, there, rfl⟩ | ⟨_, _, _, _, rfl⟩
          · rw [touched_message] at line
            exact handled_answered config reliable number connection flow found moved n other there
              line empty
          · exact ⟨rfl, Or.inl rfl⟩
      | _ => simp at outside
  · exact trusting.addressed

end Crashless

section Broadcasts
variable (config : Config)

/-- No line is in flight and no handler is running. -/
def Quiescent (cluster : Cluster) : Prop :=
  ∀ connection ∈ cluster.connections, connection.task = .finished ∨ connection.task = .failed

instance (cluster : Cluster) : Decidable (Quiescent cluster) :=
  inferInstanceAs (Decidable (∀ _ ∈ _, _ ∨ _))

/-- What its own server ran is handed out to each server. -/
structure Delivered (cluster : Cluster) : Prop where
  wired : Wired config cluster
  once : Once cluster
  reliable : Reliable cluster
  told : ∀ me client response, Won cluster.history me client response →
    ∀ server ∈ config.serverIDs, spread client.clientSocket server cluster = 1

theorem initial_delivered : Delivered config (initial config) := by
  constructor
  · exact initial_wired config
  · exact initial_once config
  · exact initial_reliable config
  · intro me client response won
    cases won

theorem entered_admitted (me : Int) (flow : Flow) (client : ClientInformation)
    (enters : entered me flow = some client) : admitted client.clientSocket me flow = 1 := by
  simp [admitted, enters]

section Handlers
variable {before : Cluster} (delivered : Delivered config before) (number : Nat)
  (connection : Connection) (flow : Flow)
  (found : before.connections[number]? = some connection)
  (moved : Moved config before number connection flow)

include delivered found moved

theorem handled_admitted (server : Int) (known : server ∈ config.serverIDs) (socket : Nat)
    (succeeded : ∀ execution ∈ (flow.finish config connection.server).executed,
      execution.own = true → execution.client.clientSocket = socket →
        execution.succeeded = true) :
    spread socket server (before.after number connection.server
        (flow.finish config connection.server)) =
      spread socket server before + admitted socket connection.server flow := by
  apply (handled_spread config socket server before number connection flow delivered.wired found
    moved).2 delivered.reliable.up known
  · rw [moved_trusting config delivered.wired delivered.reliable number connection flow found moved]
    exact List.not_mem_nil
  · exact succeeded

-- What was run is not admitted again, so every server keeps the one token it has.
theorem handled_known (me : Int) (client : ClientInformation) (response : Text)
    (won : Won before.history me client response) (server : Int)
    (known : server ∈ config.serverIDs) :
    spread client.clientSocket server (before.after number connection.server
      (flow.finish config connection.server)) = 1 := by
  have bound := delivered.once client.clientSocket server
  have told := delivered.told me client response won server known
  have held := handled_unrun config client.clientSocket before number connection flow
    delivered.wired found moved
  have closed : admitted client.clientSocket connection.server flow = 0 := by omega
  have spreads := handled_admitted config delivered number connection flow found moved server known
    client.clientSocket (by
      intro execution ran own same
      have enters := (moved_executed config before number connection flow moved execution own ran).2
      have admits := entered_admitted connection.server flow execution.client enters
      rw [same, closed] at admits
      cases admits)
  omega

theorem handled_new (client : ClientInformation) (response : Text)
    (enters : entered connection.server flow = some client)
    (ran : (flow.finish config connection.server).executed =
      [⟨connection.server, client, true, .ok response⟩]) (server : Int)
    (known : server ∈ config.serverIDs) :
    spread client.clientSocket server (before.after number connection.server
        (flow.finish config connection.server)) = 1 ∧
      ∀ me answer, ¬ Won before.history me client answer := by
  have bound := delivered.once client.clientSocket server
  have admits := entered_admitted connection.server flow client enters
  have held := handled_unrun config client.clientSocket before number connection flow
    delivered.wired found moved
  have spreads := handled_admitted config delivered number connection flow found moved server known
    client.clientSocket (by
      intro execution member own same
      rw [ran, List.mem_singleton] at member
      rw [member]
      rfl)
  constructor
  · omega
  · intro me answer won
    have told := delivered.told me client answer won server known
    omega

theorem handled_told (me : Int) (client : ClientInformation) (response : Text)
    (won : Won (before.after number connection.server
      (flow.finish config connection.server)).history me client response) (server : Int)
    (known : server ∈ config.serverIDs) :
    spread client.clientSocket server (before.after number connection.server
      (flow.finish config connection.server)) = 1 := by
  rcases List.mem_append.mp won with old | new
  · exact handled_known config delivered number connection flow found moved me client response old
      server known
  · cases moved_executes config before number connection flow moved with
    | nothing idle same => simp [idle] at new
    | thrown other thrown enters ran same => simp [ran] at new
    | served other answer enters ran next result =>
        have same := new
        simp only [ran, List.mem_singleton, Execution.mk.injEq, true_and] at same
        rw [same.2.1]
        exact (handled_new config delivered number connection flow found moved other answer enters
          ran server known).1
    | refused logicalClock serverID other thrown handling message ran result same =>
        simp [ran] at new
    | carried logicalClock serverID other answer handling message ran result => simp [ran] at new

end Handlers

/-- Without a crash no server is left out of a broadcast. -/
theorem step_delivered (before : Cluster) (action : Action) (after : Cluster)
    (delivered : Delivered config before) (up : crashFree action = true)
    (taken : step config before action = some after) : Delivered config after := by
  have stepped := step_stepped config before after action
    (wired_readable config before delivered.wired) taken
  constructor
  · exact step_wired config before after action delivered.wired taken
  · exact step_once config before after action delivered.wired delivered.once taken
  · exact step_reliable config action up delivered.wired delivered.reliable taken
  · intro me client response won server known
    by_cases outside : ∀ number, action ≠ .server number
    · rw [(outside_same config before after action stepped outside).2] at won
      rw [outside_spread config _ server before after action stepped outside]
      exact delivered.told me client response won server known
    · cases stepped with
      | handled number connection flow found alive advanced moved =>
          exact handled_told config delivered number connection flow found moved me client response
            won server known
      | _ => simp at outside

theorem quiescent_spent (cluster : Cluster) (quiet : Quiescent cluster) (socket : Nat)
    (server : Int) : (cluster.connections.map (connectionTokens socket server)).sum = 0 := by
  apply List.sum_eq_zero
  intro tokens member
  obtain ⟨connection, inside, rfl⟩ := List.mem_map.mp member
  rcases quiet connection inside with ended | ended
  · rw [connectionTokens, ended, line_applied _ _ _ _ _ rfl]
    rfl
  · rw [connectionTokens, ended, line_applied _ _ _ _ _ rfl]
    rfl

/-- A server to which nothing is on its way has run a command that another ran. -/
theorem spent_run (cluster : Cluster) (delivered : Delivered config cluster) (me : Int)
    (client : ClientInformation) (response : Text)
    (won : Won cluster.history me client response) (server : Int)
    (known : server ∈ config.serverIDs)
    (spent : (cluster.connections.map (connectionTokens client.clientSocket server)).sum = 0) :
    ∃ execution ∈ cluster.history, execution.server = server ∧ execution.client = client ∧
      (execution.own = true → execution.succeeded = true) := by
  have told := delivered.told me client response won server known
  rw [spread, spent, Nat.zero_add] at told
  have positive : 0 < runs client.clientSocket server cluster.history := by omega
  obtain ⟨execution, ran, here⟩ := List.countP_pos_iff.mp positive
  simp only [Bool.and_eq_true, beq_iff_eq] at here
  have unique := fun (other : Execution) (also : other ∈ cluster.history)
      (own : other.own = true) (socket : other.client.clientSocket = client.clientSocket) =>
    own_unique config cluster delivered.wired delivered.once other _ also won own rfl socket
  refine ⟨execution, ran, here.2, ?_⟩
  by_cases own : execution.own = true
  · rw [unique execution ran own here.1]
    exact ⟨rfl, fun _ => rfl⟩
  · have sound := delivered.wired.history execution ran
    rw [ExecutionSound, if_neg own] at sound
    obtain ⟨owner, answer, theirs⟩ := sound
    have equal := unique _ theirs rfl here.1
    exact ⟨congrArg Execution.client equal, fun mine => absurd mine own⟩

/-- The server's one run of a command that its own server ran. -/
theorem delivered_run (cluster : Cluster) (delivered : Delivered config cluster)
    (quiet : Quiescent cluster) (me : Int) (client : ClientInformation) (response : Text)
    (won : Won cluster.history me client response) (server : Int)
    (known : server ∈ config.serverIDs) :
    ∃ execution ∈ cluster.history, execution.server = server ∧ execution.client = client ∧
      (execution.own = true → execution.succeeded = true) :=
  spent_run config cluster delivered me client response won server known
    (quiescent_spent cluster quiet client.clientSocket server)

/-- In a crash-free run, once all handlers have ended, every server has run
every command that its own server ran without an exception, and only once. -/
theorem delivered_everywhere (cluster : Cluster)
    (reached : Reachable (step config) (fun _ action => crashFree action = true) (initial config)
      cluster) (quiet : Quiescent cluster) (me : Int) (client : ClientInformation) (response : Text)
    (won : Won cluster.history me client response) (server : Int)
    (known : server ∈ config.serverIDs) :
    runs client.clientSocket server cluster.history = 1 ∧
      ∃ execution ∈ cluster.history, execution.server = server ∧ execution.client = client := by
  have delivered := reachable_invariant (Delivered config) (initial_delivered config)
    (step_delivered config) reached
  constructor
  · have told := delivered.told me client response won server known
    rwa [spread, quiescent_spent cluster quiet, Nat.zero_add] at told
  · obtain ⟨execution, ran, here, same, _⟩ :=
      delivered_run config cluster delivered quiet me client response won server known
    exact ⟨execution, ran, here, same⟩

end Broadcasts

end EE360P.ReliableDelivery
