import Mathlib.Data.Finset.Max
import Mathlib.Data.Prod.Lex
import EE360P.RecordedRequests

/-! When a command waits for good. A server with a command in `clientCommands`
looks at its queue again only after the loop of its own `Request` and after a
`Release`. It finds a crashed server's entry gone only if it has tried to send
to that server in the meantime. -/

namespace EE360P.StrandedCommands
open JavaText ReplicatedServer ServerCluster ClusterSteps ClusterWiring SectionExclusion
open CommandTokens ReliableDelivery RequestRounds GuardedRuns
open OnlineStore (WellFormed execute_wellFormed)
open RecordedRequests (Steadily)

section Chains
variable {Id Key : Type*} [LinearOrder Key]

/-- Nobody waits if whoever waits is behind another one that waits. -/
theorem nobody_waits (ids : List Id) (waits : Id → Prop) (key : Id → Key)
    (behind : ∀ id ∈ ids, waits id → ∃ other ∈ ids, waits other ∧ key other < key id) (id : Id)
    (member : id ∈ ids) : ¬ waits id := by
  classical
  intro waiting
  have nonempty : (ids.toFinset.filter waits).Nonempty :=
    ⟨id, Finset.mem_filter.mpr ⟨List.mem_toFinset.mpr member, waiting⟩⟩
  obtain ⟨first, inside, least⟩ := Finset.exists_min_image _ key nonempty
  obtain ⟨known, waits⟩ := Finset.mem_filter.mp inside
  obtain ⟨other, there, late, ahead⟩ := behind first (List.mem_toFinset.mp known) waits
  have after := least other (Finset.mem_filter.mpr ⟨List.mem_toFinset.mpr there, late⟩)
  exact absurd ahead (not_lt.mpr after)

end Chains

section Laws
variable (config : Config)

/-- The handler is in the loop for its `Request`, after which it checks. -/
def requesting : ServerTask → Bool
  | .connecting sending _ => sending.purpose == .entering
  | .writing sending _ _ => sending.purpose == .entering
  | .awaiting sending _ _ => sending.purpose == .entering
  | _ => false

def releases (peer : Int) (targets : List Int) : Purpose → Bool
  | .entering => false
  | .updating _ _ => true
  | .leaving _ _ => targets.contains peer

/-- The handler has still to open a connection to the peer for its `Release`. -/
def willRelease (peer : Int) : ServerTask → Bool
  | .connecting sending target => releases peer (target :: sending.rest) sending.purpose
  | .writing sending _ _ => releases peer sending.rest sending.purpose
  | .awaiting sending _ _ => releases peer sending.rest sending.purpose
  | _ => false

def isRelease : Line → Bool
  | .release _ _ => true
  | _ => false

/-- A `Release` that is printed, or will be, and is not handled yet. -/
def arriving (crashed : List Int) (connection : Connection) : Bool :=
  isRelease connection.message && unapplied connection.task &&
    (connection.written || !abandoned crashed connection)

/-- A handler at a live server after which this server looks at its queue. -/
def Prompts (crashed : List Int) (me : Int) (connection : Connection) : Prop :=
  connection.server ∉ crashed ∧
    ((connection.server = me ∧
        (requesting connection.task = true ∨ arriving crashed connection = true)) ∨
      (connection.server ≠ me ∧ willRelease me connection.task = true))

instance (crashed : List Int) (me : Int) (connection : Connection) :
    Decidable (Prompts crashed me connection) :=
  inferInstanceAs (Decidable (_ ∧ _))

/-- The entry is ahead of the server's own one, and is the request of a command
that waits at a live server. -/
def Blocks (cluster : Cluster) (me : Int) (entry : TimeStamp) : Prop :=
  (∃ own ∈ search (cluster.server me).pendingQueue me, own.compare entry = -1) ∧
    entry.processID ∉ cluster.crashed ∧
    ∃ client ∈ (cluster.server entry.processID).clientCommands, client.request = entry

instance (cluster : Cluster) (me : Int) (entry : TimeStamp) :
    Decidable (Blocks cluster me entry) :=
  inferInstanceAs (Decidable (_ ∧ _))

/-- There is something left that the command waiting at this server waits for. -/
def Expected (cluster : Cluster) (me : Int) : Prop :=
  (∃ connection ∈ cluster.connections, Prompts cluster.crashed me connection) ∨
    ∃ entry ∈ (cluster.server me).pendingQueue, Blocks cluster me entry

instance (cluster : Cluster) (me : Int) : Decidable (Expected cluster me) :=
  inferInstanceAs (Decidable (_ ∨ _))

def AllExpected (cluster : Cluster) : Prop :=
  ∀ me ∈ config.serverIDs, me ∉ cluster.crashed → (cluster.server me).clientCommands ≠ [] →
    Expected cluster me

instance (cluster : Cluster) : Decidable (AllExpected config cluster) :=
  inferInstanceAs (Decidable (∀ _ ∈ _, _ → _ → _))

/-- The server whose queue is tested in this step. -/
def tested : Flow → Option Server
  | .checking server => some server
  | .done _ => none

/-- The cluster with the server as it is tested, and without this handler. -/
def stalled (cluster : Cluster) (number : Nat) (me : Int) (server : Server) : Cluster :=
  cluster.after number me ⟨server, .failed, .silent, []⟩

/-- The check passes, unless with a command that throws, or every waiting command
is expected even without it. -/
def Harmless (cluster : Cluster) (number : Nat) (me : Int) (server : Server) : Prop :=
  if isSmallest server.pendingQueue me then
    (∀ client ∈ server.clientCommands.head?, WellFormed config.counting client.clientCommand) ∨
      AllExpected config (stalled cluster number me
        { server with clientCommands := server.clientCommands.tail })
  else AllExpected config (stalled cluster number me server)

instance (cluster : Cluster) (number : Nat) (me : Int) (server : Server) :
    Decidable (Harmless config cluster number me server) := by
  unfold Harmless
  infer_instance

/-- No crash, and no check that does not go on to `sendUpdate`, takes from a
waiting command the last thing it waits for; and no clock overflows. -/
def Considerate (cluster : Cluster) : Action → Prop
  | .submit _ _ => True
  | .client _ => True
  | .timeout _ => True
  | .server number => ∀ connection ∈ cluster.connections[number]?,
      Steadily config cluster number connection ∧
        ∀ flow ∈ advance config cluster number connection, ∀ server ∈ tested flow,
          Harmless config cluster number connection.server server
  | .crash serverID => AllExpected config { cluster with crashed := serverID :: cluster.crashed }

instance (cluster : Cluster) : ∀ action, Decidable (Considerate config cluster action)
  | .submit _ _ => isTrue trivial
  | .client _ => isTrue trivial
  | .timeout _ => isTrue trivial
  | .server _ => inferInstanceAs (Decidable (∀ _ ∈ _, _ ∧ ∀ _ ∈ _, ∀ _ ∈ _, _))
  | .crash _ => inferInstanceAs (Decidable (AllExpected _ _))

/-- Every handler at a live server has ended. -/
def Resting (cluster : Cluster) : Prop :=
  ∀ connection ∈ cluster.connections, connection.server ∉ cluster.crashed →
    connection.task = .finished ∨ connection.task = .failed

instance (cluster : Cluster) : Decidable (Resting cluster) :=
  inferInstanceAs (Decidable (∀ _ ∈ _, _ → _))

end Laws

/-! A handler that prompts a server goes on to do so. -/
section Prompting
variable (config : Config) (me : Int)

theorem resume_requesting (state : Server) (sending : Sending)
    (entering : sending.purpose = .entering)
    (untested : tested (resume config me state sending) = none) :
    requesting ((resume config me state sending).finish config me).task = true := by
  have resumed := resume_resumed config me state sending
  generalize resume config me state sending = flow at resumed untested ⊢
  cases resumed with
  | next peer rest next => simp [stay, Flow.finish, requesting, entering]
  | requested ended purpose => cases untested
  | updated client response ended updating =>
      rw [entering] at updating
      cases updating
  | released client response ended leaving =>
      rw [entering] at leaving
      cases leaving

variable {before : Cluster} (number : Nat) (connection : Connection) (flow : Flow)
  (moved : Moved config before number connection flow)

include moved

theorem moved_requesting (untested : tested flow = none)
    (requests : requesting connection.task = true) :
    requesting (flow.finish config connection.server).task = true := by
  cases moved with
  | unreachable sending peer connecting down =>
      rw [connecting] at requests
      exact resume_requesting config _ _ sending (beq_iff_eq.mp requests) untested
  | connected sending peer connecting up =>
      rw [connecting] at requests
      exact requests
  | wrote sending peer socket writing =>
      rw [writing] at requests
      exact requests
  | heard sending peer socket target awaiting reached reply =>
      rw [awaiting] at requests
      exact resume_requesting config _ _ sending (beq_iff_eq.mp requests) untested
  | lost sending peer socket target awaiting reached silent dead =>
      rw [awaiting] at requests
      exact resume_requesting config _ _ sending (beq_iff_eq.mp requests) untested
  | _ => simp_all [requesting]

/-- A command that is queued and not tested at once is requested. -/
theorem moved_queued (untested : tested flow = none) :
    (flowServer flow).clientCommands = (before.server connection.server).clientCommands ∨
      requesting (flow.finish config connection.server).task = true := by
  cases moved with
  | queued command reading message empty =>
      exact Or.inr (resume_requesting config _ _ _ rfl untested)
  | updated logicalClock serverID client handling message =>
      simp only [applyUpdate, flowServer]
      split
      · exact Or.inl rfl
      · exact Or.inl rfl
  | unreachable sending peer connecting down =>
      rw [resume_server]
      exact Or.inl rfl
  | heard sending peer socket target awaiting reached reply =>
      rw [resume_server]
      exact Or.inl rfl
  | lost sending peer socket target awaiting reached silent dead =>
      rw [resume_server]
      exact Or.inl rfl
  | _ => exact Or.inl rfl

theorem moved_arriving (untested : tested flow = none)
    (arrives : arriving before.crashed connection = true) :
    unapplied (flow.finish config connection.server).task = true := by
  simp only [arriving, Bool.and_eq_true, Bool.or_eq_true, Bool.not_eq_true'] at arrives
  obtain ⟨⟨release, early⟩, printed⟩ := arrives
  cases moved with
  | gone reading unwritten left =>
      rw [unwritten, left] at printed
      simp at printed
  | released logicalClock serverID handling message => cases untested
  | requested logicalClock serverID reading message =>
      rw [message] at release
      cases release
  | told reading message => rfl
  | queued command reading message empty =>
      rw [message] at release
      cases release
  | refused command reading message full =>
      rw [message] at release
      cases release
  | answered text answering plain => rfl
  | enqueued logicalClock serverID handling message =>
      rw [message] at release
      cases release
  | updated logicalClock serverID client handling message =>
      rw [message] at release
      cases release
  | misplaced command handling message =>
      rw [message] at release
      cases release
  | unreachable sending peer connecting down =>
      rw [connecting] at early
      cases early
  | connected sending peer connecting up =>
      rw [connecting] at early
      cases early
  | wrote sending peer socket writing =>
      rw [writing] at early
      cases early
  | heard sending peer socket target awaiting reached reply =>
      rw [awaiting] at early
      cases early
  | lost sending peer socket target awaiting reached silent dead =>
      rw [awaiting] at early
      cases early
  | replied client response replying =>
      rw [replying] at early
      cases early
  | closed closing =>
      rw [closing] at early
      cases early

end Prompting

/-! A handler past its `execute` comes to every live peer in its `Release` loop. -/
section Releasing
variable (config : Config) (me peer : Int) (other : me ≠ peer)

include other

theorem release_will (state : Server) (active : peer ∉ state.timedOutServers)
    (known : peer ∈ config.serverIDs) (client : ClientInformation) (response : Text) :
    willRelease peer (releaseCriticalSection config me state client response) = true := by
  obtain ⟨first, rest, next, member⟩ := next_found peer me state config.serverIDs other active known
  simp only [releaseCriticalSection, sendLoop, next, willRelease, releases]
  exact List.contains_iff_mem.mpr member

theorem update_will (state : Server) (active : peer ∉ state.timedOutServers)
    (known : peer ∈ config.serverIDs) (client : ClientInformation) (response : Text) :
    willRelease peer (sendUpdate config me state client response) = true := by
  obtain ⟨first, rest, next, _⟩ := next_found peer me state config.serverIDs other active known
  simp only [sendUpdate, sendLoop, next, willRelease, releases]

theorem resume_will (state : Server) (active : peer ∉ state.timedOutServers)
    (known : peer ∈ config.serverIDs) (sending : Sending)
    (will : releases peer sending.rest sending.purpose = true) :
    willRelease peer ((resume config me state sending).finish config me).task = true := by
  cases purpose : sending.purpose with
  | entering =>
      rw [purpose] at will
      cases will
  | updating client response =>
      cases next : nextServer me state sending.rest with
      | some pair => simp only [resume, next, stay, Flow.finish, willRelease, purpose, releases]
      | none =>
          simp only [resume, next, stay, Flow.finish, purpose]
          exact release_will config me peer other state active known client response
  | leaving client response =>
      rw [purpose] at will
      obtain ⟨first, rest, next, member⟩ := next_found peer me state sending.rest other active
        (List.contains_iff_mem.mp will)
      simp only [resume, next, stay, Flow.finish, willRelease, purpose, releases]
      exact List.contains_iff_mem.mpr member

omit other in
theorem releases_past (target : Int) (rest : List Int) (purpose : Purpose) (past : target ≠ peer)
    (will : releases peer (target :: rest) purpose = true) : releases peer rest purpose = true := by
  cases purpose with
  | entering => cases will
  | updating client response => rfl
  | leaving client response =>
      have member := List.contains_iff_mem.mp will
      exact List.contains_iff_mem.mpr ((List.mem_cons.mp member).resolve_left (Ne.symm past))

omit other

variable {before : Cluster} (number : Nat) (connection : Connection) (flow : Flow)
  (found : before.connections[number]? = some connection)
  (moved : Moved config before number connection flow)

include found moved in
/-- The handler has still to come to the peer, or opens the connection to it. -/
theorem moved_will (wired : Wired config before) (trusting : Trusting before)
    (other : connection.server ≠ peer) (known : peer ∈ config.serverIDs)
    (alive : peer ∉ before.crashed) (will : willRelease peer connection.task = true) :
    willRelease peer (flow.finish config connection.server).task = true ∨
      ∃ logicalClock, (flow.finish config connection.server).wire =
        .opened peer (.release logicalClock connection.server) := by
  have active : peer ∉ (flowServer flow).timedOutServers := fun member => alive
    (moved_dead config wired trusting number connection flow found moved peer member)
  have task := (wired.connections number connection found).task
  cases moved with
  | unreachable sending target connecting down =>
      rw [connecting] at will
      rw [resume_server] at active
      have past : target ≠ peer := fun same => alive (same ▸ down)
      exact Or.inl (resume_will config _ peer other _ active known sending
        (releases_past peer target _ _ past will))
  | connected sending target connecting up =>
      rw [connecting] at will task
      by_cases past : target = peer
      · subst past
        cases purpose : sending.purpose with
        | entering =>
            simp only [willRelease, purpose] at will
            cases will
        | updating client response =>
            refine Or.inl ?_
            simp only [Flow.finish, willRelease, purpose, releases]
        | leaving client response =>
            have sound := task.1.purpose
            rw [purpose] at sound
            obtain ⟨_, logicalClock, message⟩ := sound
            exact Or.inr ⟨logicalClock, by rw [Flow.finish, message]⟩
      · exact Or.inl (releases_past peer target _ _ past will)
  | wrote sending target socket writing =>
      rw [writing] at will
      exact Or.inl will
  | heard sending target socket answering awaiting reached reply =>
      rw [awaiting] at will
      rw [resume_server] at active
      exact Or.inl (resume_will config _ peer other _ active known sending will)
  | lost sending target socket answering awaiting reached silent dead =>
      rw [awaiting] at will
      rw [resume_server] at active
      exact Or.inl (resume_will config _ peer other _ active known sending will)
  | told reading message =>
      rw [reading] at will
      cases will
  | _ => simp_all [willRelease]

end Releasing

/-! The queue of a server whose command waits. -/
section Queues
variable (config : Config)

theorem search_own (pendingQueue : List TimeStamp) (me : Int) :
    search pendingQueue me = (ownEntries me pendingQueue).head? :=
  List.head?_filter.symm

theorem check_polls (me : Int) (state : Server) :
    (checkCriticalSection config me state).server.clientCommands =
      if isSmallest state.pendingQueue me then state.clientCommands.tail
      else state.clientCommands := by
  have checked := check_checked config me state
  generalize checkCriticalSection config me state = outcome at checked ⊢
  cases checked with
  | behind larger => rw [larger, if_neg Bool.false_ne_true]
  | idle smallest empty =>
      rw [smallest, if_pos rfl, empty]
      rfl
  | thrown client rest thrown smallest waiting failed =>
      rw [smallest, if_pos rfl, waiting]
      rfl
  | served client rest response store smallest waiting result =>
      rw [smallest, if_pos rfl, waiting]
      rfl

/-- The server's own entries are in the order of their clocks. -/
structure Lined (me : Int) (server : Server) : Prop where
  few : server.clientCommands.length ≤ 1
  reached : ∀ entry ∈ ownEntries me server.pendingQueue, entry.logicalClock ≤ server.logicalClock
  ordered : (ownEntries me server.pendingQueue).Pairwise
    fun first second => first.logicalClock ≤ second.logicalClock

variable {before : Cluster} (number : Nat) (connection : Connection) (flow : Flow)
  (found : before.connections[number]? = some connection)
  (moved : Moved config before number connection flow)

include found moved in
theorem moved_lined (wired : Wired config before) (backed : Backed before.history connection)
    (steady : (before.server connection.server).logicalClock ≤ (flowServer flow).logicalClock)
    (lined : Lined connection.server (before.server connection.server)) :
    Lined connection.server (flowServer flow) := by
  rcases moved_entries config wired number connection flow found moved backed with
    ⟨entries, commands⟩ | ⟨empty, client, single, request, entries⟩
  · constructor
    · rw [commands]
      exact lined.few
    · intro entry member
      rw [entries] at member
      exact (lined.reached entry member).trans steady
    · rw [entries]
      exact lined.ordered
  · have clock : client.request.logicalClock = (flowServer flow).logicalClock := by rw [request]
    constructor
    · rw [single]
      exact Nat.le_refl 1
    · intro entry member
      rw [entries] at member
      rcases List.mem_append.mp member with old | new
      · exact (lined.reached entry old).trans steady
      · rw [List.mem_singleton.mp new, clock]
    · rw [entries, List.pairwise_append]
      refine ⟨lined.ordered, List.pairwise_singleton _ _, fun entry old later new => ?_⟩
      rw [List.mem_singleton.mp new, clock]
      exact (lined.reached entry old).trans steady

theorem finish_lined (me : Int) (lined : Lined me (flowServer flow)) :
    Lined me (flow.finish config me).server := by
  have clock := (finish_server config me flow).1
  have queue := finish_pending config flow me
  constructor
  · cases flow with
    | done outcome => exact lined.few
    | checking state =>
        have few := lined.few
        rw [Flow.finish, check_polls]
        split
        · rw [List.length_tail]
          exact (Nat.sub_le _ _).trans few
        · exact few
  · rw [queue, clock]
    exact lined.reached
  · rw [queue]
    exact lined.ordered

include found moved in
/-- Without a check a server keeps its first entry, and those of live servers. -/
theorem moved_ahead (wired : Wired config before) (trusting : Trusting before)
    (backed : Backed before.history connection) (untested : tested flow = none) (own : TimeStamp)
    (first : search (before.server connection.server).pendingQueue connection.server = some own) :
    search (flowServer flow).pendingQueue connection.server = some own ∧
      ∀ entry ∈ (before.server connection.server).pendingQueue, entry.processID ∉ before.crashed →
        entry ∈ (flowServer flow).pendingQueue := by
  constructor
  · rw [search_own] at first ⊢
    rcases moved_entries config wired number connection flow found moved backed with
      ⟨entries, _⟩ | ⟨_, client, _, _, entries⟩
    · rw [entries]
      exact first
    · rw [entries, List.head?_append, first]
      rfl
  · intro entry member alive
    have kept : ∀ peer ∈ before.crashed,
        entry ∈ (deprecateServer peer (before.server connection.server)).pendingQueue := by
      intro peer down
      refine List.mem_filter.mpr ⟨member, bne_iff_ne.mpr ?_⟩
      rintro rfl
      exact alive down
    cases moved with
    | queued command reading message empty =>
        rw [requestCriticalSection, resume_server]
        exact List.mem_append_left _ member
    | enqueued logicalClock serverID handling message => exact List.mem_append_left _ member
    | released logicalClock serverID handling message => cases untested
    | updated logicalClock serverID client handling message =>
        simp only [applyUpdate, flowServer]
        split
        · exact member
        · exact member
    | unreachable sending peer connecting down =>
        rw [resume_server]
        exact kept peer down
    | heard sending peer socket target awaiting reached reply =>
        rw [resume_server]
        exact member
    | lost sending peer socket target awaiting reached silent dead =>
        rw [resume_server]
        exact kept peer (lost_crashed config wired trusting number connection target sending peer
          socket found awaiting reached silent dead)
    | _ => exact member

end Queues

/-! What prompts a server in the next state. -/
section Standing

theorem arriving_kept (crashed : List Int) (old later : Connection)
    (message : later.message = old.message) (caller : later.caller = old.caller)
    (written : old.written = true → later.written = true)
    (early : unapplied later.task = true) (arrives : arriving crashed old = true) :
    arriving crashed later = true := by
  simp only [arriving, abandoned, message, caller, early, Bool.and_eq_true, Bool.or_eq_true]
    at arrives ⊢
  exact ⟨⟨arrives.1.1, trivial⟩, arrives.2.imp_left written⟩

theorem prompts_kept (crashed : List Int) (me : Int) (old later : Connection)
    (server : later.server = old.server) (message : later.message = old.message)
    (caller : later.caller = old.caller) (task : later.task = old.task)
    (written : old.written = true → later.written = true) (prompts : Prompts crashed me old) :
    Prompts crashed me later := by
  obtain ⟨alive, ⟨here, requests | arrives⟩ | ⟨elsewhere, will⟩⟩ := prompts
  · exact ⟨server ▸ alive, Or.inl ⟨server.trans here, Or.inl (task ▸ requests)⟩⟩
  · have early : unapplied later.task = true := by
      simp only [arriving, Bool.and_eq_true] at arrives
      rw [task]
      exact arrives.1.2
    exact ⟨server ▸ alive, Or.inl ⟨server.trans here,
      Or.inr (arriving_kept crashed old later message caller written early arrives)⟩⟩
  · exact ⟨server ▸ alive, Or.inr ⟨server ▸ elsewhere, task ▸ will⟩⟩

theorem ended_silent (crashed : List Int) (me : Int) (connection : Connection)
    (ended : connection.task = .finished ∨ connection.task = .failed) :
    ¬ Prompts crashed me connection := by
  rintro ⟨_, ⟨_, requests | arrives⟩ | ⟨_, will⟩⟩
  · rcases ended with ended | ended
    · simp [ended, requesting] at requests
    · simp [ended, requesting] at requests
  · rcases ended with ended | ended
    · simp [ended, arriving, unapplied] at arrives
    · simp [ended, arriving, unapplied] at arrives
  · rcases ended with ended | ended
    · simp [ended, willRelease] at will
    · simp [ended, willRelease] at will

variable (config : Config) {before : Cluster} (number : Nat) (connection : Connection) (flow : Flow)
  (found : before.connections[number]? = some connection)
  (moved : Moved config before number connection flow)

theorem after_member (n : Nat) (old : Connection) (me : Int) (outcome : Outcome)
    (there : before.connections[n]? = some old) :
    touched number n old outcome ∈ (before.after number me outcome).connections :=
  List.mem_of_getElem? ((after_found _ _ _ _ _ _).mpr (Or.inl ⟨old, there, rfl⟩))

theorem after_prompts (me here : Int) (outcome : Outcome) (n : Nat) (old : Connection)
    (there : before.connections[n]? = some old) (elsewhere : n ≠ number)
    (prompts : Prompts before.crashed me old) :
    ∃ later ∈ (before.after number here outcome).connections,
      Prompts before.crashed me later := by
  refine ⟨_, after_member number n old here outcome there, ?_⟩
  exact prompts_kept before.crashed me old _ (touched_server _ _ _ _) (touched_message _ _ _ _)
    (touched_caller _ _ _ _) (by rw [touched_task, if_neg elsewhere])
    (touched_written number n old outcome) prompts

include found moved

theorem own_prompts (untested : tested flow = none)
    (prompts : Prompts before.crashed connection.server connection) :
    ∃ later ∈ (before.after number connection.server
        (flow.finish config connection.server)).connections,
      Prompts before.crashed connection.server later := by
  refine ⟨_, after_member number number connection _ _ found, ?_⟩
  have server := touched_server number number connection (flow.finish config connection.server)
  have task := touched_task number number connection (flow.finish config connection.server)
  rw [if_pos rfl] at task
  obtain ⟨alive, ⟨_, requests | arrives⟩ | ⟨elsewhere, _⟩⟩ := prompts
  · have later := moved_requesting config number connection flow moved untested requests
    exact ⟨by rw [server]; exact alive, Or.inl ⟨server, Or.inl (by rw [task]; exact later)⟩⟩
  · have later := moved_arriving config number connection flow moved untested arrives
    exact ⟨by rw [server]; exact alive, Or.inl ⟨server, Or.inr (arriving_kept before.crashed
      connection _ (touched_message _ _ _ _) (touched_caller _ _ _ _)
      (touched_written number number connection _) (by rw [task]; exact later) arrives)⟩⟩
  · exact absurd rfl elsewhere

theorem other_prompts (wired : Wired config before) (trusting : Trusting before)
    (up : connection.server ∉ before.crashed) (me : Int) (known : me ∈ config.serverIDs)
    (alive : me ∉ before.crashed) (other : connection.server ≠ me)
    (prompts : Prompts before.crashed me connection) :
    ∃ later ∈ (before.after number connection.server
        (flow.finish config connection.server)).connections,
      Prompts before.crashed me later := by
  obtain ⟨_, ⟨here, _⟩ | ⟨_, will⟩⟩ := prompts
  · exact absurd here other
  · rcases moved_will config me number connection flow found moved wired trusting other known alive
      will with later | ⟨logicalClock, opening⟩
    · refine ⟨_, after_member number number connection _ _ found, ?_⟩
      rw [Prompts, touched_server, touched_task, if_pos rfl]
      exact ⟨up, Or.inr ⟨other, later⟩⟩
    · refine ⟨opened me (.server connection.server) (.release logicalClock connection.server),
        List.mem_of_getElem? ((after_found _ _ _ _ _ _).mpr (Or.inr ⟨rfl, _, _, opening, rfl⟩)),
        alive, Or.inl ⟨rfl, Or.inr ?_⟩⟩
      simp [arriving, isRelease, opened, unapplied, abandoned, up]

end Standing

section Steps
variable (config : Config)

structure Unstranded (cluster : Cluster) : Prop where
  recorded : Recorded config cluster
  trusting : Trusting cluster
  lined : ∀ me, Lined me (cluster.server me)
  expected : AllExpected config cluster

variable {before : Cluster} (number : Nat) (connection : Connection) (flow : Flow)
  (found : before.connections[number]? = some connection)
  (moved : Moved config before number connection flow)

theorem untested_server (me : Int) (untested : tested flow = none) :
    (flow.finish config me).server = flowServer flow := by
  cases flow with
  | checking state => cases untested
  | done outcome => rfl

include moved in
theorem commands_kept : (before.server connection.server).clientCommands ⊆
    (flowServer flow).clientCommands := by
  rcases RecordedRequests.moved_commands config number connection flow moved with same | ⟨empty, _⟩
  · exact same ▸ List.Subset.refl _
  · exact empty ▸ List.nil_subset _

include found moved in
theorem other_expected (unstranded : Unstranded config before)
    (up : connection.server ∉ before.crashed) (me : Int) (known : me ∈ config.serverIDs)
    (alive : me ∉ before.crashed) (other : me ≠ connection.server)
    (kept : (before.server connection.server).clientCommands ⊆
      (flow.finish config connection.server).server.clientCommands)
    (expected : Expected before me) :
    Expected (before.after number connection.server (flow.finish config connection.server)) me := by
  rcases expected with ⟨old, member, prompts⟩ | ⟨entry, member, first, live, client, waits, request⟩
  · obtain ⟨n, there⟩ := List.mem_iff_getElem?.mp member
    by_cases own : n = number
    · subst own
      rw [there, Option.some.injEq] at found
      subst found
      exact Or.inl (other_prompts config n old flow there moved unstranded.recorded.wired
        unstranded.trusting up me known alive (Ne.symm other) prompts)
    · exact Or.inl (after_prompts number me connection.server _ n old there own prompts)
  · have queue := after_others number (flow.finish config connection.server) before
      connection.server me other
    refine Or.inr ⟨entry, by rw [queue]; exact member, by rw [queue]; exact first, live, client, ?_,
      request⟩
    by_cases here : entry.processID = connection.server
    · rw [here, after_self]
      rw [here] at waits
      exact kept waits
    · rw [after_others _ _ _ _ _ here]
      exact waits

include found moved in
theorem own_expected (unstranded : Unstranded config before)
    (up : connection.server ∉ before.crashed) (untested : tested flow = none)
    (waiting : (flowServer flow).clientCommands ≠ []) :
    Expected (before.after number connection.server (flow.finish config connection.server))
      connection.server := by
  have recorded := unstranded.recorded
  rcases moved_queued config number connection flow moved untested with same | requests
  · have known := (recorded.wired.connections number connection found).known
    rcases unstranded.expected connection.server known up (same ▸ waiting) with
      ⟨old, member, prompts⟩ | ⟨entry, member, ⟨own, first, ahead⟩, live, client, waits, request⟩
    · obtain ⟨n, there⟩ := List.mem_iff_getElem?.mp member
      by_cases own : n = number
      · subst own
        rw [there, Option.some.injEq] at found
        subst found
        exact Or.inl (own_prompts config n old flow there moved untested prompts)
      · exact Or.inl (after_prompts number _ _ _ n old there own prompts)
    · obtain ⟨still, entries⟩ := moved_ahead config number connection flow found moved recorded.wired
        unstranded.trusting (recorded.backed connection (List.mem_of_getElem? found)) untested own
        first
      have state := untested_server config flow connection.server untested
      have queue := (after_self number (flow.finish config connection.server) before
        connection.server).trans state
      refine Or.inr ⟨entry, by rw [queue]; exact entries entry member live,
        ⟨own, by rw [queue]; exact still, ahead⟩, live, client, ?_, request⟩
      by_cases here : entry.processID = connection.server
      · rw [here] at waits
        rw [here, queue, same]
        exact waits
      · rw [after_others _ _ _ _ _ here]
        exact waits
  · refine Or.inl ⟨_, after_member number number connection _ _ found, ?_⟩
    rw [Prompts, touched_server, touched_task, if_pos rfl]
    exact ⟨up, Or.inl ⟨rfl, Or.inl requests⟩⟩

theorem stalled_expected (outcome : Outcome) (me : Int) (state : Server)
    (same : outcome.server = state)
    (all : AllExpected config (stalled before number me state)) :
    AllExpected config (before.after number me outcome) := by
  have servers : (before.after number me outcome).server =
      (stalled before number me state).server := by
    change Function.update _ _ _ = Function.update _ _ _
    rw [same]
  intro other known alive waiting
  rw [servers] at waiting
  rcases all other known alive waiting with ⟨later, member, prompts⟩ | ⟨entry, member, blocks⟩
  · obtain ⟨n, present⟩ := List.mem_iff_getElem?.mp member
    rcases (after_found _ _ _ _ _ _).mp present with ⟨old, there, rfl⟩ | ⟨_, _, _, opening, _⟩
    · have elsewhere : n ≠ number := by
        rintro rfl
        refine ended_silent before.crashed other _ (Or.inr ?_) prompts
        rw [touched_task, if_pos rfl]
      have still : touched number n old ⟨state, .failed, .silent, []⟩ = old := by
        simp [touched, onWire, elsewhere]
      rw [still] at prompts
      exact Or.inl (after_prompts number other me outcome n old there elsewhere prompts)
    · cases opening
  · unfold Expected Blocks at *
    rw [servers]
    exact Or.inr ⟨entry, member, blocks⟩

include found moved in
theorem served_expected (unstranded : Unstranded config before)
    (up : connection.server ∉ before.crashed) (client : ClientInformation) (response : Text)
    (next : (flow.finish config connection.server).task = sendUpdate config connection.server
      (flow.finish config connection.server).server client response) (me : Int)
    (known : me ∈ config.serverIDs) (alive : me ∉ before.crashed) (other : connection.server ≠ me) :
    Expected (before.after number connection.server (flow.finish config connection.server)) me := by
  have active : me ∉ (flow.finish config connection.server).server.timedOutServers := by
    rw [finish_trusting]
    exact fun member => alive (moved_dead config unstranded.recorded.wired unstranded.trusting number
      connection flow found moved me member)
  have will := update_will config connection.server me other _ active known client response
  refine Or.inl ⟨_, after_member number number connection _ _ found, ?_⟩
  rw [Prompts, touched_server, touched_task, if_pos rfl, next]
  exact ⟨up, Or.inr ⟨other, will⟩⟩

include found moved in
/-- A harmless step leaves every waiting command expected. -/
theorem handled_expected (unstranded : Unstranded config before)
    (up : connection.server ∉ before.crashed)
    (steady : (before.server connection.server).logicalClock ≤ (flowServer flow).logicalClock)
    (harmless : ∀ server ∈ tested flow, Harmless config before number connection.server server) :
    AllExpected config
      (before.after number connection.server (flow.finish config connection.server)) := by
  have recorded := unstranded.recorded
  cases flow with
  | done outcome =>
      intro me known alive waiting
      by_cases own : me = connection.server
      · subst own
        rw [after_self] at waiting
        exact own_expected config number connection _ found moved unstranded up rfl waiting
      · rw [after_others _ _ _ _ _ own] at waiting
        exact other_expected config number connection _ found moved unstranded up me known alive own
          (commands_kept config number connection _ moved)
          (unstranded.expected me known alive waiting)
  | checking state =>
      have harm := harmless state rfl
      have lined := moved_lined config number connection _ found moved recorded.wired
        (recorded.backed connection (List.mem_of_getElem? found)) steady
        (unstranded.lined connection.server)
      have polled := check_polls config connection.server state
      have emptied : isSmallest state.pendingQueue connection.server = true →
          (checkCriticalSection config connection.server state).server.clientCommands = [] := by
        intro passed
        have few := lined.few
        rw [polled, if_pos passed, ← List.length_eq_zero_iff, List.length_tail]
        exact Nat.sub_eq_zero_of_le few
      have checked := check_checked config connection.server state
      generalize ends : checkCriticalSection config connection.server state = outcome at checked
      cases checked with
      | behind larger =>
          rw [Harmless, larger, if_neg Bool.false_ne_true] at harm
          exact stalled_expected config number _ connection.server state
            (congrArg Outcome.server ends) harm
      | idle smallest empty =>
          intro me known alive waiting
          by_cases own : me = connection.server
          · subst own
            rw [after_self] at waiting
            exact absurd (emptied smallest) waiting
          · rw [after_others _ _ _ _ _ own] at waiting
            have none := commands_kept config number connection _ moved
            simp only [flowServer, empty, List.subset_nil] at none
            exact other_expected config number connection _ found moved unstranded up me known alive
              own (none ▸ List.nil_subset _) (unstranded.expected me known alive waiting)
      | thrown client rest thrown smallest waiting failed =>
          rw [Harmless, if_pos smallest, waiting] at harm
          rcases harm with formed | all
          · obtain ⟨answer, served⟩ := (execute_wellFormed config.counting _ client.clientCommand
              state.store).mpr (formed client rfl)
            cases failed.symm.trans served
          · exact stalled_expected config number _ connection.server _
              (congrArg Outcome.server ends) all
      | served client rest response store smallest waiting result =>
          intro me known alive waits
          by_cases own : me = connection.server
          · subst own
            rw [after_self] at waits
            exact absurd (emptied smallest) waits
          · refine served_expected config number connection _ found moved unstranded up client response
              ?_ me known alive (Ne.symm own)
            rw [Flow.finish, ends]

end Steps

section Runs
variable (config : Config)

theorem initial_unstranded : Unstranded config (initial config) := by
  constructor
  · exact initial_recorded config
  · exact initial_trusting config
  · intro me
    exact ⟨Nat.zero_le 1, nofun, List.Pairwise.nil⟩
  · intro me known alive waiting
    exact absurd rfl waiting

theorem outside_expected (before after : Cluster) (action : Action)
    (stepped : Stepped config before action after) (outside : ∀ number, action ≠ .server number)
    (considerate : Considerate config before action) (all : AllExpected config before) :
    AllExpected config after := by
  have grown : after.crashed = before.crashed → AllExpected config after := by
    intro crashed me known alive waiting
    obtain ⟨servers, _⟩ := outside_same config before after action stepped outside
    rw [servers] at waiting
    rw [crashed] at alive
    rcases all me known alive waiting with ⟨old, member, prompts⟩ | ⟨entry, member, blocks⟩
    · obtain ⟨n, there⟩ := List.mem_iff_getElem?.mp member
      rw [Expected, crashed]
      rcases outside_stays config before after action stepped outside n old there with
        still | written
      · exact Or.inl ⟨old, List.mem_of_getElem? still, prompts⟩
      · exact Or.inl ⟨write old, List.mem_of_getElem? written,
          prompts_kept before.crashed me old _ rfl rfl rfl rfl (fun _ => rfl) prompts⟩
    · unfold Expected Blocks at *
      rw [servers, crashed]
      exact Or.inr ⟨entry, member, blocks⟩
  cases stepped with
  | crashed serverID known => exact considerate
  | handled number connection flow found alive advanced moved => exact absurd rfl (outside number)
  | _ => exact grown rfl

theorem step_unstranded (before : Cluster) (action : Action) (after : Cluster)
    (unstranded : Unstranded config before) (considerate : Considerate config before action)
    (taken : step config before action = some after) : Unstranded config after := by
  have recorded := unstranded.recorded
  have stepped := step_stepped config before after action
    (wired_readable config before recorded.wired) taken
  constructor
  · exact step_recorded config before action after recorded taken
  · exact step_trusting config action recorded.wired unstranded.trusting taken
  · intro me
    by_cases outside : ∀ number, action ≠ .server number
    · rw [(outside_same config before after action stepped outside).1]
      exact unstranded.lined me
    · cases stepped with
      | handled number connection flow found alive advanced moved =>
          obtain ⟨steady, _⟩ := considerate connection (Option.mem_def.mpr found)
          by_cases own : me = connection.server
          · subst own
            rw [after_self]
            exact finish_lined config flow connection.server (moved_lined config number connection
              flow found moved recorded.wired
              (recorded.backed connection (List.mem_of_getElem? found))
              (steady flow (Option.mem_def.mpr advanced)) (unstranded.lined connection.server))
          · rw [after_others _ _ _ _ _ own]
            exact unstranded.lined me
      | _ => simp at outside
  · by_cases outside : ∀ number, action ≠ .server number
    · exact outside_expected config before after action stepped outside considerate
        unstranded.expected
    · cases stepped with
      | handled number connection flow found alive advanced moved =>
          obtain ⟨steady, harmless⟩ := considerate connection (Option.mem_def.mpr found)
          exact handled_expected config number connection flow found moved unstranded alive
            (steady flow (Option.mem_def.mpr advanced)) (harmless flow (Option.mem_def.mpr advanced))
      | _ => simp at outside

/-- Where a server stands in the order of requests: at its own first entry. -/
def place (cluster : Cluster) (me : Int) : Int ×ₗ Int :=
  toLex (((search (cluster.server me).pendingQueue me).elim 0 TimeStamp.logicalClock), me)

theorem waiting_entry (cluster : Cluster) (recorded : Recorded config cluster) (me : Int)
    (client : ClientInformation) (waits : client ∈ (cluster.server me).clientCommands) :
    client.request ∈ ownEntries me (cluster.server me).pendingQueue := by
  have mine := recorded.owned me client (List.mem_append_left _ waits)
  have kept := recorded.kept client.request
  rw [mine] at kept
  have positive : 0 < RequestRounds.waits client.request (cluster.server me) :=
    List.countP_pos_iff.mpr ⟨client, waits, beq_self_eq_true _⟩
  refine List.mem_filter.mpr ⟨List.count_pos_iff.mp ?_, beq_iff_eq.mpr mine⟩
  rw [kept, issued, mine]
  exact Nat.lt_of_lt_of_le positive (Nat.le_add_right _ _)

/-- A waiting server stands no later than its waiting request. -/
theorem place_first (cluster : Cluster) (unstranded : Unstranded config cluster) (me : Int)
    (client : ClientInformation) (waits : client ∈ (cluster.server me).clientCommands) :
    place cluster me ≤ toLex (client.request.logicalClock, me) := by
  have entry := waiting_entry config cluster unstranded.recorded me client waits
  have ordered := (unstranded.lined me).ordered
  rw [place, search_own]
  cases entries : ownEntries me (cluster.server me).pendingQueue with
  | nil =>
      rw [entries] at entry
      cases entry
  | cons first rest =>
      rw [entries] at entry ordered
      have early : first.logicalClock ≤ client.request.logicalClock := by
        rcases List.mem_cons.mp entry with same | later
        · rw [same]
        · exact (List.pairwise_cons.mp ordered).1 _ later
      exact Prod.Lex.toLex_mono ⟨early, le_refl me⟩

theorem blocked_behind (cluster : Cluster) (unstranded : Unstranded config cluster) (me : Int)
    (entry : TimeStamp) (blocks : Blocks cluster me entry) :
    entry.processID ∈ config.serverIDs ∧ entry.processID ∉ cluster.crashed ∧
      (cluster.server entry.processID).clientCommands ≠ [] ∧
      place cluster entry.processID < place cluster me := by
  obtain ⟨⟨own, first, ahead⟩, live, client, waits, rfl⟩ := blocks
  obtain ⟨connection, found, _, server⟩ :=
    (unstranded.recorded.wired.servers _).queued client waits
  have known := (unstranded.recorded.wired.connections _ connection found).known
  have mine : own.processID = me := by
    have hit := List.find?_some (Option.mem_def.mp first)
    exact beq_iff_eq.mp hit
  have stands : place cluster me = toLex (own.logicalClock, own.processID) := by
    rw [place, Option.mem_def.mp first, mine]
    rfl
  refine ⟨server ▸ known, live, List.ne_nil_of_mem waits, ?_⟩
  rw [stands]
  exact lt_of_le_of_lt (place_first config cluster unstranded _ client waits)
    ((compare_behind own client.request).mp ahead)

/-- In a considerate run no command of a live server waits any more once every
handler at a live server has ended. -/
theorem nothing_stranded (config : Config) (cluster : Cluster)
    (reached : Reachable (step config) (Considerate config) (initial config) cluster)
    (resting : Resting cluster) (me : Int) (alive : me ∉ cluster.crashed) :
    (cluster.server me).clientCommands = [] := by
  have unstranded := reachable_invariant (Unstranded config) (initial_unstranded config)
    (step_unstranded config) reached
  by_contra waiting
  obtain ⟨client, waits⟩ := List.exists_mem_of_ne_nil _ waiting
  obtain ⟨connection, found, _, server⟩ := (unstranded.recorded.wired.servers me).queued client waits
  have known := (unstranded.recorded.wired.connections _ connection found).known
  refine nobody_waits config.serverIDs
    (fun id => id ∉ cluster.crashed ∧ (cluster.server id).clientCommands ≠ []) (place cluster) ?_ me
    (server ▸ known) ⟨alive, waiting⟩
  rintro id inside ⟨live, commands⟩
  rcases unstranded.expected id inside live commands with
    ⟨handler, member, prompts⟩ | ⟨entry, member, blocks⟩
  · exact absurd prompts
      (ended_silent cluster.crashed id handler (resting handler member prompts.1))
  · obtain ⟨there, up, late, behind⟩ := blocked_behind config cluster unstranded id entry blocks
    exact ⟨entry.processID, there, ⟨up, late⟩, behind⟩

end Runs

section Examples

-- Server 2 crashes before it has answered the `Request` of server 1.
def peerCrashes : List Action :=
  [.submit "list".toList [1], .client 0, .client 0, .server 0, .server 0, .server 0, .crash 2,
    .server 0, .server 0, .server 0]

-- Server 1 crashes when server 2 has found its own request behind that of
-- server 1. Server 2 never sends to server 1 again.
def rivalCrashes : List Action :=
  [.submit "list".toList [1], .submit "list".toList [2], .client 0, .client 0, .client 1,
    .client 1, .server 0, .server 0, .server 0, .server 2, .server 2, .server 2, .server 2,
    .server 1, .server 1, .server 1, .server 3, .server 3, .server 3, .server 1, .server 1,
    .crash 1]

theorem nothing_stranded_crash : ∃ cluster,
    replay (step twoServers) (Considerate twoServers) (initial twoServers) peerCrashes =
        some cluster ∧ cluster.crashed = [2] ∧ cluster.history.length = 1 ∧
      (cluster.server 1).clientCommands = [] := by
  have rests : ((replay (step twoServers) (Considerate twoServers) (initial twoServers)
      peerCrashes).any fun cluster => cluster.crashed == [2] && (cluster.history.length == 1 &&
        decide (Resting cluster))) = true := by
    decide +kernel
  obtain ⟨cluster, played, shown⟩ := (Option.any_eq_true _ _).mp rests
  obtain ⟨crashed, rest⟩ := Bool.and_eq_true_iff.mp shown
  obtain ⟨ran, resting⟩ := Bool.and_eq_true_iff.mp rest
  have down := beq_iff_eq.mp crashed
  exact ⟨cluster, played, down, beq_iff_eq.mp ran, nothing_stranded twoServers cluster
    (replayed _ _ played) (of_decide_eq_true resting) 1 (by rw [down]; decide)⟩

theorem command_stranded : ¬ ∀ cluster,
    Reachable (step twoServers) (fun _ _ => True) (initial twoServers) cluster →
    Resting cluster → ∀ me ∈ twoServers.serverIDs, me ∉ cluster.crashed →
      (cluster.server me).clientCommands = [] := by
  intro served
  have waits : ((replay (step twoServers) (fun _ _ => True) (initial twoServers)
      rivalCrashes).any fun cluster => decide (Resting cluster) && (decide (2 ∉ cluster.crashed) &&
        (cluster.server 2).clientCommands != [])) = true := by
    decide +kernel
  obtain ⟨cluster, played, shown⟩ := (Option.any_eq_true _ _).mp waits
  obtain ⟨resting, rest⟩ := Bool.and_eq_true_iff.mp shown
  obtain ⟨alive, waiting⟩ := Bool.and_eq_true_iff.mp rest
  exact bne_iff_ne.mp waiting (served cluster (replayed _ _ played) (of_decide_eq_true resting) 2
    (by decide) (of_decide_eq_true alive))

end Examples

end EE360P.StrandedCommands
