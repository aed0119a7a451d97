import EE360P.ObservedCluster

/-! When a request that a peer has acknowledged is in the peer's queue until the
peer handles its release, and not any more after that. The `Acknowledgement` is
printed before the entry is added, and a `Release` removes whatever entry of the
sender comes first. -/

namespace EE360P.RecordedRequests
open JavaText ReplicatedServer ServerCluster ClusterSteps ClusterWiring SectionExclusion
open CommandTokens ReliableDelivery ConnectionSums RequestRounds ObservedCluster GuardedRuns

section Laws
variable (config : Config)

/-- An `Acknowledgement` is read only when its handler is past the
`pendingQueue.add`, and a `Release` is handled only when the first entry of the
sender is that of the released request. -/
def Matched (cluster : Cluster) (notes : Notes) (number : Nat) (connection : Connection) : Prop :=
  match connection.task with
  | .awaiting sending _ socket => sending.purpose = .entering →
      ∀ target ∈ cluster.connections[socket]?, unapplied target.task = false
  | .handling => ∀ purpose ∈ notes.purposes number, ∀ client ∈ leaving purpose,
      search (cluster.server connection.server).pendingQueue client.request.processID =
        some client.request
  | _ => True

instance (cluster : Cluster) (notes : Notes) (number : Nat) (connection : Connection) :
    Decidable (Matched cluster notes number connection) := by
  unfold Matched
  split
  · infer_instance
  · infer_instance
  · infer_instance

/-- The clock of the server does not overflow in this step. -/
def Steadily (cluster : Cluster) (number : Nat) (connection : Connection) : Prop :=
  ∀ flow ∈ advance config cluster number connection,
    (cluster.server connection.server).logicalClock ≤ (flowServer flow).logicalClock

instance (cluster : Cluster) (number : Nat) (connection : Connection) :
    Decidable (Steadily config cluster number connection) :=
  inferInstanceAs (Decidable (∀ _ ∈ _, _))

def Timely (both : Cluster × Notes) : Action → Prop
  | .submit _ _ => True
  | .client _ => True
  | .timeout _ => True
  | .server number => ∀ connection ∈ both.1.connections[number]?,
      Steadily config both.1 number connection ∧ Matched both.1 both.2 number connection
  | .crash _ => False

instance (both : Cluster × Notes) : ∀ action, Decidable (Timely config both action)
  | .submit _ _ => isTrue trivial
  | .client _ => isTrue trivial
  | .timeout _ => isTrue trivial
  | .server _ => inferInstanceAs (Decidable (∀ _ ∈ _, _))
  | .crash _ => isFalse id

/-- Releases of this request that the server has handled. -/
def released (notes : Notes) (server : Int) (stamp : TimeStamp) : Nat :=
  notes.releasesHandled.countP fun note => note.1 == server && note.2.request == stamp

structure Balanced (cluster : Cluster) (notes : Notes) : Prop where
  asked : Asked config cluster
  tagged : Tagged cluster notes
  entries : ∀ (stamp : TimeStamp) (server : Int), server ≠ stamp.processID →
    (cluster.server server).pendingQueue.count stamp + released notes server stamp =
      total (appliedWeight stamp server) cluster.connections
  acknowledged : ∀ server stamp, (server, stamp) ∈ notes.acknowledged →
    server ≠ stamp.processID ∧ 0 < total (appliedWeight stamp server) cluster.connections
  handled : ∀ server client, (server, client) ∈ notes.releasesHandled →
    server ∈ config.serverIDs ∧ server ≠ client.request.processID
  once : ∀ stamp, issued stamp cluster ≤ 1
  past : ∀ stamp, 0 < issued stamp cluster →
    stamp.logicalClock ≤ (cluster.server stamp.processID).logicalClock

end Laws

section Queues

theorem erase_found (stamp entry : TimeStamp) (pendingQueue : List TimeStamp) (serverID : Int)
    (first : search pendingQueue serverID = some entry) :
    (pendingQueue.eraseP fun timeStamp => timeStamp.processID == serverID).count stamp +
      (if entry = stamp then 1 else 0) = pendingQueue.count stamp := by
  induction pendingQueue with
  | nil => cases first
  | cons head rest ih =>
      by_cases hit : head.processID = serverID
      · have same : head = entry := by simpa [search, hit] using first
        subst same
        simp [hit, List.count_cons]
      · have tail := ih (by simpa [search, hit] using first)
        rw [List.eraseP_cons_of_neg (by simpa using hit), List.count_cons, List.count_cons]
        omega

end Queues

/-! Timestamps are used once as long as no clock overflows. -/
section Stamps
variable (config : Config) {before : Cluster} (number : Nat) (connection : Connection) (flow : Flow)
  (moved : Moved config before number connection flow)

include moved

theorem moved_commands : (flowServer flow).clientCommands =
      (before.server connection.server).clientCommands ∨
    ((before.server connection.server).clientCommands = [] ∧ ∃ client,
      (flowServer flow).clientCommands = [client] ∧
      client.request = ⟨(flowServer flow).logicalClock, connection.server⟩ ∧
      (flowServer flow).logicalClock =
        config.counting.wrap ((before.server connection.server).logicalClock + 1)) := by
  have changed := moved_changed config before number connection flow moved
  generalize flowServer flow = state at changed ⊢
  cases changed with
  | queued queued command reading message empty same =>
      rw [same]
      exact Or.inr ⟨empty, _, rfl, rfl, rfl⟩
  | _ => exact Or.inl rfl

/-- A request is new only with a clock that its server has not had before. -/
theorem issued_cases (owned : Owned before) (stamp : TimeStamp)
    (steady : (before.server connection.server).logicalClock ≤ (flowServer flow).logicalClock) :
    issued stamp (before.after number connection.server
        (flow.finish config connection.server)) = issued stamp before ∨
      (stamp.processID = connection.server ∧
        stamp.logicalClock = (flowServer flow).logicalClock ∧
        (before.server connection.server).logicalClock < stamp.logicalClock ∧
        issued stamp (before.after number connection.server
          (flow.finish config connection.server)) = issued stamp before + 1) := by
  have made := after_issued config stamp number connection flow moved owned
  rcases moved_commands config number connection flow moved with
    same | ⟨empty, client, single, request, counted⟩
  · have still : waits stamp (flowServer flow) = waits stamp (before.server connection.server) := by
      rw [waits, waits, same]
    exact Or.inl (by omega)
  · have none : waits stamp (before.server connection.server) = 0 := by
      rw [waits, empty]
      rfl
    have one : waits stamp (flowServer flow) = if client.request = stamp then 1 else 0 := by
      simp [waits, single, List.countP_cons]
    by_cases mine : client.request = stamp
    · have moves := wrap_moves config.counting (before.server connection.server).logicalClock
      rw [← counted] at moves
      rw [request] at mine
      subst mine
      refine Or.inr ⟨rfl, rfl, ?_, ?_⟩
      · change _ < (flowServer flow).logicalClock
        omega
      · rw [request, if_pos rfl] at one
        omega
    · rw [if_neg mine] at one
      exact Or.inl (by omega)

end Stamps

/-! A handler that has applied its line stays past it. -/
section Applied
variable (config : Config) (stamp : TimeStamp) (server : Int) {before : Cluster} (number : Nat)
  (connection : Connection) (flow : Flow)
  (found : before.connections[number]? = some connection)
  (moved : Moved config before number connection flow)

include moved

theorem moved_applied (applied : unapplied connection.task = false) :
    unapplied (flow.finish config connection.server).task = false := by
  have resumed : ∀ state sending, unapplied ((resume config connection.server state
      sending).finish config connection.server).task = false := fun state sending =>
    onward_applied _ (resume_ending config connection.server state sending).1
  cases moved with
  | queued command reading message empty => exact resumed _ _
  | released logicalClock serverID handling message =>
      rw [handling] at applied
      cases applied
  | updated logicalClock serverID client handling message =>
      rw [handling] at applied
      cases applied
  | requested logicalClock serverID reading message =>
      rw [reading] at applied
      cases applied
  | told reading message =>
      rw [reading] at applied
      cases applied
  | answered text answering plain =>
      rw [answering] at applied
      cases applied
  | unreachable sending peer connecting down => exact resumed _ _
  | heard sending peer socket target awaiting reached reply => exact resumed _ _
  | lost sending peer socket target awaiting reached silent dead => exact resumed _ _
  | _ => rfl

include found

theorem applied_grows : total (appliedWeight stamp server) before.connections ≤
    total (appliedWeight stamp server) (before.after number connection.server
      (flow.finish config connection.server)).connections := by
  have sums := after_total (appliedWeight stamp server) (applied_steady stamp server) before number
    connection.server (flow.finish config connection.server) connection found
  have stays : appliedWeight stamp server connection ≤ appliedWeight stamp server
      (setTask (flow.finish config connection.server).task connection) := by
    cases applied : unapplied connection.task with
    | true => simp [appliedWeight, applied]
    | false =>
        have still := moved_applied config number connection flow moved applied
        simp [appliedWeight, asks, setTask, applied, still]
  omega

omit moved in
theorem applied_positive (asked : asks stamp server connection = true)
    (applied : unapplied connection.task = false) :
    0 < total (appliedWeight stamp server) before.connections := by
  have one : appliedWeight stamp server connection = 1 := by simp [appliedWeight, asked, applied]
  have bound := weight_le_total (appliedWeight stamp server) _ connection
    (List.mem_of_getElem? found)
  omega

omit found in
/-- The handling of a `Release` removes the sender's first entry. -/
theorem moved_release (logicalClock serverID : Int) (handling : connection.task = .handling)
    (message : connection.message = .release logicalClock serverID) :
    (flowServer flow).pendingQueue = (before.server connection.server).pendingQueue.eraseP
      fun timeStamp => timeStamp.processID == serverID := by
  cases moved with
  | released otherClock otherID standing line =>
      rw [message] at line
      cases line
      rfl
  | _ => simp_all

end Applied

section Steps
variable (config : Config) {before : Cluster} {notes : Notes} (balanced : Balanced config before notes)
  (number : Nat) (connection : Connection) (flow : Flow)
  (found : before.connections[number]? = some connection)
  (moved : Moved config before number connection flow)
  (matched : Matched before notes number connection)

include balanced found

/-- What is noted of a step that handles a `Release` is the request it is about. -/
theorem release_about (logicalClock serverID : Int)
    (message : connection.message = .release logicalClock serverID) :
    ∃ client, (notes.purposes number).bind leaving = some client ∧
      client.request.processID = serverID ∧ serverID ≠ connection.server := by
  obtain ⟨purpose, opening⟩ := balanced.tagged.purposed number connection found (by
    rw [message]
    nofun)
  obtain ⟨me, _, sound⟩ := balanced.tagged.served number connection purpose found opening
  have sent := purpose_sender _ _ _ _ sound
  rw [message] at sound sent
  cases sent
  obtain ⟨client, response, rfl, won⟩ := purpose_release _ _ _ _ _ sound
  have backed := balanced.asked.recorded.backed connection (List.mem_of_getElem? found)
  refine ⟨client, by rw [opening]; rfl, balanced.asked.recorded.ran _ won rfl, fun same => ?_⟩
  apply backed.foreign
  rw [message, sender, same]

theorem unreleased (line : ∀ logicalClock serverID, connection.message ≠ .release logicalClock serverID) :
    (notes.purposes number).bind leaving = none := by
  cases opening : notes.purposes number with
  | none => rfl
  | some purpose =>
      obtain ⟨me, _, sound⟩ := balanced.tagged.served number connection purpose found opening
      cases purpose with
      | leaving client response =>
          obtain ⟨_, logicalClock, message⟩ := sound
          exact absurd message (line logicalClock me)
      | _ => rfl

include moved matched

theorem handled_entries (stamp : TimeStamp) (server : Int) (other : server ≠ stamp.processID) :
    ((before.after number connection.server (flow.finish config connection.server)).server
        server).pendingQueue.count stamp +
      released (noted before number connection notes) server stamp =
    total (appliedWeight stamp server) (before.after number connection.server
      (flow.finish config connection.server)).connections := by
  have old := balanced.entries stamp server other
  have wired := balanced.asked.recorded.wired
  have handling := noted_handled before number connection notes
  have counted : released (noted before number connection notes) server stamp =
      released notes server stamp + (if connection.task = .handling then
        (((notes.purposes number).bind leaving).map fun client =>
          (connection.server, client)).toList else []).countP fun note =>
            note.1 == server && note.2.request == stamp := by
    rw [released, handling, List.countP_append]
    rfl
  by_cases here : server = connection.server
  · subst here
    rw [after_self, finish_pending]
    by_cases releasing : connection.task = .handling ∧
        ∃ logicalClock serverID, connection.message = .release logicalClock serverID
    · obtain ⟨standing, logicalClock, serverID, message⟩ := releasing
      obtain ⟨client, about, owner, foreign⟩ :=
        release_about config balanced number connection found logicalClock serverID message
      have first : search (before.server connection.server).pendingQueue serverID =
          some client.request := by
        obtain ⟨purpose, opening, left⟩ := Option.bind_eq_some_iff.mp about
        rw [Matched, standing] at matched
        exact owner ▸ matched purpose opening client left
      have erased := erase_found stamp client.request _ serverID first
      have queue := moved_release config number connection flow moved logicalClock serverID standing
        message
      have unasked : asks stamp connection.server connection = false := by
        simp [asks, message, asking]
      rw [queue, applied_still stamp number connection found connection.server unasked, counted,
        standing, about]
      by_cases mine : client.request = stamp
      · simp only [mine, ↓reduceIte] at erased
        simp [mine]
        omega
      · simp only [mine, ↓reduceIte] at erased
        simp [mine]
        omega
    · have kept : connection.task = .handling → ∀ logicalClock serverID,
          connection.message ≠ .release logicalClock serverID := fun standing logicalClock serverID
            message => releasing ⟨standing, logicalClock, serverID, message⟩
      have entries := applied_stored config stamp wired number connection flow found moved
        balanced.asked.reliable (Ne.symm other) kept
      have idle : (if connection.task = .handling then
          (((notes.purposes number).bind leaving).map fun client =>
            (connection.server, client)).toList else []) = [] := by
        split
        · rename_i standing
          rw [unreleased config balanced number connection found (kept standing)]
          rfl
        · rfl
      rw [counted, idle, List.countP_nil]
      omega
  · have unasked : asks stamp server connection = false := by simp [asks, Ne.symm here]
    have elsewhere : ((if connection.task = .handling then
        (((notes.purposes number).bind leaving).map fun client =>
          (connection.server, client)).toList else []).countP fun note =>
            note.1 == server && note.2.request == stamp) = 0 := by
      refine List.countP_eq_zero.mpr fun note member hit => ?_
      split at member
      · obtain ⟨client, _, rfl⟩ := Option.map_eq_some_iff.mp (Option.mem_toList.mp member)
        simp [Ne.symm here] at hit
      · cases member
    rw [after_others _ _ _ _ _ here, applied_still stamp number connection found server unasked,
      counted, elsewhere]
    exact old

theorem handled_acknowledged (server : Int) (stamp : TimeStamp)
    (member : (server, stamp) ∈ (noted before number connection notes).acknowledged) :
    server ≠ stamp.processID ∧ 0 < total (appliedWeight stamp server)
      (before.after number connection.server (flow.finish config connection.server)).connections := by
  have grows := applied_grows config stamp server number connection flow found moved
  rcases noted_acknowledged before number connection notes server stamp member with
    old | ⟨sending, socket, awaiting, message⟩
  · obtain ⟨other, positive⟩ := balanced.acknowledged server stamp old
    exact ⟨other, by omega⟩
  · have task := (balanced.asked.recorded.wired.connections number connection found).task
    rw [awaiting] at task
    have mine := purpose_sender _ _ _ _ task.1.purpose
    have entering : sending.purpose = .entering := by
      have sound := task.1.purpose
      rw [message] at sound
      cases purpose : sending.purpose with
      | entering => rfl
      | updating client response =>
          rw [purpose] at sound
          obtain ⟨_, _, line⟩ := sound
          cases line
      | leaving client response =>
          rw [purpose] at sound
          obtain ⟨_, _, line⟩ := sound
          cases line
    obtain ⟨target, reached, here, line, _⟩ :=
      balanced.tagged.addressed number connection sending server socket found (by rw [awaiting]; rfl)
    have applied : unapplied target.task = false := by
      rw [Matched, awaiting] at matched
      exact matched entering target reached
    have asked : asks stamp server target = true := by simp [asks, here, line, message]
    have positive := applied_positive stamp server socket target reached asked applied
    refine ⟨?_, by omega⟩
    rw [message] at mine
    exact fun same => task.2.2 (same.trans (Option.some.inj mine))

omit matched moved in
theorem handled_released (server : Int) (client : ClientInformation)
    (member : (server, client) ∈ (noted before number connection notes).releasesHandled) :
    server ∈ config.serverIDs ∧ server ≠ client.request.processID := by
  rw [noted_handled] at member
  rcases List.mem_append.mp member with old | new
  · exact balanced.handled server client old
  · split at new
    · obtain ⟨other, about, same⟩ := Option.map_eq_some_iff.mp (Option.mem_toList.mp new)
      cases same
      refine ⟨(balanced.asked.recorded.wired.connections number connection found).known, ?_⟩
      by_cases release : ∃ logicalClock serverID, connection.message = .release logicalClock serverID
      · obtain ⟨logicalClock, serverID, message⟩ := release
        obtain ⟨released, told, owner, foreign⟩ :=
          release_about config balanced number connection found logicalClock serverID message
        rw [about] at told
        cases told
        exact fun same => foreign (owner.symm.trans same.symm)
      · rw [unreleased config balanced number connection found fun logicalClock serverID message =>
          release ⟨logicalClock, serverID, message⟩] at about
        cases about
    · cases new

omit matched found in
theorem handled_once (steady : (before.server connection.server).logicalClock ≤
      (flowServer flow).logicalClock) (stamp : TimeStamp) :
    issued stamp (before.after number connection.server
        (flow.finish config connection.server)) ≤ 1 ∧
      (0 < issued stamp (before.after number connection.server
          (flow.finish config connection.server)) →
        stamp.logicalClock ≤ ((before.after number connection.server
          (flow.finish config connection.server)).server stamp.processID).logicalClock) := by
  have once := balanced.once stamp
  have past := balanced.past stamp
  have clock := (finish_server config connection.server flow).1
  rcases issued_cases config number connection flow moved balanced.asked.recorded.owned stamp steady
    with same | ⟨own, counted, later, new⟩
  · rw [same]
    refine ⟨once, fun positive => ?_⟩
    have reached := past positive
    by_cases own : stamp.processID = connection.server
    · rw [own, after_self, clock]
      rw [own] at reached
      omega
    · rwa [after_others _ _ _ _ _ own]
  · rw [own] at past ⊢
    rw [after_self, clock]
    refine ⟨?_, fun _ => by omega⟩
    by_contra twice
    have before_ := past (by omega)
    omega

end Steps

section Runs
variable (config : Config)

theorem start_balanced : Balanced config (start config).1 (start config).2 := by
  constructor
  · exact initial_asked config
  · exact start_tagged config
  · intro stamp server other
    rfl
  · intro server stamp member
    cases member
  · intro server client member
    cases member
  · intro stamp
    exact Nat.zero_le 1
  · intro stamp positive
    cases positive

theorem timely_up (both : Cluster × Notes) (action : Action) (timely : Timely config both action) :
    crashFree action = true := by
  cases action with
  | crash serverID => exact timely.elim
  | _ => rfl

/-- A timely step keeps entries, handled releases and applied requests in balance. -/
theorem step_balanced (before : Cluster × Notes) (action : Action) (after : Cluster × Notes)
    (balanced : Balanced config before.1 before.2) (timely : Timely config before action)
    (taken : observe config before action = some after) : Balanced config after.1 after.2 := by
  have up := timely_up config before action timely
  have wired := balanced.asked.recorded.wired
  obtain ⟨stepping, watched⟩ := observed_taken (step config) watch before after action taken
  have asked := step_asked config before.1 action after.1 balanced.asked up stepping
  have tagged := step_tagged config before after action wired balanced.tagged taken
  have stepped := step_stepped config before.1 after.1 action (wired_readable config before.1 wired)
    stepping
  by_cases outside : ∀ number, action ≠ .server number
  · have servers := (outside_same config before.1 after.1 action stepped outside).1
    have applied : ∀ stamp server, total (appliedWeight stamp server) after.1.connections =
        total (appliedWeight stamp server) before.1.connections := fun stamp server =>
      outside_total (appliedWeight stamp server) (applied_steady stamp server) config before.1
        after.1 action (fun peer number command => by simp [appliedWeight, asks, opened, asking])
        stepped outside
    have made : ∀ stamp, issued stamp after.1 = issued stamp before.1 := fun stamp =>
      outside_issued config stamp after.1 action stepped outside
    rw [watch_outside before.1 action before.2 outside] at watched
    rw [watched] at tagged ⊢
    constructor
    · exact asked
    · exact tagged
    · intro stamp server other
      rw [servers, applied]
      exact balanced.entries stamp server other
    · intro server stamp member
      rw [applied]
      exact balanced.acknowledged server stamp member
    · exact balanced.handled
    · intro stamp
      rw [made]
      exact balanced.once stamp
    · intro stamp positive
      rw [made] at positive
      rw [servers]
      exact balanced.past stamp positive
  · obtain ⟨cluster, notes⟩ := after
    cases stepped with
    | handled number connection flow found alive advanced moved =>
        rw [watch_handled before.1 number connection before.2 found] at watched
        subst watched
        obtain ⟨steady, matched⟩ := timely connection (Option.mem_def.mpr found)
        have once := handled_once config balanced number connection flow moved
          (steady flow (Option.mem_def.mpr advanced))
        constructor
        · exact asked
        · exact tagged
        · exact handled_entries config balanced number connection flow found moved matched
        · exact handled_acknowledged config balanced number connection flow found moved matched
        · exact handled_released config balanced number connection found
        · exact fun stamp => (once stamp).1
        · exact fun stamp => (once stamp).2
    | _ => simp at outside

theorem applied_round (stamp : TimeStamp) (server : Int) (connection : Connection) :
    appliedWeight stamp server connection ≤ roundWeight stamp server connection := by
  unfold appliedWeight roundWeight
  cases asks stamp server connection with
  | false => exact Nat.zero_le _
  | true =>
      have few := Bool.toNat_le (true && !unapplied connection.task)
      simp only [Bool.toNat_true]
      omega

theorem balanced_recorded (cluster : Cluster) (notes : Notes)
    (balanced : Balanced config cluster notes) (server : Int) (request : TimeStamp)
    (acknowledged : (server, request) ∈ notes.acknowledged)
    (unhandled : ∀ client, (server, client) ∈ notes.releasesHandled → client.request ≠ request) :
    request ∈ (cluster.server server).pendingQueue := by
  obtain ⟨other, positive⟩ := balanced.acknowledged server request acknowledged
  have entries := balanced.entries request server other
  have none : released notes server request = 0 := by
    refine List.countP_eq_zero.mpr fun note member hit => ?_
    obtain ⟨peer, client⟩ := note
    simp only [Bool.and_eq_true, beq_iff_eq] at hit
    obtain ⟨rfl, same⟩ := hit
    exact unhandled client member same
  apply List.count_pos_iff.mp
  omega

theorem balanced_gone (cluster : Cluster) (notes : Notes)
    (balanced : Balanced config cluster notes) (server : Int) (client : ClientInformation)
    (handled : (server, client) ∈ notes.releasesHandled) :
    client.request ∉ (cluster.server server).pendingQueue := by
  obtain ⟨known, other⟩ := balanced.handled server client handled
  have entries := balanced.entries client.request server other
  have few := total_le (appliedWeight client.request server) (roundWeight client.request server)
    cluster.connections (applied_round client.request server)
  rw [balanced.asked.rounds client.request server known other] at few
  have once := balanced.once client.request
  have one : 0 < released notes server client.request :=
    List.countP_pos_iff.mpr ⟨(server, client), handled, by simp⟩
  apply List.count_eq_zero.mp
  omega

/-- In every state that a timely run reaches, a request that a peer acknowledged
is in its queue as long as the peer has not handled the release of the request,
and a request whose release it has handled is not. -/
theorem requests_recorded (config : Config) (both : Cluster × Notes)
    (reached : Reachable (observe config) (Timely config) (start config) both) (server : Int) :
    (∀ request, (server, request) ∈ both.2.acknowledged →
      (∀ client, (server, client) ∈ both.2.releasesHandled → client.request ≠ request) →
        request ∈ (both.1.server server).pendingQueue) ∧
    ∀ client, (server, client) ∈ both.2.releasesHandled →
      client.request ∉ (both.1.server server).pendingQueue := by
  have balanced := reachable_invariant (fun both => Balanced config both.1 both.2)
    (start_balanced config) (step_balanced config) reached
  constructor
  · intro request acknowledged unhandled
    exact balanced_recorded config both.1 both.2 balanced server request acknowledged unhandled
  · intro client handled
    exact balanced_gone config both.1 both.2 balanced server client handled

end Runs

section Examples

-- One command, with every answer read after its handler has done its work.
def listRecorded : List Action :=
  [.submit "list".toList [1], .client 0, .client 0, .server 0, .server 0, .server 0, .server 1,
    .server 1, .server 1, .server 0, .server 0, .server 0, .server 2, .server 2, .server 2,
    .server 0, .server 0, .server 0, .server 3, .server 3, .server 3, .server 0]

theorem requests_recorded_list : ∃ both,
    replay (observe twoServers) (Timely twoServers) (start twoServers) listRecorded = some both ∧
      both.2.releasesHandled ≠ [] ∧
      (∀ request, (2, request) ∈ both.2.acknowledged →
        (∀ client, (2, client) ∈ both.2.releasesHandled → client.request ≠ request) →
          request ∈ (both.1.server 2).pendingQueue) ∧
      ∀ client, (2, client) ∈ both.2.releasesHandled →
        client.request ∉ (both.1.server 2).pendingQueue := by
  have handles : ((replay (observe twoServers) (Timely twoServers) (start twoServers)
      listRecorded).any fun both => both.2.releasesHandled != []) = true := by
    decide +kernel
  obtain ⟨both, played, handled⟩ := (Option.any_eq_true _ _).mp handles
  exact ⟨both, played, bne_iff_ne.mp handled,
    requests_recorded twoServers both (replayed _ _ played) 2⟩

-- Server 1 reads the answer of server 2 while server 2 is before its `add`.
def answerOvertakes : List Action :=
  [.submit "list".toList [1], .client 0, .client 0, .server 0, .server 0, .server 0, .server 1,
    .server 1, .server 0]

theorem acknowledged_unrecorded : ¬ ∀ both,
    Reachable (observe twoServers) (fun _ action => crashFree action = true) (start twoServers)
      both →
    ∀ server,
      (∀ request, (server, request) ∈ both.2.acknowledged →
        (∀ client, (server, client) ∈ both.2.releasesHandled → client.request ≠ request) →
          request ∈ (both.1.server server).pendingQueue) ∧
      ∀ client, (server, client) ∈ both.2.releasesHandled →
        client.request ∉ (both.1.server server).pendingQueue := by
  intro recorded
  have early : ((replay (observe twoServers) (fun _ action => crashFree action = true)
      (start twoServers) answerOvertakes).any fun both =>
        both.2.acknowledged.contains (2, ⟨2, 1⟩) && (both.2.releasesHandled == [] &&
          (both.1.server 2).pendingQueue == [])) = true := by
    decide +kernel
  obtain ⟨both, played, all⟩ := (Option.any_eq_true _ _).mp early
  obtain ⟨acknowledged, rest⟩ := Bool.and_eq_true_iff.mp all
  obtain ⟨none, empty⟩ := Bool.and_eq_true_iff.mp rest
  have member := (recorded both (replayed _ _ played) 2).1 ⟨2, 1⟩
    (List.contains_iff_mem.mp acknowledged) (by
      intro client handled
      rw [beq_iff_eq.mp none] at handled
      cases handled)
  rw [beq_iff_eq.mp empty] at member
  cases member

end Examples

end EE360P.RecordedRequests
