import EE360P.StrandedCommands
import EE360P.VisibleUpdates

/-! Whether a server gives the critical section back. After an `execute` that
returns, the `Release` is sent to every peer. An exception of `execute` ends the
handler before `finishExecute`, so nobody ever hears of it. -/

namespace EE360P.ReturnedSections
open JavaText ReplicatedServer ServerCluster ClusterSteps ClusterWiring SectionExclusion
open CommandTokens ReliableDelivery RequestRounds ObservedCluster GuardedRuns
open OnlineStore (WellFormed execute_wellFormed)
open RecordedRequests (Balanced Timely timely_up start_balanced step_balanced balanced_gone)
open StrandedCommands (releases willRelease update_will resume_will)
open SubmittedOnce (owes purposeOwes update_owes resume_owes)
open VisibleUpdates (section_owes owes_won)

section Laws
variable (client : ClientInformation)

def releaseTargets (targets : List Int) (purpose : Purpose) : List Int :=
  if leaving purpose = some client then targets else []

/-- The peers to which this handler has still to print the `Release`. -/
def toRelease : ServerTask → List Int
  | .connecting sending peer => releaseTargets client (peer :: sending.rest) sending.purpose
  | .writing sending peer _ => releaseTargets client (peer :: sending.rest) sending.purpose
  | .awaiting sending _ _ => releaseTargets client sending.rest sending.purpose
  | _ => []

/-- The handler will print the `Release` to this peer. -/
def Bound (peer : Int) (task : ServerTask) : Prop :=
  taskSection task = some client ∨ peer ∈ toRelease client task

variable (config : Config)

structure Returned (cluster : Cluster) (notes : Notes) : Prop where
  delivered : Delivered config cluster
  results : ∀ execution ∈ cluster.history, execution.own = true →
    (execution.succeeded = true ↔ WellFormed config.counting execution.client.clientCommand)
  ran : ∀ peer client, (peer, client) ∈ notes.releasesSent →
    ∃ me response, Won cluster.history me client response
  sent : ∀ me client response, Won cluster.history me client response →
    ∀ peer ∈ config.serverIDs, peer ≠ me → (peer, client) ∈ notes.releasesSent ∨
      ∃ connection ∈ cluster.connections, connection.server = me ∧
        Bound client peer connection.task

theorem releases_bound (peer : Int) (targets : List Int) (purpose : Purpose) :
    (purposeSection purpose = some client ∨ peer ∈ releaseTargets client targets purpose) ↔
      purposeOwes purpose = some client ∧ releases peer targets purpose = true := by
  cases purpose with
  | entering => simp [purposeSection, releaseTargets, leaving, purposeOwes]
  | updating owner response => simp [purposeSection, releaseTargets, leaving, purposeOwes, releases]
  | leaving owner response =>
      by_cases same : owner = client
      · simp [purposeSection, releaseTargets, leaving, purposeOwes, releases, same]
      · simp [purposeSection, releaseTargets, leaving, purposeOwes, same]

theorem leaving_owes (purpose : Purpose) (left : leaving purpose = some client) :
    purposeOwes purpose = some client := by
  cases purpose with
  | leaving owner response => exact left
  | _ => cases left

theorem bound_owes (peer : Int) (task : ServerTask) (bound : Bound client peer task) :
    owes task = some client := by
  have loop : ∀ targets purpose, (purposeSection purpose = some client ∨
      peer ∈ releaseTargets client targets purpose) → purposeOwes purpose = some client :=
    fun targets purpose bound => ((releases_bound client peer targets purpose).mp bound).1
  cases task with
  | connecting sending target => exact loop _ _ bound
  | writing sending target socket => exact loop _ _ bound
  | awaiting sending target socket => exact loop _ _ bound
  | _ =>
      rcases bound with within | member
      · cases within
      · cases member

/-- A handler that owes a command, and has still to come to the peer, is bound. -/
theorem bound_will (peer : Int) (task : ServerTask) (owed : owes task = some client)
    (will : willRelease peer task = true) : Bound client peer task := by
  have loop : ∀ targets purpose, purposeOwes purpose = some client →
      releases peer targets purpose = true → (purposeSection purpose = some client ∨
        peer ∈ releaseTargets client targets purpose) :=
    fun targets purpose owed will => (releases_bound client peer targets purpose).mpr ⟨owed, will⟩
  cases task with
  | connecting sending target => exact loop _ _ owed will
  | writing sending target socket =>
      refine (loop _ _ owed will).imp_right fun member => ?_
      simp only [toRelease, releaseTargets] at member ⊢
      split
      · rename_i left
        rw [if_pos left] at member
        exact List.mem_cons_of_mem target member
      · rename_i other
        rw [if_neg other] at member
        cases member
  | awaiting sending target socket => exact loop _ _ owed will
  | _ => cases will

end Laws

section Handlers
variable (config : Config) (client : ClientInformation) (me peer : Int) (state : Server)
  (other : me ≠ peer) (active : peer ∉ state.timedOutServers) (known : peer ∈ config.serverIDs)

include other active known

theorem update_bound (response : Text) :
    Bound client peer (sendUpdate config me state client response) :=
  bound_will client peer _ (update_owes config me state client response)
    (update_will config me peer other state active known client response)

theorem resume_bound (sending : Sending) (bound : purposeSection sending.purpose = some client ∨
      peer ∈ releaseTargets client sending.rest sending.purpose) :
    Bound client peer ((resume config me state sending).finish config me).task := by
  obtain ⟨owed, will⟩ := (releases_bound client peer sending.rest sending.purpose).mp bound
  exact bound_will client peer _ (resume_owes config me state sending client owed)
    (resume_will config me peer other state active known sending will)

end Handlers

section Steps
variable (config : Config) {before : Cluster} {notes : Notes} (number : Nat)
  (connection : Connection) (flow : Flow)
  (found : before.connections[number]? = some connection)
  (moved : Moved config before number connection flow)

include found moved in
/-- A handler that is to print a `Release` comes nearer to it, or prints it. -/
theorem moved_bound (wired : Wired config before) (reliable : Reliable before)
    (client : ClientInformation) (peer : Int) (known : peer ∈ config.serverIDs)
    (other : peer ≠ connection.server) (bound : Bound client peer connection.task) :
    Bound client peer (flow.finish config connection.server).task ∨
      (peer, client) ∈ (noted before number connection notes).releasesSent := by
  have trusts : peer ∉ (before.server connection.server).timedOutServers := by
    rw [reliable.trusting]
    exact List.not_mem_nil
  cases moved with
  | connected sending target connecting up =>
      rw [connecting] at bound
      exact Or.inl bound
  | wrote sending target socket writing =>
      rw [writing] at bound
      rcases bound with within | member
      · exact Or.inl (Or.inl within)
      · simp only [toRelease] at member
        unfold releaseTargets at member
        split at member
        · rename_i left
          rcases List.mem_cons.mp member with rfl | later
          · exact Or.inr (sent_noted before number connection notes sending peer socket client writing
              left)
          · refine Or.inl (Or.inr ?_)
            simp only [Flow.finish, toRelease, releaseTargets, left, ↓reduceIte]
            exact later
        · cases member
  | heard sending target socket answering awaiting reached reply =>
      rw [awaiting] at bound
      exact Or.inl (resume_bound config client connection.server peer _ (Ne.symm other) trusts known
        sending bound)
  | lost sending target socket answering awaiting reached silent dead =>
      exact absurd dead (never_lost config wired reliable number connection answering sending target
        socket found awaiting reached silent)
  | unreachable sending target connecting down =>
      rw [reliable.up] at down
      cases down
  | replied owner response replying =>
      rw [replying] at bound
      rcases bound with within | member
      · cases within
      · cases member
  | _ =>
      have owed := bound_owes client peer connection.task bound
      simp_all [owes]

theorem check_results (me : Int) (state : Server) (execution : Execution)
    (ran : execution ∈ (checkCriticalSection config me state).executed) :
    execution.succeeded = true ↔ WellFormed config.counting execution.client.clientCommand := by
  have checked := check_checked config me state
  generalize checkCriticalSection config me state = outcome at checked ran
  cases checked with
  | behind larger => cases ran
  | idle smallest empty => cases ran
  | thrown client rest thrown smallest waiting failed =>
      rw [List.mem_singleton.mp ran]
      refine ⟨nofun, fun formed => ?_⟩
      obtain ⟨answer, served⟩ :=
        (execute_wellFormed config.counting _ client.clientCommand state.store).mpr formed
      exact absurd (failed.symm.trans served) nofun
  | served client rest response store smallest waiting result =>
      rw [List.mem_singleton.mp ran]
      exact ⟨fun _ => (execute_wellFormed config.counting _ client.clientCommand state.store).mp
        ⟨_, result⟩, fun _ => rfl⟩

include moved in
/-- A command of the server's own client throws exactly when it is malformed. -/
theorem moved_results (execution : Execution) (own : execution.own = true)
    (ran : execution ∈ (flow.finish config connection.server).executed) :
    execution.succeeded = true ↔ WellFormed config.counting execution.client.clientCommand := by
  have enters := (moved_executed config before number connection flow moved execution own ran).2
  cases flow with
  | done outcome => cases enters
  | checking state => exact check_results config connection.server state execution ran

include found in
theorem noted_ran (wired : Wired config before)
    (ran : ∀ peer client, (peer, client) ∈ notes.releasesSent →
      ∃ me response, Won before.history me client response) (peer : Int)
    (client : ClientInformation)
    (member : (peer, client) ∈ (noted before number connection notes).releasesSent) :
    ∃ me response, Won before.history me client response := by
  rcases noted_sent before number connection notes peer client member with
    old | ⟨sending, socket, writing, left⟩
  · exact ran peer client old
  · have owed : owes connection.task = some client := by
      rw [writing]
      exact leaving_owes client sending.purpose left
    exact ⟨connection.server, owes_won config connection.server before.history connection.task
      (wired.connections number connection found).task client owed⟩

include found moved in
theorem handled_sent (returned : Returned config before notes) (me : Int)
    (client : ClientInformation) (response : Text)
    (won : Won (before.after number connection.server
      (flow.finish config connection.server)).history me client response) (peer : Int)
    (known : peer ∈ config.serverIDs) (other : peer ≠ me) :
    (peer, client) ∈ (noted before number connection notes).releasesSent ∨
      ∃ later ∈ (before.after number connection.server
          (flow.finish config connection.server)).connections,
        later.server = me ∧ Bound client peer later.task := by
  have wired := returned.delivered.wired
  have reliable := returned.delivered.reliable
  have standing : ∀ (n : Nat) (old : Connection), before.connections[n]? = some old →
      touched number n old (flow.finish config connection.server) ∈ (before.after number
        connection.server (flow.finish config connection.server)).connections := fun n old there =>
    List.mem_of_getElem? ((after_found _ _ _ _ _ _).mpr (Or.inl ⟨old, there, rfl⟩))
  rcases List.mem_append.mp won with earlier | new
  · rcases returned.sent me client response earlier peer known other with sent |
      ⟨old, member, server, bound⟩
    · exact Or.inl (sent_kept before number connection notes sent)
    · obtain ⟨n, there⟩ := List.mem_iff_getElem?.mp member
      by_cases own : n = number
      · subst own
        rw [there, Option.some.injEq] at found
        subst found
        rcases moved_bound config n old flow there moved wired reliable client peer known
          (server ▸ other) bound with later | sent
        · refine Or.inr ⟨_, standing n old there, (touched_server _ _ _ _).trans server, ?_⟩
          rw [touched_task, if_pos rfl]
          exact later
        · exact Or.inl sent
      · refine Or.inr ⟨_, standing n old there, (touched_server _ _ _ _).trans server, ?_⟩
        rw [touched_task, if_neg own]
        exact bound
  · cases moved_executes config before number connection flow moved with
    | nothing idle same => simp [idle] at new
    | thrown owner thrown enters ran same => simp [ran] at new
    | served owner answer enters ran next result =>
        simp only [ran, List.mem_singleton, Execution.mk.injEq, true_and] at new
        obtain ⟨rfl, rfl, _⟩ := new
        have trusts : peer ∉ (flow.finish config connection.server).server.timedOutServers := by
          rw [finish_trusting,
            moved_trusting config wired reliable number connection flow found moved]
          exact List.not_mem_nil
        refine Or.inr ⟨_, standing number connection found, touched_server _ _ _ _, ?_⟩
        rw [touched_task, if_pos rfl, next]
        exact update_bound config client connection.server peer _ (Ne.symm other) trusts known answer
    | refused logicalClock serverID owner thrown handling message ran result same =>
        simp [ran] at new
    | carried logicalClock serverID owner answer handling message ran result => simp [ran] at new

end Steps

section Runs
variable (config : Config)

theorem start_returned : Returned config (start config).1 (start config).2 := by
  constructor
  · exact initial_delivered config
  · intro execution ran
    cases ran
  · intro peer client member
    cases member
  · intro me client response won
    cases won

/-- Without a crash every `Release` is sent or on its way. -/
theorem step_returned (before : Cluster × Notes) (action : Action) (after : Cluster × Notes)
    (returned : Returned config before.1 before.2) (up : crashFree action = true)
    (taken : observe config before action = some after) : Returned config after.1 after.2 := by
  have wired := returned.delivered.wired
  obtain ⟨stepping, watched⟩ := observed_taken (step config) watch before after action taken
  have delivered := step_delivered config before.1 action after.1 returned.delivered up stepping
  have stepped := step_stepped config before.1 after.1 action (wired_readable config before.1 wired)
    stepping
  by_cases outside : ∀ number, action ≠ .server number
  · have history := (outside_same config before.1 after.1 action stepped outside).2
    rw [watch_outside before.1 action before.2 outside] at watched
    rw [watched]
    constructor
    · exact delivered
    · rw [history]
      exact returned.results
    · rw [history]
      exact returned.ran
    · rw [history]
      intro me client response won peer known other
      rcases returned.sent me client response won peer known other with sent |
        ⟨old, member, server, bound⟩
      · exact Or.inl sent
      · obtain ⟨n, there⟩ := List.mem_iff_getElem?.mp member
        rcases outside_stays config before.1 after.1 action stepped outside n old there with
          still | written
        · exact Or.inr ⟨old, List.mem_of_getElem? still, server, bound⟩
        · exact Or.inr ⟨write old, List.mem_of_getElem? written, server, bound⟩
  · obtain ⟨cluster, notes⟩ := after
    cases stepped with
    | handled number connection flow found alive advanced moved =>
        rw [watch_handled before.1 number connection before.2 found] at watched
        subst watched
        constructor
        · exact delivered
        · intro execution member own
          rcases List.mem_append.mp member with old | new
          · exact returned.results execution old own
          · exact moved_results config number connection flow moved execution own new
        · intro peer client member
          obtain ⟨me, response, won⟩ :=
            noted_ran config number connection found wired returned.ran peer client member
          exact ⟨me, response, List.mem_append_left _ won⟩
        · exact handled_sent config number connection flow found moved returned
    | _ => simp at outside

theorem peer_found (several : 2 ≤ config.serverInstances) (me : Int) :
    ∃ peer ∈ config.serverIDs, peer ≠ me := by
  have known : ∀ n, n < 2 → ((n : Nat) : Int) + 1 ∈ config.serverIDs := fun n small =>
    List.mem_map.mpr ⟨n, List.mem_range.mpr (by omega), rfl⟩
  by_cases first : me = 1
  · exact ⟨2, known 1 (by omega), by omega⟩
  · exact ⟨1, known 0 (by omega), by omega⟩

/-- In a run without a crash, once no handler works any more for a command that
its own server ran, its `Release` has been sent to every peer if and only if the
command is well formed. In a timely run, a peer that has handled the `Release`
has the request no longer. -/
theorem section_returned (config : Config) (several : 2 ≤ config.serverInstances)
    (both : Cluster × Notes)
    (reached : Reachable (observe config) (fun _ action => crashFree action = true) (start config)
      both) (execution : Execution) (ran : execution ∈ both.1.history)
    (own : execution.own = true)
    (ended : ∀ connection ∈ both.1.connections, owes connection.task ≠ some execution.client) :
    ((∀ peer ∈ config.serverIDs, peer ≠ execution.server →
        (peer, execution.client) ∈ both.2.releasesSent) ↔
      WellFormed config.counting execution.client.clientCommand) ∧
    (Reachable (observe config) (Timely config) (start config) both →
      ∀ peer, (peer, execution.client) ∈ both.2.releasesHandled →
        execution.client.request ∉ (both.1.server peer).pendingQueue) := by
  have returned := reachable_invariant (fun both => Returned config both.1 both.2)
    (start_returned config) (step_returned config) reached
  have result := returned.results execution ran own
  refine ⟨⟨fun sent => ?_, fun formed peer known other => ?_⟩, fun timely peer handled => ?_⟩
  · obtain ⟨peer, known, other⟩ := peer_found config several execution.server
    obtain ⟨me, response, won⟩ := returned.ran peer execution.client (sent peer known other)
    have same := own_unique config both.1 returned.delivered.wired returned.delivered.once execution
      _ ran won own rfl rfl
    apply result.mp
    rw [same]
    rfl
  · have succeeded := result.mpr formed
    obtain ⟨server, client, mine, outcome⟩ := execution
    cases outcome with
    | error thrown => cases succeeded
    | ok response =>
        simp only at own
        subst own
        rcases returned.sent server client response ran peer known other with sent |
          ⟨connection, member, _, bound⟩
        · exact sent
        · exact absurd (bound_owes client peer connection.task bound) (ended connection member)
  · have balanced := reachable_invariant (fun both => Balanced config both.1 both.2)
      (start_balanced config) (step_balanced config) timely
    exact balanced_gone config both.1 both.2 balanced peer execution.client handled

end Runs

section Examples

-- One command, well formed: its `Release` is sent, and handled in time.
def listReturned : List Action :=
  [.submit "list".toList [1], .client 0, .client 0, .server 0, .server 0, .server 0, .server 1,
    .server 1, .server 1, .server 0, .server 0, .server 0, .server 2, .server 2, .server 2,
    .server 0, .server 0, .server 0, .server 3, .server 3, .server 3, .server 0, .server 0]

-- A purchase without product and quantity, until its handler has died.
def purchaseThrows : List Action :=
  [.submit "purchase ann".toList [1], .client 0, .client 0, .server 0, .server 0, .server 0,
    .server 1, .server 1, .server 1, .server 0]

def servedBy (both : Cluster × Notes) : List Execution :=
  both.1.history.filter fun execution => execution.own &&
    both.1.connections.all fun connection => owes connection.task != some execution.client

theorem mem_servedBy (both : Cluster × Notes) (execution : Execution)
    (member : execution ∈ servedBy both) : execution ∈ both.1.history ∧ execution.own = true ∧
      ∀ connection ∈ both.1.connections, owes connection.task ≠ some execution.client := by
  obtain ⟨ran, rest⟩ := List.mem_filter.mp member
  obtain ⟨own, ended⟩ := Bool.and_eq_true_iff.mp rest
  exact ⟨ran, own, fun connection inside => bne_iff_ne.mp (List.all_eq_true.mp ended connection inside)⟩

theorem section_returned_list : ∃ both execution,
    replay (observe twoServers) (Timely twoServers) (start twoServers) listReturned = some both ∧
      execution ∈ both.1.history ∧ execution.server = 1 ∧ (2, execution.client) ∈ both.2.releasesSent ∧
      execution.client.request ∉ (both.1.server 2).pendingQueue := by
  have served : ((replay (observe twoServers) (Timely twoServers) (start twoServers)
      listReturned).any fun both => (servedBy both).any fun execution =>
        execution.server == 1 && execution.client.clientCommand == "list".toList &&
          decide ((2, execution.client) ∈ both.2.releasesHandled)) = true := by
    decide +kernel
  obtain ⟨both, played, serves⟩ := (Option.any_eq_true _ _).mp served
  obtain ⟨execution, member, shown⟩ := List.any_eq_true.mp serves
  obtain ⟨command, handled⟩ := Bool.and_eq_true_iff.mp shown
  obtain ⟨server, list⟩ := Bool.and_eq_true_iff.mp command
  obtain ⟨ran, own, ended⟩ := mem_servedBy both execution member
  have timely := replayed _ _ played
  have here : execution.server = 1 := beq_iff_eq.mp server
  have formed : WellFormed .int32 execution.client.clientCommand := by
    rw [beq_iff_eq.mp list]
    exact .other "list".toList (by decide +kernel) ⟨by decide, by decide, by decide⟩
  obtain ⟨returned, gone⟩ := section_returned twoServers (by decide) both
    (reachable_wider (timely_up twoServers) timely) execution ran own ended
  exact ⟨both, execution, played, ran, here, returned.mpr formed 2 (by decide) (by omega),
    gone timely 2 (of_decide_eq_true handled)⟩

theorem section_kept : ¬ ∀ both execution,
    Reachable (observe twoServers) (fun _ action => crashFree action = true) (start twoServers) both →
    execution ∈ both.1.history → execution.own = true →
    (∀ connection ∈ both.1.connections, owes connection.task ≠ some execution.client) →
      ∀ peer ∈ twoServers.serverIDs, peer ≠ execution.server →
        (peer, execution.client) ∈ both.2.releasesSent := by
  intro returned
  have thrown : ((replay (observe twoServers) (fun _ action => crashFree action = true)
      (start twoServers) purchaseThrows).any fun both => both.2.releasesSent == [] &&
        (servedBy both).any fun execution => execution.server == 1 &&
          decide (execution.client.request ∈ (both.1.server 2).pendingQueue)) = true := by
    decide +kernel
  obtain ⟨both, played, shown⟩ := (Option.any_eq_true _ _).mp thrown
  obtain ⟨silent, serves⟩ := Bool.and_eq_true_iff.mp shown
  obtain ⟨execution, member, kept⟩ := List.any_eq_true.mp serves
  obtain ⟨ran, own, ended⟩ := mem_servedBy both execution member
  have here : execution.server = 1 := beq_iff_eq.mp (Bool.and_eq_true_iff.mp kept).1
  have sent := returned both execution (replayed _ _ played) ran own ended 2 (by decide) (by omega)
  rw [beq_iff_eq.mp silent] at sent
  cases sent

end Examples

end EE360P.ReturnedSections
