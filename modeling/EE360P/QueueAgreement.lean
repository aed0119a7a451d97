import Mathlib.Algebra.Group.Nat.Defs
import EE360P.RequestRounds

/-! When the copies of `pendingQueue` agree. An entry for another server's
request is removed by that server's `Release`. Nothing removes a server's entry
for its own request, so the copies agree only as long as no command has been
carried out to its release. -/

namespace EE360P.QueueAgreement
open JavaText ReplicatedServer ServerCluster ClusterSteps ClusterWiring SectionExclusion
open CommandTokens ReliableDelivery ConnectionSums RequestRounds GuardedRuns

section Requests
variable (config : Config) (cluster : Cluster)

/-- The requests that were made and not released: those of commands that wait or
are in the section. -/
def outstanding : List TimeStamp :=
  config.serverIDs.flatMap fun me =>
    ((cluster.server me).clientCommands ++ inSection cluster me).map ClientInformation.request

/-- Commands with this request that threw an exception. -/
def threw (stamp : TimeStamp) (history : List Execution) : Nat :=
  history.countP fun execution => execution.own && execution.server == stamp.processID &&
    !execution.succeeded && execution.client.request == stamp

variable {config cluster}

theorem quiet_section (quiet : Quiescent cluster) (me : Int) :
    inSection cluster me = cluster.history.filterMap fun execution =>
      if execution.server = me ∧ execution.own = true ∧ execution.succeeded = false then
        some execution.client
      else none := by
  have idle : (cluster.connections.filterMap fun connection =>
      if connection.server = me then taskSection connection.task else none) = [] := by
    apply List.filterMap_eq_nil_iff.mpr
    intro connection member
    rcases quiet connection member with ended | ended
    · simp [ended, taskSection]
    · simp [ended, taskSection]
  rw [inSection, idle, List.nil_append]

theorem quiet_requests (quiet : Quiescent cluster) (stamp : TimeStamp) :
    (((cluster.server stamp.processID).clientCommands ++
        inSection cluster stamp.processID).map ClientInformation.request).count stamp =
      waits stamp (cluster.server stamp.processID) + threw stamp cluster.history := by
  rw [List.map_append, List.count_append, quiet_section quiet, List.count_eq_countP,
    List.count_eq_countP, List.countP_map, List.countP_map, List.countP_filterMap]
  congr 1
  refine List.countP_congr fun execution member => ?_
  by_cases failed : execution.server = stamp.processID ∧ execution.own = true ∧
      execution.succeeded = false
  · simp [failed]
  · simp only [failed, ↓reduceIte, Option.map_none, Option.getD_none, Bool.false_eq_true,
      Bool.and_eq_true, beq_iff_eq, Bool.not_eq_true', false_iff]
    rintro ⟨⟨⟨own, server⟩, threw⟩, _⟩
    exact failed ⟨server, own, threw⟩

theorem foreign_requests (recorded : Recorded config cluster) (me : Int) (stamp : TimeStamp)
    (other : me ≠ stamp.processID) :
    (((cluster.server me).clientCommands ++
      inSection cluster me).map ClientInformation.request).count stamp = 0 := by
  refine List.count_eq_zero.mpr fun member => ?_
  obtain ⟨client, inside, rfl⟩ := List.mem_map.mp member
  exact other (recorded.owned me client inside).symm

theorem unknown_requests (recorded : Recorded config cluster) (stamp : TimeStamp)
    (unknown : stamp.processID ∉ config.serverIDs) :
    waits stamp (cluster.server stamp.processID) = 0 ∧ ran stamp cluster.history = 0 := by
  have known : ∀ me client, Submitted cluster.connections me client → me ∈ config.serverIDs := by
    rintro me client ⟨connection, found, _, rfl⟩
    exact (recorded.wired.connections _ connection found).known
  constructor
  · refine List.countP_eq_zero.mpr fun client member _ => unknown ?_
    exact known _ client ((recorded.wired.servers _).queued client member)
  · refine List.countP_eq_zero.mpr fun execution member hit => unknown ?_
    simp only [Bool.and_eq_true, beq_iff_eq] at hit
    have sound := recorded.wired.history execution member
    rw [ExecutionSound, if_pos hit.1.1] at sound
    exact hit.1.2 ▸ known _ _ sound

theorem threw_le (stamp : TimeStamp) (history : List Execution) :
    threw stamp history ≤ ran stamp history := by
  refine List.countP_mono_left fun execution member hit => ?_
  simp only [Bool.and_eq_true] at hit ⊢
  exact ⟨hit.1.1, hit.2⟩

theorem outstanding_count (recorded : Recorded config cluster) (quiet : Quiescent cluster)
    (stamp : TimeStamp) : (outstanding config cluster).count stamp =
      waits stamp (cluster.server stamp.processID) + threw stamp cluster.history := by
  rw [outstanding, List.count_flatMap]
  change (config.serverIDs.map fun me => (((cluster.server me).clientCommands ++
    inSection cluster me).map ClientInformation.request).count stamp).sum = _
  rw [List.sum_map_eq_nsmul_single stamp.processID _
    fun me other _ => foreign_requests recorded me stamp other, quiet_requests quiet,
    Nat.nsmul_eq_mul]
  by_cases known : stamp.processID ∈ config.serverIDs
  · rw [List.count_eq_one_of_mem (ids_nodup config) known, Nat.one_mul]
  · obtain ⟨none, idle⟩ := unknown_requests recorded stamp known
    have few := threw_le stamp cluster.history
    rw [List.count_eq_zero_of_not_mem known, Nat.zero_mul]
    omega

end Requests

section Runs
variable (config : Config)

/-- What holds in every run without a crash. -/
structure Stored (cluster : Cluster) : Prop where
  asked : Asked config cluster
  stored : (∀ me client response, ¬ Won cluster.history me client response) →
    ∀ stamp : TimeStamp, ∀ server, server ≠ stamp.processID →
      (cluster.server server).pendingQueue.count stamp =
        total (appliedWeight stamp server) cluster.connections

theorem initial_stored : Stored config (initial config) := by
  constructor
  · exact initial_asked config
  · intro none stamp server other
    rfl

theorem step_stored (before : Cluster) (action : Action) (after : Cluster)
    (stored : Stored config before) (up : crashFree action = true)
    (taken : step config before action = some after) : Stored config after := by
  have recorded := stored.asked.recorded
  have stepped := step_stepped config before after action
    (wired_readable config before recorded.wired) taken
  constructor
  · exact step_asked config before action after stored.asked up taken
  · intro none stamp server other
    by_cases outside : ∀ number, action ≠ .server number
    · obtain ⟨servers, history⟩ := outside_same config before after action stepped outside
      rw [servers, outside_total (appliedWeight stamp server) (applied_steady stamp server) config
        before after action (fun peer number command => by simp [appliedWeight, asks, opened, asking])
        stepped outside]
      exact stored.stored (history ▸ none) stamp server other
    · cases stepped with
      | handled number connection flow found alive advanced moved =>
          have fewer : ∀ me client response, ¬ Won before.history me client response :=
            fun me client response won => none me client response (List.mem_append_left _ won)
          have old := stored.stored fewer stamp server other
          by_cases here : server = connection.server
          · subst here
            have entries := applied_stored config stamp recorded.wired number connection flow found
              moved stored.asked.reliable (Ne.symm other) (by
                intro handling logicalClock serverID message
                have backed := recorded.backed connection (List.mem_of_getElem? found)
                obtain ⟨client, response, won⟩ := backed.earned logicalClock serverID message
                exact fewer serverID client response won)
            rw [after_self, finish_pending]
            omega
          · have unasked : asks stamp server connection = false := by
              simp [asks, Ne.symm here]
            rw [after_others _ _ _ _ _ here,
              applied_still stamp number connection found server unasked]
            exact old
      | _ => simp at outside

/-- When all handlers have ended, every round is over and every line applied. -/
theorem quiet_rounds (cluster : Cluster) (quiet : Quiescent cluster) (stamp : TimeStamp)
    (server : Int) : total (roundWeight stamp server) cluster.connections =
      total (appliedWeight stamp server) cluster.connections := by
  refine congrArg List.sum (List.map_congr_left fun connection member => ?_)
  rcases quiet connection member with ended | ended
  · simp [roundWeight, appliedWeight, ended, taskRound, unapplied]
  · simp [roundWeight, appliedWeight, ended, taskRound, unapplied]

theorem quiet_issued (cluster : Cluster) (stored : Stored config cluster)
    (quiet : Quiescent cluster) (none : ∀ me client response, ¬ Won cluster.history me client response)
    (me : Int) (known : me ∈ config.serverIDs) (stamp : TimeStamp) :
    (cluster.server me).pendingQueue.count stamp = issued stamp cluster := by
  by_cases own : me = stamp.processID
  · subst own
    exact stored.asked.recorded.kept stamp
  · rw [stored.stored none stamp me own, ← quiet_rounds cluster quiet,
      stored.asked.rounds stamp me known own]

theorem unwon_threw (cluster : Cluster)
    (none : ∀ me client response, ¬ Won cluster.history me client response) (stamp : TimeStamp) :
    threw stamp cluster.history = ran stamp cluster.history := by
  refine List.countP_congr fun execution member => ?_
  cases own : execution.own with
  | false => simp
  | true =>
      have failed : execution.succeeded = false := by
        obtain ⟨server, client, _, result⟩ := execution
        cases result with
        | error thrown => rfl
        | ok response =>
            simp only at own
            subst own
            exact absurd member (none server client response)
      simp [failed]

/-- A command that was carried out is counted among those that ran only. -/
theorem won_ran (recorded : Recorded config cluster) (me : Int) (client : ClientInformation)
    (response : Text) (won : Won cluster.history me client response) :
    threw client.request cluster.history < ran client.request cluster.history := by
  have owner : me = client.request.processID := (recorded.ran _ won rfl).symm
  obtain ⟨earlier, later, split⟩ := List.append_of_mem won
  have before := threw_le client.request earlier
  have after := threw_le client.request later
  have counted : ran client.request cluster.history =
      ran client.request earlier + (ran client.request later + 1) := by
    rw [split, ran, List.countP_append, List.countP_cons_of_pos (by simp [owner])]
    rfl
  have passed : threw client.request cluster.history =
      threw client.request earlier + threw client.request later := by
    rw [split, threw, List.countP_append,
      List.countP_cons_of_neg (by simp [Execution.succeeded, Except.toBool])]
    rfl
  omega

end Runs

section Results

/-- In every state in which no handler is running, after a run without a crash,
all queues hold exactly the outstanding requests if and only if no server has
carried out a command of its own client. -/
theorem queues_agree (config : Config) (cluster : Cluster)
    (reached : Reachable (step config) (fun _ action => crashFree action = true) (initial config)
      cluster) (quiet : Quiescent cluster) :
    (∀ me ∈ config.serverIDs,
        (cluster.server me).pendingQueue.Perm (outstanding config cluster)) ↔
      ∀ me client response, ¬ Won cluster.history me client response := by
  have stored := reachable_invariant (Stored config) (initial_stored config) (step_stored config)
    reached
  have recorded := stored.asked.recorded
  constructor
  · intro agree me client response won
    have owner : client.request.processID = me := recorded.ran _ won rfl
    have known : me ∈ config.serverIDs := by
      have sound := recorded.wired.history _ won
      rw [ExecutionSound, if_pos rfl] at sound
      obtain ⟨connection, found, _, rfl⟩ := sound
      exact (recorded.wired.connections _ connection found).known
    have same := List.perm_iff_count.mp (agree me known) client.request
    have kept := recorded.kept client.request
    have counted := outstanding_count recorded quiet client.request
    have more := won_ran config recorded me client response won
    rw [owner] at kept counted
    rw [same, counted, issued, owner] at kept
    omega
  · intro none me known
    apply List.perm_iff_count.mpr
    intro stamp
    rw [quiet_issued config cluster stored quiet none me known stamp,
      outstanding_count recorded quiet stamp, unwon_threw cluster none stamp, issued]

-- A command that throws: its request stays at both servers.
def throwsPurchase : List Action :=
  [.submit "purchase ann".toList [1], .client 0, .client 0, .server 0, .server 0, .server 0,
    .server 1, .server 1, .server 0, .server 1, .server 1]

theorem queues_agree_thrown : ∃ cluster,
    replay (step twoServers) (fun _ action => crashFree action = true) (initial twoServers)
        throwsPurchase = some cluster ∧ outstanding twoServers cluster ≠ [] ∧
      ((∀ me ∈ twoServers.serverIDs,
          (cluster.server me).pendingQueue.Perm (outstanding twoServers cluster)) ↔
        ∀ me client response, ¬ Won cluster.history me client response) := by
  have rests : ((replay (step twoServers) (fun _ action => crashFree action = true)
      (initial twoServers) throwsPurchase).any fun cluster => decide (Quiescent cluster) &&
        outstanding twoServers cluster != []) = true := by
    decide +kernel
  obtain ⟨cluster, played, both⟩ := (Option.any_eq_true _ _).mp rests
  obtain ⟨quiet, left⟩ := Bool.and_eq_true_iff.mp both
  exact ⟨cluster, played, bne_iff_ne.mp left,
    queues_agree twoServers cluster (replayed _ _ played) (of_decide_eq_true quiet)⟩

-- One command, carried out and released: server 1 keeps its own entry.
def listReturns : List Action :=
  [.submit "list".toList [1], .client 0, .client 0, .server 0, .server 0, .server 0, .server 1,
    .server 1, .server 0, .server 0, .server 0, .server 1, .server 1, .server 2, .server 2,
    .server 0, .server 0, .server 0, .server 2, .server 2, .server 3, .server 3, .server 0,
    .server 0, .client 0, .server 0, .server 3, .server 3]

theorem own_entry_stays : ¬ ∀ cluster,
    Reachable (step twoServers) (fun _ action => crashFree action = true) (initial twoServers)
      cluster →
    Quiescent cluster → ∀ me ∈ twoServers.serverIDs,
      (cluster.server me).pendingQueue.Perm (outstanding twoServers cluster) := by
  intro agree
  have stale : ((replay (step twoServers) (fun _ action => crashFree action = true)
      (initial twoServers) listReturns).any fun cluster => decide (Quiescent cluster) &&
        (outstanding twoServers cluster == [] && (cluster.server 1).pendingQueue != [])) = true := by
    decide +kernel
  obtain ⟨cluster, played, all⟩ := (Option.any_eq_true _ _).mp stale
  obtain ⟨quiet, entries⟩ := Bool.and_eq_true_iff.mp all
  obtain ⟨none, kept⟩ := Bool.and_eq_true_iff.mp entries
  have same := agree cluster (replayed _ _ played) (of_decide_eq_true quiet) 1 (by decide)
  rw [beq_iff_eq.mp none] at same
  exact bne_iff_ne.mp kept same.eq_nil

end Results

end EE360P.QueueAgreement
