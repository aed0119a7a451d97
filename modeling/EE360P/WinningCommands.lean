import EE360P.RequestOrder

/-! Which command a server runs when its check passes. `isSmallest` compares the
first of the server's own entries, `poll` gives the command that waits. Nobody
removes a server's own entry, so after its first command the two are about
different requests. -/

namespace EE360P.WinningCommands
open JavaText ReplicatedServer ServerCluster ClusterSteps ClusterWiring SectionExclusion
open RequestRounds GuardedRuns

section Commands
variable (config : Config)

/-- The server whose check comes next in the handler, with the state that it
tests. -/
def tested (cluster : Cluster) (number : Nat) : Option (Int × Server) :=
  (cluster.connections[number]?).bind fun connection =>
    match advance config cluster number connection with
    | some (.checking server) => some (connection.server, server)
    | _ => none

/-- `poll` gives a command, and its request is the timestamp that was compared. -/
def Matches (me : Int) (server : Server) : Prop :=
  ∃ client rest, server.clientCommands = client :: rest ∧
    search server.pendingQueue me = some client.request

/-- What the server has run for its own clients. -/
def ownRuns (me : Int) (history : List Execution) : List Execution :=
  history.filter fun execution => execution.own && execution.server == me

/-- The commands that it polled for them. -/
def polled (me : Int) (history : List Execution) : List ClientInformation :=
  (ownRuns me history).map fun execution => execution.client

def requests (me : Int) (history : List Execution) : List TimeStamp :=
  (ownRuns me history).map fun execution => execution.client.request

def waiting (server : Server) : List TimeStamp := server.clientCommands.map fun client => client.request

/-- The own entries of a server are the requests of what it has run, and then of
what waits. -/
def Arranged (history : List Execution) (me : Int) (server : Server) : Prop :=
  ownEntries me server.pendingQueue = requests me history ++ waiting server

/-- No entry of its own is there twice, and none is ahead of its clock. -/
def Rising (me : Int) (server : Server) : Prop :=
  (ownEntries me server.pendingQueue).Nodup ∧
    ∀ entry ∈ ownEntries me server.pendingQueue, entry.logicalClock ≤ server.logicalClock

theorem search_first (pendingQueue : List TimeStamp) (me : Int) :
    search pendingQueue me = (ownEntries me pendingQueue).head? := by
  rw [ownEntries, List.head?_filter]
  rfl

theorem search_arranged (history : List Execution) (me : Int) (server : Server)
    (arranged : Arranged history me server) :
    search server.pendingQueue me = (requests me history ++ waiting server).head? := by
  rw [search_first, arranged]

theorem no_runs (me : Int) (history : List Execution) :
    requests me history = [] ↔ ∀ execution ∈ history, execution.own = true → execution.server ≠ me := by
  simp [requests, ownRuns]

theorem smallest_found (me : Int) (server : Server) (smallest : isSmallest server.pendingQueue me = true) :
    ∃ own, search server.pendingQueue me = some own := by
  unfold isSmallest at smallest
  split at smallest
  · cases smallest
  · rename_i own found
    exact ⟨own, found⟩

/-- Before it has run a command, a server that passes the check has the right one. -/
theorem fresh_matches (history : List Execution) (me : Int) (server : Server)
    (arranged : Arranged history me server) (fresh : requests me history = [])
    (smallest : isSmallest server.pendingQueue me = true) : Matches me server := by
  obtain ⟨own, found⟩ := smallest_found me server smallest
  have first := search_arranged history me server arranged
  rw [found, fresh, List.nil_append, waiting] at first
  cases commands : server.clientCommands with
  | nil =>
      rw [commands] at first
      cases first
  | cons client rest =>
      rw [commands, List.map_cons, List.head?_cons] at first
      exact ⟨client, rest, commands, found.trans first⟩

/-- After that it never has, since the entry of that command is still the first. -/
theorem matches_fresh (history : List Execution) (me : Int) (server : Server)
    (arranged : Arranged history me server) (rising : Rising me server) (same : Matches me server) :
    requests me history = [] := by
  obtain ⟨client, rest, commands, found⟩ := same
  have first := search_arranged history me server arranged
  have unique := rising.1
  rw [arranged] at unique
  cases ran : requests me history with
  | nil => rfl
  | cons request more =>
      rw [ran] at first unique
      have again : client.request ∈ waiting server := by simp [waiting, commands]
      rw [found, List.cons_append, List.head?_cons, Option.some.injEq] at first
      rw [List.cons_append] at unique
      exact absurd (List.mem_append_right more (first ▸ again)) (List.nodup_cons.mp unique).1

end Commands

section Steps
variable (config : Config) {before : Cluster} {number : Nat} {connection : Connection} {flow : Flow}
  (moved : Moved config before number connection flow)

section Tested
variable (recorded : Recorded config before) (found : before.connections[number]? = some connection)

include moved recorded found

theorem moved_arranged (arranged : Arranged before.history connection.server (before.server connection.server)) :
    Arranged before.history connection.server (flowServer flow) := by
  unfold Arranged waiting at *
  rcases moved_entries config recorded.wired number connection flow found moved
    (recorded.backed connection (List.mem_of_getElem? found)) with
      ⟨entries, commands⟩ | ⟨empty, client, single, _, entries⟩
  · rw [entries, commands, arranged]
  · rw [entries, single, arranged, empty]
    simp

theorem moved_rising (exact_ : config.counting = .exact)
    (rising : Rising connection.server (before.server connection.server)) :
    Rising connection.server (flowServer flow) := by
  have rises := RequestOrder.moved_rises config moved exact_
  obtain ⟨unique, past⟩ := rising
  rcases moved_entries config recorded.wired number connection flow found moved
    (recorded.backed connection (List.mem_of_getElem? found)) with
      ⟨entries, commands⟩ | ⟨empty, client, single, request, entries⟩
  · constructor
    · rw [entries]
      exact unique
    · intro entry member
      rw [entries] at member
      exact Int.le_trans (past entry member) rises
  · have faster : (before.server connection.server).logicalClock < (flowServer flow).logicalClock := by
      rcases moved_waiting config before number connection flow moved client (by simp [single]) with
        old | ⟨_, ticked⟩
      · rw [empty] at old
        cases old
      · rw [ticked, exact_, exact_wrap]
        omega
    have fresh : client.request ∉ ownEntries connection.server
        (before.server connection.server).pendingQueue := by
      intro old
      have bound := past _ old
      rw [request] at bound
      exact absurd bound (Int.not_le.mpr faster)
    constructor
    · rw [entries]
      exact List.nodup_append.mpr ⟨unique, List.nodup_singleton _, fun entry old other last => by
        rw [List.mem_singleton.mp last]
        rintro rfl
        exact fresh old⟩
    · intro entry member
      rw [entries] at member
      rcases List.mem_append.mp member with old | new
      · exact Int.le_trans (past entry old) rises
      · rw [List.mem_singleton.mp new, request]

end Tested

theorem requests_polled (me : Int) (history : List Execution) :
    requests me history = (polled me history).map fun client => client.request := by
  simp [requests, polled]

theorem polled_append (me : Int) (history more : List Execution) :
    polled me (history ++ more) = polled me history ++ polled me more := by
  simp [polled, ownRuns]

theorem requests_append (me : Int) (history more : List Execution) :
    requests me (history ++ more) = requests me history ++ requests me more := by
  rw [requests_polled, polled_append, List.map_append, ← requests_polled, ← requests_polled]

/-- What a check polls is what it runs. -/
theorem check_polled (me : Int) (server : Server) :
    polled me (checkCriticalSection config me server).executed ++
      (checkCriticalSection config me server).server.clientCommands = server.clientCommands := by
  have checked := check_checked config me server
  generalize checkCriticalSection config me server = outcome at checked ⊢
  cases checked with
  | behind larger => rfl
  | idle smallest empty => rfl
  | thrown client rest thrown smallest waits failed => simp [polled, ownRuns, waits]
  | served client rest response store smallest waits result => simp [polled, ownRuns, waits]

include moved

theorem foreign_requests (me : Int) (other : me ≠ connection.server) :
    requests me (flow.finish config connection.server).executed = [] := by
  apply (no_runs me _).mpr
  intro execution ran own
  rw [(moved_executed config before number connection flow moved execution own ran).1]
  exact Ne.symm other

theorem finish_polled : polled connection.server (flow.finish config connection.server).executed ++
    (flow.finish config connection.server).server.clientCommands = (flowServer flow).clientCommands := by
  cases flow with
  | checking server => exact check_polled config connection.server server
  | done outcome =>
      have none : ownRuns connection.server outcome.executed = [] := by
        apply List.filter_eq_nil_iff.mpr
        intro execution ran mine
        have own := (Bool.and_eq_true_iff.mp mine).1
        have enters := (moved_executed config before number connection _ moved execution own ran).2
        cases enters
      rw [Flow.finish, polled, none, List.map_nil, List.nil_append]
      rfl

/-- The requests of what is polled and of what still waits stay the same. -/
theorem finish_requests : requests connection.server (flow.finish config connection.server).executed ++
    waiting (flow.finish config connection.server).server = waiting (flowServer flow) := by
  rw [requests_polled, waiting, ← List.map_append, finish_polled config moved, waiting]

variable (recorded : Recorded config before) (found : before.connections[number]? = some connection)

include recorded found

theorem handled_arranged (arranged : ∀ me, Arranged before.history me (before.server me)) (me : Int) :
    Arranged (before.after number connection.server (flow.finish config connection.server)).history me
      ((before.after number connection.server (flow.finish config connection.server)).server me) := by
  have history : (before.after number connection.server (flow.finish config connection.server)).history =
    before.history ++ (flow.finish config connection.server).executed := rfl
  unfold Arranged
  rw [history, requests_append]
  by_cases own : me = connection.server
  · rw [own, after_self, finish_pending, List.append_assoc, finish_requests config moved]
    exact moved_arranged config moved recorded found (arranged connection.server)
  · rw [after_others _ _ _ _ _ own, foreign_requests config moved me own, List.append_nil]
    exact arranged me

theorem handled_rising (exact_ : config.counting = .exact) (rising : ∀ me, Rising me (before.server me))
    (me : Int) :
    Rising me ((before.after number connection.server (flow.finish config connection.server)).server me) := by
  by_cases own : me = connection.server
  · have tested := moved_rising config moved recorded found exact_ (rising connection.server)
    rw [own, after_self]
    unfold Rising
    rw [finish_pending, (finish_server config connection.server flow).1]
    exact tested
  · rw [after_others _ _ _ _ _ own]
    exact rising me

end Steps

section Runs
variable (config : Config)

structure Winning (cluster : Cluster) : Prop where
  recorded : Recorded config cluster
  arranged : ∀ me, Arranged cluster.history me (cluster.server me)
  rising : config.counting = .exact → ∀ me, Rising me (cluster.server me)

theorem initial_winning : Winning config (initial config) := by
  constructor
  · exact initial_recorded config
  · intro me
    rfl
  · intro _ me
    exact ⟨List.nodup_nil, fun _ member => absurd member List.not_mem_nil⟩

theorem step_winning (before : Cluster) (action : Action) (after : Cluster) (winning : Winning config before)
    (taken : step config before action = some after) : Winning config after := by
  have recorded := step_recorded config before action after winning.recorded taken
  have stepped := step_stepped config before after action
    (wired_readable config before winning.recorded.wired) taken
  by_cases outside : ∀ number, action ≠ .server number
  · obtain ⟨servers, history⟩ := outside_same config before after action stepped outside
    constructor
    · exact recorded
    · rw [servers, history]
      exact winning.arranged
    · rw [servers]
      exact winning.rising
  · cases stepped with
    | handled number connection flow found alive advanced moved =>
        constructor
        · exact recorded
        · exact handled_arranged config moved winning.recorded found winning.arranged
        · intro exact_
          exact handled_rising config moved winning.recorded found exact_ (winning.rising exact_)
    | _ => simp at outside

theorem tested_flow (cluster : Cluster) (number : Nat) (me : Int) (server : Server)
    (tests : tested config cluster number = some (me, server)) :
    ∃ connection, cluster.connections[number]? = some connection ∧ connection.server = me ∧
      advance config cluster number connection = some (.checking server) := by
  obtain ⟨connection, found, flow⟩ := Option.bind_eq_some_iff.mp tests
  split at flow
  · rename_i advanced
    cases flow
    exact ⟨connection, found, rfl, advanced⟩
  · cases flow

/-- Whenever a check passes, the command that is polled is there and is the one
whose request was compared, if the server has not run a command of its own
clients before; and with exact clocks only then. -/
theorem winner_matches (cluster : Cluster)
    (reached : Reachable (step config) (fun _ _ => True) (initial config) cluster) (number : Nat) (me : Int)
    (server : Server) (tests : tested config cluster number = some (me, server))
    (smallest : isSmallest server.pendingQueue me = true) :
    ((∀ execution ∈ cluster.history, execution.own = true → execution.server ≠ me) → Matches me server) ∧
      (config.counting = .exact → Matches me server →
        ∀ execution ∈ cluster.history, execution.own = true → execution.server ≠ me) := by
  have winning := reachable_invariant (Winning config) (initial_winning config)
    (fun before action after winning _ taken => step_winning config before action after winning taken)
    reached
  obtain ⟨connection, found, rfl, advanced⟩ := tested_flow config cluster number me server tests
  have moved := advance_moved config cluster number connection (.checking server)
    (wired_readable config cluster winning.recorded.wired connection (List.mem_of_getElem? found)) advanced
  have arranged := moved_arranged config moved winning.recorded found (winning.arranged connection.server)
  constructor
  · intro fresh
    exact fresh_matches cluster.history connection.server server arranged ((no_runs _ _).mpr fresh) smallest
  · intro exact_ same
    have rising := moved_rising config moved winning.recorded found exact_
      (winning.rising exact_ connection.server)
    exact (no_runs _ _).mp (matches_fresh cluster.history connection.server server arranged rising same)

-- The first command of server 1, up to the check.
def firstCommand : List Action :=
  [.submit "list".toList [1], .client 0, .client 0, .server 0, .server 0, .server 0, .server 1,
    .server 1, .server 1]

theorem winner_matches_first : ∃ cluster server,
    replay (step twoServers) (fun _ _ => True) (initial twoServers) firstCommand = some cluster ∧
      tested twoServers cluster 0 = some (1, server) ∧ Matches 1 server := by
  have fresh : ((replay (step twoServers) (fun _ _ => True) (initial twoServers) firstCommand).any
      fun cluster => cluster.history.isEmpty && (tested twoServers cluster 0).any fun test =>
        test.1 == 1 && isSmallest test.2.pendingQueue 1) = true := by decide +kernel
  obtain ⟨cluster, played, all⟩ := (Option.any_eq_true _ _).mp fresh
  obtain ⟨idle, testing⟩ := Bool.and_eq_true_iff.mp all
  obtain ⟨⟨me, server⟩, tests, passes⟩ := (Option.any_eq_true _ _).mp testing
  obtain ⟨one, smallest⟩ := Bool.and_eq_true_iff.mp passes
  obtain rfl := beq_iff_eq.mp one
  have none : ∀ execution ∈ cluster.history, execution.own = true → execution.server ≠ 1 := by
    rw [List.isEmpty_iff.mp idle]
    nofun
  exact ⟨cluster, server, played, tests,
    (winner_matches twoServers cluster (replayed _ _ played) 0 1 server tests smallest).1 none⟩

-- Server 1 runs its command and releases; then server 2 runs one of its own, and
-- its `Release` makes server 1 pass the check once more, with nothing to run.
def staleEntry : List Action :=
  firstCommand ++ [.server 0, .server 0, .server 0, .server 2, .server 2, .server 2, .server 0,
    .server 0, .server 0, .server 3, .server 3, .server 3, .server 0,
    .submit "list".toList [2], .client 1, .client 1, .server 4, .server 4, .server 4, .server 5,
    .server 5, .server 5, .server 4, .server 4, .server 4, .server 6, .server 6, .server 6, .server 4,
    .server 4, .server 4, .server 7, .server 7]

theorem winner_without_command : ¬ ∀ cluster,
    Reachable (step twoServers) (fun _ action => crashFree action = true) (initial twoServers) cluster →
      ∀ number me server, tested twoServers cluster number = some (me, server) →
        isSmallest server.pendingQueue me = true → Matches me server := by
  intro matches_
  have idle : ((replay (step twoServers) (fun _ action => crashFree action = true) (initial twoServers)
      staleEntry).any fun cluster => (tested twoServers cluster 7).any fun test =>
        isSmallest test.2.pendingQueue test.1 && test.2.clientCommands.isEmpty) = true := by
    decide +kernel
  obtain ⟨cluster, played, testing⟩ := (Option.any_eq_true _ _).mp idle
  obtain ⟨⟨me, server⟩, tests, all⟩ := (Option.any_eq_true _ _).mp testing
  obtain ⟨smallest, empty⟩ := Bool.and_eq_true_iff.mp all
  obtain ⟨client, rest, commands, _⟩ := matches_ cluster (replayed _ _ played) 7 me server tests smallest
  rw [List.isEmpty_iff.mp empty] at commands
  cases commands

end Runs

end EE360P.WinningCommands
