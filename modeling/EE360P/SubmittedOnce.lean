import EE360P.CommandTokens
import EE360P.LegibleReplies

/-! When one call of `Client.send` runs its command at most once on each server
and returns that run's own reply. A call may give up on a server and go to the
next, so all depends on whether the attempt it leaves can still be run. -/

namespace EE360P.SubmittedOnce
open JavaText ReplicatedServer ServerCluster ClusterSteps ClusterWiring CommandTokens
open LegibleReplies GuardedRuns
open SectionExclusion (twoServers crashFree)

section Laws

def isCommand : Line → Bool
  | .command _ => true
  | _ => false

def purposeOwes : Purpose → Option ClientInformation
  | .entering => none
  | .updating client _ => some client
  | .leaving client _ => some client

/-- The client whose command was run and who waits for the reply. -/
def owes : ServerTask → Option ClientInformation
  | .connecting sending _ => purposeOwes sending.purpose
  | .writing sending _ _ => purposeOwes sending.purpose
  | .awaiting sending _ _ => purposeOwes sending.purpose
  | .replying client _ => some client
  | _ => none

/-- No handler closes a client's socket before the command was answered, no server
crashes between running a client's command and printing its reply, and no read of a
client times out at a server that has neither crashed nor closed the socket. -/
def Attended (before : Cluster) : Action → Prop
  | .submit _ _ => True
  | .client _ => True
  | .timeout number => ∀ call ∈ before.calls[number]?, ∀ socket ∈ socketOf call.progress,
      ∀ target ∈ before.connections[socket]?, target.closed = true ∨ target.server ∈ before.crashed
  | .server number => ∀ connection ∈ before.connections[number]?,
      connection.task = .closing → isCommand connection.message = true → connection.output ≠ []
  | .crash serverID => ∀ connection ∈ before.connections,
      connection.server = serverID → owes connection.task = none

instance (before : Cluster) : ∀ action, Decidable (Attended before action)
  | .submit _ _ => isTrue trivial
  | .client _ => isTrue trivial
  | .timeout _ => inferInstanceAs (Decidable (∀ _ ∈ _, ∀ _ ∈ _, ∀ _ ∈ _, _ ∨ _))
  | .server _ => inferInstanceAs (Decidable (∀ _ ∈ _, _ → _ → _))
  | .crash _ => inferInstanceAs (Decidable (∀ _ ∈ _, _ → _))

def Printed (cluster : Cluster) (socket : Nat) : Prop :=
  ∃ connection, cluster.connections[socket]? = some connection ∧ connection.output ≠ []

structure Minded (cluster : Cluster) : Prop where
  closed : ∀ (n : Nat) (connection : Connection), cluster.connections[n]? = some connection →
    isCommand connection.message = true → connection.closed = true → connection.output ≠ []
  owed : ∀ me client response, Won cluster.history me client response →
    Printed cluster client.clientSocket ∨ (me ∉ cluster.crashed ∧
      ∃ (n : Nat) (connection : Connection), cluster.connections[n]? = some connection ∧
        connection.server = me ∧ owes connection.task = some client)
  abandoned : ∀ (n : Nat) (connection : Connection) (number : Nat) (call : Call),
    cluster.connections[n]? = some connection → connection.caller = .client number →
    cluster.calls[number]? = some call → socketOf call.progress ≠ some n →
    connection.server ∈ cluster.crashed ∧
      ∀ me client response, Won cluster.history me client response → client.clientSocket ≠ n

end Laws

/-! A handler that ran a command keeps owing the reply until it prints it. -/
section Debts
variable (config : Config) (me : Int)

theorem loop_owes (server : Server) (sending : Sending) (ended : ServerTask)
    (client : ClientInformation) (loop : purposeOwes sending.purpose = some client)
    (after : owes ended = some client) : owes (sendLoop me server sending ended) = some client := by
  unfold sendLoop
  split
  · exact loop
  · exact after

theorem release_owes (server : Server) (client : ClientInformation) (response : Text) :
    owes (releaseCriticalSection config me server client response) = some client :=
  loop_owes me server _ _ client rfl rfl

theorem update_owes (server : Server) (client : ClientInformation) (response : Text) :
    owes (sendUpdate config me server client response) = some client :=
  loop_owes me server _ _ client rfl (release_owes config me server client response)

theorem resume_owes (server : Server) (sending : Sending) (client : ClientInformation)
    (loop : purposeOwes sending.purpose = some client) :
    owes ((resume config me server sending).finish config me).task = some client := by
  have resumed := resume_resumed config me server sending
  generalize resume config me server sending = flow at resumed ⊢
  cases resumed with
  | next peer rest next => exact loop
  | requested ended entering =>
      rw [entering] at loop
      cases loop
  | updated owner response ended updating =>
      rw [updating] at loop
      cases loop
      exact release_owes config me server client response
  | released owner response ended leaving =>
      rw [leaving] at loop
      exact loop

variable (cluster : Cluster) (number : Nat) (connection : Connection) (flow : Flow)

theorem moved_owes (client : ClientInformation) (debt : owes connection.task = some client)
    (moved : Moved config cluster number connection flow) :
    owes (flow.finish config connection.server).task = some client ∨
      ∃ response, (flow.finish config connection.server).wire =
        .reply client.clientSocket response := by
  cases moved with
  | unreachable sending peer connecting down =>
      rw [connecting] at debt
      exact Or.inl (resume_owes config connection.server _ sending client debt)
  | connected sending peer connecting up =>
      rw [connecting] at debt
      exact Or.inl debt
  | wrote sending peer socket writing =>
      rw [writing] at debt
      exact Or.inl debt
  | heard sending peer socket target awaiting reached reply =>
      rw [awaiting] at debt
      exact Or.inl (resume_owes config connection.server _ sending client debt)
  | lost sending peer socket target awaiting reached silent dead =>
      rw [awaiting] at debt
      exact Or.inl (resume_owes config connection.server _ sending client debt)
  | replied owner response replying =>
      rw [replying] at debt
      cases debt
      exact Or.inr ⟨response, rfl⟩
  | gone reading unwritten left =>
      rw [reading] at debt
      cases debt
  | requested logicalClock serverID reading message =>
      rw [reading] at debt
      cases debt
  | told reading message =>
      rw [reading] at debt
      cases debt
  | queued command reading message empty =>
      rw [reading] at debt
      cases debt
  | refused command reading message full =>
      rw [reading] at debt
      cases debt
  | answered text answering plain =>
      rw [answering] at debt
      cases debt
  | enqueued logicalClock serverID handling message =>
      rw [handling] at debt
      cases debt
  | released logicalClock serverID handling message =>
      rw [handling] at debt
      cases debt
  | updated logicalClock serverID owner handling message =>
      rw [handling] at debt
      cases debt
  | misplaced command handling message =>
      rw [handling] at debt
      cases debt
  | closed closing =>
      rw [closing] at debt
      cases debt

theorem moved_won (owner : Int) (client : ClientInformation) (response : Text)
    (moved : Moved config cluster number connection flow)
    (won : ⟨owner, client, true, .ok response⟩ ∈
      (flow.finish config connection.server).executed) :
    owner = connection.server ∧
      owes (flow.finish config connection.server).task = some client := by
  cases SectionExclusion.moved_executes config cluster number connection flow moved with
  | nothing idle same => simp [idle] at won
  | thrown other thrown enters ran same => simp [ran] at won
  | served other answer enters ran next result =>
      simp only [ran, List.mem_singleton, Execution.mk.injEq] at won
      obtain ⟨rfl, rfl, _⟩ := won
      rw [next]
      exact ⟨rfl, update_owes config connection.server _ client answer⟩
  | refused logicalClock serverID other thrown handling message ran result same =>
      simp [ran] at won
  | carried logicalClock serverID other answer handling message ran result => simp [ran] at won

theorem moved_close (moved : Moved config cluster number connection flow)
    (close : (flow.finish config connection.server).wire = .close) :
    connection.task = .closing := by
  have resumed : ∀ server sending, ((resume config connection.server server sending).finish config
      connection.server).wire ≠ .close := by
    intro server sending shut
    rw [(resume_ending config connection.server server sending).2] at shut
    cases shut
  cases moved with
  | closed closing => exact closing
  | queued command reading message empty => exact absurd close (resumed _ _)
  | released logicalClock serverID handling message =>
      rw [Flow.finish, (check_ending config connection.server _).2] at close
      cases close
  | updated logicalClock serverID other handling message =>
      simp only [Flow.finish, applyUpdate] at close
      split at close
      · cases close
      · cases close
  | unreachable sending peer connecting down => exact absurd close (resumed _ _)
  | heard sending peer socket target awaiting reached reply => exact absurd close (resumed _ _)
  | lost sending peer socket target awaiting reached silent dead =>
      exact absurd close (resumed _ _)
  | _ => cases close

end Debts

section Steps
variable (config : Config) {before after : Cluster}

theorem printed_grown (grown : Grown before after) (socket : Nat)
    (printed : Printed before socket) : Printed after socket := by
  obtain ⟨connection, found, output⟩ := printed
  obtain ⟨later, present, kept⟩ := grown.connections socket connection found
  refine ⟨later, present, fun empty => output ?_⟩
  have prefixed := kept.output
  rw [empty] at prefixed
  exact List.prefix_nil.mp prefixed

-- A reply goes to a command's connection, which is answered once it is closed.
theorem reply_printed (wired : Wired config before) (minded : Minded before) (number : Nat)
    (me : Int) (outcome : Outcome) (owner : Int) (client : ClientInformation)
    (response text : Text) (won : Won before.history owner client response)
    (reply : outcome.wire = .reply client.clientSocket text) :
    Printed (before.after number me outcome) client.clientSocket := by
  obtain ⟨target, there, command⟩ := won_command before.connections before.history wired.history
    owner client response won
  have present := (after_found number client.clientSocket outcome before me
    (touched number client.clientSocket target outcome)).mpr (Or.inl ⟨target, there, rfl⟩)
  by_cases shut : target.closed = true
  · have output := minded.closed client.clientSocket target there (by rw [command]; rfl) shut
    exact printed_grown (after_grown before number me outcome) _ ⟨target, there, output⟩
  · have longer := touched_reply number client.clientSocket target outcome text reply
      (by simpa using shut)
    exact ⟨_, present, by simp [longer]⟩

-- The handler of a debt keeps it until it prints, and every other one is left alone.
theorem handled_owed (wired : Wired config before) (minded : Minded before) (number : Nat)
    (connection : Connection) (flow : Flow) (found : before.connections[number]? = some connection)
    (alive : connection.server ∉ before.crashed)
    (moved : Moved config before number connection flow) (owner : Int) (client : ClientInformation)
    (response : Text)
    (won : Won (before.after number connection.server (flow.finish config connection.server)).history
      owner client response) :
    Printed (before.after number connection.server (flow.finish config connection.server))
        client.clientSocket ∨
      (owner ∉ before.crashed ∧ ∃ (n : Nat) (other : Connection),
        (before.after number connection.server
          (flow.finish config connection.server)).connections[n]? = some other ∧
          other.server = owner ∧ owes other.task = some client) := by
  have grown := after_grown before number connection.server (flow.finish config connection.server)
  rcases List.mem_append.mp won with old | new
  · rcases minded.owed owner client response old with printed | ⟨up, n, other, there, server, debt⟩
    · exact Or.inl (printed_grown grown _ printed)
    · by_cases here : n = number
      · subst here
        rw [there, Option.some.injEq] at found
        subst found
        rcases moved_owes config before n other flow client debt moved with
          still | ⟨text, reply⟩
        · refine Or.inr ⟨up, n, _, (after_found _ _ _ _ _ _).mpr (Or.inl ⟨other, there, rfl⟩), ?_,
            ?_⟩
          · rw [touched_server]
            exact server
          · rw [touched_task, if_pos rfl]
            exact still
        · exact Or.inl (reply_printed config wired minded n other.server _ owner client response
            text old reply)
      · refine Or.inr ⟨up, n, _, (after_found _ _ _ _ _ _).mpr (Or.inl ⟨other, there, rfl⟩), ?_, ?_⟩
        · rw [touched_server]
          exact server
        · rw [touched_task, if_neg here]
          exact debt
  · obtain ⟨rfl, debt⟩ := moved_won config before number connection flow owner client response
      moved new
    refine Or.inr ⟨alive, number, _,
      (after_found _ _ _ _ _ _).mpr (Or.inl ⟨connection, found, rfl⟩), ?_, ?_⟩
    · exact touched_server _ _ _ _
    · rw [touched_task, if_pos rfl]
      exact debt

/-- A handler's step leaves no client of this server unminded. -/
theorem handled_minded (wired : Wired config before) (minded : Minded before) (number : Nat)
    (connection : Connection) (flow : Flow) (found : before.connections[number]? = some connection)
    (alive : connection.server ∉ before.crashed)
    (moved : Moved config before number connection flow)
    (attended : connection.task = .closing → isCommand connection.message = true →
      connection.output ≠ []) :
    Minded (before.after number connection.server (flow.finish config connection.server)) := by
  have sound := moved_sound config before number connection flow wired found moved
  have known := (wired.connections number connection found).known
  have outcome := finish_sound config before.connections before.history connection.server flow known
    (submitted_valid config before wired connection.server) sound
  constructor
  · intro n later present command shut
    rcases (after_found _ _ _ _ _ _).mp present with ⟨old, there, rfl⟩ | ⟨_, _, _, _, rfl⟩
    · have filled : old.output ≠ [] := by
        rw [touched_message] at command
        rcases (touched_closed _ _ _ _).mp shut with closed | ⟨rfl, close⟩
        · exact minded.closed n old there command closed
        · rw [there, Option.some.injEq] at found
          subst found
          exact attended (moved_close config before n old flow moved close) command
      intro empty
      have kept := (touched_kept number n old (flow.finish config connection.server)).output
      rw [empty] at kept
      exact filled (List.prefix_nil.mp kept)
    · cases shut
  · exact handled_owed config wired minded number connection flow found alive moved
  · intro n later call progress present caller called other
    rcases (after_found _ _ _ _ _ _).mp present with ⟨old, there, rfl⟩ | ⟨_, _, _, _, rfl⟩
    · rw [touched_caller] at caller
      obtain ⟨down, unrun⟩ := minded.abandoned n old call progress there caller called other
      refine ⟨by rw [touched_server]; exact down, ?_⟩
      intro owner client response won
      rcases List.mem_append.mp won with earlier | new
      · exact unrun owner client response earlier
      · rintro rfl
        obtain ⟨rfl, _⟩ := moved_won config before number connection flow owner client response
          moved new
        have ran := outcome.executed _ new
        simp only [ExecutionSound, if_true] at ran
        obtain ⟨submitted, here, _, server⟩ := ran
        rw [there, Option.some.injEq] at here
        subst here
        exact alive (server ▸ down)
    · cases caller

theorem set_found (calls : List Call) (number n : Nat) (call later : Call)
    (present : (calls.set number call)[n]? = some later) :
    (n = number ∧ later = call) ∨ (n ≠ number ∧ calls[n]? = some later) := by
  rw [List.getElem?_set] at present
  by_cases here : number = n
  · rw [if_pos here] at present
    split at present
    · exact Or.inl ⟨here.symm, (Option.some.inj present).symm⟩
    · cases present
  · rw [if_neg here] at present
    exact Or.inr ⟨Ne.symm here, present⟩

/-- A call that gives up on a server leaves nothing there that can still run. -/
theorem retried_unrun (wired : Wired config before) (tidied : Tidied before)
    (minded : Minded before) (number : Nat) (call : Call) (socket : Nat) (target : Connection)
    (found : before.calls[number]? = some call) (awaiting : call.progress = .awaiting socket)
    (reached : before.connections[socket]? = some target)
    (silent : nextReply target.output = none)
    (dead : target.closed = true ∨ target.server ∈ before.crashed) :
    target.server ∈ before.crashed ∧
      ∀ me client response, Won before.history me client response →
        client.clientSocket ≠ socket := by
  obtain ⟨attempt, there, _, message⟩ :=
    (wired.calls number call found).attempt socket (by rw [awaiting]; rfl)
  rw [reached, Option.some.injEq] at there
  subst there
  have empty : target.output = [] := by
    cases output : target.output with
    | nil => rfl
    | cons text rest =>
        obtain ⟨command, _, sound⟩ | messaging := (wired.connections socket target reached).line
        · obtain ⟨me, client, _, won⟩ := sound.output text (by simp [output])
          have legible := tidied.replies _ won text rfl
          rw [output, legible_read text rest legible] at silent
          cases silent
        · have line := messaging.message
          rw [message] at line
          exact line.elim
  have down : target.server ∈ before.crashed := by
    rcases dead with shut | down
    · exact absurd empty (minded.closed socket target reached (by rw [message]; rfl) shut)
    · exact down
  refine ⟨down, ?_⟩
  rintro me client response won rfl
  rcases minded.owed me client response won with ⟨printed, here, output⟩ | ⟨up, _⟩
  · rw [reached, Option.some.injEq] at here
    exact output (here ▸ empty)
  · have ran := wired.history _ won
    simp only [ExecutionSound, if_true] at ran
    obtain ⟨submitted, here, _, server⟩ := ran
    rw [reached, Option.some.injEq] at here
    subst here
    exact up (server ▸ down)

-- A crash is the only step outside a handler that can take a debtor away.
theorem outside_owed (minded : Minded before) (action : Action) (attended : Attended before action)
    (stepped : Stepped config before action after)
    (outside : ∀ number, action ≠ .server number) (me : Int) (client : ClientInformation)
    (response : Text) (won : Won after.history me client response) :
    Printed after client.clientSocket ∨ (me ∉ after.crashed ∧
      ∃ (n : Nat) (connection : Connection), after.connections[n]? = some connection ∧
        connection.server = me ∧ owes connection.task = some client) := by
  have grown := stepped_grown config before after action stepped
  have history := (outside_same config before after action stepped outside).2
  rw [history] at won
  rcases minded.owed me client response won with printed | ⟨up, n, connection, there, server, debt⟩
  · exact Or.inl (printed_grown grown _ printed)
  · have alive : me ∉ after.crashed := by
      cases stepped with
      | crashed serverID known =>
          intro down
          rcases List.mem_cons.mp down with rfl | earlier
          · have none := attended connection (List.mem_of_getElem? there) server
            rw [none] at debt
            cases debt
          · exact up earlier
      | handled number connection flow found alive advanced moved =>
          exact absurd rfl (outside number)
      | _ => exact up
    rcases outside_stays config before after action stepped outside n connection there with
      same | written
    · exact Or.inr ⟨alive, n, connection, same, server, debt⟩
    · exact Or.inr ⟨alive, n, write connection, written, server, debt⟩

/-- A client leaves a connection only when nothing there can still run. -/
theorem outside_abandoned (wired : Wired config before) (tidied : Tidied before)
    (minded : Minded before) (action : Action) (attended : Attended before action)
    (stepped : Stepped config before action after)
    (outside : ∀ number, action ≠ .server number) (n : Nat) (later : Connection) (number : Nat)
    (call : Call) (present : after.connections[n]? = some later)
    (caller : later.caller = .client number) (called : after.calls[number]? = some call)
    (other : socketOf call.progress ≠ some n) :
    later.server ∈ after.crashed ∧
      ∀ me client response, Won after.history me client response → client.clientSocket ≠ n := by
  have history := (outside_same config before after action stepped outside).2
  have carried : ∀ (old : Connection) (earlier : Call), before.connections[n]? = some old →
      old.server = later.server → old.caller = later.caller →
      before.calls[number]? = some earlier → socketOf earlier.progress ≠ some n →
      later.server ∈ before.crashed ∧
        ∀ me client response, Won after.history me client response →
          client.clientSocket ≠ n := by
    intro old earlier there server same found left
    have done := minded.abandoned n old number earlier there (same.trans caller) found left
    rw [history]
    exact ⟨server ▸ done.1, done.2⟩
  have attempted : ∀ (earlier : Call) (socket : Nat) (target : Connection),
      before.connections[n]? = some later → before.calls[number]? = some earlier →
      earlier.progress = .awaiting socket → before.connections[socket]? = some target →
      nextReply target.output = none → target.closed = true ∨ target.server ∈ before.crashed →
      later.server ∈ before.crashed ∧
        ∀ me client response, Won after.history me client response →
          client.clientSocket ≠ n := by
    intro earlier socket target there found awaiting reached silent dead
    by_cases here : n = socket
    · subst here
      have unrun := retried_unrun config wired tidied minded number earlier n target found
        awaiting reached silent dead
      rw [there, Option.some.injEq] at reached
      rw [history]
      exact reached ▸ unrun
    · refine carried later earlier there rfl rfl found ?_
      rw [awaiting]
      intro same
      exact here (Option.some.inj same).symm
  cases stepped with
  | submitted command servers valid known =>
      rcases (ListEntries.snoc_entry _ _ _ _).mp called with old | ⟨last, _⟩
      · exact carried later call present rfl rfl old other
      · have line := (wired.connections n later present).line
        rw [last] at caller
        obtain ⟨_, _, sound⟩ | messaging := line
        · obtain ⟨first, earlier, same, found, _⟩ := sound.caller
          rw [caller, Caller.client.injEq] at same
          rw [← same] at found
          simp at found
        · obtain ⟨serverID, same⟩ := messaging.caller
          rw [caller] at same
          cases same
  | exhausted first earlier found connecting none =>
      rcases set_found _ _ _ _ _ called with ⟨rfl, _⟩ | ⟨_, old⟩
      · exact carried later earlier present rfl rfl found (by rw [connecting]; nofun)
      · exact carried later call present rfl rfl old other
  | skipped first earlier server rest found connecting start down =>
      rcases set_found _ _ _ _ _ called with ⟨rfl, _⟩ | ⟨_, old⟩
      · exact carried later earlier present rfl rfl found (by rw [connecting]; nofun)
      · exact carried later call present rfl rfl old other
  | connected first earlier server rest found connecting start up =>
      rcases (ListEntries.snoc_entry _ _ _ _).mp present with there | ⟨rfl, rfl⟩
      · rcases set_found _ _ _ _ _ called with ⟨rfl, _⟩ | ⟨_, old⟩
        · exact carried later earlier there rfl rfl found (by rw [connecting]; nofun)
        · exact carried later call there rfl rfl old other
      · simp only [opened, Caller.client.injEq] at caller
        rcases set_found _ _ _ _ _ called with ⟨_, rfl⟩ | ⟨apart, _⟩
        · exact absurd rfl other
        · exact absurd caller.symm apart
  | wrote first earlier socket found writing =>
      obtain ⟨old, there, rfl⟩ := (modify_write _ _ _ _).mp present
      have kept : old.server = (if socket = n then write old else old).server ∧
          old.caller = (if socket = n then write old else old).caller := by
        split
        · exact ⟨rfl, rfl⟩
        · exact ⟨rfl, rfl⟩
      rcases set_found _ _ _ _ _ called with ⟨rfl, rfl⟩ | ⟨_, before⟩
      · exact carried old earlier there kept.1 kept.2 found (by rw [writing]; exact other)
      · exact carried old call there kept.1 kept.2 before other
  | returned first earlier socket target response found awaiting reached reply =>
      rcases set_found _ _ _ _ _ called with ⟨rfl, rfl⟩ | ⟨_, old⟩
      · exact carried later earlier present rfl rfl found (by rw [awaiting]; exact other)
      · exact carried later call present rfl rfl old other
  | retried first earlier socket target found awaiting reached silent dead =>
      rcases set_found _ _ _ _ _ called with ⟨rfl, rfl⟩ | ⟨_, old⟩
      · exact attempted earlier socket target present found awaiting reached silent dead
      · exact carried later call present rfl rfl old other
  | timedOut first earlier socket target found awaiting reached silent =>
      rcases set_found _ _ _ _ _ called with ⟨rfl, rfl⟩ | ⟨_, old⟩
      · have dead := attended earlier found socket (by rw [awaiting]; rfl) target reached
        exact attempted earlier socket target present found awaiting reached silent dead
      · exact carried later call present rfl rfl old other
  | handled number connection flow found alive advanced moved => exact absurd rfl (outside number)
  | crashed serverID known =>
      have done := carried later call present rfl rfl called other
      exact ⟨List.mem_cons_of_mem serverID done.1, done.2⟩

theorem outside_minded (wired : Wired config before) (tidied : Tidied before)
    (minded : Minded before) (action : Action) (attended : Attended before action)
    (stepped : Stepped config before action after)
    (outside : ∀ number, action ≠ .server number) : Minded after where
  closed := by
    intro n later present command shut
    rcases outside_found config before after action stepped outside n later present with
      ⟨old, there, rfl | rfl⟩ | ⟨_, _, _, _, _, _, _, rfl⟩
    · exact minded.closed n later there command shut
    · exact minded.closed n old there command shut
    · cases shut
  owed := outside_owed config minded action attended stepped outside
  abandoned := outside_abandoned config wired tidied minded action attended stepped outside

end Steps

section Runs
variable (config : Config)

/-- The call of `Client.send` whose command was run. -/
def callOf (cluster : Cluster) (execution : Execution) : Option Nat :=
  (cluster.connections[execution.client.clientSocket]?).bind fun connection =>
    match connection.caller with
    | .client number => some number
    | .server _ => none

/-- How often the command of a call was applied to the store of a server. -/
def applications (cluster : Cluster) (number : Nat) (server : Int) : Nat :=
  cluster.history.countP fun execution => execution.server == server && execution.succeeded &&
    callOf cluster execution == some number

structure Safe (cluster : Cluster) : Prop where
  wired : Wired config cluster
  once : Once cluster
  tidied : Tidied cluster
  minded : Minded cluster

theorem initial_safe (tidy : ∀ item ∈ config.inventory, singleLine item.itemName = true) :
    Safe config (initial config) := by
  refine ⟨initial_wired config, initial_once config, initial_tidied config tidy, ?_, ?_, ?_⟩
  · simp [initial]
  · intro me client response won
    cases won
  · simp [initial]

/-- A step in which every client is minded keeps the command's one run. -/
theorem step_safe (before after : Cluster) (action : Action) (safe : Safe config before)
    (attended : Attended before action) (taken : step config before action = some after) :
    Safe config after := by
  obtain ⟨wired, once, tidied, minded⟩ := safe
  constructor
  · exact step_wired config before after action wired taken
  · exact step_once config before after action wired once taken
  · exact step_tidied config before after action wired tidied taken
  · have stepped := step_stepped config before after action (wired_readable config before wired)
      taken
    by_cases outside : ∀ number, action ≠ .server number
    · exact outside_minded config wired tidied minded action attended stepped outside
    · cases stepped with
      | handled number connection flow found alive advanced moved =>
          exact handled_minded config wired minded number connection flow found alive moved
            (attended connection found)
      | _ => exact absurd (fun number => nofun) outside

variable (cluster : Cluster) (safe : Safe config cluster)

include safe

/-- Whatever was run for a call came with its latest attempt. -/
theorem latest_attempt (execution : Execution) (ran : execution ∈ cluster.history)
    (succeeded : execution.succeeded = true) (number : Nat)
    (called : callOf cluster execution = some number) :
    (∃ me response, Won cluster.history me execution.client response) ∧
    ∃ call, cluster.calls[number]? = some call ∧
      socketOf call.progress = some execution.client.clientSocket := by
  have sound := safe.wired.history execution ran
  have won : ∃ me response, Won cluster.history me execution.client response := by
    unfold ExecutionSound at sound
    split at sound
    · rename_i own
      obtain ⟨server, client, own', result⟩ := execution
      cases result with
      | error thrown => cases succeeded
      | ok response =>
          cases own
          exact ⟨server, response, ran⟩
    · exact sound
  refine ⟨won, ?_⟩
  obtain ⟨me, response, won⟩ := won
  obtain ⟨submitted, there, message⟩ := won_command cluster.connections cluster.history
    safe.wired.history me execution.client response won
  obtain ⟨command, _, sound⟩ | messaging :=
    (safe.wired.connections _ submitted there).line
  · obtain ⟨first, call, caller, found, _⟩ := sound.caller
    simp only [callOf, there, Option.bind_some, caller, Option.some.injEq] at called
    subst called
    refine ⟨call, found, ?_⟩
    by_contra left
    exact (safe.minded.abandoned _ submitted first call there caller found left).2 me _ response won
      rfl
  · have line := messaging.message
    rw [message] at line
    exact line.elim

theorem few_applications (number : Nat) (server : Int) :
    applications cluster number server ≤ 1 := by
  cases called : cluster.calls[number]? with
  | none =>
      have nothing : applications cluster number server = 0 := by
        refine List.countP_eq_zero.mpr fun execution ran counted => ?_
        simp only [Bool.and_eq_true, beq_iff_eq] at counted
        obtain ⟨_, call, found, _⟩ := latest_attempt config cluster safe execution ran counted.1.2
          number counted.2
        rw [called] at found
        cases found
      omega
  | some call =>
      cases attempt : socketOf call.progress with
      | none =>
          have nothing : applications cluster number server = 0 := by
            refine List.countP_eq_zero.mpr fun execution ran counted => ?_
            simp only [Bool.and_eq_true, beq_iff_eq] at counted
            obtain ⟨_, same, found, socket⟩ := latest_attempt config cluster safe execution ran
              counted.1.2 number counted.2
            rw [called, Option.some.injEq] at found
            rw [← found, attempt] at socket
            cases socket
          omega
      | some socket =>
          refine Nat.le_trans (List.countP_mono_left fun execution ran counted => ?_)
            (few_runs socket server cluster safe.once)
          simp only [Bool.and_eq_true, beq_iff_eq] at counted ⊢
          obtain ⟨_, same, found, latest⟩ := latest_attempt config cluster safe execution ran
            counted.1.2 number counted.2
          rw [called, Option.some.injEq] at found
          rw [← found, attempt, Option.some.injEq] at latest
          exact ⟨latest.symm, counted.1.1⟩

theorem returned_own (number : Nat) (call : Call) (socket : Nat) (text : Text)
    (found : cluster.calls[number]? = some call) (returned : call.progress = .returned socket text) :
    ∃ execution ∈ cluster.history, execution.own = true ∧ execution.result = .ok text ∧
      callOf cluster execution = some number ∧ ∀ other ∈ cluster.history,
        other.succeeded = true → callOf cluster other = some number →
          other.client = execution.client := by
  have sound := safe.wired.calls number call found
  obtain ⟨connection, there, caller, message⟩ := sound.attempt socket (by rw [returned]; rfl)
  obtain ⟨target, same, reply⟩ := sound.returned socket text returned
  rw [there, Option.some.injEq] at same
  subst same
  obtain ⟨command, line, sound⟩ | messaging := (safe.wired.connections socket connection there).line
  · cases output : connection.output with
    | nil =>
        rw [output] at reply
        cases reply
    | cons first rest =>
        obtain ⟨me, client, here, won⟩ := sound.output first (by simp [output])
        have legible := safe.tidied.replies _ won first rfl
        rw [output, legible_read first rest legible, Option.some.injEq] at reply
        subst reply
        refine ⟨_, won, rfl, rfl, by simp [callOf, here, there, caller], ?_⟩
        intro other ran succeeded called
        obtain ⟨⟨owner, response, also⟩, current, present, latest⟩ :=
          latest_attempt config cluster safe other ran succeeded number called
        rw [found, Option.some.injEq] at present
        rw [← present, returned] at latest
        exact won_unique config cluster safe.wired safe.once owner me other.client client response first also won
          ((Option.some.inj latest).symm.trans here.symm)
  · have line := messaging.message
    rw [message] at line
    exact line.elim

end Runs

section Results

-- One purchase, from the client's call to its return.
def oneReturns : List Action :=
  [.submit "purchase ann phone 2".toList [1, 2], .client 0, .client 0, .server 0, .server 0,
    .server 0, .server 1, .server 1, .server 0, .server 0, .server 0, .server 1, .server 1,
    .server 2, .server 2, .server 0, .server 0, .server 0, .server 2, .server 2, .server 3,
    .server 3, .server 0, .server 0, .client 0]

-- The purchase waits at server 1 behind server 2's request, its handler closes
-- the socket, and the client goes to server 2, where it is run a second time.
def retriedTwice : List Action :=
  [.submit "list".toList [2], .submit "purchase ann phone 2".toList [1, 2], .client 0, .client 0,
    .client 1, .client 1, .server 0, .server 0, .server 0, .server 2, .server 2, .server 2,
    .server 0, .server 1, .server 1, .server 1, .server 3, .server 3, .server 1, .server 1,
    .client 1, .client 1, .client 1, .server 4, .server 0, .server 0, .server 5, .server 5,
    .server 5, .server 0, .server 0, .server 0, .server 6, .server 6, .server 6, .server 6,
    .server 6, .server 7, .server 7, .server 7, .server 4, .server 4, .server 8, .server 8,
    .server 4]

end Results

end EE360P.SubmittedOnce
