import EE360P.ClusterWork
import EE360P.StrandedCommands

/-! Where project4 comes to rest. A handler prints its answer before it waits for
anything, so handlers never wait for each other in a circle, and whoever opened a
connection is about to write to it. When no handler and no client can go on, all handlers
have ended, and a client that still waits does so at a server whose handler died. -/

namespace EE360P.ClusterRest
open JavaText ReplicatedServer ServerCluster ClusterSteps ClusterWiring SectionExclusion
open ReliableDelivery LegibleReplies StrandedCommands ClusterWork GuardedRuns MeteredRuns

section Laws
variable (cluster : Cluster)

/-- A client or a handler is about to write to the connection. -/
def Opening (n : Nat) (connection : Connection) : Prop :=
  (∃ (number : Nat) (call : Call), cluster.calls[number]? = some call ∧
    call.progress = .writing n) ∨
  ∃ (k : Nat) (other : Connection) (sending : Sending) (peer : Int),
    cluster.connections[k]? = some other ∧ other.task = .writing sending peer n ∧
      connection.caller = .server other.server

structure Attended : Prop where
  unwritten : ∀ (n : Nat) (connection : Connection), cluster.connections[n]? = some connection →
    connection.written = false → Opening cluster n connection
  plugged : ∀ (n : Nat) (connection : Connection) (sending : Sending) (peer : Int) (socket : Nat),
    cluster.connections[n]? = some connection →
      plug connection.task = some (sending, peer, socket) →
        ∃ target, cluster.connections[socket]? = some target ∧ target.server = peer ∧
          target.caller = .server connection.server
  silent : ∀ (n : Nat) (connection : Connection), cluster.connections[n]? = some connection →
    (∀ command, connection.message ≠ .command command) → connection.output = [] →
      connection.task = .failed → abandoned cluster.crashed connection = true
  finished : ∀ (n : Nat) (connection : Connection), cluster.connections[n]? = some connection →
    connection.task = .finished → connection.closed = true

/-- `Client.send` is over, or waits for a handler that died of an exception. -/
def Answered (call : Call) : Prop :=
  (∃ socket response, call.progress = .returned socket response) ∨ call.progress = .exhausted ∨
    ∃ socket target, call.progress = .awaiting socket ∧
      cluster.connections[socket]? = some target ∧ target.task = .failed

/-- The steps that handlers and clients take by themselves. -/
def proceeds : Action → Bool
  | .client _ => true
  | .server _ => true
  | _ => false

/-- All handlers at live servers have ended, and all clients that can be are answered. -/
def Settled : Prop := Resting cluster ∧ ∀ call ∈ cluster.calls, Answered cluster call

theorem initial_attended (config : Config) : Attended (initial config) := by
  constructor <;> simp [initial]

end Laws

section Handlers
variable (config : Config) {before : Cluster} (number : Nat) (connection : Connection)
  (flow : Flow) (moved : Moved config before number connection flow)

include moved

theorem writing_wrote (sending : Sending) (peer : Int) (socket : Nat)
    (writing : connection.task = .writing sending peer socket) :
    (flow.finish config connection.server).wire = .wrote socket := by
  cases moved with
  | wrote other target at_ there =>
      cases there.symm.trans writing
      rfl
  | told reading message => cases reading.symm.trans writing
  | _ => simp_all

theorem opened_writing (peer : Int) (message : Line)
    (opening : (flow.finish config connection.server).wire = .opened peer message) :
    ∃ sending, (flow.finish config connection.server).task =
      .writing sending peer before.connections.length := by
  have resumed : ∀ server sending, ((resume config connection.server server sending).finish
      config connection.server).wire ≠ .opened peer message := by
    intro server sending opens
    rw [(resume_ending config connection.server server sending).2] at opens
    cases opens
  cases moved with
  | queued command reading line empty => exact absurd opening (resumed _ _)
  | released logicalClock serverID handling line =>
      rw [Flow.finish, (check_ending config connection.server _).2] at opening
      cases opening
  | updated logicalClock serverID client handling line =>
      simp only [applyUpdate, Flow.finish] at opening
      split at opening
      · cases opening
      · cases opening
  | unreachable sending target connecting down => exact absurd opening (resumed _ _)
  | connected sending target connecting up =>
      cases opening
      exact ⟨sending, rfl⟩
  | heard sending target at_ answering awaiting reached reply => exact absurd opening (resumed _ _)
  | lost sending target at_ answering awaiting reached silent dead =>
      exact absurd opening (resumed _ _)
  | _ => cases opening

theorem finished_closes (ended : (flow.finish config connection.server).task = .finished) :
    (flow.finish config connection.server).wire = .close := by
  have resumed : ∀ server sending, ((resume config connection.server server sending).finish
      config connection.server).task ≠ .finished := by
    intro server sending same
    have onward := (resume_ending config connection.server server sending).1
    rw [same] at onward
    exact onward
  cases moved with
  | queued command reading line empty => exact absurd ended (resumed _ _)
  | released logicalClock serverID handling line =>
      have onward := (check_ending config connection.server (removeFirst serverID
        (setLogicalClockReceive config.counting logicalClock
          (before.server connection.server)))).1
      rw [Flow.finish] at ended
      rw [ended] at onward
      exact onward.elim
  | updated logicalClock serverID client handling line =>
      simp only [applyUpdate, Flow.finish] at ended
      split at ended
      · cases ended
      · cases ended
  | unreachable sending target connecting down => exact absurd ended (resumed _ _)
  | heard sending target at_ answering awaiting reached reply => exact absurd ended (resumed _ _)
  | lost sending target at_ answering awaiting reached silent dead =>
      exact absurd ended (resumed _ _)
  | closed closing => rfl
  | _ => cases ended

end Handlers

section Steps
variable (config : Config) {before after : Cluster} (wired : Wired config before)
  (trusting : Trusting before) (attended : Attended before)

theorem wrote_written (number n : Nat) (connection : Connection) (outcome : Outcome)
    (wrote : outcome.wire = .wrote n) : (touched number n connection outcome).written = true := by
  rw [touched, wrote, onWire, if_pos rfl]
  rfl

theorem abandoned_later (connection later : Connection) (same : later.caller = connection.caller)
    (crashed more : List Int) (grown : crashed ⊆ more)
    (left : abandoned crashed connection = true) : abandoned more later = true := by
  unfold abandoned at left ⊢
  rw [same]
  cases caller : connection.caller with
  | client number =>
      rw [caller] at left
      exact left
  | server serverID =>
      rw [caller] at left
      exact List.contains_iff_mem.mpr (grown (List.contains_iff_mem.mp left))

include trusting attended in
theorem handled_attended (number : Nat) (connection : Connection) (flow : Flow)
    (found : before.connections[number]? = some connection)
    (moved : Moved config before number connection flow) :
    Attended (before.after number connection.server (flow.finish config connection.server)) := by
  have grown := after_grown before number connection.server (flow.finish config connection.server)
  have kept : ∀ (n : Nat) (old : Connection), before.connections[n]? = some old →
      (before.after number connection.server
        (flow.finish config connection.server)).connections[n]? =
          some (touched number n old (flow.finish config connection.server)) :=
    fun n old there => (after_found _ _ _ _ _ _).mpr (Or.inl ⟨old, there, rfl⟩)
  constructor
  · intro n later present unwritten
    rcases (after_found _ _ _ _ _ _).mp present with
      ⟨old, there, rfl⟩ | ⟨rfl, peer, message, opening, rfl⟩
    · have still : old.written = false := Bool.eq_false_iff.mpr fun written =>
        absurd (touched_written number n old _ written) (Bool.eq_false_iff.mp unwritten)
      rcases attended.unwritten n old there still with
        client | ⟨k, other, sending, peer, at_, writing, caller⟩
      · exact Or.inl client
      · refine Or.inr ⟨k, _, sending, peer, kept k other at_, ?_, by simpa using caller⟩
        by_cases own : k = number
        · subst own
          rw [at_, Option.some.injEq] at found
          subst found
          have wrote := writing_wrote config k other flow moved sending peer n writing
          exact absurd (wrote_written k n old _ wrote) (Bool.eq_false_iff.mp unwritten)
        · rw [touched_task, if_neg own]
          exact writing
    · obtain ⟨sending, writing⟩ := opened_writing config number connection flow moved peer message
        opening
      refine Or.inr ⟨number, _, sending, peer, kept number connection found, ?_, by simp [opened]⟩
      rw [touched_task, if_pos rfl]
      exact writing
  · intro n later sending peer socket present plug
    have old : ∀ c : Connection, before.connections[n]? = some c →
        ReliableDelivery.plug c.task = some (sending, peer, socket) →
          ∃ target, (before.after number connection.server
            (flow.finish config connection.server)).connections[socket]? = some target ∧
              target.server = peer ∧ target.caller = .server c.server := by
      intro c there held
      obtain ⟨target, reached, server, caller⟩ := attended.plugged n c sending peer socket there held
      exact ⟨_, kept socket target reached, by simpa using server, by simpa using caller⟩
    rcases (after_found _ _ _ _ _ _).mp present with ⟨c, there, rfl⟩ | ⟨_, _, _, _, rfl⟩
    · rw [touched_task] at plug
      rw [touched_server]
      by_cases own : n = number
      · subst own
        rw [there, Option.some.injEq] at found
        subst found
        rw [if_pos rfl] at plug
        rcases moved_plug config before n c flow moved sending peer socket plug with
          same | ⟨rfl, _, _, opening⟩
        · exact old c there same
        · exact ⟨opened peer (.server c.server) sending.message,
            (after_found _ _ _ _ _ _).mpr (Or.inr ⟨rfl, peer, sending.message, opening, rfl⟩), rfl, rfl⟩
      · rw [if_neg own] at plug
        exact old c there plug
    · cases plug
  · intro n later present line empty failed
    rcases (after_found _ _ _ _ _ _).mp present with ⟨old, there, rfl⟩ | ⟨_, _, _, _, rfl⟩
    · rw [touched_message] at line
      rw [touched_task] at failed
      have silent := List.prefix_nil.mp (empty ▸ (touched_kept number n old _).output)
      refine abandoned_later old _ (touched_caller _ _ _ _) _ _ (List.Subset.refl _) ?_
      by_cases own : n = number
      · subst own
        rw [there, Option.some.injEq] at found
        subst found
        rw [if_pos rfl] at failed
        have early := or_assoc.mpr (trusting.answered n old there line silent).2
          |>.resolve_right (moved_alive config n old flow moved)
        rcases moved_answered config n old flow line early moved with
          ⟨text, answer⟩ | ⟨answering | ⟨left, _⟩, _⟩
        · rw [touched_answer n old _ text answer] at empty
          simp at empty
        · cases answering.symm.trans failed
        · exact left
      · rw [if_neg own] at failed
        exact attended.silent n old there line silent failed
    · cases failed
  · intro n later present ended
    rcases (after_found _ _ _ _ _ _).mp present with ⟨old, there, rfl⟩ | ⟨_, _, _, _, rfl⟩
    · rw [touched_task] at ended
      rw [touched_closed]
      by_cases own : n = number
      · subst own
        rw [there, Option.some.injEq] at found
        subst found
        rw [if_pos rfl] at ended
        exact Or.inr ⟨rfl, finished_closes config n old flow moved ended⟩
      · rw [if_neg own] at ended
        exact Or.inl (attended.finished n old there ended)
    · cases ended

/-- A client that is about to write to a connection still is, or has written to it. -/
theorem writing_kept (action : Action) (stepped : Stepped config before action after) (n : Nat)
    (number : Nat) (call : Call) (found : before.calls[number]? = some call)
    (writing : call.progress = .writing n) :
    (∃ later, after.calls[number]? = some later ∧ later.progress = .writing n) ∨
      ∀ later, after.connections[n]? = some later → later.written = true := by
  have elsewhere : ∀ (moving : Nat) (old changed : Call), before.calls[moving]? = some old →
      (∀ n, old.progress ≠ .writing n) →
      ∃ later, (before.calls.set moving changed)[number]? = some later ∧
        later.progress = .writing n := by
    intro moving old changed there idle
    have apart : moving ≠ number := by
      rintro rfl
      rw [there, Option.some.injEq] at found
      exact idle n (found ▸ writing)
    exact ⟨call, by rwa [List.getElem?_set_ne apart], writing⟩
  cases stepped with
  | submitted command servers valid known =>
      have inside := (List.getElem?_eq_some_iff.mp found).1
      exact Or.inl ⟨call, by rwa [List.getElem?_append_left inside], writing⟩
  | exhausted moving old there connecting none =>
      exact Or.inl (elsewhere moving old _ there (by simp [connecting]))
  | skipped moving old server rest there connecting first down =>
      exact Or.inl (elsewhere moving old _ there (by simp [connecting]))
  | connected moving old server rest there connecting first up =>
      exact Or.inl (elsewhere moving old _ there (by simp [connecting]))
  | wrote moving old socket there at_ =>
      by_cases same : socket = n
      · subst same
        refine Or.inr fun later present => ?_
        obtain ⟨_, _, rfl⟩ := (modify_write _ _ _ _).mp present
        rw [if_pos rfl]
        rfl
      · refine Or.inl ?_
        have apart : moving ≠ number := by
          rintro rfl
          rw [there, Option.some.injEq] at found
          subst found
          rw [at_, Progress.writing.injEq] at writing
          exact same writing
        exact ⟨call, by simp only [setCall]; rwa [List.getElem?_set_ne apart], writing⟩
  | returned moving old socket target response there awaiting reached reply =>
      exact Or.inl (elsewhere moving old _ there (by simp [awaiting]))
  | retried moving old socket target there awaiting reached silent dead =>
      exact Or.inl (elsewhere moving old _ there (by simp [awaiting]))
  | timedOut moving old socket target there awaiting reached silent =>
      exact Or.inl (elsewhere moving old _ there (by simp [awaiting]))
  | handled moving connection flow there alive advanced moved => exact Or.inl ⟨call, found, writing⟩
  | crashed serverID known => exact Or.inl ⟨call, found, writing⟩

include attended in
theorem outside_attended (action : Action) (stepped : Stepped config before action after)
    (outside : ∀ number, action ≠ .server number) : Attended after := by
  have stays : ∀ (n : Nat) (old : Connection), before.connections[n]? = some old →
      ∃ later, after.connections[n]? = some later ∧ later.server = old.server ∧
        later.caller = old.caller ∧ later.task = old.task := by
    intro n old there
    rcases outside_stays config before after action stepped outside n old there with same | written
    · exact ⟨old, same, rfl, rfl, rfl⟩
    · exact ⟨write old, written, rfl, rfl, rfl⟩
  have crashed : before.crashed ⊆ after.crashed := by
    cases stepped with
    | crashed serverID known => exact List.subset_cons_self serverID _
    | handled number connection flow found alive advanced moved => exact absurd rfl (outside number)
    | _ => exact List.Subset.refl _
  have plug : ∀ (n : Nat) (old : Connection) (sending : Sending) (peer : Int) (socket : Nat),
      before.connections[n]? = some old →
        ReliableDelivery.plug old.task = some (sending, peer, socket) →
          ∃ target, after.connections[socket]? = some target ∧ target.server = peer ∧
            target.caller = .server old.server := by
    intro n old sending peer socket there held
    obtain ⟨target, reached, server, caller⟩ := attended.plugged n old sending peer socket there held
    obtain ⟨later, present, sameServer, sameCaller, _⟩ := stays socket target reached
    exact ⟨later, present, sameServer.trans server, sameCaller.trans caller⟩
  constructor
  · intro n later present unwritten
    rcases outside_found config before after action stepped outside n later present with
      ⟨old, there, rfl | rfl⟩ | ⟨rfl, number, call, server, found, connecting, calls, rfl⟩
    · rcases attended.unwritten n later there unwritten with
        ⟨number, call, found, writing⟩ | ⟨k, other, sending, peer, at_, writing, caller⟩
      · rcases writing_kept config action stepped n number call found writing with still | written
        · exact Or.inl ⟨number, still⟩
        · exact absurd (written later present) (Bool.eq_false_iff.mp unwritten)
      · obtain ⟨still, here, sameServer, _, sameTask⟩ := stays k other at_
        exact Or.inr ⟨k, still, sending, peer, here, sameTask.trans writing,
          caller.trans (congrArg _ sameServer.symm)⟩
    · cases unwritten
    · have inside := (List.getElem?_eq_some_iff.mp found).1
      exact Or.inl ⟨number, _, by rw [calls, List.getElem?_set_self inside], rfl⟩
  · intro n later sending peer socket present held
    rcases outside_found config before after action stepped outside n later present with
      ⟨old, there, rfl | rfl⟩ | ⟨_, _, _, _, _, _, _, rfl⟩
    · exact plug n later sending peer socket there held
    · exact plug n old sending peer socket there held
    · cases held
  · intro n later present line empty failed
    rcases outside_found config before after action stepped outside n later present with
      ⟨old, there, rfl | rfl⟩ | ⟨_, _, _, _, _, _, _, rfl⟩
    · exact abandoned_later later later rfl _ _ crashed
        (attended.silent n later there line empty failed)
    · exact abandoned_later old (write old) rfl _ _ crashed
        (attended.silent n old there line empty failed)
    · cases failed
  · intro n later present ended
    rcases outside_found config before after action stepped outside n later present with
      ⟨old, there, rfl | rfl⟩ | ⟨_, _, _, _, _, _, _, rfl⟩
    · exact attended.finished n later there ended
    · exact attended.finished n old there ended
    · cases ended

end Steps

/-! What the program knows of itself in every reachable state. -/
section Rest
variable (config : Config)

structure Standing (cluster : Cluster) : Prop where
  wired : Wired config cluster
  trusting : Trusting cluster
  attended : Attended cluster

theorem initial_standing : Standing config (initial config) :=
  ⟨initial_wired config, initial_trusting config, initial_attended config⟩

theorem step_standing (before : Cluster) (action : Action) (after : Cluster)
    (standing : Standing config before) (taken : step config before action = some after) :
    Standing config after := by
  have stepped := step_stepped config before after action
    (wired_readable config before standing.wired) taken
  refine ⟨step_wired config before after action standing.wired taken,
    step_trusting config action standing.wired standing.trusting taken, ?_⟩
  by_cases outside : ∀ number, action ≠ .server number
  · exact outside_attended config standing.attended action stepped outside
  · cases stepped with
    | handled number connection flow found alive advanced moved =>
        exact handled_attended config standing.trusting standing.attended number connection flow
          found moved
    | _ => simp at outside

variable {cluster : Cluster} (standing : Standing config cluster)
  (still : ∀ action, proceeds action = true → step config cluster action = none)

section Still
include still

theorem still_handler (n : Nat) (connection : Connection)
    (found : cluster.connections[n]? = some connection)
    (alive : connection.server ∉ cluster.crashed) : advance config cluster n connection = none := by
  have none := still (.server n) rfl
  rw [step, found, Option.bind_some, if_neg alive, Option.map_eq_none_iff] at none
  exact none

theorem still_client (number : Nat) (call : Call) (found : cluster.calls[number]? = some call) :
    clientStep cluster number call = none := by
  have none := still (.client number) rfl
  rwa [step, found, Option.bind_some] at none

include standing

/-- Whoever opened a connection writes to it or has crashed. -/
theorem still_reading (n : Nat) (connection : Connection)
    (found : cluster.connections[n]? = some connection)
    (alive : connection.server ∉ cluster.crashed) : connection.task ≠ .reading := by
  intro reading
  have none := still_handler config still n connection found alive
  simp only [advance, reading] at none
  split at none
  · cases none
  · rename_i unwritten
    split at none
    · cases none
    · rename_i stays
      rcases standing.attended.unwritten n connection found (Bool.eq_false_iff.mpr unwritten) with
        ⟨number, call, called, writing⟩ | ⟨k, other, sending, peer, at_, writing, caller⟩
      · have idle := still_client config still number call called
        simp [clientStep, writing] at idle
      · have lives : other.server ∉ cluster.crashed := by
          intro down
          apply stays
          rw [abandoned, caller]
          exact List.contains_iff_mem.mpr down
        have idle := still_handler config still k other at_ lives
        simp [advance, writing] at idle

/-- The handler at the other end of a connection answers. -/
theorem still_awaiting (n : Nat) (connection : Connection) (sending : Sending) (peer : Int)
    (socket : Nat) (found : cluster.connections[n]? = some connection)
    (alive : connection.server ∉ cluster.crashed) :
    connection.task ≠ .awaiting sending peer socket := by
  intro awaiting
  have none := still_handler config still n connection found alive
  have plugged : plug connection.task = some (sending, peer, socket) := by
    rw [awaiting]
    rfl
  obtain ⟨target, reached, server, caller⟩ :=
    standing.attended.plugged n connection sending peer socket found plugged
  obtain ⟨other, there, message⟩ := standing.trusting.addressed n connection sending.message socket
    found (by rw [awaiting]; rfl)
  rw [reached, Option.some.injEq] at there
  subst there
  have line : ∀ command, target.message ≠ .command command := by
    intro command same
    have sound := (standing.wired.connections n connection found).task
    rw [awaiting] at sound
    have messageSound := sound.1.message
    rw [← message, same] at messageSound
    exact messageSound
  simp only [advance, awaiting, reached, Option.bind_some] at none
  split at none
  · cases none
  · rename_i silent
    split at none
    · cases none
    · rename_i waits
      rw [not_or] at waits
      have messaging := messaging_line config socket target reached standing.wired line
      have empty : target.output = [] := by
        cases output : target.output with
        | nil => rfl
        | cons first rest =>
            have legible := answer_legible first (messaging.output first (by simp [output]))
            rw [output, legible_read first rest legible] at silent
            exact absurd rfl silent
      have up : target.server ∉ cluster.crashed := server ▸ waits.2
      rcases (standing.trusting.answered socket target reached line empty).2 with
        reading | answering | failed
      · exact still_reading config standing still socket target reached up reading
      · have idle := still_handler config still socket target reached up
        simp [advance, answering] at idle
      · have left := standing.attended.silent socket target reached line empty failed
        rw [abandoned, caller] at left
        exact alive (List.contains_iff_mem.mp left)

theorem still_resting : Resting cluster := by
  intro connection member alive
  obtain ⟨n, found⟩ := List.mem_iff_getElem?.mp member
  have none := still_handler config still n connection found alive
  cases task : connection.task with
  | reading => exact absurd task (still_reading config standing still n connection found alive)
  | awaiting sending peer socket =>
      exact absurd task
        (still_awaiting config standing still n connection sending peer socket found alive)
  | connecting sending peer =>
      simp only [advance, task] at none
      split at none
      · cases none
      · cases none
  | finished => exact Or.inl rfl
  | failed => exact Or.inr rfl
  | _ => simp [advance, task] at none

theorem still_answered (call : Call) (member : call ∈ cluster.calls) : Answered cluster call := by
  obtain ⟨number, found⟩ := List.mem_iff_getElem?.mp member
  have none := still_client config still number call found
  cases progress : call.progress with
  | connecting =>
      simp only [clientStep, progress] at none
      split at none
      · cases none
      · split at none
        · cases none
        · cases none
  | writing socket => simp [clientStep, progress] at none
  | awaiting socket =>
      obtain ⟨target, reached, _, _⟩ :=
        (standing.wired.calls number call found).attempt socket (by rw [progress]; rfl)
      simp only [clientStep, progress, reached, Option.bind_some] at none
      split at none
      · cases none
      · split at none
        · cases none
        · rename_i waits
          rw [not_or] at waits
          refine Or.inr (Or.inr ⟨socket, target, progress, reached, ?_⟩)
          refine (still_resting config standing still target (List.mem_of_getElem? reached)
            waits.2).resolve_left fun ended => ?_
          exact waits.1 (standing.attended.finished socket target reached ended)
  | returned socket response => exact Or.inl ⟨socket, response, progress⟩
  | exhausted => exact Or.inr (Or.inl progress)

theorem still_settled : Settled cluster :=
  ⟨still_resting config standing still, still_answered config standing still⟩

end Still

theorem works_free (action : Action) (work : works action = true) : income config action = 0 := by
  cases action with
  | submit command servers => cases work
  | _ => rfl

theorem proceeds_works (action : Action) (proceeding : proceeds action = true) :
    works action = true := by
  cases action with
  | client number => rfl
  | server number => rfl
  | _ => cases proceeding

end Rest

end EE360P.ClusterRest
