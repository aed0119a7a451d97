import EE360P.ClusterWiring
import EE360P.GuardedRuns

/-! project4 `Client.send` over servers that each behave in one lasting way. The
loop has no counter: it goes on until a reply is read, and each caught exception
has its own clause. The one for any other `IOException` drops no server. The calls of
`ServerCluster` go through the same passes, one socket operation at a time. -/

namespace EE360P.ClientFailover
open JavaText

variable {Address : Type}

/-- What a pass of the loop meets at a server: no connection, or the lines that can
be read from one. `refused` and `timedOut` are the exceptions with clauses of their
own, `failed` is any other `IOException`. -/
inductive Attempt where
  | refused
  | timedOut
  | failed
  | connected (lines : List Text)
  deriving DecidableEq, Repr

structure Client (Address : Type) where
  servers : List Address
  serverInstances : Int32
  deriving DecidableEq, Repr

/-- `indexOutOfBounds` is `servers.get(0)` on an empty list, which nothing catches. -/
inductive Progress (Address : Type) where
  | again (client : Client Address)
  | returned (response : Text) (client : Client Address)
  | indexOutOfBounds
  deriving DecidableEq, Repr

section Loop

/-- The inner loop; `none` is the `NoSuchElementException` of `nextLine`, which also
stands for a read that timed out. -/
def readResponse : List Text → Option Text
  | [] => none
  | line :: rest => if line = "alive".toList then readResponse rest else some line

def deprecateServer (client : Client Address) : Client Address :=
  { servers := client.servers.tail, serverInstances := client.serverInstances - 1 }

variable (attempt : Address → Attempt)

/-- One pass of `while (true)`. -/
def pass (client : Client Address) : Progress Address :=
  match client.servers with
  | [] => .indexOutOfBounds
  | server :: _ =>
      match attempt server with
      | .refused => .again (deprecateServer client)
      | .timedOut => .again (deprecateServer client)
      | .failed => .again client
      | .connected lines =>
          match readResponse lines with
          | some response => .returned response client
          | none => .again (deprecateServer client)

def passes : Nat → Client Address → Progress Address
  | 0, client => .again client
  | n + 1, client =>
      match pass attempt client with
      | .again after => passes n after
      | .returned response after => .returned response after
      | .indexOutOfBounds => .indexOutOfBounds

end Loop

section Outcomes
variable (attempt : Address → Attempt)

/-- The reply that a server gives to whoever asks. -/
def reply (server : Address) : Option Text :=
  match attempt server with
  | .connected lines => readResponse lines
  | _ => none

def silent (server : Address) : Bool := (reply attempt server).isNone

theorem pass_answered (server : Address) (rest : List Address) (instances : Int32) (response : Text)
    (answers : reply attempt server = some response) :
    pass attempt ⟨server :: rest, instances⟩ = .returned response ⟨server :: rest, instances⟩ := by
  unfold reply at answers
  split at answers
  · rename_i lines connected
    simp only [pass, connected, answers]
  · cases answers

theorem pass_dropped (server : Address) (rest : List Address) (instances : Int32)
    (quiet : reply attempt server = none) (clause : attempt server ≠ .failed) :
    pass attempt ⟨server :: rest, instances⟩ = .again ⟨rest, instances - 1⟩ := by
  unfold reply at quiet
  cases met : attempt server with
  | refused => simp only [pass, met, deprecateServer, List.tail_cons]
  | timedOut => simp only [pass, met, deprecateServer, List.tail_cons]
  | failed => exact absurd met clause
  | connected lines =>
      simp only [met] at quiet
      simp only [pass, met, quiet, deprecateServer, List.tail_cons]

theorem pass_kept (server : Address) (rest : List Address) (instances : Int32)
    (failed : attempt server = .failed) :
    pass attempt ⟨server :: rest, instances⟩ = .again ⟨server :: rest, instances⟩ := by
  simp only [pass, failed]

end Outcomes

section Calls
variable (attempt : Address → Attempt)

/-- `send` returns the reply of the first server that answers, and the list of the
client then starts with that server. -/
def FailsOver (client : Client Address) : Prop :=
  ∃ n server rest response after, client.servers.dropWhile (silent attempt) = server :: rest ∧
    reply attempt server = some response ∧ passes attempt n client = .returned response after ∧
    after.servers = server :: rest

-- The loop comes back to the same state for good.
theorem passes_stuck (n : Nat) (server : Address) (rest : List Address) (instances : Int32)
    (failed : attempt server = .failed) :
    passes attempt n ⟨server :: rest, instances⟩ = .again ⟨server :: rest, instances⟩ := by
  induction n with
  | zero => rfl
  | succ n ih =>
      rw [passes, pass_kept attempt server rest instances failed]
      exact ih

theorem failsOver_dropped (server : Address) (rest : List Address) (instances : Int32)
    (quiet : reply attempt server = none) (clause : attempt server ≠ .failed) :
    FailsOver attempt ⟨server :: rest, instances⟩ ↔ FailsOver attempt ⟨rest, instances - 1⟩ := by
  have dropped := pass_dropped attempt server rest instances quiet clause
  have skipped : (server :: rest).dropWhile (silent attempt) = rest.dropWhile (silent attempt) := by
    apply List.dropWhile_cons_of_pos
    rw [silent, quiet]
    rfl
  unfold FailsOver
  rw [skipped]
  constructor
  · rintro ⟨n, first, tail, response, after, found, answers, returned, left⟩
    cases n with
    | zero => cases returned
    | succ n =>
        rw [passes, dropped] at returned
        exact ⟨n, first, tail, response, after, found, answers, returned, left⟩
  · rintro ⟨n, first, tail, response, after, found, answers, returned, left⟩
    refine ⟨n + 1, first, tail, response, after, found, answers, ?_, left⟩
    rw [passes, dropped]
    exact returned

/-- With a server that answers in the list, `send` fails over to the first such
server exactly if no server before it fails in a way that has no clause. -/
theorem send_fails_over (client : Client Address)
    (answering : ∃ server ∈ client.servers, (reply attempt server).isSome = true) :
    FailsOver attempt client ↔
      ∀ server ∈ client.servers.takeWhile (silent attempt), attempt server ≠ .failed := by
  obtain ⟨servers, instances⟩ := client
  induction servers generalizing instances with
  | nil =>
      obtain ⟨server, member, _⟩ := answering
      cases member
  | cons server rest ih =>
      cases answers : reply attempt server with
      | some response =>
          have talks : ¬ silent attempt server = true := by simp [silent, answers]
          rw [List.takeWhile_cons_of_neg talks]
          constructor
          · intro _ other member
            cases member
          · intro _
            refine ⟨1, server, rest, response, ⟨server :: rest, instances⟩, ?_, answers, ?_, rfl⟩
            · exact List.dropWhile_cons_of_neg talks
            · rw [passes, pass_answered attempt server rest instances response answers]
      | none =>
          have quiet : silent attempt server = true := by simp [silent, answers]
          rw [List.takeWhile_cons_of_pos quiet]
          by_cases failed : attempt server = .failed
          · constructor
            · rintro ⟨n, _, _, _, _, _, _, returned, _⟩
              rw [passes_stuck attempt n server rest instances failed] at returned
              cases returned
            · intro clauses
              exact absurd failed (clauses server List.mem_cons_self)
          · have later : ∃ other ∈ rest, (reply attempt other).isSome = true := by
              obtain ⟨other, member, talks⟩ := answering
              rcases List.mem_cons.mp member with rfl | member
              · rw [answers] at talks
                cases talks
              · exact ⟨other, member, talks⟩
            rw [failsOver_dropped attempt server rest instances answers failed,
              ih (instances - 1) later]
            constructor
            · intro clauses other member
              rcases List.mem_cons.mp member with rfl | member
              · exact failed
              · exact clauses other member
            · intro clauses other member
              exact clauses other (List.mem_cons_of_mem server member)

end Calls

section Examples

/-- The second server answers after one `alive`. -/
def secondAnswers (first : Attempt) (server : Bool) : Attempt :=
  if server then .connected ["alive".toList, "phone 5$".toList] else first

theorem send_fails_over_refused : FailsOver (secondAnswers .refused) ⟨[false, true], 2⟩ :=
  (send_fails_over (secondAnswers .refused) ⟨[false, true], 2⟩ ⟨true, by decide, by decide⟩).mpr
    (by decide)

-- A first server without a route to it keeps the client for good.
theorem send_never_returns : ¬ ∀ (attempt : Bool → Attempt) (client : Client Bool),
    (∃ server ∈ client.servers, (reply attempt server).isSome = true) → FailsOver attempt client := by
  intro claim
  obtain ⟨n, _, _, _, _, _, _, returned, _⟩ :=
    claim (secondAnswers .failed) ⟨[false, true], 2⟩ ⟨true, by decide, by decide⟩
  rw [passes_stuck (secondAnswers .failed) n false [true] 2 rfl] at returned
  cases returned

end Examples

/-! The same loop in the cluster, where a server may behave in another way every time. -/
section Cluster
open ServerCluster ClusterSteps ClusterWiring GuardedRuns

theorem nextReply_read (output : List Text) :
    nextReply output = readResponse (output.flatMap fun text => text.splitOnP lineBreak) := by
  unfold nextReply
  induction output.flatMap fun text => text.splitOnP lineBreak with
  | nil => rfl
  | cons line rest ih =>
      by_cases alive : line = "alive".toList
      · rw [List.find?_cons_of_neg (by simpa using alive), readResponse, if_pos alive, ih]
      · rw [List.find?_cons_of_pos (by simpa using alive), readResponse, if_neg alive]

/-- What the attempt of a call has met when it ends: no connection, a read that times out,
or what was printed. -/
def met (cluster : Cluster) (action : Action) (call : Call) : Attempt :=
  match call.progress, action with
  | .awaiting _, .timeout _ => .timedOut
  | .awaiting socket, _ =>
      .connected (((cluster.connections[socket]?).elim [] Connection.output).flatMap fun text =>
        text.splitOnP lineBreak)
  | _, _ => .refused

/-- In the middle of an attempt. -/
def underway : ServerCluster.Progress → Bool
  | .writing _ => true
  | .awaiting _ => true
  | _ => false

/-- A call that stands where a pass of the loop has ended. -/
def Ends (call : Call) : Progress Int → Prop
  | .again client => call.progress = .connecting ∧ call.servers = client.servers
  | .returned response client =>
      (∃ socket, call.progress = .returned socket response) ∧ call.servers = client.servers
  | .indexOutOfBounds => call.progress = .exhausted ∧ call.servers = []

/-- An attempt is made at the first server of the list. -/
def Listed (cluster : Cluster) : Prop :=
  ∀ call ∈ cluster.calls, underway call.progress = true → call.servers ≠ []

variable (config : ReplicatedServer.Config)

theorem listed_set (calls : List Call) (number : Nat) (call : Call)
    (listed : ∀ call ∈ calls, underway call.progress = true → call.servers ≠ [])
    (own : underway call.progress = true → call.servers ≠ []) :
    ∀ other ∈ calls.set number call, underway other.progress = true → other.servers ≠ [] := by
  intro other member
  rcases List.mem_or_eq_of_mem_set member with old | rfl
  · exact listed other old
  · exact own

theorem stepped_listed (before : Cluster) (action : Action) (after : Cluster) (listed : Listed before)
    (stepped : Stepped config before action after) : Listed after := by
  cases stepped with
  | submitted command servers valid known =>
      intro other member
      rcases List.mem_append.mp member with old | new
      · exact listed other old
      · obtain rfl := List.mem_singleton.mp new
        simp [underway]
  | connected number call server rest found connecting first up =>
      exact listed_set before.calls number _ listed (by simp [first])
  | wrote number call socket found writing =>
      have started := listed call (List.mem_of_getElem? found) (by simp [underway, writing])
      exact listed_set before.calls number _ listed fun _ => started
  | skipped number call server rest found connecting first down =>
      exact listed_set before.calls number _ listed (by simp [underway, connecting])
  | exhausted number call => exact listed_set before.calls number _ listed (by simp [underway])
  | returned number call => exact listed_set before.calls number _ listed (by simp [underway])
  | retried number call => exact listed_set before.calls number _ listed (by simp [underway])
  | timedOut number call => exact listed_set before.calls number _ listed (by simp [underway])
  | handled => exact listed
  | crashed => exact listed

variable (before : Cluster) (number : Nat) (call moved : Call)

theorem set_moved (found : before.calls[number]? = some call) {outcome : Call → Prop} (holds : outcome moved) :
    ∃ later, (before.calls.set number moved)[number]? = some later ∧ outcome later :=
  ⟨moved, List.getElem?_set_self (List.getElem?_eq_some_iff.mp found).1, holds⟩

/-- A step of a call goes on with its attempt, or ends it as a pass of the loop does. -/
theorem stepped_passes (action : Action) (after : Cluster) (listed : Listed before)
    (stepped : Stepped config before action after)
    (own : action = .client number ∨ action = .timeout number)
    (found : before.calls[number]? = some call) (instances : Int32) :
    ∃ moved, after.calls[number]? = some moved ∧
      (underway moved.progress = true ∧ moved.servers = call.servers ∨
        Ends moved (pass (fun _ => met before action call) ⟨call.servers, instances⟩)) := by
  have started := listed call (List.mem_of_getElem? found)
  cases stepped with
  | exhausted _ _ there connecting none =>
      simp only [Action.client.injEq, reduceCtorEq, or_false] at own
      subst own
      cases there.symm.trans found
      refine set_moved before _ call _ found (Or.inr ?_)
      simp [pass, none, Ends]
  | skipped _ _ server rest there connecting first down =>
      simp only [Action.client.injEq, reduceCtorEq, or_false] at own
      subst own
      cases there.symm.trans found
      refine set_moved before _ call _ found (Or.inr ?_)
      simp [pass, first, met, connecting, Ends, deprecateServer]
  | connected _ _ server rest there connecting first up =>
      simp only [Action.client.injEq, reduceCtorEq, or_false] at own
      subst own
      cases there.symm.trans found
      exact set_moved before _ call _ found (Or.inl ⟨rfl, rfl⟩)
  | wrote _ _ socket there writing =>
      simp only [Action.client.injEq, reduceCtorEq, or_false] at own
      subst own
      cases there.symm.trans found
      exact set_moved before _ call _ found (Or.inl ⟨rfl, rfl⟩)
  | returned _ _ socket target response there awaiting reached reply =>
      simp only [Action.client.injEq, reduceCtorEq, or_false] at own
      subst own
      cases there.symm.trans found
      obtain ⟨server, rest, first⟩ := List.exists_cons_of_ne_nil (started (by simp [underway, awaiting]))
      rw [nextReply_read] at reply
      refine set_moved before _ call _ found (Or.inr ?_)
      simp [pass, first, met, awaiting, reached, reply, Ends]
  | retried _ _ socket target there awaiting reached silent dead =>
      simp only [Action.client.injEq, reduceCtorEq, or_false] at own
      subst own
      cases there.symm.trans found
      obtain ⟨server, rest, first⟩ := List.exists_cons_of_ne_nil (started (by simp [underway, awaiting]))
      rw [nextReply_read] at silent
      refine set_moved before _ call _ found (Or.inr ?_)
      simp [pass, first, met, awaiting, reached, silent, Ends, deprecateServer]
  | timedOut _ _ socket target there awaiting reached silent =>
      simp only [Action.timeout.injEq, reduceCtorEq, false_or] at own
      subst own
      cases there.symm.trans found
      obtain ⟨server, rest, first⟩ := List.exists_cons_of_ne_nil (started (by simp [underway, awaiting]))
      refine set_moved before _ call _ found (Or.inr ?_)
      simp [pass, first, met, awaiting, Ends, deprecateServer]
  | submitted => simp at own
  | handled => simp at own
  | crashed => simp at own

/-- In every run, whatever crashes or times out in it, a call of `Client.send` goes through the
passes of the loop, at the first server of what is left of its list. -/
theorem calls_pass (reached : Reachable (step config) (fun _ _ => True) (initial config) before)
    (action : Action) (after : Cluster) (taken : step config before action = some after)
    (own : action = .client number ∨ action = .timeout number)
    (found : before.calls[number]? = some call) (instances : Int32) :
    ∃ moved, after.calls[number]? = some moved ∧
      (underway moved.progress = true ∧ moved.servers = call.servers ∨
        Ends moved (pass (fun _ => met before action call) ⟨call.servers, instances⟩)) := by
  have held : Wired config before ∧ Listed before := by
    refine reachable_invariant (fun cluster => Wired config cluster ∧ Listed cluster)
      ⟨initial_wired config, by simp [Listed, initial]⟩ (fun old action new both _ taken => ?_) reached
    exact ⟨step_wired config old new action both.1 taken, stepped_listed config old action new both.2
      (step_stepped config old new action (wired_readable config old both.1) taken)⟩
  exact stepped_passes config before number call action after held.2
    (step_stepped config before after action (wired_readable config before held.1) taken) own found instances

end Cluster

end EE360P.ClientFailover
