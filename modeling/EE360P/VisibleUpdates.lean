import EE360P.CarriedCommands
import EE360P.ObservedCluster
import EE360P.ReplicaAgreement
import EE360P.SubmittedOnce

/-! What a server's store reflects when it starts a command. A server sends its
`Release` only after every peer has answered the `Update`, but a peer answers
before it carries the `Update` out, and on another connection. -/

namespace EE360P.VisibleUpdates
open JavaText ReplicatedServer ServerCluster ProtocolLines ClusterSteps ClusterWiring CommandTokens
open SectionExclusion ReliableDelivery RequestRounds ObservedCluster CarriedCommands GuardedRuns
open ReplicaAgreement (executed apply executed_result executed_thrown)
open SubmittedOnce (owes purposeOwes)

section Stores
variable (config : Config)

/-- The text with which `execute` was called. -/
def passed (execution : Execution) : Text :=
  if execution.own then execution.client.clientCommand else cut execution.client.clientCommand

/-- The calls of `execute` that a server's store is made of. -/
def ranAt (history : List Execution) (me : Int) : List Execution :=
  history.filter fun execution => execution.server == me && (!execution.own || execution.succeeded)

def storeOf (history : List Execution) (me : Int) : OnlineStore.Store :=
  ((ranAt history me).map passed).foldl (executed config) (OnlineStore.initial config.inventory)

/-- The store is made of the calls of `execute` at this server, and one of them
does to any store what this command does to it. -/
def Reflects (cluster : Cluster) (me : Int) (client : ClientInformation) : Prop :=
  (cluster.server me).store = storeOf config cluster.history me ∧
    (changes config.counting client.clientCommand = true →
      ∃ execution ∈ ranAt cluster.history me, execution.client = client ∧
        ∀ store, executed config store (passed execution) = apply config store client)

theorem storeOf_append (before more : List Execution) (me : Int) :
    storeOf config (before ++ more) me =
      ((ranAt more me).map passed).foldl (executed config) (storeOf config before me) := by
  simp [storeOf, ranAt, List.foldl_append]

variable (before : Cluster) (number : Nat) (connection : Connection) (flow : Flow)

theorem executed_here (moved : Moved config before number connection flow) (execution : Execution)
    (member : execution ∈ (flow.finish config connection.server).executed) :
    execution.server = connection.server := by
  cases moved_executes config before number connection flow moved with
  | nothing idle same =>
      rw [idle] at member
      cases member
  | thrown client thrown enters ran same =>
      rw [ran, List.mem_singleton] at member
      rw [member]
  | served client response enters ran next result =>
      rw [ran, List.mem_singleton] at member
      rw [member]
  | refused logicalClock serverID client thrown handling message ran result same =>
      rw [ran, List.mem_singleton] at member
      rw [member]
  | carried logicalClock serverID client response handling message ran result =>
      rw [ran, List.mem_singleton] at member
      rw [member]

theorem handled_stored (moved : Moved config before number connection flow)
    (stored : ∀ me, (before.server me).store = storeOf config before.history me) (me : Int) :
    ((before.after number connection.server (flow.finish config connection.server)).server me).store =
      storeOf config (before.history ++ (flow.finish config connection.server).executed) me := by
  rw [storeOf_append, ← stored me]
  by_cases here : me = connection.server
  · subst here
    rw [after_self]
    cases moved_executes config before number connection flow moved with
    | nothing idle same =>
        rw [idle]
        exact same
    | thrown client thrown enters ran same =>
        have none : ranAt [⟨connection.server, client, true, .error thrown⟩] connection.server =
            [] := by
          simp [ranAt, Execution.succeeded, Except.toBool]
        rw [ran, none]
        exact same
    | served client response enters ran next result =>
        have one : ranAt [⟨connection.server, client, true, .ok response⟩] connection.server =
            [⟨connection.server, client, true, .ok response⟩] := by
          simp [ranAt, Execution.succeeded, Except.toBool]
        rw [ran, one]
        exact (executed_result config _ _ _ _ result).symm
    | refused logicalClock serverID client thrown handling message ran result same =>
        have one : ranAt [⟨connection.server, client, false, .error thrown⟩] connection.server =
            [⟨connection.server, client, false, .error thrown⟩] := by
          simp [ranAt]
        rw [ran, one]
        exact same.trans (executed_thrown config _ _ _ result).symm
    | carried logicalClock serverID client response handling message ran result =>
        have one : ranAt [⟨connection.server, client, false, .ok response⟩] connection.server =
            [⟨connection.server, client, false, .ok response⟩] := by
          simp [ranAt]
        rw [ran, one]
        exact (executed_result config _ _ _ _ result).symm
  · rw [after_others _ _ _ _ _ here]
    have none : ranAt (flow.finish config connection.server).executed me = [] := by
      refine List.filter_eq_nil_iff.mpr fun execution member hit => ?_
      simp only [Bool.and_eq_true, beq_iff_eq] at hit
      have elsewhere := executed_here config before number connection flow moved execution member
      exact here (hit.1.symm.trans elsewhere)
    rw [none]
    rfl

end Stores

/-! One handler at a time works for a command that was run. -/
section Owners
variable (config : Config) (me : Int)

theorem loop_owner (server : Server) (sending : Sending) (ended : ServerTask)
    (client : ClientInformation) (owed : owes (sendLoop me server sending ended) = some client) :
    purposeOwes sending.purpose = some client ∨ owes ended = some client := by
  unfold sendLoop at owed
  split at owed
  · exact Or.inl owed
  · exact Or.inr owed

theorem release_owner (server : Server) (owner : ClientInformation) (response : Text)
    (client : ClientInformation)
    (owed : owes (releaseCriticalSection config me server owner response) = some client) :
    owner = client := by
  rcases loop_owner me server _ _ client owed with loop | ended
  · exact Option.some.inj loop
  · exact Option.some.inj ended

theorem check_owner (server : Server) (client : ClientInformation)
    (owed : owes (checkCriticalSection config me server).task = some client) :
    entered me (.checking server) = some client := by
  have checked := check_checked config me server
  generalize checkCriticalSection config me server = outcome at checked owed
  cases checked with
  | behind larger => cases owed
  | idle smallest empty => cases owed
  | thrown owner rest thrown smallest waiting failed => cases owed
  | served owner rest response store smallest waiting result =>
      have enters := entered_polled me server owner rest smallest waiting
      rcases loop_owner me _ _ _ client owed with loop | ended
      · exact enters.trans loop
      · exact enters.trans (congrArg some (release_owner config me _ owner _ client ended))

theorem resume_owner (server : Server) (sending : Sending) (client : ClientInformation)
    (owed : owes ((resume config me server sending).finish config me).task = some client) :
    purposeOwes sending.purpose = some client ∨
      entered me (resume config me server sending) = some client := by
  have resumed := resume_resumed config me server sending
  generalize resume config me server sending = flow at resumed owed ⊢
  cases resumed with
  | next peer rest next => exact Or.inl owed
  | requested ended entering => exact Or.inr (check_owner config me server client owed)
  | updated owner response ended updating =>
      rw [updating]
      exact Or.inl (congrArg some (release_owner config me server owner response client owed))
  | released owner response ended leaving =>
      rw [leaving]
      exact Or.inl owed

variable (cluster : Cluster) (number : Nat) (connection : Connection) (flow : Flow)

/-- A handler works for the command it worked for, or for the one it just ran. -/
theorem moved_owner (moved : Moved config cluster number connection flow)
    (client : ClientInformation)
    (owed : owes (flow.finish config connection.server).task = some client) :
    owes connection.task = some client ∨ entered connection.server flow = some client := by
  cases moved with
  | queued command reading message empty =>
      rcases resume_owner config connection.server _ _ client owed with purpose | enters
      · cases purpose
      · exact Or.inr enters
  | released logicalClock serverID handling message =>
      exact Or.inr (check_owner config connection.server _ client owed)
  | updated logicalClock serverID owner handling message =>
      simp only [applyUpdate, Flow.finish] at owed
      split at owed
      · cases owed
      · cases owed
  | unreachable sending peer connecting down =>
      rw [connecting]
      exact resume_owner config connection.server _ sending client owed
  | connected sending peer connecting up =>
      rw [connecting]
      exact Or.inl owed
  | wrote sending peer socket writing =>
      rw [writing]
      exact Or.inl owed
  | heard sending peer socket target awaiting reached reply =>
      rw [awaiting]
      exact resume_owner config connection.server _ sending client owed
  | lost sending peer socket target awaiting reached silent dead =>
      rw [awaiting]
      exact resume_owner config connection.server _ sending client owed
  | _ => cases owed

theorem purpose_won (history : List Execution) (message : Line) (purpose : Purpose)
    (sound : PurposeSound history me message purpose) (client : ClientInformation)
    (owed : purposeOwes purpose = some client) : ∃ response, Won history me client response := by
  cases purpose with
  | entering => cases owed
  | updating other response =>
      cases owed
      exact ⟨response, sound.1⟩
  | leaving other response =>
      cases owed
      exact ⟨response, sound.1⟩

theorem owes_won (history : List Execution) (task : ServerTask)
    (sound : TaskSound config history me task) (client : ClientInformation)
    (owed : owes task = some client) : ∃ response, Won history me client response := by
  cases task with
  | connecting sending peer => exact purpose_won me history _ _ sound.1.purpose client owed
  | writing sending peer socket => exact purpose_won me history _ _ sound.1.purpose client owed
  | awaiting sending peer socket => exact purpose_won me history _ _ sound.1.purpose client owed
  | replying other response =>
      cases owed
      exact ⟨response, sound⟩
  | _ => cases owed

theorem section_owes (task : ServerTask) (client : ClientInformation)
    (within : taskSection task = some client) : owes task = some client := by
  have loop : ∀ purpose, purposeSection purpose = some client → purposeOwes purpose = some client := by
    intro purpose inside
    cases purpose with
    | updating other response => exact inside
    | _ => cases inside
  cases task with
  | connecting sending peer => exact loop _ within
  | writing sending peer socket => exact loop _ within
  | awaiting sending peer socket => exact loop _ within
  | _ => cases within

/-- What is run now was not run before. -/
theorem entered_unwon (delivered : Delivered config cluster)
    (found : cluster.connections[number]? = some connection)
    (moved : Moved config cluster number connection flow) (client : ClientInformation)
    (enters : entered connection.server flow = some client) (owner : Int)
    (other : ClientInformation) (response : Text) (won : Won cluster.history owner other response) :
    other.clientSocket ≠ client.clientSocket := by
  intro same
  have known := (delivered.wired.connections number connection found).known
  have told := delivered.told owner other response won connection.server known
  have bound := delivered.once client.clientSocket connection.server
  have admits := entered_admitted connection.server flow client enters
  have held := handled_unrun config client.clientSocket cluster number connection flow
    delivered.wired found moved
  rw [same] at told
  omega

end Owners

section Laws
variable (config : Config)

def updateOf : Line → Option ClientInformation
  | .update _ _ client => some client
  | _ => none

/-- What changes a store was carried to this server whole, and no handler here
stands before the `execute` of its `Update`. -/
def CaughtUp (cluster : Cluster) (me : Int) (client : ClientInformation) : Prop :=
  changes config.counting client.clientCommand = true → Colonless client.clientCommand ∧
    ∀ connection ∈ cluster.connections, connection.server = me →
      updateOf connection.message = some client → unapplied connection.task = false

instance (cluster : Cluster) (me : Int) (client : ClientInformation) :
    Decidable (CaughtUp config cluster me client) :=
  inferInstanceAs (Decidable (_ → _ ∧ ∀ _ ∈ _, _ → _ → _))

/-- A check passes with a command only when the server has caught up with every
command whose `Release` it has handled. -/
def Settled (both : Cluster × Notes) : Action → Prop
  | .submit _ _ => True
  | .client _ => True
  | .timeout _ => True
  | .server number => ∀ connection ∈ both.1.connections[number]?,
      ∀ flow ∈ advance config both.1 number connection,
        (entered connection.server flow).isSome = true →
          ∀ note ∈ (noted both.1 number connection both.2).releasesHandled,
            note.1 = connection.server → CaughtUp config both.1 connection.server note.2
  | .crash _ => False

instance (both : Cluster × Notes) : ∀ action, Decidable (Settled config both action)
  | .submit _ _ => isTrue trivial
  | .client _ => isTrue trivial
  | .timeout _ => isTrue trivial
  | .server _ => inferInstanceAs (Decidable (∀ _ ∈ _, ∀ _ ∈ _, _ → ∀ _ ∈ _, _ → _))
  | .crash _ => isFalse id

structure Visible (cluster : Cluster) (notes : Notes) : Prop where
  delivered : Delivered config cluster
  tagged : Tagged cluster notes
  stored : ∀ me, (cluster.server me).store = storeOf config cluster.history me
  performed : ∀ me client response, Won cluster.history me client response → ∃ store after,
    OnlineStore.execute4 config.counting client.clientCommand store = .ok (response, after)
  sole : ∀ (n m : Nat) (first second : Connection) (left right : ClientInformation),
    cluster.connections[n]? = some first → cluster.connections[m]? = some second →
      owes first.task = some left → owes second.task = some right →
        left.clientSocket = right.clientSocket → n = m
  left : ∀ (n m : Nat) (connection : Connection) (client : ClientInformation) (response : Text)
    (other : ClientInformation), notes.purposes n = some (.leaving client response) →
      cluster.connections[m]? = some connection → taskSection connection.task = some other →
        other.clientSocket ≠ client.clientSocket
  handled : ∀ me client, (me, client) ∈ notes.releasesHandled →
    me ∈ config.serverIDs ∧ ∃ n response, notes.purposes n = some (.leaving client response)

theorem start_visible : Visible config (start config).1 (start config).2 := by
  constructor
  · exact initial_delivered config
  · exact start_tagged config
  · intro me
    rfl
  · intro me client response won
    cases won
  · intro n m first second left right found
    cases found
  · intro n m connection client response other opening
    cases opening
  · intro me client member
    cases member

variable {config}

/-- A connection for a `Release` was opened by a server that ran the command. -/
theorem leaving_won {cluster : Cluster} {notes : Notes} (tagged : Tagged cluster notes) (n : Nat)
    (client : ClientInformation) (response : Text)
    (opening : notes.purposes n = some (.leaving client response)) :
    ∃ me, Won cluster.history me client response := by
  have inside : n < cluster.connections.length := by
    by_contra beyond
    rw [tagged.unopened n (by omega)] at opening
    cases opening
  obtain ⟨me, _, sound⟩ :=
    tagged.served n _ _ (List.getElem?_eq_getElem inside) opening
  exact ⟨me, sound.1⟩

end Laws

section Steps
variable (config : Config) {before : Cluster} {notes : Notes} (visible : Visible config before notes)
  (number : Nat) (connection : Connection) (flow : Flow)
  (found : before.connections[number]? = some connection)
  (moved : Moved config before number connection flow)

include moved in
theorem connecting_unentered (sending : Sending) (peer : Int)
    (connecting : connection.task = .connecting sending peer) (up : peer ∉ before.crashed) :
    entered connection.server flow = none := by
  have opening := moved_connecting config number connection flow moved sending peer connecting up
  cases flow with
  | done outcome => rfl
  | checking server =>
      rw [Flow.finish, (check_ending config connection.server server).2] at opening
      cases opening

include visible found moved

theorem handled_sole (n m : Nat) (first second : Connection) (left right : ClientInformation)
    (here : (before.after number connection.server
      (flow.finish config connection.server)).connections[n]? = some first)
    (there : (before.after number connection.server
      (flow.finish config connection.server)).connections[m]? = some second)
    (owed : owes first.task = some left) (also : owes second.task = some right)
    (same : left.clientSocket = right.clientSocket) : n = m := by
  have sides : ∀ (k : Nat) (later : Connection) (client : ClientInformation),
      (before.after number connection.server
        (flow.finish config connection.server)).connections[k]? = some later →
      owes later.task = some client →
        (∃ old, before.connections[k]? = some old ∧ owes old.task = some client) ∨
          (k = number ∧ entered connection.server flow = some client) := by
    intro k later client present owing
    rcases (after_found _ _ _ _ _ _).mp present with ⟨old, was, rfl⟩ | ⟨_, _, _, _, rfl⟩
    · rw [touched_task] at owing
      by_cases own : k = number
      · subst own
        rw [was, Option.some.injEq] at found
        subst found
        rw [if_pos rfl] at owing
        rcases moved_owner config before k old flow moved client owing with kept | enters
        · exact Or.inl ⟨old, was, kept⟩
        · exact Or.inr ⟨rfl, enters⟩
      · rw [if_neg own] at owing
        exact Or.inl ⟨old, was, owing⟩
    · cases owing
  have unwon : ∀ (k : Nat) (old : Connection) (client entering : ClientInformation),
      before.connections[k]? = some old → owes old.task = some client →
        entered connection.server flow = some entering →
          client.clientSocket ≠ entering.clientSocket := by
    intro k old client entering was owing enters
    obtain ⟨response, won⟩ := owes_won config old.server before.history old.task
      (visible.delivered.wired.connections k old was).task client owing
    exact entered_unwon config before number connection flow visible.delivered found moved entering
      enters old.server client response won
  rcases sides n first left here owed with ⟨old, was, kept⟩ | ⟨own, enters⟩
  · rcases sides m second right there also with ⟨other, were, still⟩ | ⟨_, enters⟩
    · exact visible.sole n m old other left right was were kept still same
    · exact absurd same (unwon n old left right was kept enters)
  · rcases sides m second right there also with ⟨other, were, still⟩ | ⟨mine, _⟩
    · exact absurd same.symm (unwon m other right left were still enters)
    · exact own.trans mine.symm

theorem handled_left (n m : Nat) (later : Connection) (client : ClientInformation)
    (response : Text) (other : ClientInformation)
    (opening : (noted before number connection notes).purposes n = some (.leaving client response))
    (present : (before.after number connection.server
      (flow.finish config connection.server)).connections[m]? = some later)
    (within : taskSection later.task = some other) :
    other.clientSocket ≠ client.clientSocket := by
  rcases (after_found _ _ _ _ _ _).mp present with ⟨old, there, rfl⟩ | ⟨_, _, _, _, rfl⟩
  · rw [touched_task] at within
    rcases noted_purposes before number connection notes n _ opening with
      earlier | ⟨_, sending, peer, connecting, up, purpose⟩
    · by_cases own : m = number
      · subst own
        rw [there, Option.some.injEq] at found
        subst found
        rw [if_pos rfl] at within
        rcases moved_section config before m old flow moved other within with was | enters
        · exact visible.left n m old client response other earlier there was
        · obtain ⟨me, won⟩ := leaving_won visible.tagged n client response earlier
          exact (entered_unwon config before m old flow visible.delivered there moved other enters
            me client response won).symm
      · rw [if_neg own] at within
        exact visible.left n m old client response other earlier there within
    · have owed : owes connection.task = some client := by
        rw [connecting, owes, ← purpose]
        rfl
      by_cases own : m = number
      · subst own
        rw [there, Option.some.injEq] at found
        subst found
        rw [if_pos rfl] at within
        rcases moved_section config before m old flow moved other within with was | enters
        · rw [connecting, taskSection, ← purpose] at was
          cases was
        · rw [connecting_unentered config m old flow moved sending peer connecting up] at enters
          cases enters
      · rw [if_neg own] at within
        exact fun same => own (visible.sole m number old connection other client there found
          (section_owes old.task other within) owed same)
  · cases within

omit moved in
theorem handled_leaving (me : Int) (client : ClientInformation)
    (member : (me, client) ∈ (noted before number connection notes).releasesHandled) :
    me ∈ config.serverIDs ∧ ∃ n response, notes.purposes n = some (.leaving client response) := by
  rw [noted_handled] at member
  rcases List.mem_append.mp member with old | new
  · exact visible.handled me client old
  · split at new
    · obtain ⟨other, about, same⟩ := Option.map_eq_some_iff.mp (Option.mem_toList.mp new)
      cases same
      obtain ⟨purpose, opening, left⟩ := Option.bind_eq_some_iff.mp about
      refine ⟨(visible.delivered.wired.connections number connection found).known, number, ?_⟩
      cases purpose with
      | leaving owner response =>
          cases left
          exact ⟨response, opening⟩
      | _ => cases left
    · cases new

omit found in
theorem handled_performed (me : Int) (client : ClientInformation) (response : Text)
    (won : Won (before.after number connection.server
      (flow.finish config connection.server)).history me client response) : ∃ store after,
    OnlineStore.execute4 config.counting client.clientCommand store = .ok (response, after) := by
  rcases List.mem_append.mp won with old | new
  · exact visible.performed me client response old
  · cases moved_executes config before number connection flow moved with
    | nothing idle same => simp [idle] at new
    | thrown other thrown enters ran same => simp [ran] at new
    | served other answer enters ran next result =>
        simp only [ran, List.mem_singleton, Execution.mk.injEq, true_and] at new
        obtain ⟨rfl, rfl, answers⟩ := new
        cases answers
        exact ⟨_, _, result⟩
    | refused logicalClock serverID other thrown handling message ran result same =>
        simp [ran] at new
    | carried logicalClock serverID other answer handling message ran result => simp [ran] at new

end Steps

section Runs
variable (config : Config)

/-- A step without a crash keeps the updates in order. -/
theorem step_visible (before : Cluster × Notes) (action : Action) (after : Cluster × Notes)
    (visible : Visible config before.1 before.2) (up : crashFree action = true)
    (taken : observe config before action = some after) : Visible config after.1 after.2 := by
  have wired := visible.delivered.wired
  obtain ⟨stepping, watched⟩ := observed_taken (step config) watch before after action taken
  have delivered := step_delivered config before.1 action after.1 visible.delivered up stepping
  have tagged := step_tagged config before after action wired visible.tagged taken
  have stepped := step_stepped config before.1 after.1 action (wired_readable config before.1 wired)
    stepping
  by_cases outside : ∀ number, action ≠ .server number
  · obtain ⟨servers, history⟩ := outside_same config before.1 after.1 action stepped outside
    have old := outside_task config before.1 after.1 action stepped outside
    rw [watch_outside before.1 action before.2 outside] at watched
    rw [watched] at tagged ⊢
    constructor
    · exact delivered
    · exact tagged
    · rw [servers, history]
      exact visible.stored
    · rw [history]
      exact visible.performed
    · intro n m first second left right here there owed also same
      obtain reading | ⟨one, was, task⟩ := old n first here
      · rw [reading] at owed
        cases owed
      · obtain reading | ⟨two, were, tasks⟩ := old m second there
        · rw [reading] at also
          cases also
        · rw [← task] at owed
          rw [← tasks] at also
          exact visible.sole n m one two left right was were owed also same
    · intro n m later client response other opening present within
      obtain reading | ⟨earlier, was, task⟩ := old m later present
      · rw [reading] at within
        cases within
      · rw [← task] at within
        exact visible.left n m earlier client response other opening was within
    · exact visible.handled
  · obtain ⟨cluster, notes⟩ := after
    cases stepped with
    | handled number connection flow found alive advanced moved =>
        rw [watch_handled before.1 number connection before.2 found] at watched
        subst watched
        constructor
        · exact delivered
        · exact tagged
        · exact handled_stored config before.1 number connection flow moved visible.stored
        · exact handled_performed config visible number connection flow moved
        · exact handled_sole config visible number connection flow found moved
        · exact handled_left config visible number connection flow found moved
        · intro me client member
          obtain ⟨known, n, response, opening⟩ :=
            handled_leaving config visible number connection found me client member
          have inside : n < before.1.connections.length := by
            by_contra beyond
            rw [visible.tagged.unopened n (by omega)] at opening
            cases opening
          exact ⟨known, n, response,
            (purposes_kept before.1 number connection before.2 n inside).trans opening⟩
    | _ => simp at outside

/-- Nothing of a released command is on its way to a server that has caught up. -/
theorem caught_up_spent (cluster : Cluster) (notes : Notes) (visible : Visible config cluster notes)
    (me owner : Int) (client : ClientInformation) (response answer : Text) (n : Nat)
    (opening : notes.purposes n = some (.leaving client response))
    (won : Won cluster.history owner client answer)
    (applied : ∀ connection ∈ cluster.connections, connection.server = me →
      updateOf connection.message = some client → unapplied connection.task = false) :
    (cluster.connections.map (connectionTokens client.clientSocket me)).sum = 0 := by
  apply List.sum_eq_zero
  intro tokens member
  obtain ⟨connection, inside, rfl⟩ := List.mem_map.mp member
  obtain ⟨m, found⟩ := List.mem_iff_getElem?.mp inside
  have line : lineTokens client.clientSocket me connection.server connection.task
      connection.message = 0 := by
    cases message : connection.message with
    | update logicalClock serverID other =>
        refine if_neg fun hit => ?_
        obtain ⟨command, same, _⟩ | messaging :=
          (visible.delivered.wired.connections m connection found).line
        · exact absurd (same.symm.trans message) nofun
        · have sound := messaging.message
          rw [message] at sound
          obtain ⟨_, _, _, reply, ran⟩ := sound
          have equal := won_unique config cluster visible.delivered.wired visible.delivered.once _ _
            other client reply answer ran won hit.1
          have past := applied connection inside hit.2.1 (by rw [message, updateOf, equal])
          rw [past] at hit
          exact absurd hit.2.2 nofun
    | _ => rfl
  have loop : ∀ targets purpose, purposeSection purpose = taskSection connection.task →
      loopTokens client.clientSocket me connection.server targets purpose = 0 := by
    intro targets purpose standing
    refine loop_known client.clientSocket me connection.server targets purpose
      fun other reply updating => ?_
    rw [updating] at standing
    exact visible.left n m connection client response other opening found standing.symm
  have task : taskTokens client.clientSocket me connection.server connection.task = 0 := by
    cases standing : connection.task with
    | connecting sending peer => exact loop _ _ (by rw [standing]; rfl)
    | writing sending peer socket => exact loop _ _ (by rw [standing]; rfl)
    | awaiting sending peer socket => exact loop _ _ (by rw [standing]; rfl)
    | _ => rfl
  rw [connectionTokens, line, task, Nat.add_zero]

/-- In a run without a crash, when a server starts a command in a settled step,
its store reflects every command whose `Release` it has handled. -/
theorem updates_visible (config : Config) (before after : Cluster × Notes) (action : Action)
    (reached : Reachable (observe config) (fun _ action => crashFree action = true) (start config)
      before) (settled : Settled config before action)
    (taken : observe config before action = some after) (execution : Execution)
    (ran : execution ∈ after.1.history.drop before.1.history.length)
    (own : execution.own = true) (client : ClientInformation)
    (handled : (execution.server, client) ∈ after.2.releasesHandled) :
    Reflects config before.1 execution.server client := by
  have visible := reachable_invariant (fun both => Visible config both.1 both.2)
    (start_visible config) (step_visible config) reached
  have wired := visible.delivered.wired
  obtain ⟨stepping, watched⟩ := observed_taken (step config) watch before after action taken
  have stepped := step_stepped config before.1 after.1 action (wired_readable config before.1 wired)
    stepping
  refine ⟨visible.stored execution.server, fun changing => ?_⟩
  by_cases outside : ∀ number, action ≠ .server number
  · have same := (outside_same config before.1 after.1 action stepped outside).2
    rw [same, List.drop_length] at ran
    cases ran
  · obtain ⟨cluster, notes⟩ := after
    cases stepped with
    | handled number connection flow found alive advanced moved =>
        rw [watch_handled before.1 number connection before.2 found] at watched
        subst watched
        have mine : execution ∈ (flow.finish config connection.server).executed := by
          change execution ∈ (before.1.history ++ _).drop before.1.history.length at ran
          rwa [List.drop_left] at ran
        obtain ⟨here, enters⟩ := moved_executed config before.1 number connection flow moved
          execution own mine
        rw [here] at handled ⊢
        have caught := settled connection (Option.mem_def.mpr found) flow
          (Option.mem_def.mpr advanced) (by rw [enters]; rfl) _ handled rfl
        obtain ⟨colonless, applied⟩ := caught changing
        obtain ⟨known, n, response, opening⟩ :=
          handled_leaving config visible number connection found connection.server client handled
        obtain ⟨owner, won⟩ := leaving_won visible.tagged n client response opening
        obtain ⟨earlier, performed, server, same, succeeded⟩ := spent_run config before.1
          visible.delivered owner client response won connection.server known
          (caught_up_spent config before.1 before.2 visible connection.server owner client response
            response n opening won applied)
        refine ⟨earlier, List.mem_filter.mpr ⟨performed, ?_⟩, same, fun store => ?_⟩
        · cases mine : earlier.own with
          | false => simp [server]
          | true => simp [server, succeeded mine]
        · unfold passed
          split
          · rw [same]
            rfl
          · rw [same]
            obtain ⟨was, became, result⟩ := visible.performed owner client response won
            have submitted := wired.history _ won
            rw [ExecutionSound, if_pos rfl] at submitted
            exact serve_cut config.counting _ client.clientCommand response was became
              (submitted_valid config before.1 wired _ client submitted) result
              (fun _ => colonless) store
    | _ => simp at outside

end Runs

section Examples

-- Server 1 buys a phone. Server 2 carries the `Update` out, handles the
-- `Release`, and then lists what is left.
def purchaseThenList : List Action :=
  [.submit "purchase ann phone 2".toList [1], .client 0, .client 0, .server 0, .server 0,
    .server 0, .server 1, .server 1, .server 1, .server 0, .server 0, .server 0, .server 2,
    .server 2, .server 2, .server 0, .server 0, .server 0, .server 3, .server 3, .server 3,
    .submit "list".toList [2], .client 1, .client 1, .server 4, .server 4, .server 4, .server 5,
    .server 5]

-- The same, but the handler of the `Update` is still before its `execute`.
def updateOvertaken : List Action :=
  [.submit "purchase ann phone 2".toList [1], .client 0, .client 0, .server 0, .server 0,
    .server 0, .server 1, .server 1, .server 1, .server 0, .server 0, .server 0, .server 2,
    .server 2, .server 0, .server 0, .server 0, .server 3, .server 3, .server 3,
    .submit "list".toList [2], .client 1, .client 1, .server 4, .server 4, .server 4, .server 5,
    .server 5]

theorem updates_visible_list : ∃ before after client,
    replay (observe twoServers) (fun _ action => crashFree action = true) (start twoServers)
        purchaseThenList = some before ∧
      observe twoServers before (.server 4) = some after ∧
      (2, client) ∈ after.2.releasesHandled ∧ Reflects twoServers before.1 2 client := by
  have starts : ((replay (observe twoServers) (fun _ action => crashFree action = true)
      (start twoServers) purchaseThenList).any fun before =>
        decide (Settled twoServers before (.server 4)) &&
          (observe twoServers before (.server 4)).any fun after =>
            (after.1.history.drop before.1.history.length).any (fun execution =>
              execution.own && execution.server == 2) &&
            after.2.releasesHandled.any fun note => note.1 == 2) = true := by
    decide +kernel
  obtain ⟨before, played, both⟩ := (Option.any_eq_true _ _).mp starts
  obtain ⟨settled, next⟩ := Bool.and_eq_true_iff.mp both
  obtain ⟨after, taken, rest⟩ := (Option.any_eq_true _ _).mp next
  obtain ⟨runs, handles⟩ := Bool.and_eq_true_iff.mp rest
  obtain ⟨execution, ran, mine⟩ := List.any_eq_true.mp runs
  obtain ⟨own, here⟩ := Bool.and_eq_true_iff.mp mine
  obtain ⟨⟨peer, client⟩, handled, there⟩ := List.any_eq_true.mp handles
  have server : execution.server = 2 := beq_iff_eq.mp here
  have same : peer = 2 := beq_iff_eq.mp there
  subst same
  exact ⟨before, after, client, played, taken, handled, server ▸ updates_visible twoServers before
    after (.server 4) (replayed _ _ played) (of_decide_eq_true settled) taken execution ran own client
    (server ▸ handled)⟩

theorem update_overtaken : ¬ ∀ before after action execution client,
    Reachable (observe twoServers) (fun _ action => crashFree action = true) (start twoServers)
      before →
    observe twoServers before action = some after →
    execution ∈ after.1.history.drop before.1.history.length → execution.own = true →
    (execution.server, client) ∈ after.2.releasesHandled →
      Reflects twoServers before.1 execution.server client := by
  intro visible
  have early : ((replay (observe twoServers) (fun _ action => crashFree action = true)
      (start twoServers) updateOvertaken).any fun before =>
        (observe twoServers before (.server 4)).any fun after =>
          (after.1.history.drop before.1.history.length).any (fun execution =>
            execution.own && execution.server == 2) &&
          after.2.releasesHandled.any fun note => note.1 == 2 &&
            (changes .int32 note.2.clientCommand &&
              (ranAt before.1.history 2).all fun execution => execution.client != note.2)) = true := by
    decide +kernel
  obtain ⟨before, played, next⟩ := (Option.any_eq_true _ _).mp early
  obtain ⟨after, taken, rest⟩ := (Option.any_eq_true _ _).mp next
  obtain ⟨runs, handles⟩ := Bool.and_eq_true_iff.mp rest
  obtain ⟨execution, ran, mine⟩ := List.any_eq_true.mp runs
  obtain ⟨own, here⟩ := Bool.and_eq_true_iff.mp mine
  obtain ⟨⟨peer, client⟩, handled, missing⟩ := List.any_eq_true.mp handles
  obtain ⟨there, lacks⟩ := Bool.and_eq_true_iff.mp missing
  obtain ⟨changing, absent⟩ := Bool.and_eq_true_iff.mp lacks
  have server : execution.server = 2 := beq_iff_eq.mp here
  have same : peer = 2 := beq_iff_eq.mp there
  subst same
  have reflects := visible before after (.server 4) execution client (replayed _ _ played) taken ran
    own (server ▸ handled)
  rw [server] at reflects
  obtain ⟨earlier, performed, equal, _⟩ := reflects.2 changing
  exact bne_iff_ne.mp (List.all_eq_true.mp absent earlier performed) equal

end Examples

end EE360P.VisibleUpdates
