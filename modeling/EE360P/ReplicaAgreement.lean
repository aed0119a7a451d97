import EE360P.SequencedReplicas
import EE360P.CarriedCommands
import EE360P.ReliableDelivery

/-! When all servers hold the same store once every handler has ended. The
purchases and cancels have the order in which their own servers ran them; every
server has to run them in this order, and an `Update` line has to carry all of
the command that its reader needs. That no server is left out is no condition:
it is `delivered_everywhere`. -/

namespace EE360P.ReplicaAgreement
open JavaText ReplicatedServer ServerCluster ClusterSteps ClusterWiring CommandTokens GuardedRuns
open ProtocolLines SequencedReplicas CarriedCommands ReliableDelivery StockBalance
open OnlineStore (Store)
open SectionExclusion (twoServers crashFree entered flowServer moved_executes entered_submitted)

section Laws
variable (config : Config)

/-- `execute` on a store; a command that throws leaves it as it is. -/
def executed (store : Store) (command : Text) : Store :=
  serve config.counting (fun _ => "ERROR: No such command".toList) store command

def apply (store : Store) (client : ClientInformation) : Store :=
  executed config store client.clientCommand

/-- The purchases and cancels in the order in which their own servers ran them. -/
def order (history : List Execution) : List ClientInformation :=
  (history.filter fun execution => execution.own && execution.succeeded &&
    changes config.counting execution.client.clientCommand).map Execution.client

/-- Those of them that a server has run; an `Update` counts also when it throws. -/
def carriedOut (history : List Execution) (me : Int) : List ClientInformation :=
  (history.filter fun execution => execution.server == me &&
    (!execution.own || execution.succeeded) &&
      changes config.counting execution.client.clientCommand).map Execution.client

/-- The command of an `Update` that the handler carries out in its next stretch. -/
def pendingUpdate (connection : Connection) : Option ClientInformation :=
  match connection.task, connection.message with
  | .handling, .update _ _ client => some client
  | _, _ => none

/-- A server passes its check with a purchase or cancel only when it has carried
out all that were run before, and the line has no colon in the wrong place. -/
def EntersInTurn (cluster : Cluster) (me : Int) (flow : Flow) : Prop :=
  ∀ client ∈ entered me flow, changes config.counting client.clientCommand = true →
    Colonless client.clientCommand ∧
      carriedOut config cluster.history me = order config cluster.history

/-- An `Update` is carried out when it is the next one for this server. -/
def UpdatesInTurn (cluster : Cluster) (connection : Connection) : Prop :=
  ∀ client ∈ pendingUpdate connection, changes config.counting client.clientCommand = true →
    carriedOut config cluster.history connection.server ++ [client] <+:
      order config cluster.history

instance (cluster : Cluster) (me : Int) (flow : Flow) :
    Decidable (EntersInTurn config cluster me flow) :=
  inferInstanceAs (Decidable (∀ _ ∈ _, _ → _ ∧ _))

instance (cluster : Cluster) (connection : Connection) :
    Decidable (UpdatesInTurn config cluster connection) :=
  inferInstanceAs (Decidable (∀ _ ∈ _, _ → _))

def InTurn (cluster : Cluster) : Action → Prop
  | .submit _ _ => True
  | .client _ => True
  | .timeout _ => True
  | .server number => ∀ connection ∈ cluster.connections[number]?,
      UpdatesInTurn config cluster connection ∧
        ∀ flow ∈ advance config cluster number connection,
          EntersInTurn config cluster connection.server flow
  | .crash _ => False

instance (cluster : Cluster) : ∀ action, Decidable (InTurn config cluster action)
  | .submit _ _ => isTrue trivial
  | .client _ => isTrue trivial
  | .timeout _ => isTrue trivial
  | .server _ => inferInstanceAs (Decidable (∀ _ ∈ _, _ ∧ ∀ _ ∈ _, _))
  | .crash _ => isFalse id

/-- The servers as replicas. -/
def ledger (cluster : Cluster) :
    Ledger {id : Int // id ∈ config.serverIDs} ClientInformation Store where
  order := order config cluster.history
  applied id := carriedOut config cluster.history id
  state id := (cluster.server id).store

structure Agreeing (cluster : Cluster) : Prop where
  delivered : Delivered config cluster
  sequenced : Sequenced (apply config) (OnlineStore.initial config.inventory)
    (ledger config cluster)
  carried : ∀ me client response, Won cluster.history me client response → ∀ store,
    executed config store (cut client.clientCommand) = apply config store client

end Laws

/-! The ledger after a handler's step. -/
section Ledgers
variable (config : Config) (cluster : Cluster) (number : Nat) (me : Int) (outcome : Outcome)

theorem order_append (before executed : List Execution) :
    order config (before ++ executed) = order config before ++ order config executed := by
  simp [order]

theorem carriedOut_append (before executed : List Execution) (server : Int) :
    carriedOut config (before ++ executed) server =
      carriedOut config before server ++ carriedOut config executed server := by
  simp [carriedOut]

-- Nothing is recorded, or nothing that could have changed a store.
theorem ledger_idle (quiet : order config outcome.executed = [])
    (still : ∀ server, carriedOut config outcome.executed server = [])
    (same : outcome.server.store = (cluster.server me).store) :
    ledger config (cluster.after number me outcome) = ledger config cluster := by
  ext1
  · simp [ledger, Cluster.after, order_append, quiet]
  · funext id
    simp [ledger, Cluster.after, carriedOut_append, still]
  · funext id
    by_cases own : (id : Int) = me
    · simp [ledger, Cluster.after, own, same]
    · simp [ledger, Cluster.after, own]

theorem ledger_ran (known : me ∈ config.serverIDs) (client : ClientInformation)
    (ran : ∀ server, carriedOut config outcome.executed server =
      if server = me then [client] else [])
    (changed : outcome.server.store = apply config (cluster.server me).store client) :
    ledger config (cluster.after number me outcome) =
      Ledger.advance (apply config) ⟨me, known⟩ client { ledger config cluster with
        order := order config cluster.history ++ order config outcome.executed } := by
  ext1
  · simp [Ledger.advance, ledger, Cluster.after, order_append]
  · funext id
    by_cases own : id = ⟨me, known⟩
    · subst own
      simp [ledger, Ledger.advance, Cluster.after, carriedOut_append, ran]
    · have other : (id : Int) ≠ me := fun same => own (Subtype.ext same)
      simp [ledger, Ledger.advance, Cluster.after, carriedOut_append, ran, own, other]
  · funext id
    by_cases own : id = ⟨me, known⟩
    · subst own
      simp [ledger, Ledger.advance, Cluster.after, changed]
    · have other : (id : Int) ≠ me := fun same => own (Subtype.ext same)
      simp [ledger, Ledger.advance, Cluster.after, own, other]

end Ledgers

section Records
variable (config : Config)

theorem mem_order (history : List Execution) (client : ClientInformation) :
    client ∈ order config history ↔ changes config.counting client.clientCommand = true ∧
      ∃ me response, Won history me client response := by
  simp only [order, List.mem_map, List.mem_filter, Bool.and_eq_true]
  constructor
  · rintro ⟨⟨server, client, own, result⟩, ⟨ran, ⟨ours, succeeded⟩, changing⟩, rfl⟩
    cases result with
    | error thrown => cases succeeded
    | ok response =>
        cases ours
        exact ⟨changing, server, response, ran⟩
  · rintro ⟨changing, me, response, won⟩
    exact ⟨_, ⟨won, ⟨rfl, rfl⟩, changing⟩, rfl⟩

variable (me : Int) (client : ClientInformation)

theorem thrown_record (thrown : OnlineStore.Thrown) :
    order config [⟨me, client, true, .error thrown⟩] = [] ∧
      ∀ server, carriedOut config [⟨me, client, true, .error thrown⟩] server = [] := by
  simp [order, carriedOut, Execution.succeeded, Except.toBool]

theorem served_record (response : Text) :
    order config [⟨me, client, true, .ok response⟩] =
        (if changes config.counting client.clientCommand then [client] else []) ∧
      ∀ server, carriedOut config [⟨me, client, true, .ok response⟩] server =
        if changes config.counting client.clientCommand then
          if server = me then [client] else []
        else [] := by
  cases changing : changes config.counting client.clientCommand with
  | true =>
      constructor
      · simp [order, Execution.succeeded, Except.toBool, changing]
      · intro server
        by_cases own : me = server
        · simp [carriedOut, Execution.succeeded, Except.toBool, changing, own]
        · simp [carriedOut, own, Ne.symm own]
  | false => simp [order, carriedOut, changing]

theorem carried_record (result : Except OnlineStore.Thrown Text) :
    order config [⟨me, client, false, result⟩] = [] ∧
      ∀ server, carriedOut config [⟨me, client, false, result⟩] server =
        if changes config.counting client.clientCommand then
          if server = me then [client] else []
        else [] := by
  constructor
  · simp [order]
  · intro server
    cases changing : changes config.counting client.clientCommand with
    | true =>
        by_cases own : me = server
        · simp [carriedOut, changing, own]
        · simp [carriedOut, own, Ne.symm own]
    | false => simp [carriedOut, changing]

theorem executed_result (store after : Store) (command response : Text)
    (result : OnlineStore.execute4 config.counting command store = .ok (response, after)) :
    executed config store command = after := by
  unfold OnlineStore.execute4 at result
  rw [executed, serve, result]

theorem executed_thrown (store : Store) (command : Text) (thrown : OnlineStore.Thrown)
    (result : OnlineStore.execute4 config.counting command store = .error thrown) :
    executed config store command = store := by
  unfold OnlineStore.execute4 at result
  rw [executed, serve, result]

end Records

section Steps
variable (config : Config) {before after : Cluster} (agreeing : Agreeing config before)
  (number : Nat) (connection : Connection) (flow : Flow)
  (found : before.connections[number]? = some connection)
  (moved : Moved config before number connection flow)

include agreeing found moved

/-- The server ran one more command of its own client. -/
theorem served_sequenced (enters : EntersInTurn config before connection.server flow)
    (client : ClientInformation) (response : Text)
    (entering : entered connection.server flow = some client)
    (ran : (flow.finish config connection.server).executed =
      [⟨connection.server, client, true, .ok response⟩])
    (changed : (flow.finish config connection.server).server.store =
      apply config (before.server connection.server).store client) :
    Sequenced (apply config) (OnlineStore.initial config.inventory) (ledger config
      (before.after number connection.server (flow.finish config connection.server))) := by
  have known := (agreeing.delivered.wired.connections number connection found).known
  obtain ⟨settled, runs⟩ := served_record config connection.server client response
  rw [← ran] at settled runs
  cases changing : changes config.counting client.clientCommand with
  | false =>
      simp only [changing, Bool.false_eq_true, ↓reduceIte] at settled runs
      rw [ledger_idle config before number _ _ settled runs
        (changed.trans (serve_idle config.counting _ _ _ changing))]
      exact agreeing.sequenced
  | true =>
      simp only [changing, ↓reduceIte] at settled runs
      rw [ledger_ran config before number _ _ known client runs changed, settled]
      have new : client ∉ order config before.history := by
        intro old
        obtain ⟨_, me, answer, won⟩ := (mem_order config before.history client).mp old
        exact (handled_new config agreeing.delivered number connection flow found moved client
          response entering ran connection.server known).2 me answer won
      have placed := place_sequenced _ _ _ agreeing.sequenced client new
      have next : carriedOut config before.history connection.server ++ [client] =
          order config before.history ++ [client] := by
        rw [(enters client entering changing).2]
      exact advance_sequenced _ _ _ placed ⟨connection.server, known⟩ client
        (next ▸ List.prefix_rfl)

omit moved in
/-- The server carried out an `Update`, or threw it away with an exception. -/
theorem update_sequenced (updates : UpdatesInTurn config before connection)
    (logicalClock serverID : Int) (client : ClientInformation)
    (handling : connection.task = .handling)
    (message : connection.message = .update logicalClock serverID client)
    (result : Except OnlineStore.Thrown Text)
    (ran : (flow.finish config connection.server).executed =
      [⟨connection.server, client, false, result⟩])
    (changed : (flow.finish config connection.server).server.store =
      executed config (before.server connection.server).store (cut client.clientCommand)) :
    Sequenced (apply config) (OnlineStore.initial config.inventory) (ledger config
      (before.after number connection.server (flow.finish config connection.server))) := by
  have sound := agreeing.delivered.wired.connections number connection found
  have known := sound.known
  have won : ∃ me response, Won before.history me client response := by
    obtain ⟨command, line, _⟩ | messaging := sound.line
    · exact absurd (line.symm.trans message) nofun
    · have update := messaging.message
      rw [message] at update
      exact ⟨serverID, update.2.2.2⟩
  obtain ⟨me, response, won⟩ := won
  rw [agreeing.carried me client response won] at changed
  obtain ⟨settled, runs⟩ := carried_record config connection.server client result
  rw [← ran] at settled runs
  cases changing : changes config.counting client.clientCommand with
  | false =>
      simp only [changing, Bool.false_eq_true, ↓reduceIte] at runs
      rw [ledger_idle config before number _ _ settled runs
        (changed.trans (serve_idle config.counting _ _ _ changing))]
      exact agreeing.sequenced
  | true =>
      simp only [changing, ↓reduceIte] at runs
      rw [ledger_ran config before number _ _ known client runs changed, settled, List.append_nil]
      have pending : pendingUpdate connection = some client := by
        simp [pendingUpdate, handling, message]
      exact advance_sequenced _ _ _ agreeing.sequenced ⟨connection.server, known⟩ client
        (updates client pending changing)

/-- A step in turn keeps every store at what the commands run so far make of it. -/
theorem handled_sequenced (enters : EntersInTurn config before connection.server flow)
    (updates : UpdatesInTurn config before connection) :
    Sequenced (apply config) (OnlineStore.initial config.inventory) (ledger config
      (before.after number connection.server (flow.finish config connection.server))) := by
  cases moved_executes config before number connection flow moved with
  | nothing idle same =>
      rw [ledger_idle config before number _ _ (by rw [idle]; rfl) (by rw [idle]; exact fun _ => rfl)
        same]
      exact agreeing.sequenced
  | thrown client thrown entering ran same =>
      obtain ⟨settled, still⟩ := thrown_record config connection.server client thrown
      rw [← ran] at settled still
      rw [ledger_idle config before number _ _ settled still same]
      exact agreeing.sequenced
  | served client response entering ran next result =>
      exact served_sequenced config agreeing number connection flow found moved enters client
        response entering ran (executed_result config _ _ _ _ result).symm
  | refused logicalClock serverID client thrown handling message ran result same =>
      exact update_sequenced config agreeing number connection flow found updates logicalClock
        serverID client handling message _ ran
        (same.trans (executed_thrown config _ _ _ result).symm)
  | carried logicalClock serverID client response handling message ran result =>
      exact update_sequenced config agreeing number connection flow found updates logicalClock
        serverID client handling message _ ran (executed_result config _ _ _ _ result).symm

theorem handled_carried (enters : EntersInTurn config before connection.server flow) (me : Int)
    (client : ClientInformation) (response : Text)
    (won : Won (before.after number connection.server
      (flow.finish config connection.server)).history me client response) (store : Store) :
    executed config store (cut client.clientCommand) = apply config store client := by
  rcases List.mem_append.mp won with old | new
  · exact agreeing.carried me client response old store
  · cases moved_executes config before number connection flow moved with
    | nothing idle same => simp [idle] at new
    | thrown other thrown entering ran same => simp [ran] at new
    | served other answer entering ran next result =>
        simp only [ran, List.mem_singleton, Execution.mk.injEq, true_and] at new
        obtain ⟨rfl, rfl, _⟩ := new
        have submitted := entered_submitted config before number connection flow agreeing.delivered.wired found
          moved client entering
        have valid := submitted_valid config before agreeing.delivered.wired _ client submitted
        exact serve_cut config.counting _ client.clientCommand _ _ _ valid result
          (fun changing => (enters client entering changing).1) store
    | refused logicalClock serverID other thrown handling message ran result same =>
        simp [ran] at new
    | carried logicalClock serverID other answer handling message ran result => simp [ran] at new

end Steps

section Runs
variable (config : Config)

theorem initial_agreeing : Agreeing config (initial config) := by
  constructor
  · exact initial_delivered config
  · constructor
    · exact List.nodup_nil
    · intro id
      exact List.prefix_rfl
    · intro id
      rfl
  · intro me client response won
    cases won

theorem step_agreeing (before : Cluster) (action : Action) (after : Cluster)
    (agreeing : Agreeing config before) (turn : InTurn config before action)
    (taken : step config before action = some after) : Agreeing config after := by
  have up : crashFree action = true := by
    cases action with
    | crash serverID => exact turn.elim
    | _ => rfl
  have delivered := step_delivered config before action after agreeing.delivered up taken
  have stepped := step_stepped config before after action
    (wired_readable config before agreeing.delivered.wired) taken
  by_cases outside : ∀ number, action ≠ .server number
  · obtain ⟨servers, history⟩ := outside_same config before after action stepped outside
    constructor
    · exact delivered
    · have same : ledger config after = ledger config before := by
        simp only [ledger, servers, history]
      rw [same]
      exact agreeing.sequenced
    · rw [history]
      exact agreeing.carried
  · cases stepped with
    | handled number connection flow found alive advanced moved =>
        obtain ⟨updates, enters⟩ := turn connection (Option.mem_def.mpr found)
        have entering := enters flow (Option.mem_def.mpr advanced)
        constructor
        · exact delivered
        · exact handled_sequenced config agreeing number connection flow found moved entering updates
        · exact handled_carried config agreeing number connection flow found moved entering
    | _ => simp at outside

/-- Once every handler has ended, each server has run every purchase and cancel. -/
theorem quiescent_current (cluster : Cluster) (agreeing : Agreeing config cluster)
    (quiet : Quiescent cluster) (client : ClientInformation)
    (settled : client ∈ order config cluster.history) (server : Int)
    (known : server ∈ config.serverIDs) :
    client ∈ carriedOut config cluster.history server := by
  obtain ⟨changing, me, response, won⟩ := (mem_order config _ _).mp settled
  obtain ⟨execution, ran, here, same, succeeded⟩ :=
    delivered_run config cluster agreeing.delivered quiet me client response won server known
  have counts : (!execution.own || execution.succeeded) = true := by
    cases own : execution.own with
    | false => rfl
    | true => exact succeeded own
  rw [carriedOut, List.mem_map]
  exact ⟨execution, List.mem_filter.mpr ⟨ran, by simp [here, counts, same, changing]⟩, same⟩

end Runs

section Results

/-- In every state in which no handler is running, after a run in turn, all
servers hold the same store. -/
theorem replicas_agree (config : Config) (cluster : Cluster)
    (reached : Reachable (step config) (InTurn config) (initial config) cluster)
    (quiet : Quiescent cluster) : ∀ first ∈ config.serverIDs, ∀ second ∈ config.serverIDs,
      (cluster.server first).store = (cluster.server second).store := by
  intro first here second there
  have agreeing := reachable_invariant (Agreeing config) (initial_agreeing config)
    (step_agreeing config) reached
  exact current_agree (apply config) _ (ledger config cluster) agreeing.sequenced
    (fun id client settled => quiescent_current config cluster agreeing quiet client settled id
      id.property) ⟨first, here⟩ ⟨second, there⟩

-- A purchase at server 1 and, when all handlers have ended, its cancel at server 2.
def purchaseThenCancel : List Action :=
  [.submit "purchase ann phone 2".toList [1, 2], .client 0, .client 0, .server 0, .server 0,
    .server 0, .server 1, .server 1, .server 0, .server 0, .server 0, .server 1, .server 1,
    .server 2, .server 2, .server 0, .server 0, .server 0, .server 2, .server 2, .server 3,
    .server 3, .server 0, .server 0, .client 0, .server 0, .server 3, .server 3,
    .submit "cancel 1".toList [2, 1], .client 1, .client 1, .server 4, .server 4, .server 4,
    .server 5, .server 5, .server 4, .server 4, .server 4, .server 5, .server 5, .server 6,
    .server 6, .server 4, .server 4, .server 4, .server 6, .server 6, .server 7, .server 7,
    .server 4, .server 4, .client 1, .server 4, .server 7]

theorem replicas_agree_cancelled : ∃ cluster,
    replay (step twoServers) (InTurn twoServers) (initial twoServers) purchaseThenCancel =
        some cluster ∧
      (order twoServers cluster.history).length = 2 ∧
      (cluster.server 1).store = (cluster.server 2).store := by
  have rests : ((replay (step twoServers) (InTurn twoServers) (initial twoServers)
      purchaseThenCancel).any fun cluster => decide (Quiescent cluster) &&
        decide ((order twoServers cluster.history).length = 2)) = true := by
    decide +kernel
  obtain ⟨cluster, played, both⟩ := (Option.any_eq_true _ _).mp rests
  obtain ⟨quiet, two⟩ := Bool.and_eq_true_iff.mp both
  exact ⟨cluster, played, of_decide_eq_true two, replicas_agree twoServers cluster
    (replayed _ _ played) (of_decide_eq_true quiet) 1 (by decide) 2 (by decide)⟩

-- The user's name has a colon in it, so server 2 runs "purchase a" and throws.
def colonPurchase : List Action :=
  [.submit "purchase a:b phone 1".toList [1, 2], .client 0, .client 0, .server 0, .server 0,
    .server 0, .server 1, .server 1, .server 0, .server 0, .server 0, .server 1, .server 1,
    .server 2, .server 2, .server 0, .server 0, .server 0, .server 2, .server 3, .server 3,
    .server 0, .server 0, .client 0, .server 0, .server 3, .server 3]

theorem replicas_disagree : ¬ ∀ cluster,
    Reachable (step twoServers) (fun _ action => crashFree action = true) (initial twoServers)
      cluster →
    Quiescent cluster → ∀ first ∈ twoServers.serverIDs, ∀ second ∈ twoServers.serverIDs,
      (cluster.server first).store = (cluster.server second).store := by
  intro agree
  have differ : ((replay (step twoServers) (fun _ action => crashFree action = true)
      (initial twoServers) colonPurchase).any fun cluster => decide (Quiescent cluster) &&
        decide ((cluster.server 1).store ≠ (cluster.server 2).store)) = true := by
    decide +kernel
  obtain ⟨cluster, played, both⟩ := (Option.any_eq_true _ _).mp differ
  obtain ⟨quiet, apart⟩ := Bool.and_eq_true_iff.mp both
  exact of_decide_eq_true apart
    (agree cluster (replayed _ _ played) (of_decide_eq_true quiet) 1 (by decide) 2 (by decide))

end Results

end EE360P.ReplicaAgreement
