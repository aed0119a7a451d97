import EE360P.RequestRounds

/-! The cluster with an observer, who notes for what each connection was opened.
A line carries a clock and an ID only, so the notes are what ties a `Release` to
the command, and to the request, that it is about. -/

namespace EE360P.ObservedCluster
open JavaText ReplicatedServer ServerCluster ClusterSteps ClusterWiring SectionExclusion
open CommandTokens ReliableDelivery RequestRounds GuardedRuns

section Notes

/-- `purposes` is by connection. The other notes are pairs of a peer and what was
acknowledged by it, sent to it or handled by it. -/
structure Notes where
  purposes : Nat → Option Purpose
  acknowledged : List (Int × TimeStamp)
  releasesSent : List (Int × ClientInformation)
  releasesHandled : List (Int × ClientInformation)

def blank : Notes := ⟨fun _ => none, [], [], []⟩

def leaving : Purpose → Option ClientInformation
  | .leaving client _ => some client
  | _ => none

def requestOf : Line → Option TimeStamp
  | .request logicalClock serverID => some ⟨logicalClock, serverID⟩
  | _ => none

def answered (cluster : Cluster) (socket : Nat) : Bool :=
  (cluster.connections[socket]?).any fun target => (nextReply target.output).isSome

/-- The notes on a step of the handler of connection `number`. -/
def noted (cluster : Cluster) (number : Nat) (connection : Connection) (notes : Notes) : Notes :=
  match connection.task with
  | .connecting sending peer =>
      if peer ∈ cluster.crashed then notes
      else { notes with
        purposes := Function.update notes.purposes cluster.connections.length
          (some sending.purpose) }
  | .writing sending peer _ =>
      { notes with
        releasesSent := notes.releasesSent ++
          ((leaving sending.purpose).map fun client => (peer, client)).toList }
  | .awaiting sending peer socket =>
      if answered cluster socket then
        { notes with
          acknowledged := notes.acknowledged ++
            ((requestOf sending.message).map fun request => (peer, request)).toList }
      else notes
  | .handling =>
      { notes with
        releasesHandled := notes.releasesHandled ++
          (((notes.purposes number).bind leaving).map fun client =>
            (connection.server, client)).toList }
  | _ => notes

def watch (cluster : Cluster) : Action → Notes → Notes
  | .server number, notes =>
      match cluster.connections[number]? with
      | none => notes
      | some connection => noted cluster number connection notes
  | _, notes => notes

variable (config : Config)

def observe : Cluster × Notes → Action → Option (Cluster × Notes) := observed (step config) watch

def start : Cluster × Notes := (initial config, blank)

theorem watch_handled (cluster : Cluster) (number : Nat) (connection : Connection) (notes : Notes)
    (found : cluster.connections[number]? = some connection) :
    watch cluster (.server number) notes = noted cluster number connection notes := by
  simp only [watch, found]

theorem watch_outside (cluster : Cluster) (action : Action) (notes : Notes)
    (outside : ∀ number, action ≠ .server number) : watch cluster action notes = notes := by
  cases action with
  | server number => exact absurd rfl (outside number)
  | _ => rfl

end Notes

/-! What is noted of a step. -/
section Noted
variable (cluster : Cluster) (number : Nat) (connection : Connection) (notes : Notes)

theorem noted_purposes (n : Nat) (purpose : Purpose)
    (after : (noted cluster number connection notes).purposes n = some purpose) :
    notes.purposes n = some purpose ∨ (n = cluster.connections.length ∧
      ∃ sending peer, connection.task = .connecting sending peer ∧ peer ∉ cluster.crashed ∧
        purpose = sending.purpose) := by
  unfold noted at after
  split at after
  · rename_i sending peer connecting
    split at after
    · exact Or.inl after
    · rename_i up
      by_cases new : n = cluster.connections.length
      · subst new
        simp only [Function.update_self, Option.some.injEq] at after
        exact Or.inr ⟨rfl, sending, peer, connecting, up, after.symm⟩
      · simp only [Function.update_of_ne new] at after
        exact Or.inl after
  · exact Or.inl after
  · split at after
    · exact Or.inl after
    · exact Or.inl after
  · exact Or.inl after
  · exact Or.inl after

theorem purposes_kept (n : Nat) (old : n < cluster.connections.length) :
    (noted cluster number connection notes).purposes n = notes.purposes n := by
  unfold noted
  split
  · split
    · rfl
    · exact Function.update_of_ne (Nat.ne_of_lt old) _ _
  · rfl
  · split
    · rfl
    · rfl
  · rfl
  · rfl

theorem noted_sent (peer : Int) (client : ClientInformation)
    (after : (peer, client) ∈ (noted cluster number connection notes).releasesSent) :
    (peer, client) ∈ notes.releasesSent ∨ ∃ sending socket,
      connection.task = .writing sending peer socket ∧ leaving sending.purpose = some client := by
  unfold noted at after
  split at after
  · split at after
    · exact Or.inl after
    · exact Or.inl after
  · rename_i sending target socket writing
    rcases List.mem_append.mp after with old | new
    · exact Or.inl old
    · obtain ⟨other, left, same⟩ := Option.map_eq_some_iff.mp (Option.mem_toList.mp new)
      cases same
      exact Or.inr ⟨sending, socket, writing, left⟩
  · split at after
    · exact Or.inl after
    · exact Or.inl after
  · exact Or.inl after
  · exact Or.inl after

theorem noted_acknowledged (peer : Int) (request : TimeStamp)
    (after : (peer, request) ∈ (noted cluster number connection notes).acknowledged) :
    (peer, request) ∈ notes.acknowledged ∨ ∃ sending socket,
      connection.task = .awaiting sending peer socket ∧ sending.message = asking request := by
  unfold noted at after
  split at after
  · split at after
    · exact Or.inl after
    · exact Or.inl after
  · exact Or.inl after
  · rename_i sending target socket awaiting
    split at after
    · rcases List.mem_append.mp after with old | new
      · exact Or.inl old
      · obtain ⟨other, asked, same⟩ := Option.map_eq_some_iff.mp (Option.mem_toList.mp new)
        cases same
        refine Or.inr ⟨sending, socket, awaiting, ?_⟩
        cases line : sending.message with
        | request logicalClock serverID =>
            rw [line] at asked
            cases asked
            rfl
        | _ =>
            rw [line] at asked
            cases asked
    · exact Or.inl after
  · exact Or.inl after
  · exact Or.inl after

theorem noted_handled : (noted cluster number connection notes).releasesHandled =
    notes.releasesHandled ++ (if connection.task = .handling then
      (((notes.purposes number).bind leaving).map fun client => (connection.server, client)).toList
    else []) := by
  unfold noted
  split
  · rename_i sending peer connecting
    split
    · simp [connecting]
    · simp [connecting]
  · rename_i writing
    simp [writing]
  · rename_i awaiting
    split
    · simp [awaiting]
    · simp [awaiting]
  · rename_i handling
    simp [handling]
  · rename_i other
    rw [if_neg other, List.append_nil]

theorem sent_kept : notes.releasesSent ⊆ (noted cluster number connection notes).releasesSent := by
  unfold noted
  split
  · split
    · exact List.Subset.refl _
    · exact List.Subset.refl _
  · exact List.subset_append_left _ _
  · split
    · exact List.Subset.refl _
    · exact List.Subset.refl _
  · exact List.Subset.refl _
  · exact List.Subset.refl _

theorem sent_noted (sending : Sending) (peer : Int) (socket : Nat) (client : ClientInformation)
    (writing : connection.task = .writing sending peer socket)
    (left : leaving sending.purpose = some client) :
    (peer, client) ∈ (noted cluster number connection notes).releasesSent := by
  simp [noted, writing, left]

end Noted

/-! What the notes say is true. -/
section Tags
variable (config : Config)

structure Tagged (cluster : Cluster) (notes : Notes) : Prop where
  unopened : ∀ n, cluster.connections.length ≤ n → notes.purposes n = none
  served : ∀ (n : Nat) (connection : Connection) (purpose : Purpose),
    cluster.connections[n]? = some connection → notes.purposes n = some purpose →
      ∃ me, connection.caller = .server me ∧
        PurposeSound cluster.history me connection.message purpose
  purposed : ∀ (n : Nat) (connection : Connection), cluster.connections[n]? = some connection →
    (∀ command, connection.message ≠ .command command) → ∃ purpose, notes.purposes n = some purpose
  addressed : ∀ (n : Nat) (connection : Connection) (sending : Sending) (peer : Int) (socket : Nat),
    cluster.connections[n]? = some connection → plug connection.task = some (sending, peer, socket) →
      ∃ target, cluster.connections[socket]? = some target ∧ target.server = peer ∧
        target.message = sending.message ∧ notes.purposes socket = some sending.purpose

theorem start_tagged : Tagged (start config).1 (start config).2 := by
  constructor
  · intro n beyond
    rfl
  · intro n connection purpose found
    cases found
  · intro n connection found
    cases found
  · intro n connection sending peer socket found
    cases found

variable {before : Cluster} {notes : Notes} (tagged : Tagged before notes)

include tagged

theorem outside_tagged (after : Cluster) (action : Action)
    (stepped : Stepped config before action after) (outside : ∀ number, action ≠ .server number) :
    Tagged after notes := by
  have history := (outside_same config before after action stepped outside).2
  have longer := grown_length (stepped_grown config before after action stepped)
  constructor
  · intro n beyond
    exact tagged.unopened n (by omega)
  · intro n later purpose present opening
    rw [history]
    rcases outside_found config before after action stepped outside n later present with
      ⟨old, there, rfl | rfl⟩ | ⟨rfl, number, call, server, _, _, _, rfl⟩
    · exact tagged.served n later purpose there opening
    · exact tagged.served n old purpose there opening
    · rw [tagged.unopened _ (Nat.le_refl _)] at opening
      cases opening
  · intro n later present line
    rcases outside_found config before after action stepped outside n later present with
      ⟨old, there, rfl | rfl⟩ | ⟨_, number, call, server, _, _, _, rfl⟩
    · exact tagged.purposed n later there line
    · exact tagged.purposed n old there line
    · exact absurd rfl (line call.command)
  · intro n later sending peer socket present waiting
    have stays : ∀ target, before.connections[socket]? = some target → target.server = peer →
        target.message = sending.message → ∃ target, after.connections[socket]? = some target ∧
          target.server = peer ∧ target.message = sending.message := by
      intro target reached server message
      rcases outside_stays config before after action stepped outside socket target reached with
        still | written
      · exact ⟨target, still, server, message⟩
      · exact ⟨write target, written, server, message⟩
    have old : ∀ earlier : Connection, before.connections[n]? = some earlier →
        plug earlier.task = some (sending, peer, socket) →
          ∃ target, after.connections[socket]? = some target ∧ target.server = peer ∧
            target.message = sending.message ∧ notes.purposes socket = some sending.purpose := by
      intro earlier there held
      obtain ⟨target, reached, server, message, opening⟩ :=
        tagged.addressed n earlier sending peer socket there held
      obtain ⟨target, still, server, message⟩ := stays target reached server message
      exact ⟨target, still, server, message, opening⟩
    rcases outside_found config before after action stepped outside n later present with
      ⟨earlier, there, rfl | rfl⟩ | ⟨_, number, call, server, _, _, _, rfl⟩
    · exact old later there waiting
    · exact old earlier there waiting
    · cases waiting

variable (wired : Wired config before) (number : Nat) (connection : Connection) (flow : Flow)
  (found : before.connections[number]? = some connection)
  (moved : Moved config before number connection flow)

omit tagged in
include moved in
theorem moved_connecting (sending : Sending) (peer : Int)
    (connecting : connection.task = .connecting sending peer) (up : peer ∉ before.crashed) :
    (flow.finish config connection.server).wire = .opened peer sending.message := by
  cases moved with
  | connected other target standing free =>
      rw [connecting] at standing
      cases standing
      rfl
  | unreachable other target standing down =>
      rw [connecting] at standing
      cases standing
      exact absurd down up
  | _ => simp_all

include wired found moved

theorem handled_tagged :
    Tagged (before.after number connection.server (flow.finish config connection.server))
      (noted before number connection notes) := by
  have task := (wired.connections number connection found).task
  have grown := after_grown before number connection.server (flow.finish config connection.server)
  have longer := grown_length grown
  have opens : ∀ sending peer, connection.task = .connecting sending peer → peer ∉ before.crashed →
      (before.after number connection.server (flow.finish config connection.server)).connections[
        before.connections.length]? = some (opened peer (.server connection.server)
          sending.message) := by
    intro sending peer connecting up
    have opening := moved_connecting config number connection flow moved sending peer connecting up
    exact (after_found _ _ _ _ _ _).mpr (Or.inr ⟨rfl, peer, sending.message, opening, rfl⟩)
  have noting : ∀ sending peer, connection.task = .connecting sending peer → peer ∉ before.crashed →
      (noted before number connection notes).purposes before.connections.length =
        some sending.purpose := by
    intro sending peer connecting up
    simp [noted, connecting, up]
  have inside : ∀ (n : Nat) (old : Connection), before.connections[n]? = some old →
      (noted before number connection notes).purposes n = notes.purposes n := fun n old there =>
    purposes_kept before number connection notes n (List.getElem?_eq_some_iff.mp there).1
  constructor
  · intro n beyond
    cases opening : (noted before number connection notes).purposes n with
    | none => rfl
    | some purpose =>
        rcases noted_purposes _ _ _ _ n purpose opening with old | ⟨rfl, sending, peer, connecting, up, _⟩
        · rw [tagged.unopened n (by omega)] at old
          cases old
        · have there := (List.getElem?_eq_some_iff.mp (opens sending peer connecting up)).1
          omega
  · intro n later purpose present opening
    rcases (after_found _ _ _ _ _ _).mp present with
      ⟨old, there, rfl⟩ | ⟨rfl, peer, message, opened_, rfl⟩
    · rw [inside n old there] at opening
      obtain ⟨me, caller, sound⟩ := tagged.served n old purpose there opening
      refine ⟨me, (touched_caller _ _ _ _).trans caller, ?_⟩
      rw [touched_message]
      exact purpose_grown grown me _ _ sound
    · obtain ⟨sending, connecting, up, rfl⟩ :=
        moved_opened config before number connection flow moved peer message opened_
      rw [noting sending peer connecting up] at opening
      cases opening
      rw [connecting] at task
      exact ⟨connection.server, rfl, purpose_grown grown _ _ _ task.1.purpose⟩
  · intro n later present line
    rcases (after_found _ _ _ _ _ _).mp present with
      ⟨old, there, rfl⟩ | ⟨rfl, peer, message, opened_, rfl⟩
    · rw [touched_message] at line
      obtain ⟨purpose, opening⟩ := tagged.purposed n old there line
      exact ⟨purpose, (inside n old there).trans opening⟩
    · obtain ⟨sending, connecting, up, _⟩ :=
        moved_opened config before number connection flow moved peer message opened_
      exact ⟨sending.purpose, noting sending peer connecting up⟩
  · intro n later sending peer socket present waiting
    have old : ∀ earlier : Connection, before.connections[n]? = some earlier →
        plug earlier.task = some (sending, peer, socket) →
          ∃ target, (before.after number connection.server
              (flow.finish config connection.server)).connections[socket]? = some target ∧
            target.server = peer ∧ target.message = sending.message ∧
              (noted before number connection notes).purposes socket = some sending.purpose := by
      intro earlier there held
      obtain ⟨target, reached, server, message, opening⟩ :=
        tagged.addressed n earlier sending peer socket there held
      exact ⟨touched number socket target (flow.finish config connection.server),
        (after_found _ _ _ _ _ _).mpr (Or.inl ⟨target, reached, rfl⟩),
        (touched_server _ _ _ _).trans server, (touched_message _ _ _ _).trans message,
        (inside socket target reached).trans opening⟩
    rcases (after_found _ _ _ _ _ _).mp present with ⟨earlier, there, rfl⟩ | ⟨_, _, _, _, rfl⟩
    · rw [touched_task] at waiting
      by_cases own : n = number
      · subst own
        rw [there, Option.some.injEq] at found
        subst found
        rw [if_pos rfl] at waiting
        rcases moved_plug config before n earlier flow moved sending peer socket waiting with
          held | ⟨rfl, connecting, up, _⟩
        · exact old earlier there held
        · exact ⟨_, opens sending peer connecting up, rfl, rfl, noting sending peer connecting up⟩
      · rw [if_neg own] at waiting
        exact old earlier there waiting
    · cases waiting

end Tags

section Runs
variable (config : Config)

/-- Whatever the cluster can reach it can reach with the observer. -/
theorem observe_reachable (allowed : Cluster → Action → Prop) (cluster : Cluster) :
    Reachable (step config) allowed (initial config) cluster ↔ ∃ notes,
      Reachable (observe config) (fun both action => allowed both.1 action) (start config)
        (cluster, notes) :=
  observed_reachable (step config) watch allowed (initial config) cluster blank

/-- A step keeps the notes true. -/
theorem step_tagged (before after : Cluster × Notes) (action : Action)
    (wired : Wired config before.1) (tagged : Tagged before.1 before.2)
    (taken : observe config before action = some after) : Tagged after.1 after.2 := by
  obtain ⟨stepping, watched⟩ := observed_taken (step config) watch before after action taken
  have stepped := step_stepped config before.1 after.1 action (wired_readable config before.1 wired)
    stepping
  rw [watched]
  by_cases outside : ∀ number, action ≠ .server number
  · rw [watch_outside before.1 action before.2 outside]
    exact outside_tagged config tagged after.1 action stepped outside
  · obtain ⟨cluster, notes⟩ := after
    cases stepped with
    | handled number connection flow found alive advanced moved =>
        rw [watch_handled before.1 number connection before.2 found]
        exact handled_tagged config tagged wired number connection flow found moved
    | _ => simp at outside

end Runs

end EE360P.ObservedCluster
