import Mathlib.Data.List.Basic
import Mathlib.Logic.Function.Basic
import EE360P.JavaText
import EE360P.OnlineStore
import EE360P.ServerCluster

/-! project3 `TCPServer` and `UDPServer`: two threads that serve one store, each
one request at a time. `execute` is synchronized, so a run of both is a list of
arrivals in the order in which their commands are executed. An exception of the
`Command` comes out of `result.get()` as an `ExecutionException`, which is caught
around the whole loop. The default charset and the longest datagram that the
network takes are the platform's. -/

namespace EE360P.ServerLoops
open JavaText OnlineStore

inductive Endpoint where
  | tcp
  | udp
  deriving DecidableEq, Repr

structure Platform where
  decode : List UInt8 → Text
  getBytes : Text → List UInt8
  longestDatagram : Nat

/-- A connection on which a client printed a command, or a datagram. -/
inductive Arrival where
  | connection (printed : Text)
  | datagram (data : List UInt8)
  deriving DecidableEq, Repr

def Arrival.endpoint : Arrival → Endpoint
  | .connection _ => .tcp
  | .datagram _ => .udp

structure Server where
  store : Store
  accepting : Endpoint → Bool

def initial (inventory : List Item) : Server := ⟨OnlineStore.initial inventory, fun _ => true⟩

section Loops
variable (platform : Platform) (counting : Counting)

/-- `scanner.nextLine()` of what the client printed as a line. -/
def nextLine (printed : Text) : Text := (printed.splitOnP ServerCluster.lineBreak).headD []

/-- `receivingPacket.getData()`: the buffer takes 1024 bytes. -/
def received (data : List UInt8) : List UInt8 := data.take 1024

def Arrival.command : Arrival → Text
  | .connection printed => nextLine printed
  | .datagram data => platform.decode (received data)

/-- The loop leaves its `try` block. -/
def ends (endpoint : Endpoint) (server : Server) : Server :=
  { server with accepting := Function.update server.accepting endpoint false }

/-- `es.submit(callableCommand)` and `result.get()`. -/
def call (command : Text) (server : Server) : Except Thrown (Text × Server) :=
  match execute3 counting command server.store with
  | .error thrown => .error thrown
  | .ok (reply, store) => .ok (reply, { server with store })

/-- One pass of the loop of `TCPServer`, with the lines that it prints. -/
def turnTCP (printed : Text) (server : Server) : Server × List Text :=
  match call counting (nextLine printed) server with
  | .error _ => (ends .tcp server, [])
  | .ok (futureResult, served) => (served, [futureResult])

/-- One pass of the loop of `UDPServer`, with the texts that it sends. -/
def turnUDP (data : List UInt8) (server : Server) : Server × List Text :=
  match call counting (platform.decode (received data)) server with
  | .error _ => (ends .udp server, [])
  | .ok (futureResult, served) =>
      let sendingBuffer := platform.getBytes futureResult
      if sendingBuffer.length ≤ platform.longestDatagram then (served, [futureResult])
      else (ends .udp served, [])

/-- An arrival at a loop that has ended is not looked at. -/
def turn (arrival : Arrival) (server : Server) : Server × List Text :=
  if server.accepting arrival.endpoint then
    match arrival with
    | .connection printed => turnTCP counting printed server
    | .datagram data => turnUDP platform counting data server
  else (server, [])

/-- What an observer notes of an arrival. -/
structure Record where
  before : Server
  arrival : Arrival
  replies : List Text

def records : List Arrival → Server → List Record
  | [], _ => []
  | arrival :: rest, server =>
      let served := turn platform counting arrival server
      ⟨server, arrival, served.2⟩ :: records rest served.1

def final : List Arrival → Server → Server
  | [], server => server
  | arrival :: rest, server => final rest (turn platform counting arrival server).1

end Loops

section Survival
variable (platform : Platform) (counting : Counting)

/-- Every command that arrived at the endpoint got exactly one reply, and its
loop accepts the next one. -/
def Survives (endpoint : Endpoint) (arrivals : List Arrival) (server : Server) : Prop :=
  (∀ record ∈ records platform counting arrivals server, record.arrival.endpoint = endpoint →
    record.replies.length = 1) ∧ (final platform counting arrivals server).accepting endpoint = true

/-- A reply by datagram fits into one. -/
def Fits (store : Store) : Arrival → Prop
  | .connection _ => True
  | .datagram data => ∀ reply after,
      execute3 counting (platform.decode (received data)) store = .ok (reply, after) →
        (platform.getBytes reply).length ≤ platform.longestDatagram

/-- The command is well formed and its reply can be sent. -/
def Manageable (store : Store) (arrival : Arrival) : Prop :=
  WellFormed counting (arrival.command platform) ∧ Fits platform counting store arrival

theorem call_served (command : Text) (server : Server) (formed : WellFormed counting command) :
    ∃ reply after, execute3 counting command server.store = .ok (reply, after) ∧
      call counting command server = .ok (reply, { server with store := after }) := by
  obtain ⟨⟨reply, after⟩, served⟩ := (execute_wellFormed counting _ command server.store).mpr formed
  have answered : execute3 counting command server.store = .ok (reply, after) := served
  exact ⟨reply, after, answered, by rw [call, answered]⟩

theorem call_thrown (command : Text) (server : Server) (bad : ¬ WellFormed counting command) :
    ∃ thrown, call counting command server = .error thrown := by
  cases served : execute3 counting command server.store with
  | error thrown => exact ⟨thrown, by rw [call, served]⟩
  | ok answer => exact absurd ((execute_wellFormed counting _ command server.store).mp ⟨answer, served⟩) bad

/-- A pass of a loop: one reply and the loop goes on, or none and it ends. -/
theorem turn_manageable (arrival : Arrival) (server : Server)
    (open_ : server.accepting arrival.endpoint = true)
    (manageable : Manageable platform counting server.store arrival) :
    ∃ reply after, turn platform counting arrival server = ({ server with store := after }, [reply]) := by
  obtain ⟨formed, fits⟩ := manageable
  obtain ⟨reply, after, answered, called⟩ := call_served counting _ server formed
  refine ⟨reply, after, ?_⟩
  cases arrival with
  | connection printed =>
      simp only [Arrival.command] at called
      simp only [turn, open_, ↓reduceIte, turnTCP, called]
  | datagram data =>
      simp only [Arrival.command] at called answered
      simp only [turn, open_, ↓reduceIte, turnUDP, called, fits reply after answered]

theorem turn_unmanageable (arrival : Arrival) (server : Server)
    (open_ : server.accepting arrival.endpoint = true)
    (bad : ¬ Manageable platform counting server.store arrival) :
    (turn platform counting arrival server).2 = [] := by
  by_cases formed : WellFormed counting (arrival.command platform)
  · obtain ⟨reply, after, answered, called⟩ := call_served counting _ server formed
    cases arrival with
    | connection printed => exact absurd ⟨formed, trivial⟩ bad
    | datagram data =>
        simp only [Arrival.command] at called answered
        have long : ¬ (platform.getBytes reply).length ≤ platform.longestDatagram := by
          intro short
          refine bad ⟨formed, fun other final answer => ?_⟩
          rw [answered] at answer
          cases answer
          exact short
        simp only [turn, open_, ↓reduceIte, turnUDP, called, long]
  · obtain ⟨thrown, called⟩ := call_thrown counting _ server formed
    cases arrival with
    | connection printed =>
        simp only [Arrival.command] at called
        simp only [turn, open_, ↓reduceIte, turnTCP, called]
    | datagram data =>
        simp only [Arrival.command] at called
        simp only [turn, open_, ↓reduceIte, turnUDP, called]

-- The threads share the store only.
theorem turn_other (arrival : Arrival) (server : Server) (endpoint : Endpoint)
    (other : arrival.endpoint ≠ endpoint) :
    (turn platform counting arrival server).1.accepting endpoint = server.accepting endpoint := by
  have called : ∀ command reply served, call counting command server = .ok (reply, served) →
      served.accepting = server.accepting := by
    intro command reply served done
    unfold call at done
    split at done <;> cases done
    rfl
  cases arrival with
  | connection printed =>
      have apart : endpoint ≠ .tcp := fun same => other same.symm
      unfold turn turnTCP
      split
      · dsimp only
        split
        · exact Function.update_of_ne apart _ _
        · rename_i done
          rw [called _ _ _ done]
      · rfl
  | datagram data =>
      have apart : endpoint ≠ .udp := fun same => other same.symm
      unfold turn turnUDP
      split
      · dsimp only
        split
        · exact Function.update_of_ne apart _ _
        · rename_i done
          split
          · rw [called _ _ _ done]
          · simp only [ends, Function.update_of_ne apart]
            rw [called _ _ _ done]
      · rfl

theorem answered_manageable (endpoint : Endpoint) (arrivals : List Arrival) (server : Server)
    (answered : ∀ record ∈ records platform counting arrivals server,
      record.arrival.endpoint = endpoint → record.replies.length = 1)
    (record : Record) (member : record ∈ records platform counting arrivals server)
    (here : record.arrival.endpoint = endpoint) :
    Manageable platform counting record.before.store record.arrival := by
  induction arrivals generalizing server with
  | nil => cases member
  | cons arrival rest ih =>
      rcases List.mem_cons.mp member with first | later
      · have one := answered record member here
        subst first
        by_contra bad
        by_cases open_ : server.accepting arrival.endpoint = true
        · simp [turn_unmanageable platform counting arrival server open_ bad] at one
        · simp [turn, open_] at one
      · exact ih _ (fun other among => answered other (List.mem_cons_of_mem _ among)) later

/-- A loop survives a sequence of arrivals exactly when every command that comes
to its endpoint is well formed, and by datagram has a reply that fits into one. -/
theorem survives_iff (endpoint : Endpoint) (arrivals : List Arrival) (server : Server)
    (open_ : server.accepting endpoint = true) :
    Survives platform counting endpoint arrivals server ↔
      ∀ record ∈ records platform counting arrivals server, record.arrival.endpoint = endpoint →
        Manageable platform counting record.before.store record.arrival := by
  constructor
  · intro survives record member here
    exact answered_manageable platform counting endpoint arrivals server survives.1 record member here
  · intro manageable
    induction arrivals generalizing server with
    | nil => exact ⟨fun record member => absurd member List.not_mem_nil, open_⟩
    | cons arrival rest ih =>
        have rest_ : ∀ record ∈ records platform counting rest
            (turn platform counting arrival server).1, record.arrival.endpoint = endpoint →
              Manageable platform counting record.before.store record.arrival :=
          fun record member => manageable record (List.mem_cons_of_mem _ member)
        by_cases here : arrival.endpoint = endpoint
        · obtain ⟨reply, after, turned⟩ := turn_manageable platform counting arrival server
            (here ▸ open_) (manageable _ List.mem_cons_self here)
          obtain ⟨answered, accepts⟩ := ih _ (by rw [turned]; exact open_) rest_
          refine ⟨fun record member => ?_, accepts⟩
          rcases List.mem_cons.mp member with first | later
          · subst first
            simp [turned]
          · exact answered record later
        · obtain ⟨answered, accepts⟩ := ih _
            (by rw [turn_other platform counting arrival server endpoint here]; exact open_) rest_
          refine ⟨fun record member elsewhere => ?_, accepts⟩
          rcases List.mem_cons.mp member with first | later
          · subst first
            exact absurd elsewhere here
          · exact answered record later elsewhere

end Survival

section Examples

/-- ASCII in both directions, and the payload limit of UDP over IPv4. -/
def ascii : Platform :=
  ⟨List.map fun byte => Char.ofNat byte.toNat, List.map fun c => c.toNat.toUInt8, 65507⟩

def listLine : Arrival := .connection "list".toList

def shortPurchase : Arrival := .connection "purchase ann".toList

-- Five commands at both endpoints in turn: a purchase, two readings, a cancel, a refusal.
def severalLines : List Arrival :=
  [.connection "purchase ann phone 2".toList, .datagram (ascii.getBytes "search ann".toList), listLine,
    .datagram (ascii.getBytes "cancel 1".toList), .connection "purchase bob pen 1".toList]

def fivePhones : Server := initial [⟨"phone".toList, 5⟩]

theorem survives_several :
    (∀ record ∈ records ascii .int32 severalLines fivePhones, record.arrival.endpoint = .tcp →
      Manageable ascii .int32 record.before.store record.arrival) ∧
    (∀ record ∈ records ascii .int32 severalLines fivePhones, record.arrival.endpoint = .udp →
      Manageable ascii .int32 record.before.store record.arrival) := by
  constructor
  · refine (survives_iff ascii .int32 .tcp severalLines fivePhones rfl).mp ?_
    unfold Survives
    decide +kernel
  · refine (survives_iff ascii .int32 .udp severalLines fivePhones rfl).mp ?_
    unfold Survives
    decide +kernel

theorem short_purchase_ends_loop :
    ¬ ∀ platform endpoint arrivals inventory,
      Survives platform .int32 endpoint arrivals (initial inventory) := by
  intro survives
  obtain ⟨_, accepts⟩ := survives ascii .tcp [shortPurchase, listLine] []
  have ended : (final ascii .int32 [shortPurchase, listLine] (initial [])).accepting .tcp = false := by
    decide +kernel
  rw [ended] at accepts
  cases accepts

end Examples

end EE360P.ServerLoops
