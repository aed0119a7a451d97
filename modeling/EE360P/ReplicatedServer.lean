import Mathlib.Data.List.Basic
import Mathlib.Data.Prod.Lex
import EE360P.JavaText
import EE360P.OnlineStore

/-! project4 `TimeStamp` and the methods of `Server`: what one handler does
between two socket operations. A method takes the server's ID, which never
changes, and the server's fields. Code that runs up to `checkCriticalSection`
ends in `Flow.checking`, so that the test and what follows it stand in one
place. `clientCommands` is a `PriorityQueue` of elements that cannot be
compared: `add` throws on a nonempty queue, which stays as it was. -/

namespace EE360P.ReplicatedServer
open JavaText

structure TimeStamp where
  logicalClock : Int
  processID : Int
  deriving DecidableEq, Repr

/-- 1 if this one has priority, 0 if they are the same, -1 if the other has. -/
def TimeStamp.compare (this other : TimeStamp) : Int :=
  if this.logicalClock < other.logicalClock then 1
  else if this.logicalClock = other.logicalClock ∧ this.processID < other.processID then 1
  else if this.logicalClock = other.logicalClock ∧ this.processID = other.processID then 0
  else -1

/-- By the clock, then by the ID. -/
def TimeStamp.rank (timeStamp : TimeStamp) : Int ×ₗ Int :=
  toLex (timeStamp.logicalClock, timeStamp.processID)

theorem compare_before (this other : TimeStamp) :
    this.compare other = 1 ↔ this.rank < other.rank := by
  rw [TimeStamp.rank, TimeStamp.rank, Prod.Lex.toLex_lt_toLex, TimeStamp.compare]
  grind

theorem compare_behind (this other : TimeStamp) :
    this.compare other = -1 ↔ other.rank < this.rank := by
  rw [TimeStamp.rank, TimeStamp.rank, Prod.Lex.toLex_lt_toLex, TimeStamp.compare]
  grind

theorem rank_injective : Function.Injective TimeStamp.rank := by
  rintro ⟨clock, processID⟩ ⟨otherClock, otherID⟩ same
  obtain ⟨rfl, rfl⟩ := Prod.mk.inj (toLex.injective same)
  rfl

/-- `clientSocket` is the number of the client's connection. `request` is the
observer's: the timestamp of the request made for this command. -/
structure ClientInformation where
  clientCommand : Text
  clientSocket : Nat
  request : TimeStamp
  deriving DecidableEq, Repr

structure Server where
  logicalClock : Int
  pendingQueue : List TimeStamp
  clientCommands : List ClientInformation
  timedOutServers : List Int
  store : OnlineStore.Store
  deriving DecidableEq, Repr

/-- What all servers are started with. -/
structure Config where
  counting : Counting
  serverInstances : Nat
  inventory : List OnlineStore.Item
  instancesHeld : counting.holds serverInstances = true

def Config.serverIDs (config : Config) : List Int :=
  (List.range config.serverInstances).map fun server : Nat => (server : Int) + 1

def Config.server (config : Config) : Server :=
  ⟨1, [], [], [], OnlineStore.initial config.inventory⟩

section Lines

inductive Line where
  | command (text : Text)
  | request (logicalClock serverID : Int)
  | release (logicalClock serverID : Int)
  | update (logicalClock serverID : Int) (client : ClientInformation)
  deriving DecidableEq, Repr

def requestWord : Text := "Request".toList

def releaseWord : Text := "Release".toList

def updateWord : Text := "Update".toList

/-- The text that is printed. -/
def Line.text : Line → Text
  | .command text => text
  | .request logicalClock serverID =>
      requestWord ++ ':' :: (intText logicalClock ++ ':' :: intText serverID)
  | .release logicalClock serverID =>
      releaseWord ++ ':' :: (intText logicalClock ++ ':' :: intText serverID)
  | .update logicalClock serverID client =>
      updateWord ++ ':' :: (intText logicalClock ++ ':' :: (intText serverID ++
        ':' :: client.clientCommand))

/-- The branches of `serviceServerTask`. -/
inductive Branch where
  | request
  | release
  | update
  | client
  deriving DecidableEq, Repr

-- A line of separators only has no `tokens[0]`.
def branch (tokens : List Text) : Option Branch :=
  tokens[0]?.map fun first =>
    if first = requestWord then .request
    else if first = releaseWord then .release
    else if first = updateWord then .update
    else .client

/-- `Integer.parseInt(tokens[position])`; `none` is either exception. -/
def parsedToken (counting : Counting) (tokens : List Text) (position : Nat) : Option Int :=
  tokens[position]?.bind (parseInt counting)

end Lines

/-! Where a `ServerTask` stands. -/
section Tasks

/-- What the loop of `send` was called for. -/
inductive Purpose where
  | entering
  | updating (client : ClientInformation) (response : Text)
  | leaving (client : ClientInformation) (response : Text)
  deriving DecidableEq, Repr

structure Sending where
  message : Line
  purpose : Purpose
  rest : List Int
  deriving DecidableEq, Repr

/-- `answering` is before the `println` of the reply, `handling` after it. In a
loop of `send`, `connecting` is before `new Socket`, `writing` before `println`
and `awaiting` before `nextLine`. A `failed` task died of an exception and left
its socket open. -/
inductive ServerTask where
  | reading
  | answering
  | handling
  | connecting (sending : Sending) (server : Int)
  | writing (sending : Sending) (server : Int) (socket : Nat)
  | awaiting (sending : Sending) (server : Int) (socket : Nat)
  | replying (client : ClientInformation) (response : Text)
  | closing
  | finished
  | failed
  deriving DecidableEq, Repr

/-- One call of `execute` by a handler: for the server's own client, or for an
`Update`. The list of them is the observer's. -/
structure Execution where
  server : Int
  client : ClientInformation
  own : Bool
  result : Except OnlineStore.Thrown Text

def Execution.succeeded (execution : Execution) : Bool := execution.result.toBool

/-- The socket operation of a step. -/
inductive Wire where
  | silent
  | answer (text : Text)
  | opened (server : Int) (message : Line)
  | wrote (socket : Nat)
  | reply (socket : Nat) (text : Text)
  | close
  deriving DecidableEq, Repr

structure Outcome where
  server : Server
  task : ServerTask
  wire : Wire
  executed : List Execution

inductive Flow where
  | checking (server : Server)
  | done (outcome : Outcome)

def stay (server : Server) (task : ServerTask) : Flow := .done ⟨server, task, .silent, []⟩

end Tasks

section Clock
variable (counting : Counting)

def setLogicalClockInternal (server : Server) : Server :=
  { server with logicalClock := counting.wrap (server.logicalClock + 1) }

def setLogicalClockSend (server : Server) : Server :=
  { server with logicalClock := counting.wrap (server.logicalClock + 1) }

def setLogicalClockReceive (senderLogicalClock : Int) (server : Server) : Server :=
  { server with
    logicalClock := counting.wrap (max server.logicalClock senderLogicalClock + 1) }

end Clock

section Queue

def search (pendingQueue : List TimeStamp) (serverID : Int) : Option TimeStamp :=
  pendingQueue.find? fun timeStamp => timeStamp.processID == serverID

/-- `search` and `pendingQueue.remove` of what it found. -/
def removeFirst (serverID : Int) (server : Server) : Server :=
  { server with
    pendingQueue := server.pendingQueue.eraseP fun timeStamp => timeStamp.processID == serverID }

def remove (serverID : Int) (server : Server) : Server :=
  { server with
    pendingQueue := server.pendingQueue.filter fun timeStamp => timeStamp.processID != serverID }

def deprecateServer (serverID : Int) (server : Server) : Server :=
  remove serverID { server with timedOutServers := server.timedOutServers ++ [serverID] }

def isSmallest (pendingQueue : List TimeStamp) (serverID : Int) : Bool :=
  match search pendingQueue serverID with
  | none => false
  | some timeStamp => pendingQueue.all fun other => timeStamp.compare other != -1

end Queue

section Handlers
variable (config : Config) (me : Int)

/-- The next value of the loop variable of `send` that is not skipped. -/
def nextServer (server : Server) : List Int → Option (Int × List Int)
  | [] => none
  | peer :: rest =>
      if peer ≠ me ∧ peer ∉ server.timedOutServers then some (peer, rest)
      else nextServer server rest

/-- The loop of `send` from `sending.rest` on; `ended` is the code after it. -/
def sendLoop (server : Server) (sending : Sending) (ended : ServerTask) : ServerTask :=
  match nextServer me server sending.rest with
  | some (peer, rest) => .connecting { sending with rest } peer
  | none => ended

/-- From `releaseCriticalSection` to the first connection, or to the reply. -/
def releaseCriticalSection (server : Server) (client : ClientInformation) (response : Text) :
    ServerTask :=
  sendLoop me server
    ⟨.release server.logicalClock me, .leaving client response, config.serverIDs⟩
    (.replying client response)

/-- From the building of the `Update` line on. -/
def sendUpdate (server : Server) (client : ClientInformation) (response : Text) : ServerTask :=
  sendLoop me server
    ⟨.update server.logicalClock me client, .updating client response, config.serverIDs⟩
    (releaseCriticalSection config me server client response)

/-- `poll` gives null on an empty queue, and the handler dies of it. -/
def checkCriticalSection (server : Server) : Outcome :=
  if isSmallest server.pendingQueue me then
    match server.clientCommands with
    | [] => ⟨server, .failed, .silent, []⟩
    | client :: rest =>
        match OnlineStore.execute4 config.counting client.clientCommand server.store with
        | .error thrown =>
            ⟨{ server with clientCommands := rest }, .failed, .silent,
              [⟨me, client, true, .error thrown⟩]⟩
        | .ok (response, store) =>
            let executed := { server with clientCommands := rest, store }
            ⟨executed, sendUpdate config me executed client response, .silent,
              [⟨me, client, true, .ok response⟩]⟩
  else ⟨server, .closing, .silent, []⟩

def Flow.finish : Flow → Outcome
  | .checking server => checkCriticalSection config me server
  | .done outcome => outcome

/-- The loop of `send` after one peer is done, and what follows the loop. -/
def resume (server : Server) (sending : Sending) : Flow :=
  match nextServer me server sending.rest with
  | some (peer, rest) => stay server (.connecting { sending with rest } peer)
  | none =>
      match sending.purpose with
      | .entering => .checking server
      | .updating client response =>
          stay server (releaseCriticalSection config me server client response)
      | .leaving client response => stay server (.replying client response)

def requestCriticalSection (server : Server) : Flow :=
  resume config me
    { server with pendingQueue := server.pendingQueue ++ [⟨server.logicalClock, me⟩] }
    ⟨.request server.logicalClock me, .entering, config.serverIDs⟩

/-- The last branch of `serviceServerTask`: a client's command. -/
def acceptCommand (server : Server) (command : Text) (socket : Nat) : Flow :=
  let ticked := setLogicalClockInternal config.counting server
  match ticked.clientCommands with
  | [] => requestCriticalSection config me
      { ticked with clientCommands := [⟨command, socket, ⟨ticked.logicalClock, me⟩⟩] }
  | _ :: _ => stay ticked .failed

/-- From `nextLine` to the `println` of the reply, or to the first connection
made for a client. -/
def readLine (server : Server) (command : Text) (socket : Nat) : Flow :=
  let tokens := split ':' command
  match branch tokens with
  | none => stay server .failed
  | some .request =>
      match parsedToken config.counting tokens 1 with
      | none => stay server .failed
      | some sender =>
          stay (setLogicalClockSend config.counting
            (setLogicalClockReceive config.counting sender server)) .answering
  | some .release => stay server .answering
  | some .update => stay server .answering
  | some .client => acceptCommand config me server command socket

def answerText (tokens : List Text) : Text :=
  if branch tokens = some .request then "Acknowledgement".toList else "recieved".toList

/-- The execution that an `Update` line asks for, if it is one. -/
def Line.executedFor (message : Line) (result : Except OnlineStore.Thrown Text) : List Execution :=
  match message with
  | .update _ _ client => [⟨me, client, false, result⟩]
  | _ => []

/-- `execute(tokens[3])` of the `Update` branch. -/
def executeUpdate (server : Server) (message : Line) (tokens : List Text) : Outcome :=
  match tokens[3]? with
  | none => ⟨server, .failed, .silent, []⟩
  | some command =>
      match OnlineStore.execute4 config.counting command server.store with
      | .error thrown => ⟨server, .failed, .silent, message.executedFor me (.error thrown)⟩
      | .ok (response, store) =>
          ⟨{ server with store }, .closing, .silent, message.executedFor me (.ok response)⟩

/-- What follows the `println` of the reply. -/
def handleLine (server : Server) (message : Line) : Flow :=
  let tokens := split ':' message.text
  match branch tokens with
  | some .request =>
      match parsedToken config.counting tokens 1, parsedToken config.counting tokens 2 with
      | some logicalClock, some processID =>
          stay { server with
            pendingQueue := server.pendingQueue ++ [⟨logicalClock, processID⟩] } .closing
      | _, _ => stay server .failed
  | some .release =>
      match parsedToken config.counting tokens 1 with
      | none => stay server .failed
      | some sender =>
          let received := setLogicalClockReceive config.counting sender server
          match parsedToken config.counting tokens 2 with
          | none => stay received .failed
          | some serverID => .checking (removeFirst serverID received)
  | some .update =>
      match parsedToken config.counting tokens 1 with
      | none => stay server .failed
      | some sender =>
          .done (executeUpdate config me (setLogicalClockReceive config.counting sender server)
            message tokens)
  | _ => stay server .failed

end Handlers

end EE360P.ReplicatedServer
