import Mathlib.Logic.Function.Basic
import EE360P.ReplicatedServer

/-! project4 as a system: servers, the connections between them, and clients.
A step is one socket operation of one handler, or of one `Client.send`, with
the code up to the next operation; accepting a connection makes a handler for
it. Printed lines are delivered. The `alive` lines of `StillAlive` only keep a
reader waiting. A reader gives up on a peer that crashed or closed the socket
without a reply, and `Client.send` also on one that it has heard nothing from for
100 ms, whatever that one is doing. Between servers no read times out: `StillAlive`
prints every 50 ms there. A crashed server stops for good. -/

namespace EE360P.ServerCluster
open JavaText ReplicatedServer

/-- Who opened a connection: a call of `Client.send`, or a server. -/
inductive Caller where
  | client (call : Nat)
  | server (serverID : Int)
  deriving DecidableEq, Repr

/-- `output` is what the handler's side printed, `alive` lines left out. -/
structure Connection where
  server : Int
  caller : Caller
  message : Line
  written : Bool
  output : List Text
  closed : Bool
  task : ServerTask
  deriving DecidableEq, Repr

inductive Progress where
  | connecting
  | writing (socket : Nat)
  | awaiting (socket : Nat)
  | returned (socket : Nat) (response : Text)
  | exhausted
  deriving DecidableEq, Repr

/-- One call of `Client.send`; `servers` is what is left of the client's list. -/
structure Call where
  command : Text
  servers : List Int
  progress : Progress
  deriving DecidableEq, Repr

structure Cluster where
  server : Int → Server
  connections : List Connection
  calls : List Call
  crashed : List Int
  history : List Execution

def initial (config : Config) : Cluster := ⟨fun _ => config.server, [], [], [], []⟩

section Reading

/-- The line terminators of `Scanner.nextLine`. -/
def lineBreak (c : Char) : Bool :=
  c = '\n' || c = '\r' || c.toNat = 0x2028 || c.toNat = 0x2029 || c.toNat = 0x85

def singleLine (text : Text) : Bool := text.all fun c => !lineBreak c

/-- The loop `while (nextLine().equals("alive"))` over what was printed. -/
def nextReply (output : List Text) : Option Text :=
  (output.flatMap fun text => text.splitOnP lineBreak).find? fun text => text != "alive".toList

/-- `(?i)purchase|cancel|list|search`, matched by the whole text. -/
def isValidCommand (commandArgument : Text) : Bool :=
  ["purchase".toList, "cancel".toList, "list".toList, "search".toList].contains
    (commandArgument.map Char.toLower)

/-- The lines that `Client.execute` sends: read by `nextLine`, first token valid. -/
def accepted (command : Text) : Bool :=
  singleLine command && ((split ' ' command)[0]?).any isValidCommand

end Reading

section Effects

def print (text : Text) (connection : Connection) : Connection :=
  { connection with output := connection.output ++ [text] }

/-- Printing to a socket that this side closed is a caught `IOException`. -/
def printOpen (text : Text) (connection : Connection) : Connection :=
  if connection.closed then connection else print text connection

def write (connection : Connection) : Connection := { connection with written := true }

def close (connection : Connection) : Connection := { connection with closed := true }

def setTask (task : ServerTask) (connection : Connection) : Connection :=
  { connection with task }

def opened (server : Int) (caller : Caller) (message : Line) : Connection :=
  ⟨server, caller, message, false, [], false, .reading⟩

def wired (me : Int) (number : Nat) (connections : List Connection) : Wire → List Connection
  | .silent => connections
  | .answer text => connections.modify number (print text)
  | .opened server message => connections ++ [opened server (.server me) message]
  | .wrote socket => connections.modify socket write
  | .reply socket text => connections.modify socket (printOpen text)
  | .close => connections.modify number close

/-- A handler's step carried out. -/
def Cluster.after (cluster : Cluster) (number : Nat) (me : Int) (outcome : Outcome) : Cluster :=
  { cluster with
    server := Function.update cluster.server me outcome.server
    connections := wired me number (cluster.connections.modify number (setTask outcome.task))
      outcome.wire
    history := cluster.history ++ outcome.executed }

end Effects

section Steps
variable (config : Config)

/-- Whether the one who opened the connection crashed before writing to it. -/
def abandoned (crashed : List Int) (connection : Connection) : Bool :=
  match connection.caller with
  | .client _ => false
  | .server serverID => crashed.contains serverID

/-- The next stretch of the handler of a connection; `none` while it has to wait. -/
def advance (cluster : Cluster) (number : Nat) (connection : Connection) : Option Flow :=
  let me := connection.server
  let server := cluster.server me
  match connection.task with
  | .reading =>
      if connection.written then some (readLine config me server connection.message.text number)
      else if abandoned cluster.crashed connection then some (stay server .failed)
      else none
  | .answering =>
      some (.done ⟨server, .handling,
        .answer (answerText (split ':' connection.message.text)), []⟩)
  | .handling => some (handleLine config me server connection.message)
  | .connecting sending peer =>
      if peer ∈ cluster.crashed then some (resume config me (deprecateServer peer server) sending)
      else some (.done ⟨setLogicalClockSend config.counting server,
        .writing sending peer cluster.connections.length, .opened peer sending.message, []⟩)
  | .writing sending peer socket =>
      some (.done ⟨server, .awaiting sending peer socket, .wrote socket, []⟩)
  | .awaiting sending peer socket =>
      (cluster.connections[socket]?).bind fun target =>
        if (nextReply target.output).isSome then some (resume config me server sending)
        else if target.closed ∨ peer ∈ cluster.crashed then
          some (resume config me (deprecateServer peer server) sending)
        else none
  | .replying client response =>
      some (.done ⟨server, .closing, .reply client.clientSocket response, []⟩)
  | .closing => some (.done ⟨server, .finished, .close, []⟩)
  | .finished => none
  | .failed => none

def setCall (number : Nat) (call : Call) (cluster : Cluster) : Cluster :=
  { cluster with calls := cluster.calls.set number call }

/-- The next socket operation of a call of `Client.send`. -/
def clientStep (cluster : Cluster) (number : Nat) (call : Call) : Option Cluster :=
  match call.progress with
  | .connecting =>
      match call.servers with
      | [] => some (setCall number { call with progress := .exhausted } cluster)
      | server :: rest =>
          if server ∈ cluster.crashed then
            some (setCall number { call with servers := rest } cluster)
          else
            some (setCall number { call with progress := .writing cluster.connections.length }
              { cluster with connections := cluster.connections ++
                  [opened server (.client number) (.command call.command)] })
  | .writing socket =>
      some (setCall number { call with progress := .awaiting socket }
        { cluster with connections := cluster.connections.modify socket write })
  | .awaiting socket =>
      (cluster.connections[socket]?).bind fun target =>
        match nextReply target.output with
        | some response =>
            some (setCall number { call with progress := .returned socket response } cluster)
        | none =>
            if target.closed ∨ target.server ∈ cluster.crashed then
              some (setCall number { call with
                servers := call.servers.tail, progress := .connecting } cluster)
            else none
  | .returned _ _ => none
  | .exhausted => none

/-- A read of `Client.send` for which nothing comes in 100 ms. -/
def timeOut (cluster : Cluster) (number : Nat) (call : Call) : Option Cluster :=
  match call.progress with
  | .awaiting socket =>
      (cluster.connections[socket]?).bind fun target =>
        if nextReply target.output = none then
          some (setCall number { call with
            servers := call.servers.tail, progress := .connecting } cluster)
        else none
  | _ => none

inductive Action where
  | submit (command : Text) (servers : List Int)
  | client (call : Nat)
  | timeout (call : Nat)
  | server (connection : Nat)
  | crash (serverID : Int)
  deriving DecidableEq, Repr

def step (cluster : Cluster) : Action → Option Cluster
  | .submit command servers =>
      if accepted command ∧ ∀ server ∈ servers, server ∈ config.serverIDs then
        some { cluster with calls := cluster.calls ++ [⟨command, servers, .connecting⟩] }
      else none
  | .client number => (cluster.calls[number]?).bind (clientStep cluster number)
  | .timeout number => (cluster.calls[number]?).bind (timeOut cluster number)
  | .server number =>
      (cluster.connections[number]?).bind fun connection =>
        if connection.server ∈ cluster.crashed then none
        else (advance config cluster number connection).map fun flow =>
          cluster.after number connection.server (flow.finish config connection.server)
  | .crash serverID =>
      if serverID ∈ config.serverIDs then
        some { cluster with crashed := serverID :: cluster.crashed }
      else none

end Steps

end EE360P.ServerCluster
