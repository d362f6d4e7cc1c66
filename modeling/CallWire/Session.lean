import CallWire.Set.Basic
import CallWire.Set.Network

/-!
# CallWire.Session — a connection set and the raw peers at the other ends

A session plays an application and its peers at once.  The peers write bytes, well-formed or not;
the application opens connections, starts calls and answers requests.  Every step runs until
nothing more can happen.
-/

namespace CallWire

/-- How a connection gets its socket. -/
inductive Transport
  /-- One end of a pair of sockets. -/
  | pair
  /-- A socket path at which the peer listens. -/
  | path
  /-- A path that does not exist. -/
  | missingPath (path : String)
  /-- A network address at which the peer listens. -/
  | listener
  /-- A connected network socket. -/
  | connected
  /-- A network address at which nobody listens. -/
  | nobody
  /-- An empty list of addresses. -/
  | noAddress
  | address (text : String)
  | untried

/-- Why a step cannot be performed. -/
inductive SessionFault
  | noConnection
  | noCall
  | peerSocket (detail : String)
  deriving DecidableEq, Repr

namespace SessionFault

def text : SessionFault → String
  | noConnection => "no such connection"
  | noCall => "no such call"
  | peerSocket detail => s!"io: {detail}"

end SessionFault

/-- The peer's end of a connection. -/
structure Peer where
  isPresent : Bool := false
  sawEnd : Bool := false
  deriving DecidableEq, Repr

structure StartedCall where
  connection : Nat
  call : PendingCall
  /-- Whether it was neither waited for nor dropped. -/
  isOpen : Bool := true

/-- A reply handle that a handler has kept. -/
structure KeptHandle where
  connection : Nat
  handle : ReplyHandle
  /-- Whether it was not used. -/
  isOpen : Bool := true

/-- What is observed of a connection after a step. -/
structure View where
  state : ConnectionState
  reason : Option DisconnectReason
  pending : Nat
  eventsStopped : Bool
  received : Bytes
  peerSawEnd : Bool
  events : List Event

/-- The result of waiting for a call. -/
inductive Waited
  | unresolved
  /-- The call was waited for or dropped before. -/
  | gone
  | done (type : PayloadType) (result : Except RpcError Value)

/-- A connection set with its application and the peers. -/
structure Session where
  set : ConnectionSet
  network : Network
  peers : List Peer := []
  calls : List StartedCall := []
  handles : List KeptHandle := []

namespace Session

def create (network : Network) (protocol : Protocol) (config : Config) (context : String)
    (threads : Nat) : Except RpcError Session := do
  let set ← ConnectionSet.create protocol config context
  let set := if threads = 0 then set else (set.startDispatch threads).2
  return { set, network }

/-- Runs all connections, and takes over the handles that handlers have kept. -/
def settle (s : Session) : Session :=
  let set := s.set.settle
  let kept := set.connections.zipIdx.flatMap fun (c, i) =>
    c.kept.map fun handle => { connection := i, handle }
  { s with
    set := { set with connections := set.connections.map fun c => { c with kept := [] } }
    handles := s.handles ++ kept }

/-- Applies `f` to a connection. -/
def update {α : Type} (s : Session) (i : Nat) (f : Connection → α × Connection) :
    Except SessionFault (α × Session) :=
  match s.set.update i f with
  | some (a, set) => .ok (a, { s with set }.settle)
  | none => .error .noConnection

/-! ### Opening connections -/

def attachPeer (s : Session) (i : Nat) : Session :=
  { s with peers := s.peers.modify i fun p => { p with isPresent := true } }

/-- A claimed connection gets its socket. -/
def adopt (s : Session) (i : Nat) (hasPeerAddress : Bool) : Except RpcError Unit × Session :=
  match s.set.adopt i hasPeerAddress with
  | (.ok (), set) => (.ok (), ({ s with set }.attachPeer i).settle)
  | (.error e, set) => (.error e, { s with set }.settle)

/-- A claimed connection gets no socket. -/
def abandon (s : Session) (i : Nat) (detail : String) : Except RpcError Unit × Session :=
  (.error (.connectFailed detail), { s with set := s.set.modify i Connection.abandon })

/-- A claimed connection tries to connect over the network. -/
def connect (s : Session) (i : Nat) (isListening : Bool) : Except RpcError Unit × Session :=
  match s.network.connect isListening with
  | .ok () => s.adopt i true
  | .error detail => s.abandon i detail

/-- What a claimed connection does. -/
def attempt (s : Session) (i : Nat) : Transport → Except RpcError Unit × Session
  | .pair => s.adopt i false
  | .path | .connected => s.adopt i true
  | .missingPath path => s.abandon i s!"{path}: No such file or directory (os error 2)"
  | .listener => s.connect i true
  | .nobody => s.connect i false
  | .noAddress => s.abandon i "address resolved to nothing"
  | .address text =>
    match Address.parse text with
    | .error detail => s.abandon i s!"invalid address: {detail}"
    | .ok _ => s.connect i false
  | .untried => (.ok (), s)

/-- What is checked before a connection is claimed. -/
def requirePeer (s : Session) : Transport → Except SessionFault Unit
  | .connected => (s.network.connect true).mapError .peerSocket
  | _ => .ok ()

def bind (s : Session) (i : Nat) (transport : Transport) :
    Except SessionFault (Except RpcError Unit × Session) := do
  s.requirePeer transport
  if transport matches .untried then return (.ok (), s)
  match s.set.update i Connection.claim with
  | none => .error .noConnection
  | some (.error e, _) => return (.error e, s)
  | some (.ok (), set) => return { s with set }.attempt i transport

def openConnection (s : Session) (context : Option String) (transport : Transport) :
    Except SessionFault (Except RpcError Unit × Session) :=
  let (i, set) := s.set.createConnection (context.getD s.set.context)
  bind { s with set, peers := s.peers ++ [{}] } i transport

/-! ### The peers -/

def peer (s : Session) (i : Nat) : Peer := s.peers.getD i {}

def modifySocket (s : Session) (i : Nat) (f : Socket → Socket) : Session :=
  { s with set := s.set.modify i fun c => { c with socket := f c.socket } }.settle

/-- The peer writes.  False if it cannot. -/
def peerSend (s : Session) (i : Nat) (bs : Bytes) : Bool × Session :=
  match s.set.connections[i]? with
  | some c =>
    if (s.peer i).isPresent then
      match c.socket.peerWrite bs with
      | some socket => (true, s.modifySocket i fun _ => socket)
      | none => (false, s)
    else (false, s)
  | none => (false, s)

/-- The peer writes these chunks, as long as it can. -/
def peerSendAll (s : Session) (i : Nat) : List Bytes → Bool × Session
  | [] => ((s.peer i).isPresent, s)
  | chunk :: chunks =>
    match s.peerSend i chunk with
    | (true, s) => s.peerSendAll i chunks
    | (false, s) => (false, s)

def detachPeer (s : Session) (i : Nat) (f : Socket → Socket) : Session :=
  let s := { s with peers := s.peers.modify i fun p => { p with isPresent := false } }
  s.modifySocket i f

def peerClose (s : Session) (i : Nat) : Session :=
  if (s.peer i).isPresent then s.detachPeer i Socket.peerClose else s

def peerReset (s : Session) (i : Nat) : Bool × Session :=
  if (s.peer i).isPresent then (true, s.detachPeer i Socket.peerReset) else (false, s)

def peerShutDown (s : Session) (i : Nat) (writing reading : Bool) : Bool × Session :=
  if (s.peer i).isPresent then
    (true, s.modifySocket i fun socket =>
      let socket := if writing then socket.peerShutWrite else socket
      if reading then socket.peerShutRead else socket)
  else (false, s)

/-! ### Calls -/

/-- Starts a call: its number among the calls of the session. -/
def startCall (s : Session) (i : Nat) (command : UInt32) (types : CommandTypes)
    (request : Value) : Except SessionFault (Except RpcError (Nat × PendingCall) × Session) := do
  match ← s.update i fun c => c.startCall s.set.service command types request with
  | (.ok call, s) =>
    return (.ok (s.calls.length, call), { s with calls := s.calls ++ [{ connection := i, call }] })
  | (.error e, s) => return (.error e, s)

/-- Starts calls and drops each at once, also where one could not be started: the result of the
last. -/
def churn (s : Session) (i : Nat) (command : UInt32) (types : CommandTypes) (request : Value) :
    (count : Nat) → Except RpcError (Option UInt32) →
    Except SessionFault (Except RpcError (Option UInt32) × Session)
  | 0, last => .ok (last, s)
  | count + 1, _ => do
    match ← s.update i fun c => c.startCall s.set.service command types request with
    | (.ok call, s) =>
      let (_, s) ← s.update i fun c => ((), c.drop call)
      s.churn i command types request count (.ok (some call.sequence))
    | (.error e, s) => s.churn i command types request count (.error e)

def sendOneWay (s : Session) (i : Nat) (command : UInt32) (type : PayloadType)
    (request : Value) : Except SessionFault (Except RpcError Unit × Session) :=
  s.update i fun c => c.sendOneWay s.set.service command type request

def call (s : Session) (n : Nat) : Except SessionFault StartedCall :=
  match s.calls[n]? with
  | some call => .ok call
  | none => .error .noCall

def closeCall (s : Session) (n : Nat) : Session :=
  { s with calls := s.calls.modify n fun c => { c with isOpen := false } }

/-- Waits for a call by `f`.  A call that has an outcome is gone afterwards. -/
def waitWith (s : Session) (n : Nat)
    (wait : Connection → PendingCall → Option (Except RpcError Value) × Connection) :
    Except SessionFault (Waited × Session) := do
  let started ← s.call n
  if !started.isOpen then return (.gone, s)
  match ← s.update started.connection fun c => wait c started.call with
  | (none, s) => return (.unresolved, s)
  | (some result, s) => return (.done started.call.type result, s.closeCall n)

/-- Waits for a call, without blocking. -/
def wait (s : Session) (n : Nat) : Except SessionFault (Waited × Session) :=
  s.waitWith n fun c call => c.wait call

def waitUntil (s : Session) (n : Nat) (milliseconds : Nat) :
    Except SessionFault (Waited × Session) :=
  s.waitWith n fun c call => c.waitUntil call milliseconds

/-- Cancels a call through a handle, also where the call is gone. -/
def cancelByHandle (s : Session) (n : Nat) : Except SessionFault (Bool × Session) := do
  let started ← s.call n
  s.update started.connection fun c => c.cancel started.call.sequence

/-- Cancels a call; `none` if it is gone. -/
def cancel (s : Session) (n : Nat) : Except SessionFault (Option Bool × Session) := do
  if !(← s.call n).isOpen then return (none, s)
  let (cancelled, s) ← s.cancelByHandle n
  return (some cancelled, s)

/-- Drops a call.  False if it was gone. -/
def dropCall (s : Session) (n : Nat) : Except SessionFault (Bool × Session) := do
  let started ← s.call n
  if !started.isOpen then return (false, s)
  let ((), s) ← s.update started.connection fun c => ((), c.drop started.call)
  return (true, s.closeCall n)

/-- The calls that have an outcome and are not gone. -/
def resolved (s : Session) : List Nat :=
  (s.calls.zipIdx.filter fun (started, _) =>
    started.isOpen &&
      (s.set.connections[started.connection]?).any (·.isResolved started.call)).map (·.2)

/-! ### Kept reply handles -/

/-- Applies `f` to a kept handle; `none` if there is none. -/
def withHandle {α : Type} (s : Session) (n : Nat)
    (use : ReplyHandle → Connection → α × Connection) :
    Except SessionFault (Option α × Session) := do
  match s.handles[n]? with
  | none => return (none, s)
  | some kept =>
    if !kept.isOpen then return (none, s)
    let s := { s with handles := s.handles.modify n fun h => { h with isOpen := false } }
    let (a, s) ← s.update kept.connection (use kept.handle)
    return (some a, s)

def handleType (s : Session) (n : Nat) : Option PayloadType :=
  (s.handles[n]?).map (·.handle.type)

def reply (s : Session) (n : Nat) (v : Value) :
    Except SessionFault (Option (Except RpcError Unit) × Session) :=
  s.withHandle n fun h c => h.reply s.set.service c v

def replyError (s : Session) (n : Nat) (status : Status) :
    Except SessionFault (Option (Except RpcError Unit) × Session) :=
  s.withHandle n fun h c => h.replyError c status

def dropHandle (s : Session) (n : Nat) : Except SessionFault (Option ReplyHandle × Session) :=
  s.withHandle n fun h c => (h, h.drop c)

/-! ### The set -/

def startDispatch (s : Session) (count : Nat) : Except RpcError Unit × Session :=
  let (result, set) := s.set.startDispatch count
  (result, { s with set }.settle)

def dispatchHere (s : Session) (current : ThreadId) : Except RpcError Unit × Session :=
  let (result, set) := s.set.dispatchHere current
  (result, { s with set }.settle)

def shutDown (s : Session) : Session := { s with set := s.set.shutDown }.settle

/-! ### What is seen -/

def notice (s : Session) : Session :=
  { s with peers := s.peers.zipIdx.map fun (peer, i) =>
      match s.set.connections[i]? with
      | some c =>
        { peer with
          sawEnd := peer.sawEnd || peer.isPresent && (c.socket.isDone || c.socket.peerDeaf) }
      | none => peer }

/-- What is observed of the connections since the last time. -/
def observe (s : Session) : List View × Session :=
  let s := s.notice
  let views := s.set.connections.zipIdx.map fun (c, i) =>
    { state := c.life.state
      reason := c.life.reason
      pending := c.calls.pending
      eventsStopped := c.eventsStopped
      received := c.socket.delivered
      peerSawEnd := (s.peer i).sawEnd
      events := c.events : View }
  let connections := s.set.connections.map fun c =>
    { c with socket := c.socket.collect.2, events := [] }
  (views, { s with set := { s.set with connections } })

end Session

end CallWire
