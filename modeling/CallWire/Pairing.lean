import CallWire.Set.Basic
import CallWire.Set.Network

/-!
# CallWire.Pairing — two connection sets joined over the network

One set listens, the other connects.  Connections of the same number are the two ends of one
stream: what either writes arrives at the other.  An operation lets the two ends talk until neither
has anything to say, unless it says otherwise.
-/

namespace CallWire

inductive Side
  | client
  | server
  deriving DecidableEq, Repr

structure Request where
  connection : Nat
  command : UInt32
  types : CommandTypes
  value : Value

/-- A client set and a server set. -/
structure Pairing where
  client : ConnectionSet
  server : ConnectionSet
  network : Network
  acceptContext : String
  isListening : Bool := true

namespace Pairing

def create (network : Network) (client server : ConnectionSet) (clientThreads serverThreads : Nat)
    (acceptContext : Option String) : Pairing :=
  { client := (client.startDispatch clientThreads).2
    server := (server.startDispatch serverThreads).2
    network
    acceptContext := acceptContext.getD server.context }

def set (p : Pairing) : Side → ConnectionSet
  | .client => p.client
  | .server => p.server

def setAt (p : Pairing) : Side → ConnectionSet → Pairing
  | .client, client => { p with client }
  | .server, server => { p with server }

/-! ### What goes over the network -/

/-- Delivers what either end has written. -/
def exchange (c s : Connection) : Connection × Connection :=
  ({ c with socket := (c.socket.receiveFrom s.socket).collect.2 },
    { s with socket := (s.socket.receiveFrom c.socket).collect.2 })

/-- Delivers what was written on any stream, and runs both sets on it. -/
def round (p : Pairing) : Pairing :=
  let ends := List.zipWith exchange p.client.connections p.server.connections
  { p with
    client := { p.client with connections := ends.unzip.1 }.settle
    server := { p.server with connections := ends.unzip.2 }.settle }

def rounds : (count : Nat) → Pairing → Pairing
  | 0, p => p
  | count + 1, p => rounds count p.round

/-- A bound on the rounds of an exchange that ends.  A request whose handler sends another takes a
round, and if as many follow one another as there are handlers, one of these has come up twice and
the exchange does not end.  The rest is for replies and closing. -/
def roundBound (p : Pairing) : Nat :=
  p.client.service.protocol.handled.commands.length +
    p.server.service.protocol.handled.commands.length + 4

/-- Rounds until nothing is left to deliver. -/
def settle (p : Pairing) : Pairing :=
  let p := { p with client := p.client.settle, server := p.server.settle }
  p.rounds p.roundBound

/-- Applies `f` to a connection before anything is sent; `none` if there is no such connection. -/
def updateAt {α : Type} (p : Pairing) (side : Side) (i : Nat) (f : Connection → α × Connection) :
    Option (α × Pairing) :=
  ((p.set side).update i f).map fun (a, set) => (a, p.setAt side set)

/-- Applies `f` to a connection; `none` if there is no such connection. -/
def update {α : Type} (p : Pairing) (side : Side) (i : Nat) (f : Connection → α × Connection) :
    Option (α × Pairing) :=
  (p.updateAt side i f).map fun (a, p) => (a, p.settle)

/-! ### Connecting -/

/-- Adds a connection with its socket to the set. -/
def attach (s : ConnectionSet) (context : String) : Except RpcError ConnectionSet :=
  let (i, s) := s.createConnection context
  match (s.modify i fun c => c.claim.2).adopt i true with
  | (.ok (), s) => .ok s
  | (.error e, _) => .error e

def connect (p : Pairing) (context : Option String) : Except RpcError Pairing := do
  (p.network.connect p.isListening).mapError .connectFailed
  let client ← attach p.client (context.getD p.client.context)
  let server ← attach p.server p.acceptContext
  return { p with client, server }.settle

def newestContexts (p : Pairing) : Option (String × String) := do
  return ((← p.client.connections.getLast?).context, (← p.server.connections.getLast?).context)

def closeListeners (p : Pairing) : Pairing := { p with isListening := false }

/-! ### Calling -/

def sendOneWay (p : Pairing) (side : Side) (i : Nat) (command : UInt32) (type : PayloadType)
    (request : Value) : Option (Except RpcError Unit × Pairing) :=
  p.update side i fun c => c.sendOneWay (p.set side).service command type request

/-- Starts a call before anything is sent. -/
def start (p : Pairing) (side : Side) (r : Request) :
    Option (Except RpcError PendingCall × Pairing) :=
  p.updateAt side r.connection fun c =>
    c.startCall (p.set side).service r.command r.types r.value

/-- Waits for a call, without a limit or for some time; `none` if it never gets an outcome. -/
def wait (p : Pairing) (side : Side) (i : Nat) (call : PendingCall) (milliseconds : Option Nat) :
    Option (Except RpcError Value × Pairing) := do
  let (outcome, p) ← p.update side i fun c =>
    match milliseconds with
    | some ms => c.waitUntil call ms
    | none => c.wait call
  return (← outcome, p)

/-- Starts a call and waits for it; `none` if it never gets an outcome. -/
def call (p : Pairing) (side : Side) (r : Request) (milliseconds : Option Nat) :
    Option (Except RpcError Value × Pairing) := do
  match ← p.start side r with
  | (.ok call, p) => p.settle.wait side r.connection call milliseconds
  | (.error e, p) => return (.error e, p.settle)

/-- The connection of a call, and the call if it was started. -/
abbrev Started := Nat × Except RpcError PendingCall

/-- Starts calls of the client before anything is sent. -/
def startAll (p : Pairing) : List Request → Option (List Started × Pairing)
  | [] => some ([], p)
  | r :: rs => do
    let (result, p) ← p.start .client r
    let (results, p) ← p.startAll rs
    return ((r.connection, result) :: results, p)

/-- Waits for calls of the client in this order; `none` for a call that was waited for before. -/
def waitAll (p : Pairing) (started : List Started) (waited : List Nat) :
    List Nat → Option (List (Option (PayloadType × Except RpcError Value)) × Pairing)
  | [] => some ([], p)
  | n :: ns => do
    match started[n]? with
    | some (i, .ok call) =>
      if waited.contains n then
        let (results, p) ← p.waitAll started waited ns
        return (none :: results, p)
      else
        let (result, p) ← p.wait .client i call none
        let (results, p) ← p.waitAll started (n :: waited) ns
        return (some (call.type, result) :: results, p)
    | _ =>
      let (results, p) ← p.waitAll started waited ns
      return (none :: results, p)

/-! ### Closing -/

def reasons (p : Pairing) (i : Nat) : Option DisconnectReason × Option DisconnectReason :=
  let reason (s : ConnectionSet) := (s.connections[i]?).bind (·.life.reason)
  (reason p.client, reason p.server)

def allReasons (p : Pairing) : List (Option DisconnectReason × Option DisconnectReason) :=
  p.client.indices.map p.reasons

def close (p : Pairing) (side : Side) (i : Nat) : Option (Except RpcError Unit × Pairing) :=
  p.update side i Connection.close

def closeAll (p : Pairing) : Pairing :=
  { p with client := p.client.closeAll p.client.indices }.settle

/-- Shuts the set at one end down, the listener of the server included. -/
def shutDown (p : Pairing) (side : Side) : Pairing :=
  let p := if side = .server then p.closeListeners else p
  (p.setAt side (p.set side).shutDown).settle

end Pairing

end CallWire
