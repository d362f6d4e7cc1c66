import CallWire.Connection.Exchange
import CallWire.Set.Address
import CallWire.Set.DispatchPool
import CallWire.Set.Registry

/-!
# CallWire.Set.Basic — a connection set

A set has one protocol and one configuration for all its connections, and threads to serve them.
Connections are numbered in the order of their creation.  After every operation the connections
that are served run until nothing more can happen.
-/

namespace CallWire

structure ConnectionSet where
  service : Service
  /-- The context of a connection that is not given its own. -/
  context : String
  pool : DispatchPool Nat := {}
  registry : Registry := {}
  connections : List Connection := []

namespace ConnectionSet

def create (protocol : Protocol) (config : Config) (context : String) :
    Except RpcError ConnectionSet := do
  config.validate
  return { service := { protocol, config }, context }

def createConnection (s : ConnectionSet) (context : String) : Nat × ConnectionSet :=
  (s.connections.length,
    { s with connections := s.connections ++ [Connection.new s.service context] })

def modify (s : ConnectionSet) (i : Nat) (f : Connection → Connection) : ConnectionSet :=
  { s with connections := s.connections.modify i f }

/-- Applies `f` to a connection; `none` if there is no such connection. -/
def update {α : Type} (s : ConnectionSet) (i : Nat) (f : Connection → α × Connection) :
    Option (α × ConnectionSet) :=
  (s.connections[i]?).map fun c =>
    let (a, c) := f c
    (a, { s with connections := s.connections.set i c })

/-- Removes a closed connection from the registry and from its thread. -/
def reap (s : ConnectionSet) (i : Nat) : ConnectionSet :=
  match s.connections[i]? with
  | some c =>
    if c.life.state = .closed then
      { s with registry := s.registry.untrack i, pool := s.pool.finish i }
    else s
  | none => s

/-- Drops the task of a connection. -/
def evict (s : ConnectionSet) (i : Nat) : ConnectionSet := (s.modify i Connection.evict).reap i

/-- Stops all threads, and drops their tasks. -/
def stopDispatch (s : ConnectionSet) : ConnectionSet :=
  let (dropped, pool) := s.pool.stop
  dropped.foldl evict { s with pool }

/-- Runs a connection in this way, if a thread serves it. -/
def runAt (s : ConnectionSet) (run : Service → Connection → Connection) (i : Nat) :
    ConnectionSet :=
  if s.pool.serves i then (s.modify i (run s.service)).reap i else s

def indices (s : ConnectionSet) : List Nat := List.range s.connections.length

def settleAll (s : ConnectionSet) : ConnectionSet :=
  s.indices.foldl (fun s i => s.runAt (fun service c => c.settle service) i) s

def closeAll (s : ConnectionSet) (is : List Nat) : ConnectionSet :=
  is.foldl (fun s i => s.modify i fun c => c.close.2) s

/-- Closes the live connections, lets them write what is queued, and stops the threads.  Only the
first call has an effect. -/
def shutDown (s : ConnectionSet) : ConnectionSet :=
  match s.registry.shutDown with
  | (none, _) => s
  | (some live, registry) => ({ s with registry }.closeAll live).settleAll.stopDispatch

/-- Shuts the set down, if a handler has asked for it. -/
def obeyHandlers (s : ConnectionSet) : ConnectionSet :=
  if s.connections.any (·.shutsDown) then
    let connections : List Connection := s.connections.map fun c => { c with shutsDown := false }
    { s with connections }.shutDown
  else s

def settle (s : ConnectionSet) : ConnectionSet := s.settleAll.obeyHandlers

/-- Hands a connection to a thread. -/
def spawn (s : ConnectionSet) (i : Nat) : ConnectionSet :=
  let (dropped, pool) := s.pool.spawn i
  dropped.foldl evict { s with pool }

/-- A connection has got its socket.  In a set that is shut down it is closed at once. -/
def adopt (s : ConnectionSet) (i : Nat) (hasPeerAddress : Bool) :
    Except RpcError Unit × ConnectionSet :=
  let s := s.modify i (·.establish hasPeerAddress)
  match s.registry.track i with
  | (true, registry) => (.ok (), { s with registry }.spawn i)
  | (false, _) => (.error DispatchPool.stoppedError, s.evict i)

def startDispatch (s : ConnectionSet) (count : Nat) : Except RpcError Unit × ConnectionSet :=
  let waiting := s.pool.backlog
  let (result, pool) := s.pool.start count
  let s := { s with pool }
  (result, (waiting.foldl (fun s i => s.runAt (fun service c => c.begin service) i) s).settle)

def dispatchHere (s : ConnectionSet) (current : ThreadId) :
    Except RpcError Unit × ConnectionSet :=
  let waiting := s.pool.backlog
  let (result, pool) := s.pool.runHere current
  let s := { s with pool }
  (result, (waiting.foldl (fun s i => s.runAt (fun service c => c.begin service) i) s).settle)

def listen (s : ConnectionSet) (address : String) : Except RpcError Unit :=
  if s.registry.isShutDown then .error DispatchPool.stoppedError
  else ((Address.parse address).mapError .io).map fun _ => ()

end ConnectionSet

end CallWire
