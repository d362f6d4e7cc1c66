import CallWire.Connection.Lifecycle
import CallWire.Connection.Outbound
import CallWire.Connection.Socket
import CallWire.Frame.Decoder
import CallWire.Pending.Calls
import CallWire.Protocol.PayloadType

/-!
# CallWire.Connection.Basic — one end of a session

A connection joins its state, its pending calls, its outbound queue and the part of the inbound
stream that has not been processed.  What the application gets to see while requests are handled
is recorded as events, in order.
-/

namespace CallWire

/-- What a deferred handler gets to answer one request with. -/
structure ReplyHandle where
  command : UInt32
  sequence : UInt32
  expectsReply : Bool
  type : PayloadType

/-- What an application is told by the callbacks of a connection, or by a handler's calls. -/
inductive Event
  | handled (type : PayloadType) (request : Value)
  | deferred (type : PayloadType) (request : Value) (handle : ReplyHandle)
  /-- The result of an operation of a handler on its connection. -/
  | acted (result : Except RpcError Unit)
  /-- The result of what a deferred handler did with its handle. -/
  | replied (result : Except RpcError Unit)
  /-- Reported to the `ioerr` callback. -/
  | problem (text : String)
  | disconnected (reason : DisconnectReason)

/-- One end of a session. -/
structure Connection where
  context : String
  outbound : Outbound
  decoder : FrameDecoder
  life : Lifecycle := {}
  calls : Calls := {}
  /-- Bytes read and not decoded yet. -/
  buffer : Bytes := []
  /-- A request that was read while events were stopped. -/
  held : Option Frame := none
  eventsStopped : Bool := false
  socket : Socket := {}
  /-- Whether the socket has a peer address, as those of the network do. -/
  hasPeerAddress : Bool := false
  /-- The handles that deferred handlers have kept, oldest first. -/
  kept : List ReplyHandle := []
  /-- The events not observed yet, oldest first. -/
  events : List Event := []
  /-- A handler has shut the set down. -/
  shutsDown : Bool := false

namespace Connection

def record (c : Connection) (e : Event) : Connection := { c with events := c.events ++ [e] }

/-- Begins `bind` or `connect`, which may be tried once. -/
def claim (c : Connection) : Except RpcError Unit × Connection :=
  let (result, life) := c.life.claim
  (result, { c with life })

/-- `bind` or `connect` has failed. -/
def abandon (c : Connection) : Connection :=
  { c with life := c.life.abandon, calls := c.calls.drain.2 }

/-- `bind` or `connect` has succeeded. -/
def establish (c : Connection) (hasPeerAddress : Bool) : Connection :=
  { c with life := c.life.establish, hasPeerAddress }

/-- Queues a frame without waiting for room. -/
def enqueue (c : Connection) (frame : Bytes) : Except RpcError Unit × Connection :=
  if c.life.isConnected then
    let (result, outbound) := c.outbound.offer frame
    (result, { c with outbound })
  else (.error .notConnected, c)

/-- Queues the reply of an inline handler, which waits for room.  It is dropped unless the
connection is connected. -/
def sendReply (c : Connection) (frame : Bytes) : Connection :=
  if c.life.isConnected then { c with outbound := c.outbound.await frame } else c

/-- Starts closing the connection.  Frames that are queued are still written. -/
def close (c : Connection) : Except RpcError Unit × Connection :=
  match c.life.close with
  | (.ok (), life) => (.ok (), { c with life, outbound := c.outbound.drain })
  | (.error e, life) => (.error e, { c with life })

/-- Ends a live connection without writing what is queued. -/
def fail (c : Connection) (reason : DisconnectReason) : Connection :=
  match c.life.state with
  | .connected | .closing =>
    { c with life := c.life.fail reason, outbound := c.outbound.halt }
  | .connecting | .closed => c

/-- Closes the connection, drains its calls and reports the disconnection, once. -/
def finish (c : Connection) (reason : DisconnectReason) : Connection :=
  match c.life.finish reason with
  | (none, _) => c
  | (some reason, life) =>
    { c with
      life
      outbound := c.outbound.stop
      calls := c.calls.drain.2
      held := none
      socket := c.socket.release }.record (.disconnected reason)

def stopEvents (c : Connection) : Except RpcError Unit × Connection :=
  if !c.life.isConnected then (.error .notConnected, c)
  else if c.eventsStopped then (.error (.invalidArgument "events are already stopped"), c)
  else (.ok (), { c with eventsStopped := true })

def startEvents (c : Connection) : Except RpcError Unit × Connection :=
  if !c.life.isConnected then (.error .notConnected, c)
  else if !c.eventsStopped then (.error (.invalidArgument "events are not stopped"), c)
  else (.ok (), { c with eventsStopped := false })

end Connection

end CallWire
