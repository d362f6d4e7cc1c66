import CallWire.Connection.Service

/-!
# CallWire.Connection.Call — sending requests and waiting for replies

A request is checked, encoded, numbered and queued, in this order, and whatever fails on the way
leaves no call behind.  Whoever started a call waits for it, cancels it or drops it.
-/

namespace CallWire

/-- A call that was started. -/
structure PendingCall where
  command : UInt32
  sequence : UInt32
  /-- The slot of its outcome. -/
  slot : Nat
  /-- The type of the reply. -/
  type : PayloadType

/-- Decodes the payload of the reply, if that is the outcome. -/
def PendingCall.result (call : PendingCall) (outcome : Outcome) : Except RpcError Value := do
  (call.type.decode (← outcome)).mapError .codec

namespace Connection

def requireConnected (c : Connection) : Except RpcError Unit :=
  if c.life.isConnected then .ok () else .error .notConnected

/-- Encodes the request and checks its length. -/
def requestPayload (service : Service) (type : PayloadType) (request : Value) :
    Except RpcError Bytes := do
  let payload ← (type.encode request).mapError .codec
  FrameDecoder.checkLength service.config.maxPayloadLength payload.length
  return payload

/-- The checks of `startCall`, with the payload. -/
def prepareCall (service : Service) (c : Connection) (command : UInt32) (types : CommandTypes)
    (request : Value) : Except RpcError Bytes := do
  (← service.protocol.sentTypes command).check command types
  c.requireConnected
  requestPayload service types.request request

/-- The checks of `sendOneWay`, with the payload. -/
def prepareOneWay (service : Service) (c : Connection) (command : UInt32) (type : PayloadType)
    (request : Value) : Except RpcError Bytes := do
  (← service.protocol.sentTypes command).checkRequest command type
  c.requireConnected
  requestPayload service type request

/-- Registers a call and queues its request.  If the queue refuses the request, the call is
forgotten. -/
def register (service : Service) (c : Connection) (command : UInt32) (type : PayloadType)
    (payload : Bytes) : Except RpcError PendingCall × Connection :=
  match c.calls.register service.config.maxPending command with
  | (.error e, calls) => (.error e, { c with calls })
  | (.ok (sequence, slot), calls) =>
    match { c with calls }.enqueue (Frame.image (.request command sequence) payload) with
    | (.ok (), c) => (.ok { command, sequence, slot, type }, c)
    | (.error e, c) => (.error e, { c with calls := c.calls.forget sequence })

def startCall (service : Service) (c : Connection) (command : UInt32) (types : CommandTypes)
    (request : Value) : Except RpcError PendingCall × Connection :=
  match c.prepareCall service command types request with
  | .error e => (.error e, c)
  | .ok payload => c.register service command types.reply payload

/-- Allocates a number for a one-way request, and queues it. -/
def numberOneWay (c : Connection) (command : UInt32) (payload : Bytes) :
    Except RpcError Unit × Connection :=
  let (sequence, calls) := c.calls.nextSequence
  { c with calls }.enqueue (Frame.image (.oneWay command sequence) payload)

def sendOneWay (service : Service) (c : Connection) (command : UInt32) (type : PayloadType)
    (request : Value) : Except RpcError Unit × Connection :=
  match c.prepareOneWay service command type request with
  | .error e => (.error e, c)
  | .ok payload => c.numberOneWay command payload

/-- Cancels the call with this number.  False if none is in flight. -/
def cancel (c : Connection) (sequence : UInt32) : Bool × Connection :=
  let (cancelled, calls) := c.calls.cancel sequence
  (cancelled, { c with calls })

def isResolved (c : Connection) (call : PendingCall) : Bool := c.calls.isResolved call.slot

/-- `wait` where it would return; `none` where it would block. -/
def wait (c : Connection) (call : PendingCall) : Option (Except RpcError Value) × Connection :=
  let (outcome, calls) := c.calls.poll call.slot
  (outcome.map call.result, { c with calls })

/-- `waitTimeout` at its deadline: a call without an outcome is cancelled. -/
def waitUntil (c : Connection) (call : PendingCall) (milliseconds : Nat) :
    Option (Except RpcError Value) × Connection :=
  let (outcome, calls) := c.calls.pollOrCancel call.sequence call.slot milliseconds
  (outcome.map call.result, { c with calls })

/-- Drops a call, which cancels it if it has no outcome. -/
def drop (c : Connection) (call : PendingCall) : Connection :=
  if c.isResolved call then c else (c.cancel call.sequence).2

end Connection

end CallWire
