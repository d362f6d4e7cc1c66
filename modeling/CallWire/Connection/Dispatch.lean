import CallWire.Connection.Call
import CallWire.Connection.Reply

/-!
# CallWire.Connection.Dispatch — processing an inbound frame

A request goes to the handler of its command, a reply to the call it answers.  A peer that breaks
the protocol in a way that leaves the framing intact is reported and answered, and the session goes
on.
-/

namespace CallWire

/-- The result of handling a request. -/
inductive Answer
  | reply (payload : Bytes)
  | error (status : Status)
  | deferred
  deriving DecidableEq, Repr

namespace Connection

/-- The operation of a handler on its connection. -/
def act (service : Service) (c : Connection) : Effect → Except RpcError Unit × Connection
  | .stopEvents => c.stopEvents
  | .startEvents => c.startEvents
  | .close => c.close
  | .notify command type note => c.sendOneWay service command type note
  | .call command types request =>
    let (result, c) := c.startCall service command types request
    (result.map fun _ => (), c)
  | .shutDown => (.ok (), { c.close.2 with shutsDown := true })

/-- Runs a handler's operations on its connection, and records their results. -/
def carryOut {α : Type} (service : Service) (c : Connection) : Conduct α → α × Connection
  | .done result => (result, c)
  | .act effect next =>
    let (result, c) := c.act service effect
    let c := c.record (.acted result)
    c.carryOut service (next result c)

/-- What a deferred handler does with its handle, and the result it gets. -/
def useHandle (service : Service) (c : Connection) (handle : ReplyHandle) :
    HandleUse → Except RpcError Unit × Connection
  | .keep => (.ok (), { c with kept := c.kept ++ [handle] })
  | .reply v =>
    let (result, c) := handle.reply service c v
    (result, c.record (.replied result))
  | .replyElsewhere v => (.ok (), (handle.reply service c v).2)
  | .error status =>
    let (result, c) := handle.replyError c status
    (result, c.record (.replied result))
  | .drop => (.ok (), handle.drop c)

def inlineAnswer (type : PayloadType) : InlineResult → Answer
  | .reply v =>
    match type.encode v with
    | .ok payload => .reply payload
    | .error _ => .error .handlerFailed
  | .error status => .error status.asFailure
  | .crash => .error .handlerFailed

def runInline (service : Service) (c : Connection) (type : PayloadType) (request : Value)
    (run : Connection → Value → Conduct InlineResult) : InlineResult × Connection :=
  let c := c.record (.handled type request)
  c.carryOut service (run c request)

/-- Runs a deferred handler up to the use of its handle. -/
def runDeferred (service : Service) (c : Connection) (type : PayloadType) (request : Value)
    (handle : ReplyHandle) (run : Connection → Value → ReplyHandle → Conduct Release) :
    Release × Connection :=
  let c := c.record (.deferred type request handle)
  c.carryOut service (run c request handle)

/-- Runs a deferred handler from the use of its handle on. -/
def finishDeferred (service : Service) (c : Connection) (handle : ReplyHandle)
    (release : Release) : Connection :=
  let (result, c) := c.useHandle service handle release.use
  (c.carryOut service (release.after result c)).2

def runHandler (service : Service) (c : Connection) (entry : HandledCommand) (header : Header)
    (request : Value) : Answer × Connection :=
  match entry.handler with
  | .inline run =>
    let (result, c) := c.runInline service entry.types.request request run
    (inlineAnswer entry.types.reply result, c)
  | .deferred run =>
    let handle := ReplyHandle.ofHeader header entry.types.reply
    let (release, c) := c.runDeferred service entry.types.request request handle run
    (.deferred, c.finishDeferred service handle release)

/-- Decodes a request and runs the handler of its command. -/
def invoke (service : Service) (c : Connection) (entry : HandledCommand) (header : Header)
    (payload : Bytes) : Answer × Connection :=
  match entry.types.request.decode payload with
  | .error _ => (.error .malformedPayload, c)
  | .ok request => c.runHandler service entry header request

/-- `invoke` with the reports about a command that is unknown or a payload that is malformed. -/
def answer (service : Service) (c : Connection) (frame : Frame) : Answer × Connection :=
  let h := frame.header
  if Flag.error.isIn h.flags then
    (.error .malformedPayload, c.record (.problem
      s!"request {h.sequence.toNat} for command {h.command.toNat} carries the error flag"))
  else
    match service.protocol.handled.get? h.command with
    | none =>
      (.error .unknownCommand,
        c.record (.problem s!"request for unknown command {h.command.toNat}"))
    | some entry =>
      match c.invoke service entry h frame.payload with
      | (.error .malformedPayload, c) =>
        (.error .malformedPayload,
          c.record (.problem s!"malformed request payload for command {h.command.toNat}"))
      | result => result

/-- The frame that is sent for an answer.  A reply above the limit becomes an error reply. -/
def answerImage (limit : Nat) (command sequence : UInt32) : Answer → Option Bytes
  | .reply payload =>
    match replyImage limit command sequence payload with
    | .ok frame => some frame
    | .error _ => some (errorImage command sequence .frameTooLarge)
  | .error status => some (errorImage command sequence status)
  | .deferred => none

/-- Handles a request: the frame to answer it with, if it is answered inline. -/
def handleRequest (service : Service) (c : Connection) (frame : Frame) :
    Option Bytes × Connection :=
  let (answer, c) := c.answer service frame
  let h := frame.header
  if h.expectsReply then
    (answerImage service.config.maxPayloadLength h.command h.sequence answer, c)
  else (none, c)

/-- The outcome of a call by its reply, and the report about a reply that is malformed. -/
def replyOutcome (entry : Entry) (frame : Frame) : Outcome × Option String :=
  let h := frame.header
  if entry.command ≠ h.command then
    let text := s!"reply {h.sequence.toNat} names command {h.command.toNat} but the request was for command {entry.command.toNat}"
    (.error (.malformedFrame text), some text)
  else if h.kind = .errorReply then
    match frame.statusCode with
    | .ok code => (.error (.remote (.ofCode code)), none)
    | .error e => (.error e, some e.text)
  else (.ok frame.payload, none)

/-- Resolves the call that a reply belongs to. -/
def handleReply (c : Connection) (frame : Frame) : Connection :=
  match c.calls.resolve frame.header.sequence with
  | (.pending entry, calls) =>
    let (outcome, report) := replyOutcome entry frame
    let c := { c with calls := (calls.complete entry.slot outcome).2 }
    match report with
    | some text => c.record (.problem text)
    | none => c
  | (.cancelled, calls) => { c with calls }
  | (.unknown, calls) =>
    { c with calls }.record
      (.problem s!"reply {frame.header.sequence.toNat} matches no pending call")

/-- Handles a frame: the frame to answer it with, if there is one. -/
def handleFrame (service : Service) (c : Connection) (frame : Frame) :
    Option Bytes × Connection :=
  if frame.header.isRequest then c.handleRequest service frame
  else (none, c.handleReply frame)

end Connection

end CallWire
