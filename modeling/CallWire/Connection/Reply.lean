import CallWire.Connection.Service

/-!
# CallWire.Connection.Reply — answering requests

A request is answered by a reply or by an error reply.  A reply that cannot be encoded, or is too
large, is answered by an error reply in its place, so that the caller is not left waiting.
-/

namespace CallWire

def errorImage (command sequence : UInt32) (status : Status) : Bytes :=
  (Frame.errorReply command sequence status.code).toBytes

def replyImage (limit : Nat) (command sequence : UInt32) (payload : Bytes) :
    Except RpcError Bytes := do
  FrameDecoder.checkLength limit payload.length
  return Frame.image (.reply command sequence) payload

namespace ReplyHandle

def ofHeader (header : Header) (type : PayloadType) : ReplyHandle :=
  ⟨header.command, header.sequence, header.expectsReply, type⟩

def enqueueError (h : ReplyHandle) (c : Connection) (status : Status) :
    Except RpcError Unit × Connection :=
  c.enqueue (errorImage h.command h.sequence status)

/-- Answers with a status, `HandlerFailed` for `Ok`. -/
def replyError (h : ReplyHandle) (c : Connection) (status : Status) :
    Except RpcError Unit × Connection :=
  if h.expectsReply then h.enqueueError c status.asFailure else (.ok (), c)

def reply (h : ReplyHandle) (service : Service) (c : Connection) (v : Value) :
    Except RpcError Unit × Connection :=
  if !h.expectsReply then (.ok (), c)
  else
    match h.type.encode v with
    | .error e => (.error (.codec e), (h.enqueueError c .handlerFailed).2)
    | .ok payload =>
      match replyImage service.config.maxPayloadLength h.command h.sequence payload with
      | .ok frame => c.enqueue frame
      | .error e =>
        match h.enqueueError c .frameTooLarge with
        | (.ok (), c) => (.error e, c)
        | (.error full, c) => (.error full, c)

/-- Drops a handle that was not used, which sends `HandlerFailed`. -/
def drop (h : ReplyHandle) (c : Connection) : Connection :=
  if h.expectsReply then (h.enqueueError c .handlerFailed).2 else c

end ReplyHandle

end CallWire
