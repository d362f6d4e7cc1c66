import CallWire.Codec.Error
import CallWire.Status

/-!
# CallWire.RpcError — why a call, a frame or a connection failed

One constructor per cause; the wording is in `RpcError.text`, and `RpcError.status` is the status
that an application would report for it.
-/

namespace CallWire

inductive RpcError
  | unknownCommand (command : UInt32)
  | codec (cause : CodecError)
  | malformedFrame (detail : String)
  | frameTooLarge (length limit : Nat)
  | notConnected
  | connectFailed (detail : String)
  | disconnected
  | cancelled
  | timeout (milliseconds : Nat)
  | handlerFailed (detail : String)
  | invalidProtocol (command : UInt32) (detail : String)
  | invalidArgument (detail : String)
  | queueFull (limit : Nat)
  /-- The peer answered with this status. -/
  | remote (status : Status)
  | io (detail : String)
  deriving DecidableEq, Repr

namespace RpcError

def name : RpcError → String
  | unknownCommand _ => "UnknownCommand"
  | codec _ => "Codec"
  | malformedFrame _ => "MalformedFrame"
  | frameTooLarge _ _ => "FrameTooLarge"
  | notConnected => "NotConnected"
  | connectFailed _ => "ConnectFailed"
  | disconnected => "Disconnected"
  | cancelled => "Cancelled"
  | timeout _ => "Timeout"
  | handlerFailed _ => "HandlerFailed"
  | invalidProtocol _ _ => "InvalidProtocol"
  | invalidArgument _ => "InvalidArgument"
  | queueFull _ => "QueueFull"
  | remote _ => "Remote"
  | io _ => "Io"

def text : RpcError → String
  | unknownCommand command => s!"Unknown command: {command.toNat}"
  | codec cause => s!"Malformed payload: {cause.text}"
  | malformedFrame detail => s!"Malformed frame: {detail}"
  | frameTooLarge length limit =>
    s!"Frame payload of {length} bytes exceeds maximum of {limit} bytes"
  | notConnected => "Connection is not connected"
  | connectFailed detail => s!"Connect failed: {detail}"
  | disconnected => "Connection closed before a reply arrived"
  | cancelled => "Call cancelled"
  | timeout milliseconds => s!"Call timed out after {milliseconds}ms"
  | handlerFailed detail => s!"Handler failed: {detail}"
  | invalidProtocol command detail =>
    s!"Command {command.toNat} does not match the protocol: {detail}"
  | invalidArgument detail => s!"Invalid argument: {detail}"
  | queueFull limit => s!"Outbound queue is full ({limit} frames)"
  | remote status => s!"Remote error: {status.text}"
  | io detail => s!"IO error: {detail}"

def status : RpcError → Status
  | unknownCommand _ => .unknownCommand
  | codec _ | malformedFrame _ => .malformedPayload
  | frameTooLarge _ _ => .frameTooLarge
  | notConnected => .notConnected
  | connectFailed _ => .connectFailed
  | disconnected | io _ => .disconnected
  | cancelled => .cancelled
  | timeout _ => .timedOut
  | handlerFailed _ => .handlerFailed
  | invalidProtocol _ _ => .invalidProtocol
  | invalidArgument _ | queueFull _ => .invalidArgument
  | remote s => s

end RpcError

end CallWire
