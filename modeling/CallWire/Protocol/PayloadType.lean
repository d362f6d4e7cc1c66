import CallWire.Message.Basic
import CallWire.RpcError

/-!
# CallWire.Protocol.PayloadType — the types of requests and replies

A type is told from others by its identity.  The name is for messages only, and two types may have
the same one.  The schema says how the values of the type travel.
-/

namespace CallWire

/-- The type of a request or a reply. -/
structure PayloadType where
  /-- Types are compared by this. -/
  identity : Nat
  name : String
  schema : Schema
  defs : Defs := []

namespace PayloadType

def isSame (a b : PayloadType) : Bool := a.identity == b.identity

def encode (t : PayloadType) (v : Value) : Except CodecError Bytes := t.schema.encode t.defs v

def decode (t : PayloadType) (payload : Bytes) : Except CodecError Value :=
  t.schema.decode t.defs payload

def ofMessage (α : Type) [Message α] (identity : Nat) (name : String) : PayloadType :=
  ⟨identity, name, Message.schema α, []⟩

/-- A type that serializes a sequence without its length, so that no value can be encoded. -/
def uncounted (identity : Nat) (name : String) : PayloadType :=
  ⟨identity, name, .unsized .sequence (.int .u32), []⟩

end PayloadType

structure CommandTypes where
  request : PayloadType
  reply : PayloadType

namespace CommandTypes

def isSame (a b : CommandTypes) : Bool := a.request.isSame b.request && a.reply.isSame b.reply

def text (t : CommandTypes) : String :=
  "CommandTypes \x7b request: " ++ t.request.name ++ ", reply: " ++ t.reply.name ++ " \x7d"

def check (t : CommandTypes) (command : UInt32) (called : CommandTypes) : Except RpcError Unit :=
  if t.isSame called then .ok ()
  else .error (.invalidProtocol command
    s!"registered as {t.request.name} -> {t.reply.name}, called with {called.request.name} -> {called.reply.name}")

def checkRequest (t : CommandTypes) (command : UInt32) (request : PayloadType) :
    Except RpcError Unit :=
  if t.request.isSame request then .ok ()
  else .error (.invalidProtocol command
    s!"registered with request {t.request.name}, called with {request.name}")

end CommandTypes

end CallWire
