import CallWire.Frame.Header

/-!
# CallWire.Frame.Basic — a header and its payload

The length in the header of a frame is always taken from the payload, whatever the header said
before.
-/

namespace CallWire

structure Frame where
  header : Header
  payload : Bytes
  deriving DecidableEq, Repr

namespace Frame

/-- The frame with this payload, whose header gets the payload's length. -/
def of (header : Header) (payload : Bytes) : Frame :=
  ⟨header.withLength payload.length, payload⟩

def errorReply (command sequence code : UInt32) : Frame :=
  of (.errorReply command sequence) (Bytes.ofNat 4 code.toNat)

def toBytes (f : Frame) : Bytes := f.header.toBytes ++ f.payload

def image (header : Header) (payload : Bytes) : Bytes := (of header payload).toBytes

def statusCode (f : Frame) : Except RpcError UInt32 :=
  if f.payload.length = 4 then .ok (.ofNat (Bytes.toNat f.payload))
  else .error (.malformedFrame s!"error reply payload must be 4 bytes, got {f.payload.length}")

end Frame

end CallWire
