import CallWire.RpcError

/-!
# CallWire.Frame.Header — the thirteen bytes in front of every payload

A header is the command, the sequence number, a byte of flags and the payload's length, all
big-endian.  Only three flag bits are defined, and a reply cannot decline to be answered.
-/

namespace CallWire

inductive FrameKind
  | request
  /-- A request that is not answered. -/
  | oneWay
  | reply
  | errorReply
  deriving DecidableEq, Repr

def FrameKind.name : FrameKind → String
  | request => "Request"
  | oneWay => "OneWay"
  | reply => "Reply"
  | errorReply => "ErrorReply"

inductive Flag
  | reply | noReply | error
  deriving DecidableEq, Repr

namespace Flag

def bit : Flag → UInt8
  | reply => 1
  | noReply => 2
  | error => 4

def isIn (f : Flag) (flags : UInt8) : Bool := flags &&& f.bit != 0

def undefinedBits (flags : UInt8) : UInt8 := flags &&& 0xf8

end Flag

structure Header where
  command : UInt32
  sequence : UInt32
  flags : UInt8
  payloadLength : UInt32
  deriving DecidableEq, Repr

namespace Header

def size : Nat := 13

def request (command sequence : UInt32) : Header := ⟨command, sequence, 0, 0⟩

def oneWay (command sequence : UInt32) : Header := ⟨command, sequence, Flag.noReply.bit, 0⟩

def reply (command sequence : UInt32) : Header := ⟨command, sequence, Flag.reply.bit, 0⟩

def errorReply (command sequence : UInt32) : Header :=
  ⟨command, sequence, Flag.reply.bit ||| Flag.error.bit, 0⟩

/-- The reply bit takes precedence over the no-reply bit. -/
def kind (h : Header) : FrameKind :=
  if Flag.reply.isIn h.flags then
    if Flag.error.isIn h.flags then .errorReply else .reply
  else if Flag.noReply.isIn h.flags then .oneWay
  else .request

def expectsReply (h : Header) : Bool := h.kind == .request

def isRequest (h : Header) : Bool := h.kind == .request || h.kind == .oneWay

/-- The header with this payload length, reduced modulo 2 ^ 32. -/
def withLength (h : Header) (length : Nat) : Header :=
  { h with payloadLength := UInt32.ofNat length }

def toBytes (h : Header) : Bytes :=
  Bytes.ofNat 4 h.command.toNat ++ Bytes.ofNat 4 h.sequence.toNat ++ [h.flags] ++
    Bytes.ofNat 4 h.payloadLength.toNat

def binaryText (b : UInt8) : String :=
  let digits := Nat.toDigits 2 b.toNat
  "0b" ++ String.ofList (List.replicate (8 - digits.length) '0' ++ digits)

def flagError? (flags : UInt8) : Option RpcError :=
  if Flag.undefinedBits flags != 0 then
    some (.malformedFrame s!"undefined flag bits {binaryText flags}")
  else if Flag.reply.isIn flags && Flag.noReply.isIn flags then
    some (.malformedFrame "reply frame carries the no-reply flag")
  else none

/-- Parses the first 13 bytes. -/
def parse (bs : Bytes) : Except RpcError Header :=
  let head := bs.take size
  if head.length < size then
    .error (.malformedFrame s!"header needs 13 bytes, got {bs.length}")
  else
    let word (i : Nat) : UInt32 := .ofNat (Bytes.toNat ((head.drop i).take 4))
    let flags := head.getD 8 0
    match flagError? flags with
    | some e => .error e
    | none => .ok ⟨word 0, word 4, flags, word 9⟩

end Header

end CallWire
