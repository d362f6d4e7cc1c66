import CallWire.RpcError

/-!
# CallWire.Config — the limits of a connection set

A configuration starts from the defaults and is changed by settings, of which the last for a field
counts.  It is checked as a whole when a set is created.
-/

namespace CallWire

/-- Probes of idle connections.  Times are in nanoseconds. -/
structure Keepalive where
  idle : Nat := 7200000000000
  interval : Nat := 75000000000
  retries : Nat := 9
  deriving DecidableEq, Repr

/-- The configuration of a connection set.  Times are in nanoseconds. -/
structure Config where
  maxPayloadLength : Nat := 1048576
  maxPending : Nat := 8192
  maxQueuedFrames : Nat := 4096
  connectTimeout : Nat := 5000000000
  tcpNoDelay : Bool := true
  keepalive : Option Keepalive := some {}
  readBufferSize : Nat := 16384
  shutdownTimeout : Nat := 5000000000
  deriving DecidableEq, Repr

inductive Setting
  | maxPayloadLength (n : Nat)
  | maxPending (n : Nat)
  | maxQueuedFrames (n : Nat)
  | connectTimeout (nanoseconds : Nat)
  | tcpNoDelay (b : Bool)
  | keepalive (k : Option Keepalive)
  | readBufferSize (n : Nat)
  | shutdownTimeout (nanoseconds : Nat)
  deriving DecidableEq, Repr

namespace Config

def milliseconds (n : Nat) : Nat := n * 1000000

def set (c : Config) : Setting → Config
  | .maxPayloadLength n => { c with maxPayloadLength := n }
  | .maxPending n => { c with maxPending := n }
  | .maxQueuedFrames n => { c with maxQueuedFrames := n }
  | .connectTimeout n => { c with connectTimeout := n }
  | .tcpNoDelay b => { c with tcpNoDelay := b }
  | .keepalive k => { c with keepalive := k }
  | .readBufferSize n => { c with readBufferSize := n }
  | .shutdownTimeout n => { c with shutdownTimeout := n }

def ofSettings (settings : List Setting) : Config := settings.foldl set {}

/-- The first rule that the configuration breaks. -/
def refusal? (c : Config) : Option RpcError :=
  if c.maxPayloadLength = 0 then
    some (.invalidArgument "max_payload_len must be greater than zero")
  else if c.maxPayloadLength ≥ UInt32.size then
    some (.invalidArgument s!"max_payload_len must fit in 32 bits (got {c.maxPayloadLength})")
  else if c.maxPending = 0 then
    some (.invalidArgument "max_pending must be greater than zero")
  else if c.maxQueuedFrames = 0 then
    some (.invalidArgument "max_queued_frames must be greater than zero")
  else if c.connectTimeout = 0 then
    some (.invalidArgument "connect_timeout must be greater than zero")
  else none

def validate (c : Config) : Except RpcError Unit :=
  match c.refusal? with
  | some e => .error e
  | none => .ok ()

end Config

end CallWire
