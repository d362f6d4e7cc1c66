import CallWire.RpcError

/-!
# CallWire.Connection.Lifecycle — the states a connection goes through

A connection is created connecting, and becomes connected when a socket has been bound to it.  It
is closing from the first reason to end on, and closed once that is carried out.  The first reason
is the one that is reported.  A connection that never got a socket is closed without a reason.
-/

namespace CallWire

inductive ConnectionState
  | connecting | connected | closing | closed
  deriving DecidableEq, Repr

def ConnectionState.name : ConnectionState → String
  | connecting => "Connecting"
  | connected => "Connected"
  | closing => "Closing"
  | closed => "Closed"

inductive DisconnectReason
  | user
  /-- The peer ended the stream. -/
  | closed
  /-- Reading or writing failed. -/
  | ioError
  /-- The peer violated the framing. -/
  | protocolError
  deriving DecidableEq, Repr

def DisconnectReason.name : DisconnectReason → String
  | user => "User"
  | closed => "Closed"
  | ioError => "IoError"
  | protocolError => "ProtocolError"

def DisconnectReason.text : DisconnectReason → String
  | user => "closed locally"
  | closed => "closed by peer"
  | ioError => "I/O error"
  | protocolError => "protocol error"

/-- The state of a connection with what may change it. -/
structure Lifecycle where
  state : ConnectionState := .connecting
  /-- Whether `bind` or `connect` was called. -/
  isClaimed : Bool := false
  reason : Option DisconnectReason := none
  deriving DecidableEq, Repr

namespace Lifecycle

def isConnected (l : Lifecycle) : Bool := l.state == .connected

/-- Begins `bind` or `connect`, which may be tried once. -/
def claim (l : Lifecycle) : Except RpcError Unit × Lifecycle :=
  if l.state ≠ .connecting ∨ l.isClaimed then
    (.error (.invalidArgument "connection is already connected or connecting"), l)
  else (.ok (), { l with isClaimed := true })

def establish (l : Lifecycle) : Lifecycle := { l with state := .connected }

def abandon (l : Lifecycle) : Lifecycle := { l with state := .closed }

/-- Sets the reason, if none is set. -/
def because (l : Lifecycle) (reason : DisconnectReason) : Lifecycle :=
  { l with reason := some (l.reason.getD reason) }

def close (l : Lifecycle) : Except RpcError Unit × Lifecycle :=
  match l.state, l.reason with
  | .connecting, _ | .closed, none => (.error .notConnected, l)
  | .closing, _ | .closed, some _ => (.error (.invalidArgument "connection already closing"), l)
  | .connected, _ => (.ok (), { l with state := .closing }.because .user)

/-- Starts closing a live connection. -/
def fail (l : Lifecycle) (reason : DisconnectReason) : Lifecycle :=
  match l.state with
  | .connected | .closing => { l with state := .closing }.because reason
  | .connecting | .closed => l

/-- Closes the connection: the reason to report, or `none` if it was closed. -/
def finish (l : Lifecycle) (reason : DisconnectReason) : Option DisconnectReason × Lifecycle :=
  match l.state with
  | .closed => (none, l)
  | _ => (some (l.reason.getD reason), { l with state := .closed }.because reason)

end Lifecycle

end CallWire
