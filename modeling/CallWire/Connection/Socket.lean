import CallWire.Bytes

/-!
# CallWire.Connection.Socket — the byte stream between a connection and its peer

Bytes that one end writes arrive at the other in order.  Each end can stop writing, which the
other sees as the end of the stream behind all bytes, and an end that does not read any more makes
the other's next write fail.
-/

namespace CallWire

/-- A stream, with what the peer has done to it. -/
structure Socket where
  /-- Bytes sent by the peer that were not read. -/
  arrived : Bytes := []
  /-- The peer has shut down writing. -/
  peerDone : Bool := false
  /-- The peer has reset the stream. -/
  isReset : Bool := false
  /-- The peer has shut down reading. -/
  peerDeaf : Bool := false
  /-- Bytes written that the peer has not observed. -/
  delivered : Bytes := []
  /-- The connection has shut down writing. -/
  isDone : Bool := false
  /-- The connection has closed the stream. -/
  isGone : Bool := false
  deriving DecidableEq, Repr

namespace Socket

def write (s : Socket) (bs : Bytes) : Option Socket :=
  if s.peerDeaf then none else some { s with delivered := s.delivered ++ bs }

def shutDown (s : Socket) : Socket := { s with isDone := true }

def release (s : Socket) : Socket := { s with isDone := true, isGone := true }

/-- The peer writes.  An empty write always succeeds. -/
def peerWrite (s : Socket) (bs : Bytes) : Option Socket :=
  if bs.isEmpty then some s
  else if s.isGone || s.peerDone then none
  else some { s with arrived := s.arrived ++ bs }

def peerShutWrite (s : Socket) : Socket := { s with peerDone := true }

def peerShutRead (s : Socket) : Socket := { s with peerDeaf := true }

def peerClose (s : Socket) : Socket := { s with peerDone := true, peerDeaf := true }

def peerReset (s : Socket) : Socket :=
  { s with arrived := [], isReset := true, peerDone := true, peerDeaf := true }

/-- What the peer has received since the last call. -/
def collect (s : Socket) : Bytes × Socket := (s.delivered, { s with delivered := [] })

/-- Delivers what the other end of the stream has done since the last call. -/
def receiveFrom (s other : Socket) : Socket :=
  { s with
    arrived := if s.isGone then [] else s.arrived ++ other.delivered
    peerDone := s.peerDone || other.isDone
    peerDeaf := s.peerDeaf || other.isGone }

end Socket

end CallWire
