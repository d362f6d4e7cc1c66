import CallWire.RpcError

/-!
# CallWire.Connection.Outbound — frames on their way to the writer

The queue between those who send and the writer holds a bounded number of encoded frames, in
order.  Applications are refused when it is full; only the reply to the frame that the reader is
processing waits for room.  A frame that the writer has taken in hand does not count towards the
bound.  The writer can be asked to write out what is queued and then stop, or to stop at once.
-/

namespace CallWire

/-- The outbound queue of a connection, with its writer. -/
structure Outbound where
  capacity : Nat
  /-- A frame that the writer has taken from the queue and not written. -/
  inHand : Option Bytes := none
  queue : List Bytes := []
  /-- A reply that waits for room in the queue; the reader waits with it. -/
  waiting : Option Bytes := none
  /-- The writer is to write what is queued, and shut the socket down. -/
  isDraining : Bool := false
  /-- The writer is to stop at once. -/
  isHalted : Bool := false
  /-- The writer has stopped. -/
  isDone : Bool := false
  deriving DecidableEq, Repr

namespace Outbound

def hasRoom (o : Outbound) : Bool := o.queue.length < o.capacity

def offer (o : Outbound) (frame : Bytes) : Except RpcError Unit × Outbound :=
  if o.isDone then (.error .disconnected, o)
  else if o.hasRoom then (.ok (), { o with queue := o.queue ++ [frame] })
  else (.error (.queueFull o.capacity), o)

/-- Queues a frame, now or once there is room.  If the writer has stopped it is dropped. -/
def await (o : Outbound) (frame : Bytes) : Outbound :=
  if o.isDone then o
  else if o.hasRoom then { o with queue := o.queue ++ [frame] }
  else { o with waiting := some frame }

/-- The writer takes the first frame from the queue, if it has none.  The room goes to the reply
that waits. -/
def pickUp (o : Outbound) : Outbound :=
  match o.inHand, o.queue with
  | none, frame :: rest =>
    { o with inHand := some frame, queue := rest ++ o.waiting.toList, waiting := none }
  | _, _ => o

/-- The next frame to write. -/
def pop (o : Outbound) : Option (Bytes × Outbound) :=
  let o := o.pickUp
  o.inHand.map fun frame => (frame, { o with inHand := none })

def drain (o : Outbound) : Outbound := { o with isDraining := true }

def halt (o : Outbound) : Outbound := { o with isHalted := true }

/-- The writer stops, and what was not written is lost. -/
def stop (o : Outbound) : Outbound :=
  { o with inHand := none, queue := [], waiting := none, isHalted := true, isDone := true }

end Outbound

end CallWire
