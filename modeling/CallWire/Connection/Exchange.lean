import CallWire.Connection.Dispatch

/-!
# CallWire.Connection.Exchange — the reader and the writer of a connection

A connection with a socket is served by a reader and a writer that take turns.  The reader cuts the
stream into frames and processes them one by one; the writer writes out the queue after each.  While
events are stopped the reader holds the next request, and reads nothing behind it.  The exchange
settles when neither has anything to do.  On a connection with frames queued from before it is
served, the writer has the first of them in hand by the time anything has been read.
-/

namespace CallWire

/-- The result of one step of the reader. -/
inductive Turn
  /-- Nothing to do. -/
  | idle
  /-- Bytes were read, or a frame was held. -/
  | read
  | served
  | ended
  deriving DecidableEq, Repr

namespace Connection

/-- Ends the connection, and the writer. -/
def stopReading (c : Connection) (reason : DisconnectReason) : Turn × Connection :=
  (.ended, (c.fail reason).finish reason)

/-- Handles a frame and queues the answer. -/
def serve (service : Service) (c : Connection) (frame : Frame) : Turn × Connection :=
  match c.handleFrame service frame with
  | (some reply, c) => (.served, c.sendReply reply)
  | (none, c) => (.served, c)

/-- Reads what has arrived, or the end of the stream. -/
def readSocket (c : Connection) : Turn × Connection :=
  if c.outbound.isHalted then c.stopReading .user
  else if !c.socket.arrived.isEmpty then
    (.read, { c with
      buffer := c.buffer ++ c.socket.arrived
      socket := { c.socket with arrived := [] } })
  else if c.socket.isReset then c.stopReading .ioError
  else if c.socket.peerDone then c.stopReading .closed
  else (.idle, c)

/-- Handles the request that was held, once events are started again. -/
def resume (service : Service) (c : Connection) (frame : Frame) : Turn × Connection :=
  if c.outbound.isHalted then c.stopReading .user
  else if c.eventsStopped then (.idle, c)
  else { c with held := none }.serve service frame

/-- Decodes the next frame in the buffer, and handles it. -/
def nextFrame (service : Service) (c : Connection) : Turn × Connection :=
  match c.decoder.decode c.buffer with
  | ⟨.error _, _, _⟩ => c.stopReading .protocolError
  | ⟨.ok none, decoder, buffer⟩ => { c with decoder, buffer }.readSocket
  | ⟨.ok (some frame), decoder, buffer⟩ =>
    let c := { c with decoder, buffer }
    if frame.header.isRequest && c.eventsStopped then (.read, { c with held := some frame })
    else c.serve service frame

/-- One step of the reader.  While a reply waits for room there is none. -/
def readerTurn (service : Service) (c : Connection) : Turn × Connection :=
  if c.outbound.waiting.isSome then
    if c.outbound.isHalted then c.stopReading .user else (.idle, c)
  else
    match c.held with
    | some frame => c.resume service frame
    | none => c.nextFrame service

def stopWriting (c : Connection) : Connection := { c with outbound := c.outbound.stop }

/-- One step of the writer; `none` if it waits.  The token to stop is looked at first, and the
request to drain last. -/
def writerTurn (c : Connection) : Option Connection :=
  if c.outbound.isDone then none
  else if c.outbound.isHalted then some c.stopWriting
  else
    match c.outbound.pop with
    | some (frame, outbound) =>
      match c.socket.write frame with
      | some socket => some { c with outbound, socket }
      | none => some ({ c with outbound }.fail .ioError).stopWriting
    | none =>
      if c.outbound.isDraining then
        some { c with socket := c.socket.shutDown }.stopWriting
      else none

def write : (turns : Nat) → Connection → Connection
  | 0, c => c
  | turns + 1, c =>
    match c.writerTurn with
    | some c => write turns c
    | none => c

/-- Steps of the writer until it waits. -/
def flush (c : Connection) : Connection := c.write (c.outbound.queue.length + 4)

/-- Drops the task of the connection. -/
def evict (c : Connection) : Connection := c.finish .user

/-- Steps of the reader and the writer, until both wait or the turns are used up.  The reader goes
first, and the writer follows each frame. -/
def run (service : Service) : (turns : Nat) → Connection → Connection
  | 0, c => c
  | turns + 1, c =>
    match c.readerTurn service with
    | (.ended, c) => c
    | (.read, c) => run service turns c
    | (.served, c) =>
      let c := c.flush
      if c.shutsDown then c.evict else run service turns c
    | (.idle, c) =>
      match c.writerTurn with
      | some c => run service turns c
      | none => c

/-- An upper bound on the steps of reader and writer: but for a last few, each of them uses up bytes
that arrived or a frame that is queued. -/
def turnBound (c : Connection) : Nat :=
  2 * (c.buffer.length + c.socket.arrived.length) + c.outbound.queue.length + 9

/-- Steps of reader and writer until both wait. -/
def settle (service : Service) (c : Connection) : Connection :=
  match c.life.state with
  | .connected | .closing => run service c.turnBound c
  | .connecting | .closed => c

/-- The writer takes the first frame from the queue. -/
def pickUp (c : Connection) : Connection := { c with outbound := c.outbound.pickUp }

/-- The first steps of a connection's task.  The socket is not ready at first, so the writer takes a
frame from the queue and then the reader goes ahead.  A connection that is closing, with nothing
queued, is shut down before anything is read. -/
def begin (service : Service) (c : Connection) : Connection :=
  if c.outbound.isDraining && c.outbound.queue.isEmpty then c.flush.settle service
  else c.pickUp.settle service

end Connection

end CallWire
