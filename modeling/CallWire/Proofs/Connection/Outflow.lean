import CallWire.Proofs.Connection.Reachable

/-!
# CallWire.Proofs.Connection.Outflow — the queue, its senders and the writer

Several threads queue frames, the reader queues its replies or waits for room, and the writer takes
one frame after the other in hand and writes it in as many pieces as the socket takes.  The request
to close, an end of the stream, a failed write and a forced end can come between any two of these.
Whatever comes, what has been written is whole frames, in the order in which they were queued, and a
part of the next.
-/

namespace CallWire

/-- The state of the writer's loop. -/
inductive WriterPhase
  | serving
  /-- It has seen the close request, and writes out the queue. -/
  | draining
  /-- The queue was empty, and the socket is to be shut down. -/
  | finishing
  /-- A write has failed and `fail` was not called yet. -/
  | broken
  /-- It has returned. -/
  | left
  deriving DecidableEq

namespace WriterPhase

def takes : WriterPhase → Bool
  | serving | draining => true
  | finishing | broken | left => false

/-- The writer has neither failed nor returned. -/
def isAtWork : WriterPhase → Bool
  | serving | draining | finishing => true
  | broken | left => false

theorem isAtWork_of_takes {p : WriterPhase} (h : p.takes = true) : p.isAtWork = true := by
  cases p with
  | serving | draining => rfl
  | finishing | broken | left => cases h

end WriterPhase

/-- The state of the reader's loop. -/
inductive ReaderPhase
  /-- Also while its reply waits for room. -/
  | reading
  /-- It found the connection connected, and is about to queue this reply. -/
  | replying (reply : Bytes)
  /-- It ended for this reason, and `fail` was not called yet. -/
  | ended (reason : DisconnectReason)
  /-- `fail` was called, and the writer is not halted yet. -/
  | failed (reason : DisconnectReason)
  | stopped (reason : DisconnectReason)

def ReaderPhase.reason? : ReaderPhase → Option DisconnectReason
  | reading | replying _ => none
  | ended reason | failed reason | stopped reason => some reason

/-- A connection with its reader and writer stopped at any of their steps. -/
structure Outflow where
  conn : Connection
  writer : WriterPhase := .serving
  /-- What is left of the frame in hand. -/
  rest : Bytes := []
  reader : ReaderPhase := .reading
  /-- The slot that the writer freed is reserved for the waiting reply. -/
  isPromised : Bool := false
  /-- The frames queued so far. -/
  accepted : List Bytes := []
  /-- What the peer has read. -/
  collected : Bytes := []

namespace Outflow

def written (s : Outflow) : Bytes := s.collected ++ s.conn.socket.delivered

/-- Slots taken or reserved. -/
def load (s : Outflow) : Nat := s.conn.outbound.queue.length + s.isPromised.toNat

/-- `Connection.enqueue` by a sender, who cannot use the reserved slot. -/
def enqueue (s : Outflow) (frame : Bytes) : Except RpcError Unit × Outflow :=
  if s.conn.life.isConnected ∧ s.conn.outbound.isDone = false ∧
      s.conn.outbound.capacity ≤ s.load then
    (.error (.queueFull s.conn.outbound.capacity), s)
  else
    match s.conn.enqueue frame with
    | (.ok (), conn) => (.ok (), { s with conn, accepted := s.accepted ++ [frame] })
    | (.error e, conn) => (.error e, { s with conn })

def close (s : Outflow) : Outflow := { s with conn := s.conn.close.2 }

def fail (s : Outflow) (reason : DisconnectReason) : Outflow :=
  { s with conn := s.conn.fail reason }

def halt (s : Outflow) : Outflow :=
  { s with conn := { s.conn with outbound := s.conn.outbound.halt } }

/-! ### The reader -/

/-- The reader queues its reply, or waits for room. -/
def send (s : Outflow) (reply : Bytes) : Outflow :=
  { s with
    conn := { s.conn with outbound := s.conn.outbound.await reply }
    reader := .reading
    accepted :=
      if s.conn.outbound.isDone = false ∧ s.conn.outbound.hasRoom then s.accepted ++ [reply]
      else s.accepted }

/-- The waiting reply takes the slot reserved for it. -/
def redeem (s : Outflow) (reply : Bytes) : Outflow :=
  { s with
    conn := { s.conn with
      outbound := { s.conn.outbound with
        queue := s.conn.outbound.queue ++ [reply]
        waiting := none } }
    isPromised := false
    accepted := s.accepted ++ [reply] }

/-- The reader leaves its loop, and a waiting reply is dropped. -/
def endReading (s : Outflow) (reason : DisconnectReason) : Outflow :=
  { s with
    conn := { s.conn with outbound := { s.conn.outbound with waiting := none } }
    reader := .ended reason
    isPromised := false }

/-- The conditions under which the reader ends by itself. -/
def FindsEnd (c : Connection) : DisconnectReason → Prop
  | .closed => c.socket.arrived = [] ∧ c.socket.peerDone = true
  | .ioError => c.socket.isReset = true
  | .protocolError => ∃ e, (c.decoder.decode c.buffer).result = .error e
  | .user => False

inductive ReaderStep (s : Outflow) : Outflow → Prop
  | reply (bytes : Bytes) (hreader : s.reader = .reading)
      (hwaiting : s.conn.outbound.waiting = none) (hconnected : s.conn.life.isConnected = true) :
      ReaderStep s { s with reader := .replying bytes }
  | send {reply : Bytes} (hreader : s.reader = .replying reply) : ReaderStep s (s.send reply)
  | redeem {reply : Bytes} (hpromised : s.isPromised = true)
      (hwaiting : s.conn.outbound.waiting = some reply) : ReaderStep s (s.redeem reply)
  | ends {reason : DisconnectReason} (hreader : s.reader = .reading)
      (hwaiting : s.conn.outbound.waiting = none) (hfinds : FindsEnd s.conn reason) :
      ReaderStep s (s.endReading reason)
  | cancelled (hreader : s.reader.reason? = none) (hhalted : s.conn.outbound.isHalted = true) :
      ReaderStep s (s.endReading .user)
  | fail {reason : DisconnectReason} (hreader : s.reader = .ended reason) :
      ReaderStep s { s.fail reason with reader := .failed reason }
  | halt {reason : DisconnectReason} (hreader : s.reader = .failed reason) :
      ReaderStep s { s.halt with reader := .stopped reason }
  | finish {reason : DisconnectReason} (hreader : s.reader = .stopped reason)
      (hwriter : s.writer = .left) (hdone : s.conn.outbound.isDone = true) :
      ReaderStep s { s with conn := s.conn.finish reason, isPromised := false }

/-! ### The writer -/

/-- The writer takes a frame off the queue. The slot is reserved if a reply waits. -/
def take (s : Outflow) (frame : Bytes) (queue : List Bytes) : Outflow :=
  { s with
    conn := { s.conn with outbound := { s.conn.outbound with inHand := some frame, queue } }
    rest := frame
    isPromised := s.conn.outbound.waiting.isSome }

/-- `Connection.stopWriting`, after which nothing is reserved. -/
def stopWriting (s : Outflow) : Outflow :=
  { s with conn := s.conn.stopWriting, isPromised := false }

inductive WriterStep (s : Outflow) : Outflow → Prop
  | take {frame : Bytes} {queue : List Bytes} (hwriter : s.writer.takes = true)
      (hhand : s.conn.outbound.inHand = none) (hqueue : s.conn.outbound.queue = frame :: queue) :
      WriterStep s (s.take frame queue)
  | piece {frame : Bytes} {n : Nat} {socket : Socket} (hwriter : s.writer.takes = true)
      (hhand : s.conn.outbound.inHand = some frame) (hpos : 0 < n) (hrest : n ≤ s.rest.length)
      (hwrite : s.conn.socket.write (s.rest.take n) = some socket) :
      WriterStep s { s with conn := { s.conn with socket }, rest := s.rest.drop n }
  | next {frame : Bytes} (hwriter : s.writer.takes = true)
      (hhand : s.conn.outbound.inHand = some frame) (hrest : s.rest = []) :
      WriterStep s
        { s with conn := { s.conn with outbound := { s.conn.outbound with inHand := none } } }
  /-- On a close request, or when the connection is closed. -/
  | drain (hwriter : s.writer = .serving) (hhand : s.conn.outbound.inHand = none)
      (hasked : s.conn.outbound.isDraining = true ∨ s.conn.life.state = .closed) :
      WriterStep s { s with writer := .draining }
  | finish (hwriter : s.writer = .draining) (hhand : s.conn.outbound.inHand = none)
      (hqueue : s.conn.outbound.queue = []) : WriterStep s { s with writer := .finishing }
  | shutDown (hwriter : s.writer = .finishing) :
      WriterStep s { s with
        conn := { s.conn with socket := s.conn.socket.shutDown }
        writer := .left }

/-! ### Everything that happens -/

/-- Who makes a step. -/
inductive Cause
  | writer
  /-- Everybody but the working writer. -/
  | others
  | fault
  | force
  deriving DecidableEq

/-- A step of the writer, the reader, a sender, the application, the peer, or the task that serves
the connection. -/
inductive Step (s : Outflow) : Cause → Outflow → Prop
  | writer {s' : Outflow} (h : s.WriterStep s') : Step s .writer s'
  | reader {s' : Outflow} (h : s.ReaderStep s') : Step s .others s'
  | enqueue (frame : Bytes) : Step s .others (s.enqueue frame).2
  | close : Step s .others s.close
  /-- The writer sees that it was halted, also in the middle of a frame. -/
  | leave (hwriter : s.writer.takes = true) (hhalted : s.conn.outbound.isHalted = true) :
      Step s .others { s with writer := .left }
  | halt (hwriter : s.writer = .left) : Step s .others s.halt
  | stop (hwriter : s.writer = .left) (hhalted : s.conn.outbound.isHalted = true) :
      Step s .others s.stopWriting
  | collect : Step s .others { s with
      conn := { s.conn with socket := s.conn.socket.collect.2 }
      collected := s.collected ++ s.conn.socket.collect.1 }
  /-- Any change elsewhere that does not reconnect the connection. -/
  | other {conn : Connection} (houtbound : conn.outbound = s.conn.outbound)
      (hdelivered : conn.socket.delivered = s.conn.socket.delivered)
      (hdone : conn.socket.isDone = s.conn.socket.isDone)
      (hlife : conn.life.isConnected = true → s.conn.life.isConnected = true) :
      Step s .others { s with conn }
  | fault (hwriter : s.writer.isAtWork = true) : Step s .fault { s with writer := .broken }
  | report (hwriter : s.writer = .broken) :
      Step s .fault { s.fail .ioError with writer := .left }
  | fail (reason : DisconnectReason) : Step s .force (s.fail reason)
  /-- The connection is finished by the task that served it. -/
  | evict (reason : DisconnectReason) :
      Step s .force { s with
        conn := s.conn.finish reason, writer := .left, isPromised := false }

def Leads : Outflow → Outflow → Prop := Relation.ReflTransGen fun s s' => ∃ cause, s.Step cause s'

def start (service : Service) (context : String) (hasPeerAddress : Bool) : Outflow where
  conn := (Connection.new service context).claim.2.establish hasPeerAddress

end Outflow

/-! ### What the ways to end a connection do to the queue -/

theorem Lifecycle.isConnected_close (l : Lifecycle) : l.close.2.isConnected = false := by
  obtain ⟨state, isClaimed, reason⟩ := l
  cases state with
  | connecting | connected | closing => rfl
  | closed =>
    cases reason with
    | none | some => rfl

namespace Connection

variable (c : Connection)

theorem exists_close : ∃ life isDraining,
    c.close.2 = { c with life, outbound := { c.outbound with isDraining } } ∧
      life.isConnected = false ∧ (isDraining = c.outbound.isDraining ∨ isDraining = true) := by
  have hover := c.life.isConnected_close
  unfold close
  generalize c.life.close = closed at hover ⊢
  obtain ⟨e | _, life⟩ := closed
  · exact ⟨life, c.outbound.isDraining, rfl, hover, .inl rfl⟩
  · exact ⟨life, true, rfl, hover, .inr rfl⟩

theorem exists_fail (reason : DisconnectReason) : ∃ life isHalted,
    c.fail reason = { c with life, outbound := { c.outbound with isHalted } } := by
  unfold fail
  split
  · exact ⟨_, true, rfl⟩
  · exact ⟨_, true, rfl⟩
  · exact ⟨c.life, c.outbound.isHalted, rfl⟩
  · exact ⟨c.life, c.outbound.isHalted, rfl⟩

theorem finish_cases (reason : DisconnectReason) : c.finish reason = c ∨
    (c.finish reason).outbound = c.outbound.stop ∧
      (c.finish reason).socket = c.socket.release := by
  unfold finish
  split
  · exact .inl rfl
  · exact .inr ⟨rfl, rfl⟩

end Connection

/-! ### Whole frames and a part of the next -/

/-- The bytes are some of the frames, from the first on, and a prefix of the next. -/
def IsCut (frames : List Bytes) (bytes : Bytes) : Prop :=
  ∃ gone later part, frames = gone ++ later ∧ bytes = gone.flatten ++ part ∧
    part <+: later.headD []

theorem IsCut.isPrefix {frames : List Bytes} {bytes : Bytes} (h : IsCut frames bytes) :
    bytes <+: frames.flatten := by
  obtain ⟨gone, later, part, rfl, rfl, hpart⟩ := h
  rw [List.flatten_append, List.prefix_append_right_inj]
  cases later with
  | nil => exact hpart
  | cons frame later => exact hpart.trans (List.prefix_append _ _)

theorem IsCut.append {frames : List Bytes} {bytes : Bytes} (h : IsCut frames bytes)
    (more : List Bytes) : IsCut (frames ++ more) bytes := by
  obtain ⟨gone, later, part, rfl, hbytes, hpart⟩ := h
  refine ⟨gone, later ++ more, part, List.append_assoc _ _ _, hbytes, ?_⟩
  cases later with
  | nil =>
    rw [List.prefix_nil.mp hpart]
    exact List.nil_prefix
  | cons frame later => exact hpart

namespace Outflow

variable {s s' s'' : Outflow} {cause : Cause}

/-! ### What is written -/

/-- The frames queued are those written, the one in hand and those still in the queue, and `rest`
completes the one in hand. -/
def Aligned (s : Outflow) : Prop :=
  ∃ gone, s.accepted = gone ++ (s.conn.outbound.inHand.toList ++ s.conn.outbound.queue) ∧
    s.written ++ s.rest = gone.flatten ++ s.conn.outbound.inHand.getD [] ∧
    s.rest <:+ s.conn.outbound.inHand.getD []

theorem Aligned.isCut (h : s.Aligned) : IsCut s.accepted s.written := by
  obtain ⟨gone, haccepted, hwritten, part, hpart⟩ := h
  refine ⟨gone, _, part, haccepted, ?_, ?_⟩
  · rw [← hpart, ← List.append_assoc, List.append_left_inj] at hwritten
    exact hwritten
  · cases hhand : s.conn.outbound.inHand with
    | none =>
      rw [hhand] at hpart
      rw [(List.append_eq_nil_iff.mp hpart).1]
      exact List.nil_prefix
    | some frame =>
      rw [hhand] at hpart
      exact ⟨s.rest, hpart⟩

/-- The stream is cut from the frames queued, and aligned with them while the writer works. -/
structure Flows (s : Outflow) : Prop where
  cut : IsCut s.accepted s.written
  aligned : s.writer.isAtWork = true → s.Aligned

theorem Flows.of_aligned (h : s.Aligned) : s.Flows := ⟨h.isCut, fun _ => h⟩

theorem Flows.of_left (hcut : IsCut s.accepted s.written) (h : s.writer.isAtWork = false) :
    s.Flows := by
  refine ⟨hcut, fun hwork => ?_⟩
  rw [hwork] at h
  cases h

/-! ### What the operations do -/

theorem enqueue_cases (s : Outflow) (frame : Bytes) :
    (∃ e, s.enqueue frame = (.error e, s) ∧
      (s.conn.life.isConnected = true → s.conn.outbound.isDone = false →
        e = .queueFull s.conn.outbound.capacity ∧ s.conn.outbound.capacity ≤ s.load)) ∨
      s.load < s.conn.outbound.capacity ∧ s.conn.life.isConnected = true ∧
        s.enqueue frame = (.ok (), { s with
          conn := { s.conn with outbound :=
            { s.conn.outbound with queue := s.conn.outbound.queue ++ [frame] } }
          accepted := s.accepted ++ [frame] }) := by
  unfold enqueue Connection.enqueue Outbound.offer
  cases hconnected : s.conn.life.isConnected with
  | false => exact .inl ⟨.notConnected, by simp, nofun⟩
  | true =>
    cases hdone : s.conn.outbound.isDone with
    | true => exact .inl ⟨.disconnected, by simp, fun _ => nofun⟩
    | false =>
      by_cases hfull : s.conn.outbound.capacity ≤ s.load
      · exact .inl ⟨_, if_pos ⟨rfl, rfl, hfull⟩, fun _ _ => ⟨rfl, hfull⟩⟩
      · have hroom : s.conn.outbound.hasRoom = true :=
          decide_eq_true (Nat.lt_of_le_of_lt (Nat.le_add_right _ _) (Nat.lt_of_not_le hfull))
        exact .inr ⟨Nat.lt_of_not_le hfull, rfl, by simp [hdone, hfull, hroom]⟩

theorem enqueue_eq (hfree : s.isPromised = false) (frame : Bytes) :
    (s.enqueue frame).1 = (s.conn.enqueue frame).1 ∧
      (s.enqueue frame).2.conn = (s.conn.enqueue frame).2 := by
  unfold enqueue
  by_cases hfull : s.conn.life.isConnected ∧ s.conn.outbound.isDone = false ∧
      s.conn.outbound.capacity ≤ s.load
  · obtain ⟨hconnected, hdone, hload⟩ := hfull
    have hroom : ¬ s.conn.outbound.hasRoom = true := by
      unfold load at hload
      rw [hfree, Bool.toNat_false, Nat.add_zero] at hload
      exact fun hroom => absurd (of_decide_eq_true hroom) (Nat.not_lt.mpr hload)
    rw [if_pos ⟨hconnected, hdone, hload⟩]
    unfold Connection.enqueue Outbound.offer
    rw [if_pos hconnected, hdone, if_neg Bool.false_ne_true, if_neg hroom]
    exact ⟨rfl, rfl⟩
  · rw [if_neg hfull]
    rcases s.conn.enqueue frame with ⟨e | _, conn⟩
    · exact ⟨rfl, rfl⟩
    · exact ⟨rfl, rfl⟩

theorem send_cases (s : Outflow) (reply : Bytes) :
    (s.send reply = { s with reader := .reading } ∨
      s.send reply = { s with
        conn := { s.conn with outbound := { s.conn.outbound with waiting := some reply } }
        reader := .reading }) ∨
      s.conn.outbound.queue.length < s.conn.outbound.capacity ∧
        s.send reply = { s with
          conn := { s.conn with outbound :=
            { s.conn.outbound with queue := s.conn.outbound.queue ++ [reply] } }
          reader := .reading
          accepted := s.accepted ++ [reply] } := by
  unfold send Outbound.await
  cases hdone : s.conn.outbound.isDone with
  | true => exact .inl (.inl (by simp))
  | false =>
    cases hroom : s.conn.outbound.hasRoom with
    | false => exact .inl (.inr (by simp [hdone]))
    | true => exact .inr ⟨of_decide_eq_true hroom, by simp [hdone]⟩

/-! ### What has been written stays -/

/-- What was queued and written is extended, and a writer that has stopped writes no more. -/
structure Later (s s' : Outflow) : Prop where
  accepted : s.accepted <+: s'.accepted
  written : s.written <+: s'.written
  idle : s.writer.isAtWork = false → s'.writer.isAtWork = false ∧ s'.written = s.written
  capacity : s'.conn.outbound.capacity = s.conn.outbound.capacity

theorem Later.refl (s : Outflow) : s.Later s :=
  ⟨List.prefix_refl _, List.prefix_refl _, fun h => ⟨h, rfl⟩, rfl⟩

theorem Later.trans (h : s.Later s') (h' : s'.Later s'') : s.Later s'' where
  accepted := h.accepted.trans h'.accepted
  written := h.written.trans h'.written
  idle := fun hidle =>
    have hnext := h.idle hidle
    ⟨(h'.idle hnext.1).1, (h'.idle hnext.1).2.trans hnext.2⟩
  capacity := h'.capacity.trans h.capacity

/-- Only `more` was queued, and at most a close request was made. -/
structure Extends (s s' : Outflow) (more : List Bytes) : Prop where
  accepted : s'.accepted = s.accepted ++ more
  queue : s'.conn.outbound.queue = s.conn.outbound.queue ++ more
  inHand : s'.conn.outbound.inHand = s.conn.outbound.inHand
  rest : s'.rest = s.rest
  written : s'.written = s.written
  capacity : s'.conn.outbound.capacity = s.conn.outbound.capacity
  writer : s'.writer = s.writer
  draining : s'.conn.outbound.isDraining = s.conn.outbound.isDraining ∨
    s'.conn.outbound.isDraining = true ∧ s'.conn.life.isConnected = false

theorem Extends.nil (haccepted : s'.accepted = s.accepted)
    (hqueue : s'.conn.outbound.queue = s.conn.outbound.queue)
    (hhand : s'.conn.outbound.inHand = s.conn.outbound.inHand) (hrest : s'.rest = s.rest)
    (hwritten : s'.written = s.written)
    (hcapacity : s'.conn.outbound.capacity = s.conn.outbound.capacity)
    (hwriter : s'.writer = s.writer)
    (hdraining : s'.conn.outbound.isDraining = s.conn.outbound.isDraining ∨
      s'.conn.outbound.isDraining = true ∧ s'.conn.life.isConnected = false) : s.Extends s' [] :=
  ⟨haccepted.trans (List.append_nil _).symm, hqueue.trans (List.append_nil _).symm, hhand, hrest,
    hwritten, hcapacity, hwriter, hdraining⟩

theorem Extends.flows {more : List Bytes} (h : s.Extends s' more) (hs : s.Flows) : s'.Flows where
  cut := by
    rw [h.accepted, h.written]
    exact hs.cut.append more
  aligned := by
    intro hwork
    obtain ⟨gone, haccepted, hwritten, hrest⟩ := hs.aligned (h.writer ▸ hwork)
    refine ⟨gone, ?_, ?_, ?_⟩
    · rw [h.accepted, h.queue, h.inHand, haccepted]
      simp only [List.append_assoc]
    · rw [h.written, h.rest, h.inHand]
      exact hwritten
    · rw [h.rest, h.inHand]
      exact hrest

theorem Extends.later {more : List Bytes} (h : s.Extends s' more) : s.Later s' where
  accepted := ⟨more, h.accepted.symm⟩
  written := h.written ▸ List.prefix_refl _
  idle := fun hidle => ⟨h.writer ▸ hidle, h.written⟩
  capacity := h.capacity

/-- The writer has left; the frame in hand and the queue may be lost. -/
structure Silences (s s' : Outflow) : Prop where
  accepted : s'.accepted = s.accepted
  written : s'.written = s.written
  capacity : s'.conn.outbound.capacity = s.conn.outbound.capacity
  writer : s'.writer.isAtWork = false

theorem Silences.flows (h : s.Silences s') (hs : s.Flows) : s'.Flows := by
  refine .of_left ?_ h.writer
  rw [h.accepted, h.written]
  exact hs.cut

theorem Silences.later (h : s.Silences s') : s.Later s' where
  accepted := h.accepted ▸ List.prefix_refl _
  written := h.written ▸ List.prefix_refl _
  idle := fun _ => ⟨h.writer, h.written⟩
  capacity := h.capacity

theorem silences_finish (s : Outflow) (reason : DisconnectReason) {writer : WriterPhase}
    (hwriter : writer.isAtWork = false) :
    s.Silences { s with conn := s.conn.finish reason, writer, isPromised := false } := by
  rcases s.conn.finish_cases reason with heq | ⟨houtbound, hsocket⟩
  · rw [heq]
    exact ⟨rfl, rfl, rfl, hwriter⟩
  · refine ⟨rfl, ?_, ?_, hwriter⟩
    · show s.collected ++ (s.conn.finish reason).socket.delivered = _
      rw [hsocket]
      rfl
    · show (s.conn.finish reason).outbound.capacity = _
      rw [houtbound]
      rfl

theorem extends_fail (s : Outflow) (reason : DisconnectReason) : s.Extends (s.fail reason) [] := by
  obtain ⟨life, isHalted, heq⟩ := s.conn.exists_fail reason
  unfold fail
  rw [heq]
  exact .nil rfl rfl rfl rfl rfl rfl rfl (.inl rfl)

theorem extends_close (s : Outflow) : s.Extends s.close [] := by
  obtain ⟨life, isDraining, heq, hover, hasked⟩ := s.conn.exists_close
  unfold close
  rw [heq]
  exact .nil rfl rfl rfl rfl rfl rfl rfl (hasked.imp_right fun hasked => ⟨hasked, hover⟩)

/-! ### The steps -/

theorem ReaderStep.quiet (h : s.ReaderStep s') : (∃ more, s.Extends s' more) ∨ s.Silences s' := by
  cases h with
  | reply | ends | cancelled | halt => exact .inl ⟨[], .nil rfl rfl rfl rfl rfl rfl rfl (.inl rfl)⟩
  | @send reply =>
    rcases s.send_cases reply with (heq | heq) | ⟨-, heq⟩
    · exact .inl ⟨[], heq ▸ .nil rfl rfl rfl rfl rfl rfl rfl (.inl rfl)⟩
    · exact .inl ⟨[], heq ▸ .nil rfl rfl rfl rfl rfl rfl rfl (.inl rfl)⟩
    · exact .inl ⟨[reply], heq ▸ ⟨rfl, rfl, rfl, rfl, rfl, rfl, rfl, .inl rfl⟩⟩
  | @redeem reply => exact .inl ⟨[reply], rfl, rfl, rfl, rfl, rfl, rfl, rfl, .inl rfl⟩
  | @fail reason =>
    have h := s.extends_fail reason
    exact .inl ⟨[], h.accepted, h.queue, h.inHand, h.rest, h.written, h.capacity, h.writer,
      h.draining⟩
  | @finish reason hreader hwriter =>
    exact .inr (s.silences_finish reason (hwriter ▸ rfl))

theorem Step.quiet (h : s.Step cause s') :
    cause = .writer ∧ s.WriterStep s' ∨ (∃ more, s.Extends s' more) ∨ s.Silences s' := by
  cases h with
  | writer h => exact .inl ⟨rfl, h⟩
  | reader h => exact .inr h.quiet
  | enqueue frame =>
    rcases s.enqueue_cases frame with ⟨e, heq, -⟩ | ⟨-, -, heq⟩
    · rw [heq]
      exact .inr (.inl ⟨[], .nil rfl rfl rfl rfl rfl rfl rfl (.inl rfl)⟩)
    · rw [heq]
      exact .inr (.inl ⟨[frame], rfl, rfl, rfl, rfl, rfl, rfl, rfl, .inl rfl⟩)
  | close => exact .inr (.inl ⟨[], s.extends_close⟩)
  | leave | fault => exact .inr (.inr ⟨rfl, rfl, rfl, rfl⟩)
  | halt => exact .inr (.inl ⟨[], .nil rfl rfl rfl rfl rfl rfl rfl (.inl rfl)⟩)
  | stop hwriter => exact .inr (.inr ⟨rfl, rfl, rfl, congrArg WriterPhase.isAtWork hwriter⟩)
  | collect =>
    exact .inr (.inl ⟨[], .nil rfl rfl rfl rfl (List.append_nil _) rfl rfl (.inl rfl)⟩)
  | @other conn houtbound hdelivered =>
    refine .inr (.inl ⟨[], .nil rfl ?_ ?_ rfl ?_ ?_ rfl (.inl ?_)⟩)
    · exact congrArg Outbound.queue houtbound
    · exact congrArg Outbound.inHand houtbound
    · exact congrArg (s.collected ++ ·) hdelivered
    · exact congrArg Outbound.capacity houtbound
    · exact congrArg Outbound.isDraining houtbound
  | report =>
    have h := s.extends_fail .ioError
    refine .inr (.inr ⟨?_, h.written, h.capacity, rfl⟩)
    exact h.accepted.trans (List.append_nil _)
  | fail reason => exact .inr (.inl ⟨[], s.extends_fail reason⟩)
  | evict reason => exact .inr (.inr (s.silences_finish reason rfl))

theorem WriterStep.flows (h : s.WriterStep s') (hs : s.Flows) : s'.Flows := by
  cases h with
  | @take frame queue hwriter hhand hqueue =>
    obtain ⟨gone, haccepted, hwritten, hrest⟩ := hs.aligned (WriterPhase.isAtWork_of_takes hwriter)
    rw [hhand] at haccepted hwritten hrest
    rw [hqueue] at haccepted
    -- With nothing in hand the frames gone are all that is written; this one starts with all of it
    -- to go.
    rw [List.suffix_nil.mp hrest, List.append_nil] at hwritten
    refine .of_aligned ⟨gone, haccepted, ?_, List.suffix_refl _⟩
    show s.written ++ frame = gone.flatten ++ frame
    rw [hwritten]
    exact congrArg (· ++ frame) (List.append_nil _)
  | @piece frame n socket hwriter hhand hpos hle hwrite =>
    obtain ⟨gone, haccepted, hwritten, hrest⟩ := hs.aligned (WriterPhase.isAtWork_of_takes hwriter)
    refine .of_aligned ⟨gone, haccepted, ?_, (List.drop_suffix n s.rest).trans hrest⟩
    obtain ⟨-, rfl⟩ := Socket.write_eq_some hwrite
    -- The piece moves from the rest to the socket, and both together stay the same.
    show s.collected ++ (s.conn.socket.delivered ++ s.rest.take n) ++ s.rest.drop n = _
    rw [← hwritten, ← List.append_assoc, List.append_assoc, List.take_append_drop]
    rfl
  | @next frame hwriter hhand hempty =>
    obtain ⟨gone, haccepted, hwritten, hrest⟩ := hs.aligned (WriterPhase.isAtWork_of_takes hwriter)
    rw [hhand] at haccepted hwritten
    refine .of_aligned ⟨gone ++ [frame], ?_, ?_, ?_⟩
    · exact haccepted.trans (List.append_assoc gone [frame] _).symm
    · show s.written ++ s.rest = (gone ++ [frame]).flatten ++ []
      rw [hwritten, List.flatten_append, List.flatten_singleton, List.append_nil]
      rfl
    · exact hempty ▸ List.suffix_refl _
  | drain hwriter | finish hwriter =>
    obtain ⟨gone, haccepted, hwritten, hrest⟩ := hs.aligned (hwriter ▸ rfl)
    exact .of_aligned ⟨gone, haccepted, hwritten, hrest⟩
  | shutDown => exact .of_left hs.cut rfl

theorem WriterStep.later (h : s.WriterStep s') : s.Later s' := by
  have hbusy (p : WriterPhase) (hwork : s.writer.isAtWork = true)
      (hidle : s.writer.isAtWork = false) : p.isAtWork = false ∧ s'.written = s.written := by
    rw [hwork] at hidle
    cases hidle
  cases h with
  | take hwriter =>
    exact ⟨List.prefix_refl _, List.prefix_refl _, hbusy _ (WriterPhase.isAtWork_of_takes hwriter),
      rfl⟩
  | @piece frame n socket hwriter hhand hpos hle hwrite =>
    refine ⟨List.prefix_refl _, ?_, hbusy _ (WriterPhase.isAtWork_of_takes hwriter), rfl⟩
    obtain ⟨-, rfl⟩ := Socket.write_eq_some hwrite
    exact ⟨s.rest.take n, List.append_assoc _ _ _⟩
  | next hwriter =>
    exact ⟨List.prefix_refl _, List.prefix_refl _, hbusy _ (WriterPhase.isAtWork_of_takes hwriter),
      rfl⟩
  | drain hwriter | finish hwriter | shutDown hwriter =>
    exact ⟨List.prefix_refl _, List.prefix_refl _, hbusy _ (hwriter ▸ rfl), rfl⟩

theorem Step.flows (h : s.Step cause s') (hs : s.Flows) : s'.Flows := by
  rcases h.quiet with ⟨-, h⟩ | ⟨more, h⟩ | h
  · exact h.flows hs
  · exact h.flows hs
  · exact h.flows hs

theorem Step.later (h : s.Step cause s') : s.Later s' := by
  rcases h.quiet with ⟨-, h⟩ | ⟨more, h⟩ | h
  · exact h.later
  · exact h.later
  · exact h.later

end Outflow

end CallWire
