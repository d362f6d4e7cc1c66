import CallWire.Proofs.Connection.Quiet
import CallWire.Proofs.Frame.Image

/-!
# CallWire.Proofs.Connection.Reading — the reader and the stream of its peer

What is left of the stream, in the buffer, on its way and still to come, is conserved: the frames
that the reader has processed, the one it holds, and those that a decoder takes from the rest are
the frames of the whole stream, however it is cut.  Nothing but the end of that stream, or a header
that is refused, ends the connection.
-/

namespace CallWire

namespace Connection

variable {service : Service} {c c' : Connection}

/-! ### The reader -/

/-- The frame that `readerTurn` processes, if any. -/
def takeUp (c : Connection) : Option Frame :=
  if c.outbound.waiting.isSome then none
  else
    match c.held with
    | some frame => if c.outbound.isHalted || c.eventsStopped then none else some frame
    | none =>
      match (c.decoder.decode c.buffer).result with
      | .ok (some frame) => if frame.header.isRequest && c.eventsStopped then none else some frame
      | _ => none

/-- The cases of `readerTurn` with the frame that it processes, on a connection that is neither
halted nor reset. -/
inductive Reads (service : Service) (c : Connection) : Option Frame → Turn × Connection → Prop
  | waits (hwaiting : c.outbound.waiting.isSome = true) : Reads service c none (.idle, c)
  | suspended {frame : Frame} (hwaiting : c.outbound.waiting = none) (hheld : c.held = some frame)
      (hstopped : c.eventsStopped = true) : Reads service c none (.idle, c)
  | resumes {frame : Frame} (hwaiting : c.outbound.waiting = none) (hheld : c.held = some frame)
      (hstarted : c.eventsStopped = false) :
      Reads service c (some frame) ({ c with held := none }.serve service frame)
  | refuses {e : RpcError} {decoder : FrameDecoder} {buffer : Bytes}
      (hwaiting : c.outbound.waiting = none) (hheld : c.held = none)
      (hdecode : c.decoder.decode c.buffer = ⟨.error e, decoder, buffer⟩) :
      Reads service c none (c.stopReading .protocolError)
  | holds {frame : Frame} {decoder : FrameDecoder} {buffer : Bytes}
      (hwaiting : c.outbound.waiting = none) (hheld : c.held = none)
      (hdecode : c.decoder.decode c.buffer = ⟨.ok (some frame), decoder, buffer⟩)
      (hstopped : c.eventsStopped = true) :
      Reads service c none (.read, { c with decoder, buffer, held := some frame })
  | serves {frame : Frame} {decoder : FrameDecoder} {buffer : Bytes}
      (hwaiting : c.outbound.waiting = none) (hheld : c.held = none)
      (hdecode : c.decoder.decode c.buffer = ⟨.ok (some frame), decoder, buffer⟩) :
      Reads service c (some frame) ({ c with decoder, buffer }.serve service frame)
  | takesIn {decoder : FrameDecoder} {buffer : Bytes}
      (hwaiting : c.outbound.waiting = none) (hheld : c.held = none)
      (hdecode : c.decoder.decode c.buffer = ⟨.ok none, decoder, buffer⟩)
      (harrived : c.socket.arrived ≠ []) :
      Reads service c none (.read, { c with
        decoder
        buffer := buffer ++ c.socket.arrived
        socket := { c.socket with arrived := [] } })
  | ends {decoder : FrameDecoder} {buffer : Bytes}
      (hwaiting : c.outbound.waiting = none) (hheld : c.held = none)
      (hdecode : c.decoder.decode c.buffer = ⟨.ok none, decoder, buffer⟩)
      (harrived : c.socket.arrived = []) (hdone : c.socket.peerDone = true) :
      Reads service c none ({ c with decoder, buffer }.stopReading .closed)
  | starves {decoder : FrameDecoder} {buffer : Bytes}
      (hwaiting : c.outbound.waiting = none) (hheld : c.held = none)
      (hdecode : c.decoder.decode c.buffer = ⟨.ok none, decoder, buffer⟩)
      (harrived : c.socket.arrived = []) (hdone : c.socket.peerDone = false) :
      Reads service c none (.idle, { c with decoder, buffer })

theorem readSocket_eq (hhalted : c.outbound.isHalted = false) (hreset : c.socket.isReset = false) :
    c.readSocket =
      if c.socket.arrived ≠ [] then
        (.read, { c with
          buffer := c.buffer ++ c.socket.arrived
          socket := { c.socket with arrived := [] } })
      else if c.socket.peerDone = true then c.stopReading .closed
      else (.idle, c) := by
  unfold readSocket
  rw [hhalted, hreset, if_neg Bool.false_ne_true]
  cases c.socket.arrived with
  | nil => rfl
  | cons b bs => rfl

theorem reads_of_readSocket (hhalted : c.outbound.isHalted = false)
    (hsocket : ∀ decoder buffer, c.outbound.waiting = none → c.held = none →
      c.decoder.decode c.buffer = ⟨.ok none, decoder, buffer⟩ →
      c.Reads service none { c with decoder, buffer }.readSocket) :
    c.Reads service c.takeUp (c.readerTurn service) := by
  unfold takeUp readerTurn
  cases hwaiting : c.outbound.waiting with
  | some reply =>
    rw [hhalted]
    exact .waits (by rw [hwaiting]; rfl)
  | none =>
    rw [if_neg (by simp), if_neg (by simp)]
    cases hheld : c.held with
    | some frame =>
      dsimp only
      unfold resume
      rw [hhalted, if_neg Bool.false_ne_true, Bool.false_or]
      by_cases hstopped : c.eventsStopped = true
      · rw [if_pos hstopped, if_pos hstopped]
        exact .suspended hwaiting hheld hstopped
      · rw [if_neg hstopped, if_neg hstopped]
        exact .resumes hwaiting hheld (Bool.eq_false_of_not_eq_true hstopped)
    | none =>
      dsimp only
      unfold nextFrame
      rcases hdecode : c.decoder.decode c.buffer with ⟨e | _ | frame, decoder, buffer⟩
      · exact .refuses hwaiting hheld hdecode
      · exact hsocket decoder buffer hwaiting hheld hdecode
      · dsimp only
        by_cases hholds : (frame.header.isRequest && c.eventsStopped) = true
        · rw [if_pos hholds, if_pos hholds]
          exact .holds hwaiting hheld hdecode (Bool.and_eq_true_iff.mp hholds).2
        · rw [if_neg hholds, if_neg hholds]
          exact .serves hwaiting hheld hdecode

theorem reads_readerTurn (service : Service) (c : Connection)
    (hhalted : c.outbound.isHalted = false) (hreset : c.socket.isReset = false) :
    c.Reads service c.takeUp (c.readerTurn service) := by
  refine reads_of_readSocket hhalted fun decoder buffer hwaiting hheld hdecode => ?_
  rw [readSocket_eq (c := { c with decoder, buffer }) hhalted hreset]
  by_cases harrived : c.socket.arrived = []
  · rw [if_neg (not_not_intro harrived)]
    cases hdone : c.socket.peerDone with
    | true => exact .ends hwaiting hheld hdecode harrived hdone
    | false => exact .starves hwaiting hheld hdecode harrived hdone
  · rw [if_pos harrived]
    exact .takesIn hwaiting hheld hdecode harrived

theorem stopReading_of_connected (c : Connection) (reason : DisconnectReason)
    (hstate : c.life.state = .connected) (hreason : c.life.reason = none) :
    (c.stopReading reason).1 = .ended ∧
      (c.stopReading reason).2.life = { c.life with state := .closed, reason := some reason } ∧
      (c.stopReading reason).2.socket = c.socket.release ∧
      (c.stopReading reason).2.calls = c.calls.drain.2 ∧
      (c.stopReading reason).2.events = c.events ++ [.disconnected reason] := by
  have hfail : c.fail reason = { c with
      life := { c.life with state := .closing, reason := some reason }
      outbound := c.outbound.halt } := by
    unfold fail Lifecycle.fail Lifecycle.because
    rw [hstate, hreason]
    rfl
  unfold stopReading
  rw [hfail]
  exact ⟨rfl, rfl, rfl, rfl, rfl⟩

end Connection

/-! ### What the writer leaves alone -/

namespace Outbound

/-- A reply waits for room only behind others. -/
def IsParked (o : Outbound) : Prop := o.waiting.isSome = true → o.queue ≠ []

theorem isRunning_iff {o : Outbound} :
    o.isRunning = true ↔ o.isDraining = false ∧ o.isHalted = false ∧ o.isDone = false := by
  simp [isRunning, and_assoc]

theorem pickUp_cases (o : Outbound) :
    ((o.inHand.isSome = true ∨ o.queue = []) ∧ o.pickUp = o) ∨
      (o.inHand = none ∧ ∃ frame rest, o.queue = frame :: rest ∧ o.pickUp =
        { o with inHand := some frame, queue := rest ++ o.waiting.toList, waiting := none }) := by
  unfold pickUp
  cases hinHand : o.inHand with
  | some frame => exact .inl ⟨.inl rfl, rfl⟩
  | none =>
    cases hqueue : o.queue with
    | nil => exact .inl ⟨.inr rfl, rfl⟩
    | cons frame rest => exact .inr ⟨rfl, frame, rest, rfl, rfl⟩

theorem IsParked.pickUp {o : Outbound} (h : o.IsParked) : o.pickUp.IsParked := by
  rcases o.pickUp_cases with ⟨-, heq⟩ | ⟨-, frame, rest, -, heq⟩
  · rw [heq]
    exact h
  · rw [heq]
    exact nofun

theorem pop_eq_some {o o' : Outbound} {frame : Bytes} (h : o.pop = some (frame, o')) :
    o' = { o.pickUp with inHand := none } := by
  obtain ⟨f, -, heq⟩ := Option.map_eq_some_iff.mp h
  exact (Prod.mk.inj heq).2.symm

theorem inHand_pickUp_of_pop {o o' : Outbound} {frame : Bytes} (h : o.pop = some (frame, o')) :
    o.pickUp.inHand = some frame := by
  obtain ⟨f, hhand, heq⟩ := Option.map_eq_some_iff.mp h
  exact (Prod.mk.inj heq).1 ▸ hhand

theorem exists_pop_eq_some {o : Outbound} (h : o.inHand.isSome = true ∨ o.queue ≠ []) :
    ∃ frame o', o.pop = some (frame, o') := by
  have htaken : ∃ frame, o.pickUp.inHand = some frame := by
    rcases o.pickUp_cases with ⟨hinHand | hempty, heq⟩ | ⟨-, frame, rest, -, heq⟩
    · rw [heq]
      exact Option.isSome_iff_exists.mp hinHand
    · rw [heq]
      exact Option.isSome_iff_exists.mp (h.resolve_right (not_not_intro hempty))
    · rw [heq]
      exact ⟨frame, rfl⟩
  obtain ⟨frame, hframe⟩ := htaken
  exact ⟨frame, _, congrArg (Option.map _) hframe⟩

theorem pop_eq_none {o : Outbound} (h : o.pop = none) : o.inHand = none ∧ o.queue = [] := by
  have hnothing : ¬ (o.inHand.isSome = true ∨ o.queue ≠ []) := by
    intro hsome
    obtain ⟨frame, o', hpop⟩ := exists_pop_eq_some hsome
    rw [h] at hpop
    cases hpop
  rw [not_or, Option.not_isSome_iff_eq_none, not_ne_iff] at hnothing
  exact hnothing

theorem IsParked.await {o : Outbound} (h : o.IsParked) (hcapacity : 0 < o.capacity)
    (frame : Bytes) : (o.await frame).IsParked := by
  unfold Outbound.await
  split
  · exact h
  split
  · exact fun _ => List.append_ne_nil_of_right_ne_nil _ nofun
  · next hroom =>
    intro _ hempty
    refine hroom ?_
    unfold hasRoom
    rw [show o.queue = [] from hempty]
    exact decide_eq_true hcapacity

theorem capacity_await (o : Outbound) (frame : Bytes) : (o.await frame).capacity = o.capacity := by
  unfold Outbound.await
  split
  · rfl
  split
  · rfl
  · rfl

theorem capacity_pickUp (o : Outbound) : o.pickUp.capacity = o.capacity := by
  rcases o.pickUp_cases with ⟨-, heq⟩ | ⟨-, frame, rest, -, heq⟩
  · rw [heq]
  · rw [heq]

theorem isDone_pickUp (o : Outbound) : o.pickUp.isDone = o.isDone := by
  rcases o.pickUp_cases with ⟨-, heq⟩ | ⟨-, frame, rest, -, heq⟩
  · rw [heq]
  · rw [heq]

end Outbound

theorem Socket.peerWrite_eq_some {s s' : Socket} {bs : Bytes} (h : s.peerWrite bs = some s') :
    s' = { s with arrived := s.arrived ++ bs } := by
  unfold peerWrite at h
  split at h
  · next hempty =>
    rw [List.isEmpty_iff.mp hempty, List.append_nil]
    exact (Option.some.inj h).symm
  split at h
  · cases h
  · exact (Option.some.inj h).symm

namespace Connection

variable {service : Service} {c c' c'' : Connection}

/-- Nothing that the reader looks at has changed. -/
structure Spares (c c' : Connection) : Prop where
  standing : c'.standing = c.standing
  decoder : c'.decoder = c.decoder
  buffer : c'.buffer = c.buffer
  held : c'.held = c.held
  arrived : c'.socket.arrived = c.socket.arrived
  peerDone : c'.socket.peerDone = c.socket.peerDone
  isReset : c'.socket.isReset = c.socket.isReset
  peerDeaf : c'.socket.peerDeaf = c.socket.peerDeaf
  capacity : c'.outbound.capacity = c.outbound.capacity
  running : c'.outbound.isRunning = c.outbound.isRunning
  parked : 0 < c.outbound.capacity → c.outbound.IsParked → c'.outbound.IsParked

theorem Spares.life (h : c.Spares c') : c'.life = c.life := congrArg Prod.fst h.standing

theorem Spares.shutsDown (h : c.Spares c') : c'.shutsDown = c.shutsDown :=
  congrArg Prod.snd h.standing

theorem Spares.refl (c : Connection) : c.Spares c :=
  ⟨rfl, rfl, rfl, rfl, rfl, rfl, rfl, rfl, rfl, rfl, fun _ hparked => hparked⟩

theorem Spares.trans (h : c.Spares c') (h' : c'.Spares c'') : c.Spares c'' where
  standing := h'.standing.trans h.standing
  decoder := h'.decoder.trans h.decoder
  buffer := h'.buffer.trans h.buffer
  held := h'.held.trans h.held
  arrived := h'.arrived.trans h.arrived
  peerDone := h'.peerDone.trans h.peerDone
  isReset := h'.isReset.trans h.isReset
  peerDeaf := h'.peerDeaf.trans h.peerDeaf
  capacity := h'.capacity.trans h.capacity
  running := h'.running.trans h.running
  parked := fun hcapacity hparked =>
    h'.parked (h.capacity ▸ hcapacity) (h.parked hcapacity hparked)

theorem Beside.spares (h : c.Beside c') (hstanding : c'.standing = c.standing)
    (hkeeps : c.Keeps c') (hstate : c.life.state = .connected) : c.Spares c' where
  standing := hstanding
  decoder := h.decoder
  buffer := h.buffer
  held := h.held
  arrived := by rw [h.socket]
  peerDone := by rw [h.socket]
  isReset := by rw [h.socket]
  peerDeaf := by rw [h.socket]
  capacity := h.capacity
  running := by
    have hlife : c'.life = c.life := congrArg Prod.fst hstanding
    exact (hkeeps (.inr (hlife ▸ hstate))).2.2
  parked := by
    intro _ hparked hwaiting hempty
    rw [h.waiting] at hwaiting
    have hqueue := h.queue
    rw [hempty, List.prefix_nil] at hqueue
    exact hparked hwaiting hqueue

theorem sendReply_spares (c : Connection) (reply : Bytes) : c.Spares (c.sendReply reply) := by
  unfold sendReply
  split
  · exact ⟨rfl, rfl, rfl, rfl, rfl, rfl, rfl, rfl, c.outbound.capacity_await reply,
      c.outbound.isRunning_await reply, fun hcapacity hparked => hparked.await hcapacity reply⟩
  · exact .refl c

theorem serve_spares (hquiet : service.IsQuiet) (frame : Frame)
    (hstate : c.life.state = .connected) : c.Spares (c.serve service frame).2 := by
  obtain ⟨c₁, hbeside, hstanding, hkeeps, hserve⟩ := serve_beside service c frame
  have hspares := hbeside.spares (hstanding hquiet) hkeeps hstate
  rcases hserve with heq | ⟨reply, heq⟩
  · rw [heq]
    exact hspares
  · rw [heq]
    exact hspares.trans (c₁.sendReply_spares reply)

theorem Reads.keeps {taken : Option Frame} {turn : Turn × Connection}
    (h : Reads service c taken turn) (hquiet : service.IsQuiet)
    (hstate : c.life.state = .connected) (hgoes : turn.1 ≠ .ended) :
    turn.2.socket.peerDone = c.socket.peerDone ∧ turn.2.socket.peerDeaf = c.socket.peerDeaf := by
  cases h with
  | waits | suspended | holds | takesIn | starves => exact ⟨rfl, rfl⟩
  | refuses | ends => exact absurd rfl hgoes
  | @resumes frame =>
    have hspares := serve_spares hquiet (c := { c with held := none }) frame hstate
    exact ⟨hspares.peerDone, hspares.peerDeaf⟩
  | @serves frame decoder buffer =>
    have hspares := serve_spares hquiet (c := { c with decoder, buffer }) frame hstate
    exact ⟨hspares.peerDone, hspares.peerDeaf⟩

theorem pickUp_spares (c : Connection) : c.Spares c.pickUp :=
  ⟨rfl, rfl, rfl, rfl, rfl, rfl, rfl, rfl, c.outbound.capacity_pickUp, c.outbound.isRunning_pickUp,
    fun _ hparked => hparked.pickUp⟩

theorem writerTurn_eq (hrunning : c.outbound.isRunning = true)
    (hdeaf : c.socket.peerDeaf = false) :
    c.writerTurn = c.outbound.pop.map fun (frame, outbound) =>
      { c with
        outbound
        socket := { c.socket with delivered := c.socket.delivered ++ frame } } := by
  obtain ⟨hdraining, hhalted, hdone⟩ := Outbound.isRunning_iff.mp hrunning
  unfold writerTurn
  rw [hdraining, hhalted, hdone, if_neg Bool.false_ne_true, if_neg Bool.false_ne_true]
  rcases c.outbound.pop with _ | ⟨frame, outbound⟩
  · rfl
  · simp only [Socket.write_of_not_deaf hdeaf, Option.map_some]

theorem writerTurn_spares (hrunning : c.outbound.isRunning = true)
    (hdeaf : c.socket.peerDeaf = false) (hturn : c.writerTurn = some c') : c.Spares c' := by
  rw [writerTurn_eq hrunning hdeaf] at hturn
  obtain ⟨⟨frame, outbound⟩, hpop, rfl⟩ := Option.map_eq_some_iff.mp hturn
  have hrun := c.outbound.isRunning_pop hpop
  obtain rfl := Outbound.pop_eq_some hpop
  exact ⟨rfl, rfl, rfl, rfl, rfl, rfl, rfl, rfl, c.outbound.capacity_pickUp, hrun,
    fun _ hparked => hparked.pickUp⟩

theorem life_writerTurn (hdeaf : c.socket.peerDeaf = false) (hturn : c.writerTurn = some c') :
    c'.life = c.life ∧ c'.socket.peerDone = c.socket.peerDone := by
  cases (writerTurn_turn hturn).2 with
  | halted | shutsDown => exact ⟨rfl, rfl⟩
  | writes _ hwrite =>
    rw [Socket.write_of_not_deaf hdeaf] at hwrite
    cases hwrite
    exact ⟨rfl, rfl⟩
  | breaks _ hwrite =>
    rw [Socket.write_of_not_deaf hdeaf] at hwrite
    cases hwrite

end Connection

/-! ### The stream -/

/-- A connection, and what its peer has still to write. -/
structure Inbound where
  conn : Connection
  /-- The pieces that will still arrive. -/
  toCome : List Bytes
  /-- The frames processed so far. -/
  served : List Frame := []

namespace Inbound

def read (service : Service) (s : Inbound) : Inbound :=
  { s with
    conn := (s.conn.readerTurn service).2
    served := s.served ++ s.conn.takeUp.toList }

/-- A step that neither closes the connection nor makes its socket fail. -/
inductive Step (service : Service) (s : Inbound) : Inbound → Prop
  | arrive {chunk : Bytes} {rest : List Bytes} {socket : Socket} (h : s.toCome = chunk :: rest)
      (hwrite : s.conn.socket.peerWrite chunk = some socket) :
      Step service s { s with conn := { s.conn with socket }, toCome := rest }
  | endOfStream (h : s.toCome = []) :
      Step service s { s with conn := { s.conn with socket := s.conn.socket.peerShutWrite } }
  | peer {socket : Socket} (harrived : socket.arrived = s.conn.socket.arrived)
      (hdone : socket.peerDone = s.conn.socket.peerDone)
      (hreset : socket.isReset = s.conn.socket.isReset) :
      Step service s { s with conn := { s.conn with socket } }
  | reader (h : s.conn.life.state = .connected) : Step service s (s.read service)
  | writer {c : Connection} (hturn : s.conn.writerTurn = some c)
      (hdeaf : s.conn.socket.peerDeaf = false) : Step service s { s with conn := c }
  | pickUp : Step service s { s with conn := s.conn.pickUp }
  | act {c : Connection} (h : s.conn.Acts service c) : Step service s { s with conn := c }

/-- The frames that a decoder yields for the rest of the stream, and the error it ends with. -/
def ahead (s : Inbound) : List Frame × Option RpcError :=
  (s.conn.decoder.drain (s.conn.buffer ++ (s.conn.socket.arrived ++ s.toCome.flatten))).result

/-- The connection is connected, and the frames processed with those ahead are all frames of the
stream. -/
structure Inv (frames : List Frame) (error : Option RpcError) (s : Inbound) : Prop where
  state : s.conn.life.state = .connected
  reason : s.conn.life.reason = none
  running : s.conn.outbound.isRunning = true
  capacity : 0 < s.conn.outbound.capacity
  parked : s.conn.outbound.IsParked
  sound : s.conn.socket.isReset = false
  upheld : s.conn.shutsDown = false
  last : s.conn.socket.peerDone = true → s.toCome = []
  frames : s.served ++ (s.conn.held.toList ++ s.ahead.1) = frames
  error : s.ahead.2 = error

/-- The reason with which the reader ends after this error, or at the end of the stream. -/
def stopReason (error : Option RpcError) : DisconnectReason :=
  if error.isSome then .protocolError else .closed

/-- The reader has ended, with all frames processed. -/
structure Stopped (frames : List Frame) (error : Option RpcError) (s : Inbound) : Prop where
  state : s.conn.life.state = .closed
  reason : s.conn.life.reason = some (stopReason error)
  served : s.served = frames
  done : error = none → s.conn.socket.peerDone = true

variable {service : Service} {s s' : Inbound} {frames : List Frame} {error : Option RpcError}

theorem Inv.spares (h : s.Inv frames error) {c : Connection} (hc : s.conn.Spares c) :
    { s with conn := c }.Inv frames error := by
  have hahead : { s with conn := c }.ahead = s.ahead := by
    unfold ahead
    rw [hc.decoder, hc.buffer, hc.arrived]
  constructor
  case state =>
    rw [hc.life]
    exact h.state
  case reason =>
    rw [hc.life]
    exact h.reason
  case running =>
    rw [hc.running]
    exact h.running
  case capacity =>
    rw [hc.capacity]
    exact h.capacity
  case parked => exact hc.parked h.capacity h.parked
  case sound =>
    rw [hc.isReset]
    exact h.sound
  case upheld =>
    rw [hc.shutsDown]
    exact h.upheld
  case last =>
    rw [hc.peerDone]
    exact h.last
  case frames =>
    rw [hc.held, hahead]
    exact h.frames
  case error =>
    rw [hahead]
    exact h.error

section Decoding

variable {decoder : FrameDecoder} {buffer : Bytes}

/-- Decoding the buffer is decoding it with the rest of the stream appended. -/
theorem decode_ahead (s : Inbound) :
    s.conn.decoder.decode (s.conn.buffer ++ (s.conn.socket.arrived ++ s.toCome.flatten)) =
      (s.conn.decoder.decode s.conn.buffer).retried (s.conn.socket.arrived ++ s.toCome.flatten) :=
  FrameDecoder.decode_append

theorem ahead_of_frame {frame : Frame}
    (hdecode : s.conn.decoder.decode s.conn.buffer = ⟨.ok (some frame), decoder, buffer⟩)
    (held : Option Frame) (served : List Frame) :
    s.ahead.1 = frame ::
        { s with conn := { s.conn with decoder, buffer, held }, served }.ahead.1 ∧
      s.ahead.2 = { s with conn := { s.conn with decoder, buffer, held }, served }.ahead.2 := by
  have hmore := s.decode_ahead
  rw [hdecode] at hmore
  unfold ahead
  rw [FrameDecoder.drain_of_frame hmore]
  exact ⟨rfl, rfl⟩

theorem ahead_of_none
    (hdecode : s.conn.decoder.decode s.conn.buffer = ⟨.ok none, decoder, buffer⟩) :
    { s with conn := { s.conn with decoder, buffer } }.ahead = s.ahead := by
  have hmore := s.decode_ahead
  rw [hdecode] at hmore
  unfold ahead
  rw [FrameDecoder.drain_congr hmore]

theorem ahead_of_error {e : RpcError}
    (hdecode : s.conn.decoder.decode s.conn.buffer = ⟨.error e, decoder, buffer⟩) :
    s.ahead = ([], some e) := by
  have hmore := s.decode_ahead
  rw [hdecode] at hmore
  unfold ahead
  rw [FrameDecoder.drain_of_error hmore]

theorem ahead_of_starved
    (hdecode : s.conn.decoder.decode s.conn.buffer = ⟨.ok none, decoder, buffer⟩)
    (harrived : s.conn.socket.arrived = []) (htoCome : s.toCome.flatten = []) :
    s.ahead = ([], none) := by
  unfold ahead
  rw [harrived, htoCome, List.append_nil, List.append_nil, FrameDecoder.drain_of_none hdecode]

end Decoding

/-! ### What one step preserves -/

theorem Inv.takes (h : s.Inv frames error) (c : Connection) (served : List Frame)
    (hstanding : c.standing = s.conn.standing) (houtbound : c.outbound = s.conn.outbound)
    (hreset : c.socket.isReset = s.conn.socket.isReset)
    (hdone : c.socket.peerDone = s.conn.socket.peerDone)
    (hframes : served ++ (c.held.toList ++ { s with conn := c, served }.ahead.1) =
      s.served ++ (s.conn.held.toList ++ s.ahead.1))
    (herror : { s with conn := c, served }.ahead.2 = s.ahead.2) :
    { s with conn := c, served }.Inv frames error where
  state := (congrArg (·.1.state) hstanding).trans h.state
  reason := (congrArg (·.1.reason) hstanding).trans h.reason
  running := (congrArg Outbound.isRunning houtbound).trans h.running
  capacity := houtbound.symm ▸ h.capacity
  parked := houtbound.symm ▸ h.parked
  sound := hreset.trans h.sound
  upheld := (congrArg Prod.snd hstanding).trans h.upheld
  last := fun hpeer => h.last (hdone ▸ hpeer)
  frames := hframes.trans h.frames
  error := herror.trans h.error

theorem Inv.stops (h : s.Inv frames error) (hheld : s.conn.held = none)
    (hahead : s.ahead = ([], error)) (hdone : error = none → s.conn.socket.peerDone = true) {c : Connection}
    (hlife : c.life = s.conn.life) (hsocket : c.socket = s.conn.socket) :
    { s with conn := (c.stopReading (stopReason error)).2 }.Stopped frames error := by
  obtain ⟨-, hstopped, hreleased, -, -⟩ := c.stopReading_of_connected (stopReason error)
    (hlife ▸ h.state) (hlife ▸ h.reason)
  constructor
  case state => rw [hstopped]
  case reason => rw [hstopped]
  case served =>
    have hframes := h.frames
    rw [hheld, hahead] at hframes
    exact (List.append_nil _).symm.trans hframes
  case done =>
    intro hnone
    rw [hreleased, hsocket]
    exact hdone hnone

theorem Inv.reads (h : s.Inv frames error) (service : Service) :
    s.conn.Reads service s.conn.takeUp (s.conn.readerTurn service) :=
  s.conn.reads_readerTurn service (Outbound.isRunning_iff.mp h.running).2.1 h.sound

theorem Inv.read (h : s.Inv frames error) (hquiet : service.IsQuiet) :
    (s.conn.readerTurn service).1 = .ended ∧ (s.read service).Stopped frames error ∨
      (s.conn.readerTurn service).1 ≠ .ended ∧ (s.read service).Inv frames error := by
  have hreads := h.reads service
  unfold Inbound.read
  generalize s.conn.takeUp = taken, s.conn.readerTurn service = turn at hreads ⊢
  -- What is ahead stays, loses its first frame to the reader, or is the error that the reader
  -- meets.
  cases hreads with
  | waits | suspended =>
    rw [Option.toList_none, List.append_nil]
    exact .inr ⟨nofun, h⟩
  | @resumes frame hwaiting hheld hstarted =>
    have htaken := h.takes { s.conn with held := none } (s.served ++ [frame])
      rfl rfl rfl rfl (by rw [hheld, List.append_assoc]; rfl) rfl
    refine .inr ⟨?_, htaken.spares (Connection.serve_spares hquiet frame htaken.state)⟩
    rw [Connection.fst_serve]
    exact nofun
  | refuses hwaiting hheld hdecode =>
    have hahead := ahead_of_error hdecode
    obtain rfl : _ = error := (congrArg Prod.snd hahead).symm.trans h.error
    rw [Option.toList_none, List.append_nil]
    exact .inl ⟨rfl, h.stops hheld hahead nofun rfl rfl⟩
  | @holds frame decoder buffer hwaiting hheld hdecode hstopped =>
    obtain ⟨hframes, herror⟩ := ahead_of_frame hdecode (some frame) s.served
    rw [Option.toList_none, List.append_nil]
    exact .inr ⟨nofun, h.takes _ _ rfl rfl rfl rfl (by rw [hheld, hframes]; rfl) herror.symm⟩
  | @serves frame decoder buffer hwaiting hheld hdecode =>
    obtain ⟨hframes, herror⟩ := ahead_of_frame hdecode s.conn.held (s.served ++ [frame])
    have htaken := h.takes { s.conn with decoder, buffer } (s.served ++ [frame])
      rfl rfl rfl rfl (by rw [hframes, hheld, List.append_assoc]; rfl) herror.symm
    refine .inr ⟨?_, htaken.spares (Connection.serve_spares hquiet frame htaken.state)⟩
    rw [Connection.fst_serve]
    exact nofun
  | @takesIn decoder buffer hwaiting hheld hdecode harrived =>
    have hahead : { s with conn := { s.conn with
        decoder
        buffer := buffer ++ s.conn.socket.arrived
        socket := { s.conn.socket with arrived := [] } } }.ahead = s.ahead := by
      rw [← ahead_of_none hdecode]
      unfold ahead
      rw [List.append_assoc]
      rfl
    rw [Option.toList_none, List.append_nil]
    exact .inr ⟨nofun, h.takes _ _ rfl rfl rfl rfl (by rw [hahead]) (congrArg Prod.snd hahead)⟩
  | @ends decoder buffer hwaiting hheld hdecode harrived hdone =>
    have hahead := ahead_of_starved hdecode harrived (congrArg List.flatten (h.last hdone))
    obtain rfl : _ = error := (congrArg Prod.snd hahead).symm.trans h.error
    rw [Option.toList_none, List.append_nil]
    exact .inl ⟨rfl, h.stops hheld hahead (fun _ => hdone) rfl rfl⟩
  | @starves decoder buffer hwaiting hheld hdecode harrived hdone =>
    have hahead := ahead_of_none hdecode
    rw [Option.toList_none, List.append_nil]
    exact .inr ⟨nofun, h.takes _ _ rfl rfl rfl rfl (by rw [hahead]) (congrArg Prod.snd hahead)⟩

theorem Inv.arrive (h : s.Inv frames error) {chunk : Bytes} {rest : List Bytes} {socket : Socket}
    (htoCome : s.toCome = chunk :: rest) (hwrite : s.conn.socket.peerWrite chunk = some socket) :
    { s with conn := { s.conn with socket }, toCome := rest }.Inv frames error := by
  have hsocket := Socket.peerWrite_eq_some hwrite
  have hahead : { s with conn := { s.conn with socket }, toCome := rest }.ahead = s.ahead := by
    unfold ahead
    rw [hsocket, htoCome, List.flatten_cons, List.append_assoc]
  subst hsocket
  exact {
    h with
    last := by
      intro hdone
      have hlast := h.last hdone
      rw [htoCome] at hlast
      cases hlast
    frames := by
      rw [hahead]
      exact h.frames
    error := by
      rw [hahead]
      exact h.error }

theorem Inv.step (h : s.Inv frames error) (hquiet : service.IsQuiet) (hstep : Step service s s') :
    s'.Inv frames error ∨ s'.Stopped frames error := by
  cases hstep with
  | arrive htoCome hwrite => exact .inl (h.arrive htoCome hwrite)
  | endOfStream htoCome =>
    exact .inl { h with last := fun _ => htoCome }
  | @peer socket harrived hdone hreset =>
    have hahead : { s with conn := { s.conn with socket } }.ahead = s.ahead := by
      unfold ahead
      rw [harrived]
    exact .inl (h.takes _ _ rfl rfl hreset hdone (by rw [hahead]) (congrArg Prod.snd hahead))
  | reader => exact (h.read hquiet).symm.imp And.right And.right
  | writer hturn hdeaf => exact .inl (h.spares (Connection.writerTurn_spares h.running hdeaf hturn))
  | pickUp => exact .inl (h.spares s.conn.pickUp_spares)
  | act hact => exact .inl (h.spares (hact.beside.spares hact.standing hact.keeps h.state))

theorem Stopped.of_eq (h : s.Stopped frames error) (hlife : s'.conn.life = s.conn.life)
    (hdone : s.conn.socket.peerDone = true → s'.conn.socket.peerDone = true)
    (hserved : s'.served = s.served) : s'.Stopped frames error where
  state := hlife ▸ h.state
  reason := hlife ▸ h.reason
  served := hserved.trans h.served
  done := fun hnone => hdone (h.done hnone)

theorem Stopped.step (h : s.Stopped frames error) (hstep : Step service s s') :
    s'.Stopped frames error := by
  cases hstep with
  | arrive _ hwrite =>
    rw [Socket.peerWrite_eq_some hwrite]
    exact h.of_eq rfl id rfl
  | endOfStream => exact h.of_eq rfl (fun _ => rfl) rfl
  | peer _ hdone _ => exact h.of_eq rfl hdone.trans rfl
  | reader hconnected =>
    rw [h.state] at hconnected
    cases hconnected
  | writer hturn hdeaf =>
    obtain ⟨hlife, hdone⟩ := Connection.life_writerTurn hdeaf hturn
    exact h.of_eq hlife hdone.trans rfl
  | pickUp => exact h.of_eq rfl id rfl
  | act hact =>
    have hdone := congrArg Socket.peerDone hact.beside.socket
    exact h.of_eq (congrArg Prod.fst hact.standing) hdone.trans rfl

/-- As long as the reader has not ended, the frames processed and those ahead are all frames of the
stream; afterwards all of them are processed. -/
theorem Inv.run (h : s.Inv frames error) (hquiet : service.IsQuiet)
    (hrun : Relation.ReflTransGen (Step service) s s') :
    s'.Inv frames error ∨ s'.Stopped frames error := by
  induction hrun with
  | refl => exact .inl h
  | tail _ hstep ih =>
    rcases ih with hinv | hstopped
    · exact hinv.step hquiet hstep
    · exact .inr (hstopped.step hstep)

end Inbound

end CallWire
