import CallWire.Proofs.Connection.EndToEnd
import CallWire.Proofs.Connection.Handlers
import CallWire.Proofs.Connection.Scene

/-!
# CallWire.Proofs.Connection.Outgoing — what a connection sends

Every frame that is queued, in hand, or waits for room is a request, a reply, or an error reply.
Requests and replies were checked against the limit of the connection before they were queued, and
error replies were not: their payload is the four bytes of a code, whatever the limit.  So a peer
with the same limit takes every frame, or takes every frame but the error replies.
-/

namespace CallWire

/-! ### The frames of a queue -/

namespace Outbound

variable (o : Outbound)

/-- The frames not written yet: in hand, queued, and waiting for room. -/
def frames : List Bytes := o.inHand.toList ++ (o.queue ++ o.waiting.toList)

theorem mem_frames {bytes : Bytes} :
    bytes ∈ o.frames ↔ o.inHand = some bytes ∨ bytes ∈ o.queue ∨ o.waiting = some bytes := by
  unfold frames
  simp only [List.mem_append, Option.mem_toList]

theorem frames_push {frame bytes : Bytes}
    (h : bytes ∈ ({ o with queue := o.queue ++ [frame] } : Outbound).frames) :
    bytes ∈ o.frames ∨ bytes = frame := by
  rw [mem_frames] at h ⊢
  rcases h with h | h | h
  · exact .inl (.inl h)
  · rcases List.mem_append.mp h with h | h
    · exact .inl (.inr (.inl h))
    · exact .inr (List.mem_singleton.mp h)
  · exact .inl (.inr (.inr h))

theorem frames_await {frame bytes : Bytes} (h : bytes ∈ (o.await frame).frames) :
    bytes ∈ o.frames ∨ bytes = frame := by
  unfold await at h
  by_cases hdone : o.isDone = true
  · rw [if_pos hdone] at h
    exact .inl h
  · rw [if_neg hdone] at h
    by_cases hroom : o.hasRoom = true
    · rw [if_pos hroom] at h
      exact o.frames_push h
    · rw [if_neg hroom, mem_frames] at h
      rw [mem_frames]
      rcases h with h | h | h
      · exact .inl (.inl h)
      · exact .inl (.inr (.inl h))
      · exact .inr (Option.some.inj h).symm

theorem frames_pickUp : o.pickUp.frames = o.frames := by
  unfold pickUp
  split
  · next frame rest hhand hqueue =>
    unfold frames
    rw [hhand, hqueue]
    simp
  · rfl

theorem frames_pop {o' : Outbound} {frame bytes : Bytes} (h : o.pop = some (frame, o'))
    (hb : bytes ∈ o'.frames) : bytes ∈ o.frames := by
  obtain ⟨f, -, hf⟩ := Option.map_eq_some_iff.mp h
  obtain ⟨-, rfl⟩ := Prod.mk.inj hf
  rw [← o.frames_pickUp]
  exact List.mem_append_right _ hb

theorem frames_stop : o.stop.frames = [] := rfl

end Outbound

/-! ### Where the frames come from -/

/-- A frame that a connection queues under this limit: a request or a reply within the limit, or an
error reply. -/
inductive Outgoing (limit : Nat) : Bytes → Prop
  | request (command sequence : UInt32) {payload : Bytes} (h : payload.length ≤ limit) :
      Outgoing limit (Frame.image (.request command sequence) payload)
  | oneWay (command sequence : UInt32) {payload : Bytes} (h : payload.length ≤ limit) :
      Outgoing limit (Frame.image (.oneWay command sequence) payload)
  | reply (command sequence : UInt32) {payload : Bytes} (h : payload.length ≤ limit) :
      Outgoing limit (Frame.image (.reply command sequence) payload)
  | error (command sequence : UInt32) (status : Status) :
      Outgoing limit (errorImage command sequence status)

theorem Outgoing.of_answerImage {limit : Nat} {command sequence : UInt32} {answer : Answer}
    {bytes : Bytes} (h : Connection.answerImage limit command sequence answer = some bytes) :
    Outgoing limit bytes := by
  unfold Connection.answerImage at h
  split at h
  · split at h
    · next himage =>
      cases h
      obtain ⟨hlength, rfl⟩ := replyImage_eq_ok himage
      exact .reply command sequence hlength
    · cases h
      exact .error command sequence .frameTooLarge
  · cases h
    exact .error command sequence _
  · cases h

theorem Outgoing.exists_image {limit : Nat} {bytes : Bytes} (h : Outgoing limit bytes) :
    ∃ header payload, bytes = Frame.image header payload ∧
      Header.flagError? header.flags = none ∧
      (header.kind ≠ .errorReply ∧ payload.length ≤ limit ∨
        header.kind = .errorReply ∧ payload.length = 4) := by
  cases h with
  | request command sequence hlength =>
    refine ⟨_, _, rfl, Header.flagError?_request _ _, .inl ⟨?_, hlength⟩⟩
    rw [Header.kind_request]
    exact nofun
  | oneWay command sequence hlength =>
    refine ⟨_, _, rfl, Header.flagError?_oneWay _ _, .inl ⟨?_, hlength⟩⟩
    rw [Header.kind_oneWay]
    exact nofun
  | reply command sequence hlength =>
    refine ⟨_, _, rfl, Header.flagError?_reply _ _, .inl ⟨?_, hlength⟩⟩
    rw [Header.kind_reply]
    exact nofun
  | error command sequence status =>
    exact ⟨_, _, rfl, Header.flagError?_errorReply _ _,
      .inr ⟨Header.kind_errorReply _ _, Bytes.length_ofNat 4 _⟩⟩

namespace Connection

/-- Every frame that `c'` has to write was one of `c`, or is `Outgoing`. -/
def Sends (service : Service) (c c' : Connection) : Prop :=
  ∀ bytes ∈ c'.outbound.frames,
    bytes ∈ c.outbound.frames ∨ Outgoing service.config.maxPayloadLength bytes

section Operations

variable {service : Service} {c c' c'' : Connection}

theorem Sends.of_eq (h : c'.outbound = c.outbound) : c.Sends service c' :=
  fun _ hb => .inl (h ▸ hb)

theorem Sends.trans (h : c.Sends service c') (h' : c'.Sends service c'') : c.Sends service c'' := by
  intro bytes hb
  rcases h' bytes hb with hb | hout
  · exact h bytes hb
  · exact .inr hout

theorem le_of_requestPayload {type : PayloadType} {v : Value} {payload : Bytes}
    (h : requestPayload service type v = .ok payload) :
    payload.length ≤ service.config.maxPayloadLength := by
  obtain ⟨bytes, -, h⟩ := exists_of_bind_eq_ok h
  obtain ⟨⟨⟩, hcheck, h⟩ := exists_of_bind_eq_ok h
  cases h
  exact FrameDecoder.le_of_checkLength hcheck

theorem le_of_prepareCall {command : UInt32} {types : CommandTypes} {v : Value} {payload : Bytes}
    (h : c.prepareCall service command types v = .ok payload) :
    payload.length ≤ service.config.maxPayloadLength := by
  obtain ⟨registered, -, h⟩ := exists_of_bind_eq_ok h
  obtain ⟨-, -, h⟩ := exists_of_bind_eq_ok h
  obtain ⟨-, -, h⟩ := exists_of_bind_eq_ok h
  exact le_of_requestPayload h

theorem le_of_prepareOneWay {command : UInt32} {type : PayloadType} {v : Value} {payload : Bytes}
    (h : c.prepareOneWay service command type v = .ok payload) :
    payload.length ≤ service.config.maxPayloadLength := by
  obtain ⟨registered, -, h⟩ := exists_of_bind_eq_ok h
  obtain ⟨-, -, h⟩ := exists_of_bind_eq_ok h
  obtain ⟨-, -, h⟩ := exists_of_bind_eq_ok h
  exact le_of_requestPayload h

theorem sends_enqueue {frame : Bytes} (h : Outgoing service.config.maxPayloadLength frame) :
    c.Sends service (c.enqueue frame).2 := by
  rcases c.enqueue_cases frame with heq | ⟨-, heq⟩
  · rw [heq]
    exact .of_eq rfl
  · rw [heq]
    intro bytes hb
    rcases c.outbound.frames_push hb with hb | rfl
    · exact .inl hb
    · exact .inr h

theorem sends_sendReply {frame : Bytes} (h : Outgoing service.config.maxPayloadLength frame) :
    c.Sends service (c.sendReply frame) := by
  unfold sendReply
  by_cases hconnected : c.life.isConnected = true
  · rw [if_pos hconnected]
    intro bytes hb
    rcases c.outbound.frames_await hb with hb | rfl
    · exact .inl hb
    · exact .inr h
  · rw [if_neg hconnected]
    exact .of_eq rfl

/-! ### Requests -/

theorem sends_startCall (c : Connection) (command : UInt32) (types : CommandTypes) (v : Value) :
    c.Sends service (c.startCall service command types v).2 := by
  obtain ⟨calls, -, heq | ⟨n, payload, hprepare, hqueued⟩⟩ :=
    c.startCall_cases service command types v
  · rw [heq]
    exact .of_eq rfl
  · have hsends := sends_enqueue (c := { c with calls })
      (.request command n (le_of_prepareCall hprepare))
    rw [hqueued] at hsends
    exact hsends

theorem sends_sendOneWay (c : Connection) (command : UInt32) (type : PayloadType) (v : Value) :
    c.Sends service (c.sendOneWay service command type v).2 := by
  rcases c.sendOneWay_cases service command type v with
    heq | ⟨n, calls, payload, -, hprepare, heq⟩
  · rw [heq]
    exact .of_eq rfl
  · rw [heq]
    exact sends_enqueue (c := { c with calls }) (.oneWay command n (le_of_prepareOneWay hprepare))

/-! ### What ends a connection -/

theorem sends_close (c : Connection) : c.Sends service c.close.2 := by
  unfold close
  rcases c.life.close_cases with ⟨e, h⟩ | ⟨life, h, -⟩
  · rw [h]
    exact .of_eq rfl
  · rw [h]
    exact fun bytes hb => .inl hb

theorem sends_fail (c : Connection) (reason : DisconnectReason) :
    c.Sends service (c.fail reason) := by
  unfold fail
  split
  · exact fun bytes hb => .inl hb
  · exact fun bytes hb => .inl hb
  · exact .of_eq rfl
  · exact .of_eq rfl

theorem sends_finish (c : Connection) (reason : DisconnectReason) :
    c.Sends service (c.finish reason) := by
  unfold finish
  split
  · exact .of_eq rfl
  · intro bytes hb
    have hnone : bytes ∈ c.outbound.stop.frames := hb
    rw [Outbound.frames_stop] at hnone
    cases hnone

theorem sends_stopReading (c : Connection) (reason : DisconnectReason) :
    c.Sends service (c.stopReading reason).2 :=
  (c.sends_fail reason).trans (sends_finish _ reason)

/-! ### Handlers and the reader -/

/-- Handlers queue `Outgoing` frames only. -/
theorem sends_allowsHandlers (service : Service) : AllowsHandlers service (Sends service) where
  refl := fun _ => .of_eq rfl
  trans := Sends.trans
  record := fun _ _ => .of_eq rfl
  events := fun _ _ => .of_eq rfl
  close := sends_close
  shutDown := fun _ => .of_eq rfl
  oneWay := sends_sendOneWay
  call := sends_startCall
  keep := fun _ _ => .of_eq rfl
  reply := fun _ command sequence _ h => sends_enqueue (.reply command sequence h)
  error := fun _ command sequence status => sends_enqueue (.error command sequence status)

theorem sends_handleReply (c : Connection) (frame : Frame) :
    c.Sends service (c.handleReply frame) := by
  obtain ⟨calls, events, heq⟩ := c.exists_handleReply frame
  rw [heq]
  exact .of_eq rfl

theorem sends_allowsReading (service : Service) : AllowsReading service (Sends service) where
  toAllowsHandlers := sends_allowsHandlers service
  takeIn := fun _ _ _ _ _ => .of_eq rfl
  handleReply := sends_handleReply
  sendReply := fun _ _ _ _ _ himage => sends_sendReply (.of_answerImage himage)
  stopReading := sends_stopReading

theorem sends_writerTurn (hw : c.writerTurn = some c') : c.Sends service c' := by
  have hstop (c : Connection) : c.Sends service c.stopWriting := by
    intro bytes hb
    exact (List.not_mem_nil (show bytes ∈ ([] : List Bytes) from hb)).elim
  cases (writerTurn_turn hw).2 with
  | halted => exact hstop c
  | writes hpop => exact fun bytes hb => .inl (c.outbound.frames_pop hpop hb)
  | @breaks frame outbound hpop =>
    have hpopped : c.Sends service { c with outbound } :=
      fun bytes hb => .inl (c.outbound.frames_pop hpop hb)
    exact (hpopped.trans (sends_fail _ .ioError)).trans (hstop _)
  | shutsDown => exact hstop _

/-! ### Every run -/

theorem Step.sends (hstep : c.Step service c') : c.Sends service c' := by
  cases hstep with
  | claim => exact .of_eq rfl
  | abandon => exact .of_eq rfl
  | establish hasPeerAddress hs => exact .of_eq rfl
  | startCall command types request => exact c.sends_startCall command types request
  | sendOneWay command type request => exact c.sends_sendOneWay command type request
  | cancel n => exact .of_eq rfl
  | wait call => exact .of_eq rfl
  | waitUntil call milliseconds => exact .of_eq rfl
  | drop call =>
    unfold Connection.drop
    by_cases hresolved : c.isResolved call = true
    · rw [if_pos hresolved]
      exact .of_eq rfl
    · rw [if_neg hresolved]
      exact .of_eq rfl
  | reply handle v => exact (sends_allowsHandlers service).replyValue c handle v
  | replyError handle status => exact (sends_allowsHandlers service).replyError c handle status
  | dropHandle handle => exact (sends_allowsHandlers service).dropHandle c handle
  | stopEvents => exact (sends_allowsHandlers service).act c .stopEvents
  | startEvents => exact (sends_allowsHandlers service).act c .startEvents
  | close => exact c.sends_close
  | finish reason => exact c.sends_finish reason
  | transport socket => exact .of_eq rfl
  | look events kept shutsDown => exact .of_eq rfl
  | pickUp => exact fun bytes hb => .inl (c.outbound.frames_pickUp ▸ hb)
  | readerTurn hs => exact (sends_allowsReading service).readerTurn c
  | writerTurn c' hs hw => exact sends_writerTurn hw

theorem Reachable.outgoing (hc : c.Reachable service) {bytes : Bytes}
    (hb : bytes ∈ c.outbound.frames) : Outgoing service.config.maxPayloadLength bytes := by
  obtain ⟨context, hrun⟩ := hc
  induction hrun with
  | refl => exact (List.not_mem_nil (show bytes ∈ ([] : List Bytes) from hb)).elim
  | tail _ hstep ih =>
    rcases hstep.sends bytes hb with hb | hout
    · exact ih hb
    · exact hout

end Operations

/-! ### What a peer makes of the frames -/

/-- A decoder with this limit takes the bytes off the stream as this frame, in any pieces and before
anything else, and a connection goes on. -/
structure Accepts (limit : Nat) (bytes : Bytes) (frame : Frame) : Prop where
  decode : ∀ rest, (FrameDecoder.mk limit none).decode (bytes ++ rest) =
    ⟨.ok (some frame), ⟨limit, none⟩, rest⟩
  delivers : ∀ pieces : List Bytes, pieces.flatten = bytes → FramePipe.Delivers limit pieces frame
  goesOn : ∀ (service : Service) (peer : Connection) (rest : Bytes),
    peer.decoder = ⟨limit, none⟩ → peer.buffer = bytes ++ rest →
    (peer.nextFrame service).1 ≠ .ended

/-- A decoder with this limit refuses the four bytes of an error reply, and a connection ends. -/
structure Refuses (limit : Nat) (bytes : Bytes) : Prop where
  decode : ∀ rest, (FrameDecoder.mk limit none).decode (bytes ++ rest) =
    ⟨.error (.frameTooLarge 4 limit), ⟨limit, none⟩, bytes ++ rest⟩
  ends : ∀ (service : Service) (peer : Connection) (rest : Bytes),
    peer.decoder = ⟨limit, none⟩ → peer.buffer = bytes ++ rest →
    peer.nextFrame service = peer.stopReading .protocolError

section Peer

variable {limit : Nat} {header : Header} {payload : Bytes}

theorem accepts_image (hflags : Header.flagError? header.flags = none)
    (hlength : payload.length ≤ limit) (hlimit : limit < UInt32.size) :
    Accepts limit (Frame.image header payload) (Frame.of header payload) := by
  have hdecode := Frame.decode_image hflags hlength hlimit
  refine ⟨hdecode, fun pieces hpieces =>
    FramePipe.drainChunks_image hflags hlength hlimit hpieces, ?_⟩
  intro service peer rest hdecoder hbuffer
  unfold nextFrame
  rw [hdecoder, hbuffer, hdecode]
  dsimp only
  by_cases hheld : ((Frame.of header payload).header.isRequest && peer.eventsStopped) = true
  · rw [if_pos hheld]
    exact nofun
  · rw [if_neg hheld]
    rw [fst_serve]
    exact nofun

theorem refuses_image (hflags : Header.flagError? header.flags = none) (hfour : payload.length = 4)
    (hlimit : limit < 4) : Refuses limit (Frame.image header payload) := by
  have hlt : payload.length < UInt32.size := by
    rw [hfour]
    decide
  have hlong : limit < payload.length := by omega
  have hdecode := Frame.decode_image_too_large hflags hlong hlt
  rw [hfour] at hdecode
  refine ⟨hdecode, ?_⟩
  intro service peer rest hdecoder hbuffer
  unfold nextFrame
  rw [hdecoder, hbuffer, hdecode]

end Peer

/-- **A peer with the same limit takes every frame that fits into it.**  Whatever happens to a
connection, each frame it has queued is a request or a reply, which a peer with the same limit takes
as that frame, or an error reply.  Of an error reply nobody has checked the length: the peer takes
it, too, if the limit is four bytes or more, and ends the connection if it is less. -/
theorem peer_takes_queued {service : Service} {c : Connection}
    (hvalid : service.config.validate = .ok ()) (hc : c.Reachable service) {bytes : Bytes}
    (hb : bytes ∈ c.outbound.frames) :
    ∃ frame : Frame, bytes = frame.toBytes ∧
      (frame.header.kind ≠ .errorReply ∨ 4 ≤ service.config.maxPayloadLength →
        Accepts service.config.maxPayloadLength bytes frame) ∧
      (frame.header.kind = .errorReply → service.config.maxPayloadLength < 4 →
        Refuses service.config.maxPayloadLength bytes) := by
  have hlimit := Config.maxPayloadLength_lt hvalid
  obtain ⟨header, payload, rfl, hflags, ⟨hkind, hlength⟩ | ⟨hkind, hfour⟩⟩ :=
    (hc.outgoing hb).exists_image
  · refine ⟨Frame.of header payload, rfl, fun _ => accepts_image hflags hlength hlimit, ?_⟩
    exact fun herror => absurd herror hkind
  · refine ⟨Frame.of header payload, rfl, ?_, fun _ => refuses_image hflags hfour⟩
    rintro (hother | hle)
    · exact absurd hkind hother
    · exact accepts_image hflags (hfour ▸ hle) hlimit

/-! ### A request that nobody handles -/

theorem mem_frames_sendReply {c : Connection} (hconnected : c.life.isConnected)
    (hdone : c.outbound.isDone = false) (frame : Bytes) :
    frame ∈ (c.sendReply frame).outbound.frames := by
  unfold sendReply Outbound.await
  rw [if_pos hconnected, if_neg (by simp [hdone])]
  by_cases hroom : c.outbound.hasRoom = true
  · rw [if_pos hroom, Outbound.mem_frames]
    exact .inr (.inl (List.mem_append_right _ (List.mem_singleton.mpr rfl)))
  · rw [if_neg hroom, Outbound.mem_frames]
    exact .inr (.inr rfl)

theorem serve_unknownCommand {service : Service} (c : Connection) (frame : Frame)
    (hkind : frame.header.kind = .request) (hflag : Flag.error.isIn frame.header.flags = false)
    (hunknown : service.protocol.handled.get? frame.header.command = none) :
    ∃ e, c.serve service frame = (.served, (c.record e).sendReply
      (errorImage frame.header.command frame.header.sequence .unknownCommand)) := by
  have hanswer : ∃ e, c.answer service frame = (.error .unknownCommand, c.record e) := by
    unfold answer
    dsimp only
    rw [hflag, if_neg Bool.false_ne_true, hunknown]
    exact ⟨_, rfl⟩
  obtain ⟨e, hanswer⟩ := hanswer
  have hhandle : c.handleFrame service frame =
      (some (errorImage frame.header.command frame.header.sequence .unknownCommand),
        c.record e) := by
    unfold handleFrame handleRequest
    rw [if_pos (by simp [Header.isRequest, hkind]), hanswer]
    dsimp only
    rw [if_pos (by simp [Header.expectsReply, hkind])]
    rfl
  refine ⟨e, ?_⟩
  unfold serve
  rw [hhandle]

theorem readerTurn_eq_nextFrame (service : Service) {c : Connection}
    (hwaiting : c.outbound.waiting = none) (hheld : c.held = none) :
    c.readerTurn service = c.nextFrame service := by
  unfold readerTurn
  rw [hwaiting, hheld]
  rfl

theorem exists_unknownCommand {service : Service} (hvalid : service.config.validate = .ok ())
    (command sequence : UInt32) (hunknown : service.protocol.handled.get? command = none) :
    ∃ c : Connection, c.Reachable service ∧
      errorImage command sequence .unknownCommand ∈ c.outbound.frames := by
  let request := Frame.image (.request command sequence) []
  let c₁ := (new service "peer").establish true
  let c₂ : Connection := { c₁ with socket := { arrived := request } }
  let c₃ : Connection := { c₁ with buffer := request }
  have hread : c₂.readerTurn service = (.read, c₃) := by
    have hnone : c₂.decoder.decode [] = ⟨.ok none, c₂.decoder, []⟩ := rfl
    have hsome : (!request.isEmpty) = true := by
      simp [request, Frame.image, Frame.toBytes, Frame.of, Header.toBytes]
    rw [readerTurn_eq_nextFrame service rfl rfl]
    unfold nextFrame
    rw [show c₂.buffer = [] from rfl, hnone]
    show c₂.readSocket = _
    unfold readSocket
    rw [if_neg Bool.false_ne_true, if_pos hsome]
    rfl
  obtain ⟨e, hserve⟩ := serve_unknownCommand { c₁ with buffer := [] }
    (Frame.of (.request command sequence) []) (Header.kind_request command sequence)
    (Header.isIn_error_request command sequence) hunknown
  have hturn : c₃.readerTurn service =
      { c₁ with buffer := [] }.serve service (Frame.of (.request command sequence) []) := by
    have hempty : ([] : Bytes).length ≤ service.config.maxPayloadLength := Nat.zero_le _
    have hdecode := Frame.decode_image (Header.flagError?_request command sequence) hempty
      (Config.maxPayloadLength_lt hvalid) []
    rw [List.append_nil] at hdecode
    rw [readerTurn_eq_nextFrame service rfl rfl]
    unfold nextFrame
    rw [show c₃.decoder.decode c₃.buffer = _ from hdecode]
    show (if (_ && false) = true then _ else _) = _
    rw [Bool.and_false, if_neg Bool.false_ne_true]
    rfl
  have hstep : Step service c₃ (c₃.readerTurn service).2 := .readerTurn c₃ (.inl rfl)
  rw [hturn, hserve] at hstep
  have hfirst : Step service c₂ (c₂.readerTurn service).2 := .readerTurn c₂ (.inl rfl)
  rw [hread] at hfirst
  have hstart : Relation.ReflTransGen (Step service) (new service "peer") c₂ :=
    .tail (.single (.establish _ true rfl)) (.transport c₁ _)
  exact ⟨_, ⟨"peer", (hstart.tail hfirst).tail hstep⟩, mem_frames_sendReply rfl rfl _⟩

/-- The answer to an unknown command, under the least limit that lets it through. -/
theorem peer_takes_queued_unknown :
    ∃ (service : Service) (c : Connection) (frame : Frame),
      service.config.validate = .ok () ∧ service.config.maxPayloadLength = 4 ∧
      c.Reachable service ∧ errorImage 33 1 .unknownCommand ∈ c.outbound.frames ∧
      errorImage 33 1 .unknownCommand = frame.toBytes ∧
      Accepts 4 (errorImage 33 1 .unknownCommand) frame := by
  let service : Service := { protocol := { name := "server" }, config := { maxPayloadLength := 4 } }
  have hvalid : service.config.validate = .ok () := by decide
  obtain ⟨c, hc, hb⟩ := exists_unknownCommand hvalid 33 1 rfl
  obtain ⟨frame, hframe, haccepts, -⟩ := peer_takes_queued hvalid hc hb
  exact ⟨service, c, frame, hvalid, rfl, hc, hb, hframe, haccepts (.inr (Nat.le_refl 4))⟩

/-- Under a limit of three bytes, which a configuration may have, an error reply is queued that a
peer with the same limit does not take. -/
theorem queued_error_refused :
    ∃ (service : Service) (c : Connection), service.config.validate = .ok () ∧
      service.config.maxPayloadLength = 3 ∧ c.Reachable service ∧
      errorImage 33 1 .unknownCommand ∈ c.outbound.frames ∧
      Refuses 3 (errorImage 33 1 .unknownCommand) := by
  let service : Service := { protocol := { name := "server" }, config := { maxPayloadLength := 3 } }
  have hvalid : service.config.validate = .ok () := by decide
  obtain ⟨c, hc, hb⟩ := exists_unknownCommand hvalid 33 1 rfl
  exact ⟨service, c, hvalid, rfl, hc, hb,
    refuses_image (Header.flagError?_errorReply 33 1) (by decide) (by decide)⟩

end Connection

end CallWire
