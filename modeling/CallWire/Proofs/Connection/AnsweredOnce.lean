import CallWire.Proofs.Connection.EndToEnd
import CallWire.Proofs.Connection.Handlers

/-!
# CallWire.Proofs.Connection.AnsweredOnce — one answer to a request, and none to a one-way request

An answer comes from one of five places: the result of an inline handler, the reader that refuses
the request, a reply through a handle or what is sent in its place, an error through a handle, or a
handle that is let go.  The right to answer is in one place at a time: with the reader until the
request has been processed, and then, if the handler is a deferred one, with the handle, which is
used once.
-/

namespace CallWire

/-! ### Answers among the frames of a queue -/

/-- The header can be read and is that of a request, answered or one-way. -/
def Frame.asks (bytes : Bytes) : Bool :=
  match Header.parse bytes with
  | .ok header => header.isRequest
  | .error _ => false

theorem Frame.parse_image {header : Header} (hflags : Header.flagError? header.flags = none)
    (payload rest : Bytes) :
    Header.parse (image header payload ++ rest) = .ok (of header payload).header := by
  have himage : image header payload ++ rest =
      (of header payload).header.toBytes ++ (payload ++ rest) := by
    simp [image, toBytes, of]
  rw [himage]
  exact Header.parse_toBytes (h := (of header payload).header) hflags _

theorem Frame.asks_image {header : Header} (hflags : Header.flagError? header.flags = none)
    (payload : Bytes) : asks (image header payload) = header.isRequest := by
  have hparse := parse_image hflags payload []
  rw [List.append_nil] at hparse
  unfold asks
  rw [hparse]
  rfl

/-- The bytes are a reply or an error reply with this command and number. A decoder whose limit
admits the payload takes them off the stream as that frame. -/
def IsAnswer (command sequence : UInt32) (bytes : Bytes) : Prop :=
  ∃ frame : Frame, bytes = frame.toBytes ∧
    (frame.header.kind = .reply ∨ frame.header.kind = .errorReply) ∧
    frame.header.command = command ∧ frame.header.sequence = sequence ∧
    (∀ rest, Header.parse (bytes ++ rest) = .ok frame.header) ∧
    ∀ limit rest, frame.payload.length ≤ limit → limit < UInt32.size →
      (FrameDecoder.mk limit none).decode (bytes ++ rest) = ⟨.ok (some frame), ⟨limit, none⟩, rest⟩

section Answer

variable {command sequence : UInt32} {bytes : Bytes}

theorem isAnswer_image {header : Header} {payload : Bytes}
    (hflags : Header.flagError? header.flags = none)
    (hkind : header.kind = .reply ∨ header.kind = .errorReply) :
    IsAnswer header.command header.sequence (Frame.image header payload) :=
  ⟨Frame.of header payload, rfl, hkind, rfl, rfl, Frame.parse_image hflags payload,
    fun _ rest hlength hlimit => Frame.decode_image hflags hlength hlimit rest⟩

theorem isAnswer_reply (payload : Bytes) :
    IsAnswer command sequence (Frame.image (.reply command sequence) payload) :=
  isAnswer_image (Header.flagError?_reply command sequence)
    (.inl (Header.kind_reply command sequence))

theorem isAnswer_error (status : Status) :
    IsAnswer command sequence (errorImage command sequence status) :=
  isAnswer_image (Header.flagError?_errorReply command sequence)
    (.inr (Header.kind_errorReply command sequence))

theorem IsAnswer.asks_eq_false (h : IsAnswer command sequence bytes) :
    Frame.asks bytes = false := by
  obtain ⟨frame, -, hkind, -, -, hparse, -⟩ := h
  have hheader := hparse []
  rw [List.append_nil] at hheader
  unfold Frame.asks
  rw [hheader]
  rcases hkind with hkind | hkind
  · simp [Header.isRequest, hkind]
  · simp [Header.isRequest, hkind]

theorem isAnswer_answerImage {answer : Answer} (limit : Nat) (command sequence : UInt32)
    (h : answer ≠ .deferred) :
    ∃ bytes, Connection.answerImage limit command sequence answer = some bytes ∧
      IsAnswer command sequence bytes := by
  cases answer with
  | reply payload =>
    by_cases hlength : payload.length ≤ limit
    · have hcheck : FrameDecoder.checkLength limit payload.length = .ok () :=
        if_neg (Nat.not_lt.mpr hlength)
      refine ⟨_, ?_, isAnswer_reply payload⟩
      simp only [Connection.answerImage, replyImage, hcheck]
      rfl
    · have hcheck : FrameDecoder.checkLength limit payload.length =
          .error (.frameTooLarge payload.length limit) := if_pos (Nat.not_le.mp hlength)
      refine ⟨_, ?_, isAnswer_error .frameTooLarge⟩
      simp only [Connection.answerImage, replyImage, hcheck]
      rfl
  | error status => exact ⟨_, rfl, isAnswer_error status⟩
  | deferred => exact absurd rfl h

end Answer

namespace Connection

variable {service : Service} {c c' c'' : Connection} {frame : Frame}

/-- The answers in the queue of `c'` beyond those in the queue of `c`. -/
def answersSince (c c' : Connection) : List Bytes :=
  (c'.outbound.queue.drop c.outbound.queue.length).filter fun bytes => !Frame.asks bytes

/-- The handles that `c'` keeps beyond those of `c`. -/
def keptSince (c c' : Connection) : List ReplyHandle := c'.kept.drop c.kept.length

/-! ### What a handler does to its connection -/

/-- Between `c` and `c'` only requests were queued, and no handle was kept. -/
def Announces (c c' : Connection) : Prop :=
  c'.kept = c.kept ∧ ∃ notes, c'.outbound.queue = c.outbound.queue ++ notes ∧
    ∀ bytes ∈ notes, Frame.asks bytes = true

theorem Announces.of_eq (hkept : c'.kept = c.kept)
    (hqueue : c'.outbound.queue = c.outbound.queue) : c.Announces c' :=
  ⟨hkept, [], hqueue.trans (List.append_nil _).symm, fun _ hb => (List.not_mem_nil hb).elim⟩

theorem Announces.trans (h : c.Announces c') (h' : c'.Announces c'') : c.Announces c'' := by
  obtain ⟨hkept, notes, hqueue, hnotes⟩ := h
  obtain ⟨hkept', notes', hqueue', hnotes'⟩ := h'
  refine ⟨hkept'.trans hkept, notes ++ notes', ?_, ?_⟩
  · rw [hqueue', hqueue, List.append_assoc]
  · intro bytes hb
    rcases List.mem_append.mp hb with hb | hb
    · exact hnotes bytes hb
    · exact hnotes' bytes hb

theorem announces_enqueue {frame : Bytes} (h : Frame.asks frame = true) :
    c.Announces (c.enqueue frame).2 := by
  rcases c.enqueue_cases frame with heq | ⟨-, heq⟩
  · rw [heq]
    exact .of_eq rfl rfl
  · rw [heq]
    refine ⟨rfl, [frame], rfl, ?_⟩
    intro bytes hb
    rw [List.mem_singleton.mp hb]
    exact h

theorem announces_close (c : Connection) : c.Announces c.close.2 := by
  unfold close
  rcases c.life.close_cases with ⟨e, h⟩ | ⟨life, h, -⟩
  · rw [h]
    exact .of_eq rfl rfl
  · rw [h]
    exact .of_eq rfl rfl

theorem announces_sendOneWay (service : Service) (c : Connection) (command : UInt32)
    (type : PayloadType) (note : Value) :
    c.Announces (c.sendOneWay service command type note).2 := by
  rcases c.sendOneWay_cases service command type note with heq | ⟨n, calls, payload, -, -, heq⟩
  · rw [heq]
    exact .of_eq rfl rfl
  · have hasks := Frame.asks_image (Header.flagError?_oneWay command n) payload
    have hrequest : (Header.oneWay command n).isRequest = true := by
      simp [Header.isRequest, Header.kind_oneWay]
    rw [heq]
    exact announces_enqueue (c := { c with calls }) (hasks.trans hrequest)

theorem announces_startCall (service : Service) (c : Connection) (command : UInt32)
    (types : CommandTypes) (request : Value) :
    c.Announces (c.startCall service command types request).2 := by
  obtain ⟨calls, -, heq | ⟨n, payload, -, hqueued⟩⟩ :=
    c.startCall_cases service command types request
  · rw [heq]
    exact .of_eq rfl rfl
  · have hasks := Frame.asks_image (Header.flagError?_request command n) payload
    have hrequest : (Header.request command n).isRequest = true := by
      simp [Header.isRequest, Header.kind_request]
    have hannounces := announces_enqueue (c := { c with calls }) (hasks.trans hrequest)
    rw [hqueued] at hannounces
    exact hannounces

/-- The effects of a handler queue nothing but requests. -/
theorem announces_allowsEffects (service : Service) : AllowsEffects service Announces where
  refl := fun _ => .of_eq rfl rfl
  trans := Announces.trans
  record := fun _ _ => .of_eq rfl rfl
  events := fun _ _ => .of_eq rfl rfl
  close := announces_close
  shutDown := fun _ => .of_eq rfl rfl
  oneWay := announces_sendOneWay service
  call := announces_startCall service

/-! ### What becomes of a request -/

/-- The handler that `Connection.answer` calls, with the decoded request; none if it refuses. -/
def handlerFor? (service : Service) (frame : Frame) : Option (HandledCommand × Value) :=
  if Flag.error.isIn frame.header.flags then none
  else
    match service.protocol.handled.get? frame.header.command with
    | none => none
    | some entry =>
      match entry.types.request.decode frame.payload with
      | .ok request => some (entry, request)
      | .error _ => none

theorem handlerFor?_eq_some_iff {entry : HandledCommand} {request : Value} :
    handlerFor? service frame = some (entry, request) ↔
      Flag.error.isIn frame.header.flags = false ∧
        service.protocol.handled.get? frame.header.command = some entry ∧
        entry.types.request.decode frame.payload = .ok request := by
  unfold handlerFor?
  constructor
  · intro h
    split at h
    · cases h
    · next hflag =>
      split at h
      · cases h
      · next hget =>
        split at h
        · next hdecode =>
          cases h
          exact ⟨Bool.eq_false_of_not_eq_true hflag, hget, hdecode⟩
        · cases h
  · rintro ⟨hflag, hget, hdecode⟩
    rw [hflag, if_neg Bool.false_ne_true, hget]
    dsimp only
    rw [hdecode]

/-- The connection on which `Connection.answer` answers, after the effects of the handler. -/
def afterEffects (service : Service) (c : Connection) (frame : Frame) : Connection :=
  match handlerFor? service frame with
  | none => c
  | some (entry, request) =>
    match entry.handler with
    | .inline run => (c.runInline service entry.types.request request run).2
    | .deferred run =>
      (c.runDeferred service entry.types.request request
        (.ofHeader frame.header entry.types.reply) run).2

theorem Allows.afterEffects {p : Effect → Bool} {R : Connection → Connection → Prop}
    (h : Allows service p R) (hrecord : ∀ c e, R c (c.record e)) (c : Connection)
    (hp : ∀ entry request, handlerFor? service frame = some (entry, request) →
      entry.handler.Only p) : R c (c.afterEffects service frame) := by
  unfold Connection.afterEffects
  rcases hhandler : handlerFor? service frame with _ | ⟨entry, request⟩
  · exact h.refl c
  · have hentry := hp entry request hhandler
    dsimp only
    rcases hkind : entry.handler with run | run
    · rw [hkind] at hentry
      exact h.trans (hrecord c _) (h.carryOut _ (hentry _ request)).1
    · rw [hkind] at hentry
      exact h.trans (hrecord c _) (h.carryOut _ (hentry _ request _)).1

theorem AllowsEffects.afterEffects {R : Connection → Connection → Prop}
    (h : AllowsEffects service R) (c : Connection) (frame : Frame) :
    R c (c.afterEffects service frame) :=
  h.allows.afterEffects h.record c fun entry _ _ => entry.handler.only_true

theorem announces_afterEffects (service : Service) (c : Connection) (frame : Frame) :
    c.Announces (c.afterEffects service frame) :=
  (announces_allowsEffects service).afterEffects c frame

theorem keeps_afterEffects (c : Connection) (frame : Frame) :
    c.Keeps (c.afterEffects service frame) :=
  (keeps_allowsHandlers service).afterEffects c frame

theorem answer_of_refused (c : Connection) (h : handlerFor? service frame = none) :
    ∃ status e, c.answer service frame = (.error status, c.record e) := by
  unfold handlerFor? at h
  unfold answer
  by_cases hflag : Flag.error.isIn frame.header.flags = true
  · simp only [if_pos hflag]
    exact ⟨_, _, rfl⟩
  · rw [if_neg hflag] at h
    simp only [if_neg hflag]
    rcases hget : service.protocol.handled.get? frame.header.command with _ | entry
    · exact ⟨_, _, rfl⟩
    · rw [hget] at h
      rcases hdecode : entry.types.request.decode frame.payload with e | request
      · simp only [invoke, hdecode]
        exact ⟨_, _, rfl⟩
      · simp only [hdecode] at h
        cases h

theorem answer_eq_of_handled (c : Connection) {entry : HandledCommand} {request : Value}
    (h : handlerFor? service frame = some (entry, request)) :
    c.answer service frame =
      match c.runHandler service entry frame.header request with
      | (.error .malformedPayload, c) =>
        (.error .malformedPayload, c.record (.problem
          s!"malformed request payload for command {frame.header.command.toNat}"))
      | result => result := by
  obtain ⟨hflag, hget, hdecode⟩ := handlerFor?_eq_some_iff.mp h
  have hinvoke : c.invoke service entry frame.header frame.payload =
      c.runHandler service entry frame.header request := by
    unfold invoke
    rw [hdecode]
  have hpasses : ¬ Flag.error.isIn frame.header.flags = true := by simp [hflag]
  unfold answer
  rw [← hinvoke]
  exact (if_neg hpasses).trans (hget ▸ rfl)

theorem answer_of_handled (c : Connection) {entry : HandledCommand} {request : Value}
    (h : handlerFor? service frame = some (entry, request)) :
    ∃ c', c.answer service frame =
        ((c.runHandler service entry frame.header request).1, c') ∧
      (c' = (c.runHandler service entry frame.header request).2 ∨
        (c.runHandler service entry frame.header request).1 ≠ .deferred ∧
          ∃ e, c' = (c.runHandler service entry frame.header request).2.record e) := by
  rw [c.answer_eq_of_handled h]
  split
  · next c' heq =>
    rw [heq]
    exact ⟨_, rfl, .inr ⟨nofun, _, rfl⟩⟩
  · exact ⟨_, rfl, .inl rfl⟩

theorem afterEffects_inline (c : Connection) {entry : HandledCommand} {request : Value}
    {run : Connection → Value → Conduct InlineResult}
    (h : handlerFor? service frame = some (entry, request)) (hinline : entry.handler = .inline run) :
    c.afterEffects service frame = (c.runInline service entry.types.request request run).2 := by
  unfold afterEffects
  simp only [h, hinline]

theorem afterEffects_deferred (c : Connection) {entry : HandledCommand} {request : Value}
    {run : Connection → Value → ReplyHandle → Conduct Release}
    (h : handlerFor? service frame = some (entry, request))
    (hdeferred : entry.handler = .deferred run) :
    c.afterEffects service frame = (c.runDeferred service entry.types.request request
      (.ofHeader frame.header entry.types.reply) run).2 := by
  unfold afterEffects
  simp only [h, hdeferred]

theorem runHandler_inline (c : Connection) {entry : HandledCommand} {request : Value}
    {run : Connection → Value → Conduct InlineResult}
    (h : handlerFor? service frame = some (entry, request)) (hinline : entry.handler = .inline run) :
    c.runHandler service entry frame.header request =
      (inlineAnswer entry.types.reply (c.runInline service entry.types.request request run).1,
        c.afterEffects service frame) := by
  rw [c.afterEffects_inline h hinline]
  unfold runHandler
  rw [hinline]

theorem runHandler_deferred (c : Connection) {entry : HandledCommand} {request : Value}
    {run : Connection → Value → ReplyHandle → Conduct Release}
    (h : handlerFor? service frame = some (entry, request))
    (hdeferred : entry.handler = .deferred run) :
    c.runHandler service entry frame.header request =
      (.deferred, (c.afterEffects service frame).finishDeferred service
        (.ofHeader frame.header entry.types.reply)
        (c.runDeferred service entry.types.request request
          (.ofHeader frame.header entry.types.reply) run).1) := by
  rw [c.afterEffects_deferred h hdeferred]
  unfold runHandler
  rw [hdeferred]

theorem inlineAnswer_ne_deferred (type : PayloadType) (result : InlineResult) :
    inlineAnswer type result ≠ .deferred := by
  unfold inlineAnswer
  split
  · split
    · exact nofun
    · exact nofun
  · exact nofun
  · exact nofun

/-- `Connection.answer` returns an answer to send, or runs a deferred handler to its end. -/
theorem answer_cases (service : Service) (c : Connection) (frame : Frame) :
    (∃ answer events, answer ≠ .deferred ∧
      c.answer service frame = (answer, { c.afterEffects service frame with events })) ∨
    ∃ entry request release, handlerFor? service frame = some (entry, request) ∧
      (∀ p, entry.handler.Only p → release.Only p) ∧
      c.answer service frame = (.deferred, (c.afterEffects service frame).finishDeferred service
        (.ofHeader frame.header entry.types.reply) release) := by
  rcases hhandler : handlerFor? service frame with _ | ⟨entry, request⟩
  · obtain ⟨status, e, hanswer⟩ := c.answer_of_refused hhandler
    have hafter : c.afterEffects service frame = c := by
      unfold afterEffects
      rw [hhandler]
    rw [hanswer, hafter]
    exact .inl ⟨.error status, _, nofun, rfl⟩
  · obtain ⟨c', hanswer, hc'⟩ := c.answer_of_handled hhandler
    rw [hanswer]
    rcases hkind : entry.handler with run | run
    · rw [c.runHandler_inline hhandler hkind] at hc' ⊢
      have hne := inlineAnswer_ne_deferred entry.types.reply
        (c.runInline service entry.types.request request run).1
      rcases hc' with rfl | ⟨-, e, rfl⟩
      · exact .inl ⟨_, _, hne, rfl⟩
      · exact .inl ⟨_, _, hne, rfl⟩
    · rw [c.runHandler_deferred hhandler hkind] at hc' ⊢
      -- Only a malformed payload is recorded on top of the answer, and that is no deferred one.
      rcases hc' with rfl | ⟨hne, -⟩
      · refine .inr ⟨entry, request, _, rfl, fun p hentry => ?_, rfl⟩
        rw [hkind] at hentry
        exact of_carryOut service _ (hentry _ request _)
      · exact absurd rfl hne

/-! ### What is queued for it -/

/-- The handle was used up: one answer was queued if one is expected, and none otherwise. -/
def Settles (command sequence : UInt32) (expectsReply : Bool) (c c' : Connection) : Prop :=
  c'.kept = c.kept ∧
    if expectsReply then
      ∃ bytes, c'.outbound.queue = c.outbound.queue ++ [bytes] ∧ IsAnswer command sequence bytes
    else c'.outbound.queue = c.outbound.queue

section Room

variable (hconnected : c.life.isConnected) (hdone : c.outbound.isDone = false)
  (hroom : c.outbound.hasRoom)
include hconnected hdone hroom

theorem settles_enqueue {command sequence : UInt32} {bytes : Bytes}
    (h : IsAnswer command sequence bytes) : c.Settles command sequence true (c.enqueue bytes).2 := by
  rw [enqueue_eq_ok hconnected hdone hroom]
  exact ⟨rfl, bytes, rfl, h⟩

theorem settles_reply (service : Service) (handle : ReplyHandle) (v : Value) :
    c.Settles handle.command handle.sequence handle.expectsReply (handle.reply service c v).2 := by
  have herror (status : Status) : c.Settles handle.command handle.sequence true
      (handle.enqueueError c status).2 :=
    settles_enqueue hconnected hdone hroom (isAnswer_error status)
  unfold ReplyHandle.reply
  cases handle.expectsReply with
  | false => exact ⟨rfl, rfl⟩
  | true =>
    rw [if_neg (by decide)]
    split
    · exact herror .handlerFailed
    · next payload _ =>
      split
      · next frame himage =>
        obtain ⟨-, rfl⟩ := replyImage_eq_ok himage
        exact settles_enqueue hconnected hdone hroom (isAnswer_reply payload)
      · have hlarge := herror .frameTooLarge
        generalize handle.enqueueError c .frameTooLarge = answered at hlarge ⊢
        rcases answered with ⟨e | _, c'⟩
        · exact hlarge
        · exact hlarge

theorem settles_replyError (handle : ReplyHandle) (status : Status) :
    c.Settles handle.command handle.sequence handle.expectsReply
      (handle.replyError c status).2 := by
  unfold ReplyHandle.replyError
  cases handle.expectsReply with
  | false => exact ⟨rfl, rfl⟩
  | true => exact settles_enqueue hconnected hdone hroom (isAnswer_error status.asFailure)

theorem settles_drop (handle : ReplyHandle) :
    c.Settles handle.command handle.sequence handle.expectsReply (handle.drop c) := by
  unfold ReplyHandle.drop
  cases handle.expectsReply with
  | false => exact ⟨rfl, rfl⟩
  | true => exact settles_enqueue hconnected hdone hroom (isAnswer_error .handlerFailed)

/-- Every `HandleUse` but `keep` uses the handle up. -/
theorem settles_useHandle (service : Service) (handle : ReplyHandle) {use : HandleUse}
    (h : use ≠ .keep) : c.Settles handle.command handle.sequence handle.expectsReply
      (c.useHandle service handle use).2 := by
  cases use with
  | keep => exact absurd rfl h
  | reply v => exact settles_reply hconnected hdone hroom service handle v
  | replyElsewhere v => exact settles_reply hconnected hdone hroom service handle v
  | error status => exact settles_replyError hconnected hdone hroom handle status
  | drop => exact settles_drop hconnected hdone hroom handle

end Room

/-- The frame that the reader sends for this answer, if the request expects one. -/
def replyTo (service : Service) (frame : Frame) (answer : Answer) : Option Bytes :=
  if frame.header.expectsReply then
    answerImage service.config.maxPayloadLength frame.header.command frame.header.sequence answer
  else none

theorem handleFrame_of_isRequest (service : Service) (c : Connection)
    (hrequest : frame.header.isRequest = true) :
    c.handleFrame service frame =
      (replyTo service frame (c.answer service frame).1, (c.answer service frame).2) := by
  unfold handleFrame handleRequest replyTo
  rw [if_pos hrequest]
  by_cases hexpects : frame.header.expectsReply = true
  · simp only [if_pos hexpects]
  · simp only [if_neg hexpects]

theorem serve_of_isRequest (service : Service) (c : Connection)
    (hrequest : frame.header.isRequest = true) :
    c.serve service frame = (.served, ((replyTo service frame (c.answer service frame).1).map
      (c.answer service frame).2.sendReply).getD (c.answer service frame).2) := by
  unfold serve
  rw [handleFrame_of_isRequest service c hrequest]
  cases replyTo service frame (c.answer service frame).1 with
  | none => rfl
  | some reply => rfl

/-- `Connection.serve` settles a request or its handler keeps the handle; besides that it queues only
requests. -/
theorem serve_cases (hrequest : frame.header.isRequest = true) (hcoherent : c.Coherent)
    (hconnected : (c.afterEffects service frame).life.isConnected)
    (hroom : (c.afterEffects service frame).outbound.hasRoom) :
    ∃ answered : Connection, answered.Announces (c.serve service frame).2 ∧
      ((c.afterEffects service frame).Settles frame.header.command frame.header.sequence
          frame.header.expectsReply answered ∨
        ∃ type, answered.outbound = (c.afterEffects service frame).outbound ∧
          answered.kept = (c.afterEffects service frame).kept ++ [.ofHeader frame.header type]) := by
  have hdone : (c.afterEffects service frame).outbound.isDone = false :=
    ((hcoherent.of_keeps (c.keeps_afterEffects frame)).of_isConnected hconnected).2
  rw [serve_of_isRequest service c hrequest]
  unfold replyTo
  rcases c.answer_cases service frame with
    ⟨answer, events, hanswer, heq⟩ | ⟨entry, request, release, -, -, heq⟩
  · refine ⟨_, .of_eq rfl rfl, .inl ?_⟩
    rw [heq]
    cases hexpects : frame.header.expectsReply with
    | false => exact ⟨rfl, rfl⟩
    | true =>
      obtain ⟨bytes, himage, hbytes⟩ := isAnswer_answerImage service.config.maxPayloadLength
        frame.header.command frame.header.sequence hanswer
      have hsend := sendReply_eq (c := { c.afterEffects service frame with events })
        hconnected hdone hroom bytes
      rw [if_pos rfl, himage, Option.map_some, hsend]
      exact ⟨rfl, bytes, rfl, hbytes⟩
  · -- The reader leaves the answer to the handle.
    have hnone : (if frame.header.expectsReply then
        answerImage service.config.maxPayloadLength frame.header.command frame.header.sequence
          .deferred else none) = none := ite_self none
    rw [heq, hnone]
    refine ⟨_, (announces_allowsEffects service).carryOut _ _, ?_⟩
    by_cases hkeep : release.use = .keep
    · rw [hkeep]
      exact .inr ⟨entry.types.reply, rfl, rfl⟩
    · exact .inl (settles_useHandle hconnected hdone hroom service
        (.ofHeader frame.header entry.types.reply) hkeep)

/-! ### The answers and the handles that come of it -/

/-- The answers are a single one to this request if it expects one, and none otherwise. -/
def AreDue (command sequence : UInt32) (expectsReply : Bool) (answers : List Bytes) : Prop :=
  if expectsReply then ∃ bytes, answers = [bytes] ∧ IsAnswer command sequence bytes
  else answers = []

theorem AreDue.of_mem {command sequence : UInt32} {expectsReply : Bool} {answers : List Bytes}
    (h : AreDue command sequence expectsReply answers) {bytes : Bytes} (hb : bytes ∈ answers) :
    expectsReply = true ∧ IsAnswer command sequence bytes := by
  cases expectsReply with
  | false =>
    have hnone : answers = [] := h
    rw [hnone] at hb
    cases hb
  | true =>
    obtain ⟨bytes', rfl, hanswer⟩ := h
    rw [List.mem_singleton.mp hb]
    exact ⟨rfl, hanswer⟩

theorem AreDue.length_eq {command sequence : UInt32} {answers : List Bytes}
    (h : AreDue command sequence true answers) : answers.length = 1 := by
  obtain ⟨bytes, rfl, -⟩ := h
  rfl

theorem filter_notes {notes : List Bytes} (h : ∀ bytes ∈ notes, Frame.asks bytes = true) :
    notes.filter (fun bytes => !Frame.asks bytes) = [] := by
  refine List.filter_eq_nil_iff.mpr fun bytes hb => ?_
  simp [h bytes hb]

theorem answersSince_between {answered : Connection} (h : c.Announces c') {queued : List Bytes}
    (hqueue : answered.outbound.queue = c'.outbound.queue ++ queued)
    (h' : answered.Announces c'') :
    c.answersSince c'' = queued.filter fun bytes => !Frame.asks bytes := by
  obtain ⟨-, notes, hnotes, hasks⟩ := h
  obtain ⟨-, notes', hnotes', hasks'⟩ := h'
  unfold answersSince
  rw [hnotes', hqueue, hnotes, List.append_assoc, List.append_assoc, List.drop_left,
    List.filter_append, List.filter_append, filter_notes hasks, filter_notes hasks',
    List.nil_append, List.append_nil]

theorem Settles.since {command sequence : UInt32} {expectsReply : Bool} {answered : Connection}
    (h : c'.Settles command sequence expectsReply answered) (hc : c.Announces c')
    (hafter : answered.Announces c'') :
    c.keptSince c'' = [] ∧ AreDue command sequence expectsReply (c.answersSince c'') := by
  obtain ⟨hkept, hqueue⟩ := h
  refine ⟨?_, ?_⟩
  · unfold keptSince
    rw [hafter.1, hkept, hc.1]
    exact List.drop_length
  · cases expectsReply with
    | false =>
      rw [answersSince_between hc (hqueue.trans (List.append_nil _).symm) hafter]
      rfl
    | true =>
      obtain ⟨bytes, hqueue, hbytes⟩ := hqueue
      rw [answersSince_between hc hqueue hafter, List.filter_singleton, hbytes.asks_eq_false]
      exact ⟨bytes, rfl, hbytes⟩

theorem since_useHandle (service : Service) (handle : ReplyHandle) {use : HandleUse}
    (hcoherent : c.Coherent) (hconnected : c.life.isConnected) (hroom : c.outbound.hasRoom)
    (h : use ≠ .keep) : AreDue handle.command handle.sequence handle.expectsReply
      (c.answersSince (c.useHandle service handle use).2) := by
  have hdone := (hcoherent.of_isConnected hconnected).2
  have hsettles := settles_useHandle hconnected hdone hroom service handle h
  exact (hsettles.since (.of_eq rfl rfl) (.of_eq rfl rfl)).2

theorem since_serve (hrequest : frame.header.isRequest = true) (hcoherent : c.Coherent)
    (hconnected : (c.afterEffects service frame).life.isConnected)
    (hroom : (c.afterEffects service frame).outbound.hasRoom) :
    (c.keptSince (c.serve service frame).2 = [] ∧
        AreDue frame.header.command frame.header.sequence frame.header.expectsReply
          (c.answersSince (c.serve service frame).2)) ∨
      ∃ type, c.keptSince (c.serve service frame).2 = [.ofHeader frame.header type] ∧
        c.answersSince (c.serve service frame).2 = [] := by
  have hbefore := announces_afterEffects service c frame
  obtain ⟨answered, hafter, hsettles | ⟨type, houtbound, hkept⟩⟩ :=
    serve_cases hrequest hcoherent hconnected hroom
  · exact .inl (hsettles.since hbefore hafter)
  · refine .inr ⟨type, ?_, ?_⟩
    · unfold keptSince
      rw [hafter.1, hkept, hbefore.1]
      exact List.drop_left
    · have hqueue : answered.outbound.queue =
          (c.afterEffects service frame).outbound.queue ++ [] := by
        rw [houtbound, List.append_nil]
      exact answersSince_between hbefore hqueue hafter

end Connection

/-! ### All requests of a connection -/

/-- A connection with the requests processed so far, and, tagged with the index of their request,
the handles kept and the answers queued. -/
structure Desk where
  conn : Connection
  requests : List Frame := []
  held : List (Nat × ReplyHandle) := []
  answers : List (Nat × Bytes) := []

namespace Desk

/-- The items tagged with this index. -/
def about {α : Type} (n : Nat) (l : List (Nat × α)) : List α :=
  (l.filter (·.1 == n)).map Prod.snd

/-- `Connection.serve` of a request. -/
def serve (service : Service) (d : Desk) (frame : Frame) : Desk :=
  let conn := (d.conn.serve service frame).2
  { conn
    requests := d.requests ++ [frame]
    held := d.held ++ (d.conn.keptSince conn).map (d.requests.length, ·)
    answers := d.answers ++ (d.conn.answersSince conn).map (d.requests.length, ·) }

/-- `Connection.useHandle` of the handle between these others, which is given up with it. -/
def use (service : Service) (d : Desk) (before : List (Nat × ReplyHandle)) (n : Nat)
    (handle : ReplyHandle) (after : List (Nat × ReplyHandle)) (use : HandleUse) : Desk :=
  let conn := (d.conn.useHandle service handle use).2
  { d with
    conn
    held := before ++ after
    answers := d.answers ++ (d.conn.answersSince conn).map (n, ·) }

/-- A step of the connection and of those who hold its handles. Whenever an answer is due, the
connection is connected and its queue has room; between two such steps the connection changes
freely. -/
inductive Step (service : Service) (d : Desk) : Desk → Prop
  | serve {frame : Frame} (hrequest : frame.header.isRequest = true)
      (hconnected : (d.conn.afterEffects service frame).life.isConnected)
      (hroom : (d.conn.afterEffects service frame).outbound.hasRoom) :
      Step service d (d.serve service frame)
  | use {before after : List (Nat × ReplyHandle)} {n : Nat} {handle : ReplyHandle}
      {use : HandleUse} (hheld : d.held = before ++ (n, handle) :: after) (huse : use ≠ .keep)
      (hconnected : d.conn.life.isConnected) (hroom : d.conn.outbound.hasRoom) :
      Step service d (d.use service before n handle after use)
  | other {conn : Connection} (h : conn.Coherent) : Step service d { d with conn }

variable {service : Service} {d d' : Desk} {α : Type}

theorem about_append (n : Nat) (l l' : List (Nat × α)) : about n (l ++ l') = about n l ++ about n l' := by
  unfold about
  rw [List.filter_append, List.map_append]

theorem about_cons_self (n : Nat) (a : α) (l : List (Nat × α)) :
    about n ((n, a) :: l) = a :: about n l := by
  simp [about]

theorem about_cons_ne {n m : Nat} (h : m ≠ n) (a : α) (l : List (Nat × α)) :
    about n ((m, a) :: l) = about n l := by
  simp [about, h]

theorem mem_about {n : Nat} {l : List (Nat × α)} {a : α} : a ∈ about n l ↔ (n, a) ∈ l := by
  unfold about
  constructor
  · intro h
    obtain ⟨⟨m, b⟩, hmem, rfl⟩ := List.mem_map.mp h
    obtain ⟨hmem, heq⟩ := List.mem_filter.mp hmem
    have hm : m = n := eq_of_beq heq
    exact hm ▸ hmem
  · exact fun h => List.mem_map.mpr ⟨(n, a), List.mem_filter.mpr ⟨h, beq_self_eq_true n⟩, rfl⟩

theorem about_self (n : Nat) (l : List α) : about n (l.map (n, ·)) = l := by
  unfold about
  rw [List.filter_eq_self.mpr]
  · rw [List.map_map]
    exact List.map_id l
  · intro x hx
    obtain ⟨a, -, rfl⟩ := List.mem_map.mp hx
    exact beq_self_eq_true n

theorem about_other {n m : Nat} (h : m ≠ n) (l : List α) : about n (l.map (m, ·)) = [] := by
  refine List.eq_nil_iff_forall_not_mem.mpr fun a ha => ?_
  obtain ⟨b, -, heq⟩ := List.mem_map.mp (mem_about.mp ha)
  exact h (congrArg Prod.fst heq)

def answersTo (d : Desk) (n : Nat) : List Bytes := about n d.answers

def heldFor (d : Desk) (n : Nat) : List ReplyHandle := about n d.held

/-- The invariant: handles and answers belong to requests processed, and each request has either. -/
structure Inv (d : Desk) : Prop where
  coherent : d.conn.Coherent
  kind : ∀ frame ∈ d.requests, frame.header.isRequest = true
  held : ∀ n handle, (n, handle) ∈ d.held → ∃ frame type, d.requests[n]? = some frame ∧
    handle = .ofHeader frame.header type
  answers : ∀ n bytes, (n, bytes) ∈ d.answers → ∃ frame, d.requests[n]? = some frame ∧
    frame.header.expectsReply = true ∧
    IsAnswer frame.header.command frame.header.sequence bytes
  once : ∀ n frame, d.requests[n]? = some frame → frame.header.expectsReply = true →
    (d.answersTo n).length + (d.heldFor n).length = 1

theorem inv_new {c : Connection} (h : c.Coherent) : Inv { conn := c } where
  coherent := h
  kind := fun _ hf => (List.not_mem_nil hf).elim
  held := fun _ _ h => (List.not_mem_nil h).elim
  answers := fun _ _ h => (List.not_mem_nil h).elim
  once := fun _ _ h => by cases h

theorem getElem?_concat {requests : List Frame} {frame frame' : Frame} {n : Nat}
    (h : (requests ++ [frame])[n]? = some frame') :
    requests[n]? = some frame' ∧ n ≠ requests.length ∨ n = requests.length ∧ frame' = frame := by
  by_cases hn : n < requests.length
  · rw [List.getElem?_append_left hn] at h
    exact .inl ⟨h, Nat.ne_of_lt hn⟩
  · rw [List.getElem?_append_right (Nat.le_of_not_lt hn)] at h
    have hmem := List.mem_singleton.mp (List.mem_of_getElem? h)
    have hlt : n - requests.length < 1 := (List.getElem?_eq_some_iff.mp h).1
    exact .inr ⟨by omega, hmem⟩

theorem getElem?_concat_of_some {requests : List Frame} {frame' : Frame} {n : Nat}
    (h : requests[n]? = some frame') (frame : Frame) : (requests ++ [frame])[n]? = some frame' :=
  (List.getElem?_append_left (List.getElem?_eq_some_iff.mp h).1).trans h

theorem Inv.about_length (h : d.Inv) :
    d.answersTo d.requests.length = [] ∧ d.heldFor d.requests.length = [] := by
  have hnone : d.requests[d.requests.length]? = none := List.getElem?_eq_none (Nat.le_refl _)
  refine ⟨List.eq_nil_iff_forall_not_mem.mpr ?_, List.eq_nil_iff_forall_not_mem.mpr ?_⟩
  · intro bytes hb
    obtain ⟨frame, hframe, -⟩ := h.answers _ bytes (mem_about.mp hb)
    rw [hnone] at hframe
    cases hframe
  · intro handle hh
    obtain ⟨frame, type, hframe, -⟩ := h.held _ handle (mem_about.mp hh)
    rw [hnone] at hframe
    cases hframe

theorem Inv.serve (h : d.Inv) {frame : Frame} (hrequest : frame.header.isRequest = true)
    (hconnected : (d.conn.afterEffects service frame).life.isConnected)
    (hroom : (d.conn.afterEffects service frame).outbound.hasRoom) :
    (d.serve service frame).Inv := by
  have hlast : (d.requests ++ [frame])[d.requests.length]? = some frame := List.getElem?_concat_length
  have hsince := Connection.since_serve hrequest h.coherent hconnected hroom
  -- What is new belongs to the last request, and what there was to an earlier one.
  constructor
  case coherent => exact h.coherent.of_keeps (Connection.keeps_serve service d.conn frame)
  case kind =>
    intro frame' hf
    rcases List.mem_append.mp hf with hf | hf
    · exact h.kind frame' hf
    · rw [List.mem_singleton.mp hf]
      exact hrequest
  case held =>
    intro n handle hh
    rcases List.mem_append.mp hh with hh | hh
    · obtain ⟨frame', type, hframe, hhandle⟩ := h.held n handle hh
      exact ⟨frame', type, getElem?_concat_of_some hframe frame, hhandle⟩
    · obtain ⟨handle', hnew, heq⟩ := List.mem_map.mp hh
      cases heq
      rcases hsince with ⟨hkept, -⟩ | ⟨type, hkept, -⟩
      · rw [hkept] at hnew
        cases hnew
      · rw [hkept] at hnew
        exact ⟨frame, type, hlast, List.mem_singleton.mp hnew⟩
  case answers =>
    intro n bytes hb
    rcases List.mem_append.mp hb with hb | hb
    · obtain ⟨frame', hframe, hanswer⟩ := h.answers n bytes hb
      exact ⟨frame', getElem?_concat_of_some hframe frame, hanswer⟩
    · obtain ⟨bytes', hnew, heq⟩ := List.mem_map.mp hb
      cases heq
      rcases hsince with ⟨-, hdue⟩ | ⟨type, -, hnone⟩
      · exact ⟨frame, hlast, hdue.of_mem hnew⟩
      · rw [hnone] at hnew
        cases hnew
  case once =>
    intro n frame' hframe hexpects
    show (about n (_ ++ _)).length + (about n (_ ++ _)).length = 1
    rw [about_append, about_append, List.length_append, List.length_append]
    rcases getElem?_concat hframe with ⟨hold, hn⟩ | ⟨rfl, rfl⟩
    · rw [about_other hn.symm, about_other hn.symm]
      exact h.once n frame' hold hexpects
    · obtain ⟨hanswers, hheld⟩ := h.about_length
      rw [about_self, about_self, show about _ d.answers = [] from hanswers,
        show about _ d.held = [] from hheld]
      rcases hsince with ⟨hkept, hdue⟩ | ⟨type, hkept, hnone⟩
      · rw [hexpects] at hdue
        rw [hkept, hdue.length_eq]
        rfl
      · rw [hkept, hnone]
        rfl

theorem Inv.use (h : d.Inv) {before after : List (Nat × ReplyHandle)} {n : Nat}
    {handle : ReplyHandle} {use : HandleUse} (hheld : d.held = before ++ (n, handle) :: after)
    (huse : use ≠ .keep) (hconnected : d.conn.life.isConnected) (hroom : d.conn.outbound.hasRoom) :
    (d.use service before n handle after use).Inv := by
  have hdue := Connection.since_useHandle service handle h.coherent hconnected hroom huse
  have hmem : (n, handle) ∈ d.held := by
    rw [hheld]
    exact List.mem_append_right _ List.mem_cons_self
  obtain ⟨frame, type, hframe, rfl⟩ := h.held n handle hmem
  constructor
  case coherent =>
    exact h.coherent.of_keeps ((Connection.keeps_allowsHandlers service).useHandle d.conn _ use)
  case kind => exact h.kind
  case held =>
    intro m handle' hh
    refine h.held m handle' ?_
    rw [hheld]
    rcases List.mem_append.mp hh with hh | hh
    · exact List.mem_append_left _ hh
    · exact List.mem_append_right _ (List.mem_cons_of_mem _ hh)
  case answers =>
    intro m bytes hb
    rcases List.mem_append.mp hb with hb | hb
    · exact h.answers m bytes hb
    · obtain ⟨bytes', hnew, heq⟩ := List.mem_map.mp hb
      cases heq
      exact ⟨frame, hframe, hdue.of_mem hnew⟩
  case once =>
    intro m frame' hframe' hexpects
    have honce := h.once m frame' hframe' hexpects
    unfold answersTo heldFor at honce ⊢
    rw [hheld, about_append] at honce
    show (about m (_ ++ _)).length + (about m (_ ++ _)).length = 1
    rw [about_append, about_append]
    -- For its own request the handle turns into an answer; for the others nothing changes.
    by_cases hm : n = m
    · subst hm
      have hsame : frame' = frame := Option.some.inj (hframe'.symm.trans hframe)
      have hdue' := hdue
      rw [show (ReplyHandle.ofHeader frame.header type).expectsReply = true from hsame ▸ hexpects]
        at hdue'
      rw [about_self, List.length_append, List.length_append, hdue'.length_eq]
      rw [about_cons_self, List.length_append, List.length_cons] at honce
      omega
    · rw [about_other hm, List.append_nil]
      rw [about_cons_ne hm] at honce
      exact honce

theorem Inv.step (h : d.Inv) (hstep : d.Step service d') : d'.Inv := by
  cases hstep with
  | serve hrequest hconnected hroom => exact h.serve hrequest hconnected hroom
  | use hheld huse hconnected hroom => exact h.use hheld huse hconnected hroom
  | other hcoherent => exact ⟨hcoherent, h.kind, h.held, h.answers, h.once⟩

theorem Inv.run (h : d.Inv) (hrun : Relation.ReflTransGen (Step service) d d') : d'.Inv := by
  induction hrun with
  | refl => exact h
  | tail _ hstep ih => exact ih.step hstep

/-- **A two-way request is answered exactly once, and a one-way request never.**  Whatever requests
a connection processes, whatever handlers they have, and whatever is done with the handles that
those keep: a request to be answered has been answered by one frame, which is a reply or an error
reply with the command and the number of the request, or else it has no answer yet and one handle is
still to be used.  To a request that is not to be answered there is no answer. -/
theorem answered_once {c : Connection} (hc : c.Reachable service)
    (hrun : Relation.ReflTransGen (Step service) { conn := c } d) {n : Nat} {frame : Frame}
    (hframe : d.requests[n]? = some frame) :
    (frame.header.kind = .request →
      (∃ bytes, d.answersTo n = [bytes] ∧ d.heldFor n = [] ∧
        IsAnswer frame.header.command frame.header.sequence bytes) ∨
      ∃ handle, d.answersTo n = [] ∧ d.heldFor n = [handle]) ∧
    (frame.header.kind = .oneWay → d.answersTo n = []) := by
  have hinv := (inv_new hc.coherent).run hrun
  refine ⟨?_, ?_⟩
  · intro hkind
    have hexpects : frame.header.expectsReply = true := by simp [Header.expectsReply, hkind]
    have honce := hinv.once n frame hframe hexpects
    -- Answers and handles are one together, so it is the one or the other.
    rcases hanswers : d.answersTo n with _ | ⟨bytes, rest⟩
    · rw [hanswers, List.length_nil, Nat.zero_add, List.length_eq_one_iff] at honce
      obtain ⟨handle, hheld⟩ := honce
      exact .inr ⟨handle, rfl, hheld⟩
    · rw [hanswers, List.length_cons] at honce
      have hrest : rest = [] := List.length_eq_zero_iff.mp (by omega)
      have hheld : d.heldFor n = [] := List.length_eq_zero_iff.mp (by omega)
      have hmem : bytes ∈ d.answersTo n := by
        rw [hanswers]
        exact List.mem_cons_self
      obtain ⟨frame', hframe', -, hanswer⟩ := hinv.answers n bytes (mem_about.mp hmem)
      rw [← Option.some.inj (hframe.symm.trans hframe')] at hanswer
      exact .inl ⟨bytes, by rw [hrest], hheld, hanswer⟩
  · intro hkind
    refine List.eq_nil_iff_forall_not_mem.mpr fun bytes hb => ?_
    obtain ⟨frame', hframe', hexpects, -⟩ := hinv.answers n bytes (mem_about.mp hb)
    rw [← Option.some.inj (hframe.symm.trans hframe')] at hexpects
    simp [Header.expectsReply, hkind] at hexpects

/-- A request and a one-way request go to a handler that keeps its handles, which are used later,
the newer one first. -/
theorem answered_once_deferred :
    ∃ (service : Service) (c : Connection) (d : Desk) (bytes : Bytes), c.Reachable service ∧
      Relation.ReflTransGen (Step service) { conn := c } d ∧
      d.requests = [Frame.of (.request 7 1) [], Frame.of (.oneWay 7 2) []] ∧
      d.answersTo 0 = [bytes] ∧ IsAnswer 7 1 bytes ∧ d.answersTo 1 = [] := by
  let unit : PayloadType := ⟨0, "()", .unit, []⟩
  let service : Service := { protocol :=
    { name := "server", handled := [(7, ⟨⟨unit, unit⟩, .deferred fun _ _ _ => .done (.last .keep)⟩)] } }
  let c := (Connection.new service "default").establish true
  let handle₁ : ReplyHandle := ⟨7, 1, true, unit⟩
  let handle₂ : ReplyHandle := ⟨7, 2, false, unit⟩
  let d₁ := Desk.serve service { conn := c } (Frame.of (.request 7 1) [])
  have h₁ : Step service { conn := c } d₁ := .serve rfl rfl (by decide)
  let d₂ := d₁.serve service (Frame.of (.oneWay 7 2) [])
  have h₂ : Step service d₁ d₂ := .serve rfl rfl (by decide)
  have hheld : d₂.held = [(0, handle₁)] ++ (1, handle₂) :: [] := rfl
  let d₃ := d₂.use service [(0, handle₁)] 1 handle₂ [] (.reply .unit)
  have h₃ : Step service d₂ d₃ := .use hheld nofun rfl (by decide)
  let d₄ := d₃.use service [] 0 handle₁ [] .drop
  have h₄ : Step service d₃ d₄ := .use rfl nofun rfl (by decide)
  have hc : c.Reachable service := ⟨_, .single (.establish _ true rfl)⟩
  have hrun : Relation.ReflTransGen (Step service) { conn := c } d₄ :=
    .tail (.tail (.tail (.single h₁) h₂) h₃) h₄
  have hfirst : d₄.requests[0]? = some (Frame.of (.request 7 1) []) := rfl
  have hsecond : d₄.requests[1]? = some (Frame.of (.oneWay 7 2) []) := rfl
  have hnone := (answered_once hc hrun hsecond).2 (Header.kind_oneWay 7 2)
  rcases (answered_once hc hrun hfirst).1 (Header.kind_request 7 1) with
    ⟨bytes, hbytes, -, hanswer⟩ | ⟨handle, -, hheld⟩
  · exact ⟨service, c, d₄, bytes, hc, hrun, rfl, hbytes, hanswer, hnone⟩
  · cases hheld

end Desk

end CallWire
