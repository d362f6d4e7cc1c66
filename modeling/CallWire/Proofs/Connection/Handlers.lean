import CallWire.Connection.Exchange

/-!
# CallWire.Proofs.Connection.Handlers — what handlers can do to their connection

Whatever a handler does comes down to a few elementary changes of its connection.  A relation
between connections that allows each of these, one by one and one after the other, allows whatever
becomes of a request.  If it allows what the reader does besides, it allows whatever the reader
comes to in its turn.  What the writer comes to in its turn is one of four things.
-/

namespace CallWire

theorem exists_of_bind_eq_ok {ε α β : Type} {x : Except ε α} {f : α → Except ε β} {b : β}
    (h : x >>= f = .ok b) : ∃ a, x = .ok a ∧ f a = .ok b := by
  cases x with
  | error e => cases h
  | ok a => exact ⟨a, rfl, h⟩

theorem FrameDecoder.le_of_checkLength {limit length : Nat} (h : checkLength limit length = .ok ()) :
    length ≤ limit := by
  unfold checkLength at h
  by_cases hlong : length > limit
  · rw [if_pos hlong] at h
    cases h
  · exact Nat.le_of_not_lt hlong

theorem replyImage_eq_ok {limit : Nat} {command sequence : UInt32} {payload frame : Bytes}
    (h : replyImage limit command sequence payload = .ok frame) :
    payload.length ≤ limit ∧ frame = Frame.image (.reply command sequence) payload := by
  obtain ⟨⟨⟩, hcheck, h⟩ := exists_of_bind_eq_ok h
  cases h
  exact ⟨FrameDecoder.le_of_checkLength hcheck, rfl⟩

theorem Socket.write_of_not_deaf {s : Socket} (h : s.peerDeaf = false) (bs : Bytes) :
    s.write bs = some { s with delivered := s.delivered ++ bs } := by
  unfold write
  rw [if_neg (by rw [h]; exact Bool.false_ne_true)]

theorem Socket.write_eq_some {s s' : Socket} {bs : Bytes} (h : s.write bs = some s') :
    s.peerDeaf = false ∧ s' = { s with delivered := s.delivered ++ bs } := by
  unfold write at h
  split at h
  · cases h
  · next hdeaf => exact ⟨Bool.eq_false_iff.mpr hdeaf, (Option.some.inj h).symm⟩

/-! ### Kinds of handlers -/

/-- Every effect that the conduct can make satisfies `p`, and every result it can end in satisfies
`q`, whatever the effects return. -/
def Conduct.Only {α : Type} (p : Effect → Bool) (q : α → Prop) : Conduct α → Prop
  | .done result => q result
  | .act effect next => p effect = true ∧ ∀ result c, (next result c).Only p q

def Release.Only (p : Effect → Bool) (release : Release) : Prop :=
  ∀ result c, (release.after result c).Only p fun _ => True

def Handler.Only (p : Effect → Bool) : Handler → Prop
  | .inline run => ∀ c request, (run c request).Only p fun _ => True
  | .deferred run => ∀ c request handle, (run c request handle).Only p (Release.Only p)

theorem Conduct.only_true {α : Type} {q : α → Prop} (hq : ∀ result, q result)
    (conduct : Conduct α) : conduct.Only (fun _ => true) q := by
  induction conduct with
  | done result => exact hq result
  | act effect next ih => exact ⟨rfl, fun result c => ih result c⟩

theorem Handler.only_true (h : Handler) : h.Only fun _ => true := by
  cases h with
  | inline run => exact fun c request => (run c request).only_true fun _ => trivial
  | deferred run =>
    refine fun c request handle => (run c request handle).only_true fun release => ?_
    exact fun result c' => (release.after result c').only_true fun _ => trivial

namespace Connection

/-- The connection with this frame appended to its queue. -/
def queued (c : Connection) (frame : Bytes) : Connection :=
  { c with outbound := { c.outbound with queue := c.outbound.queue ++ [frame] } }

/-- The two cases of `Connection.enqueue`: refused and unchanged, or appended. -/
inductive Enqueues (c : Connection) (frame : Bytes) : Except RpcError Unit × Connection → Prop
  | unconnected (hconnected : c.life.isConnected = false) :
      Enqueues c frame (.error .notConnected, c)
  | done (hconnected : c.life.isConnected = true) (hdone : c.outbound.isDone = true) :
      Enqueues c frame (.error .disconnected, c)
  | full (hconnected : c.life.isConnected = true) (hdone : c.outbound.isDone = false)
      (hroom : c.outbound.hasRoom = false) :
      Enqueues c frame (.error (.queueFull c.outbound.capacity), c)
  | queues (hconnected : c.life.isConnected = true) (hdone : c.outbound.isDone = false)
      (hroom : c.outbound.hasRoom = true) : Enqueues c frame (.ok (), c.queued frame)

theorem enqueue_enqueues (c : Connection) (frame : Bytes) : c.Enqueues frame (c.enqueue frame) := by
  unfold enqueue Outbound.offer
  by_cases hconnected : c.life.isConnected = true
  · rw [if_pos hconnected]
    by_cases hdone : c.outbound.isDone = true
    · rw [if_pos hdone]
      exact .done hconnected hdone
    · rw [if_neg hdone]
      by_cases hroom : c.outbound.hasRoom = true
      · rw [if_pos hroom]
        exact .queues hconnected (Bool.eq_false_iff.mpr hdone) hroom
      · rw [if_neg hroom]
        exact .full hconnected (Bool.eq_false_iff.mpr hdone)
          (Bool.eq_false_iff.mpr hroom)
  · rw [if_neg hconnected]
    exact .unconnected (Bool.eq_false_iff.mpr hconnected)

theorem enqueue_cases (c : Connection) (frame : Bytes) : (c.enqueue frame).2 = c ∨
    c.outbound.hasRoom = true ∧ (c.enqueue frame).2 = c.queued frame := by
  have h := c.enqueue_enqueues frame
  generalize c.enqueue frame = enqueued at h ⊢
  cases h with
  | unconnected | done | full => exact .inl rfl
  | queues _ _ hroom => exact .inr ⟨hroom, rfl⟩

theorem exists_stopEvents (c : Connection) :
    ∃ eventsStopped, c.stopEvents.2 = { c with eventsStopped } := by
  unfold stopEvents
  split
  · exact ⟨c.eventsStopped, rfl⟩
  split
  · exact ⟨c.eventsStopped, rfl⟩
  · exact ⟨true, rfl⟩

theorem exists_startEvents (c : Connection) :
    ∃ eventsStopped, c.startEvents.2 = { c with eventsStopped } := by
  unfold startEvents
  split
  · exact ⟨c.eventsStopped, rfl⟩
  split
  · exact ⟨c.eventsStopped, rfl⟩
  · exact ⟨false, rfl⟩

/-- `R` holds between the connection before and after an effect that satisfies `p`. -/
structure Allows (service : Service) (p : Effect → Bool) (R : Connection → Connection → Prop) :
    Prop where
  refl : ∀ c, R c c
  trans : ∀ {c c' c''}, R c c' → R c' c'' → R c c''
  acted : ∀ c result, R c (c.record (.acted result))
  act : ∀ c {effect}, p effect = true → R c (c.act service effect).2

/-- `R` holds between the connection before and after any effect. -/
structure AllowsEffects (service : Service) (R : Connection → Connection → Prop) : Prop where
  refl : ∀ c, R c c
  trans : ∀ {c c' c''}, R c c' → R c' c'' → R c c''
  record : ∀ c e, R c (c.record e)
  events : ∀ (c : Connection) (eventsStopped : Bool), R c { c with eventsStopped }
  close : ∀ c, R c c.close.2
  shutDown : ∀ c : Connection, R c { c with shutsDown := true }
  oneWay : ∀ c command type note, R c (c.sendOneWay service command type note).2
  call : ∀ c command types request, R c (c.startCall service command types request).2

/-- `R` holds between the connection before and after an answer through a handle. -/
structure AllowsAnswers (service : Service) (R : Connection → Connection → Prop) : Prop where
  refl : ∀ c, R c c
  reply : ∀ (c : Connection) (command sequence : UInt32) (payload : Bytes),
    payload.length ≤ service.config.maxPayloadLength →
    R c (c.enqueue (Frame.image (.reply command sequence) payload)).2
  error : ∀ (c : Connection) (command sequence : UInt32) (status : Status),
    R c (c.enqueue (errorImage command sequence status)).2

/-- `R` holds between the connection before and after a handler and its answer. -/
structure AllowsHandlers (service : Service) (R : Connection → Connection → Prop) : Prop
    extends AllowsEffects service R, AllowsAnswers service R where
  keep : ∀ (c : Connection) (handle : ReplyHandle), R c { c with kept := c.kept ++ [handle] }

variable {service : Service} {R : Connection → Connection → Prop}

section Effects

variable {α : Type} {p : Effect → Bool} {q : α → Prop}

theorem Allows.carryOut (h : Allows service p R) (c : Connection) {conduct : Conduct α}
    (hconduct : conduct.Only p q) :
    R c (c.carryOut service conduct).2 ∧ q (c.carryOut service conduct).1 := by
  induction conduct generalizing c with
  | done result => exact ⟨h.refl c, hconduct⟩
  | act effect next ih =>
    obtain ⟨heffect, hnext⟩ := hconduct
    have hact : R c ((c.act service effect).2.record (.acted (c.act service effect).1)) :=
      h.trans (h.act c heffect) (h.acted _ _)
    obtain ⟨hrest, hresult⟩ := ih _ _ _ (hnext (c.act service effect).1 _)
    exact ⟨h.trans hact hrest, hresult⟩

theorem of_carryOut (service : Service) (c : Connection) {conduct : Conduct α}
    (hconduct : conduct.Only p q) : q (c.carryOut service conduct).1 := by
  have hall : Allows service p fun _ _ => True :=
    ⟨fun _ => trivial, fun _ _ => trivial, fun _ _ => trivial, fun _ _ _ => trivial⟩
  exact (hall.carryOut c hconduct).2

variable (h : AllowsEffects service R) (c : Connection)
include h

theorem AllowsEffects.act (effect : Effect) : R c (c.act service effect).2 := by
  cases effect with
  | stopEvents =>
    obtain ⟨eventsStopped, heq⟩ := c.exists_stopEvents
    show R c c.stopEvents.2
    rw [heq]
    exact h.events c eventsStopped
  | startEvents =>
    obtain ⟨eventsStopped, heq⟩ := c.exists_startEvents
    show R c c.startEvents.2
    rw [heq]
    exact h.events c eventsStopped
  | close => exact h.close c
  | notify command type note => exact h.oneWay c command type note
  | call command types request => exact h.call c command types request
  | shutDown => exact h.trans (h.close c) (h.shutDown _)

theorem AllowsEffects.allows : Allows service (fun _ => true) R :=
  ⟨h.refl, h.trans, fun c _ => h.record c _, fun c effect _ => h.act c effect⟩

theorem AllowsEffects.carryOut (conduct : Conduct α) : R c (c.carryOut service conduct).2 :=
  (h.allows.carryOut c (conduct.only_true fun _ => trivial)).1

theorem AllowsEffects.runInline (type : PayloadType) (request : Value)
    (run : Connection → Value → Conduct InlineResult) :
    R c (c.runInline service type request run).2 :=
  h.trans (h.record c _) (h.carryOut _ _)

theorem AllowsEffects.runDeferred (type : PayloadType) (request : Value) (handle : ReplyHandle)
    (run : Connection → Value → ReplyHandle → Conduct Release) :
    R c (c.runDeferred service type request handle run).2 :=
  h.trans (h.record c _) (h.carryOut _ _)

end Effects

section Handles

variable (h : AllowsAnswers service R) (c : Connection)
include h

theorem AllowsAnswers.replyError (handle : ReplyHandle) (status : Status) :
    R c (handle.replyError c status).2 := by
  unfold ReplyHandle.replyError
  split
  · exact h.error c handle.command handle.sequence status.asFailure
  · exact h.refl c

theorem AllowsAnswers.dropHandle (handle : ReplyHandle) : R c (handle.drop c) := by
  unfold ReplyHandle.drop
  split
  · exact h.error c handle.command handle.sequence .handlerFailed
  · exact h.refl c

theorem AllowsAnswers.replyValue (handle : ReplyHandle) (v : Value) :
    R c (handle.reply service c v).2 := by
  unfold ReplyHandle.reply
  split
  · exact h.refl c
  split
  · exact h.error c handle.command handle.sequence .handlerFailed
  split
  · next frame himage =>
    obtain ⟨hlength, rfl⟩ := replyImage_eq_ok himage
    exact h.reply c handle.command handle.sequence _ hlength
  · have hlarge := h.error c handle.command handle.sequence .frameTooLarge
    unfold ReplyHandle.enqueueError
    generalize c.enqueue (errorImage handle.command handle.sequence .frameTooLarge) = answered
      at hlarge ⊢
    rcases answered with ⟨e | _, c'⟩
    · exact hlarge
    · exact hlarge

end Handles

section Answers

variable (h : AllowsHandlers service R) (c : Connection)
include h

theorem AllowsHandlers.useHandle (handle : ReplyHandle) (use : HandleUse) :
    R c (c.useHandle service handle use).2 := by
  cases use with
  | keep => exact h.keep c handle
  | reply v => exact h.trans (h.replyValue c handle v) (h.record _ _)
  | replyElsewhere v => exact h.replyValue c handle v
  | error status => exact h.trans (h.replyError c handle status) (h.record _ _)
  | drop => exact h.dropHandle c handle

theorem AllowsHandlers.finishDeferred (handle : ReplyHandle) (release : Release) :
    R c (c.finishDeferred service handle release) :=
  h.trans (h.useHandle c handle release.use) (h.carryOut _ _)

theorem AllowsHandlers.runHandler (entry : HandledCommand) (header : Header) (request : Value) :
    R c (c.runHandler service entry header request).2 := by
  unfold Connection.runHandler
  split
  · exact h.runInline c _ _ _
  · exact h.trans (h.runDeferred c _ _ _ _) (h.finishDeferred _ _ _)

theorem AllowsHandlers.answer (frame : Frame) : R c (c.answer service frame).2 := by
  have hinvoke (entry : HandledCommand) :
      R c (c.invoke service entry frame.header frame.payload).2 := by
    unfold invoke
    split
    · exact h.refl c
    · exact h.runHandler c entry frame.header _
  unfold Connection.answer
  dsimp only
  split
  · exact h.record c _
  split
  · exact h.record c _
  · next entry _ =>
    have hrun := hinvoke entry
    split
    · next heq =>
      rw [heq] at hrun
      exact h.trans hrun (h.record _ _)
    · exact hrun

theorem AllowsHandlers.serve {frame : Frame} (hrequest : frame.header.isRequest = true)
    (hreply : ∀ c answer reply, answerImage service.config.maxPayloadLength frame.header.command
      frame.header.sequence answer = some reply → R c (c.sendReply reply)) :
    R c (c.serve service frame).2 := by
  have hanswer := h.answer c frame
  unfold Connection.serve handleFrame handleRequest
  rw [if_pos hrequest]
  generalize c.answer service frame = answered at hanswer ⊢
  obtain ⟨answer, c'⟩ := answered
  dsimp only
  by_cases hexpects : frame.header.expectsReply = true
  · rw [if_pos hexpects]
    rcases himage : answerImage service.config.maxPayloadLength frame.header.command
      frame.header.sequence answer with _ | reply
    · exact hanswer
    · exact h.trans hanswer (hreply c' answer reply himage)
  · rw [if_neg hexpects]
    exact hanswer

end Answers

/-! ### Frames that are served -/

theorem fst_serve (service : Service) (c : Connection) (frame : Frame) :
    (c.serve service frame).1 = .served := by
  unfold serve
  rcases c.handleFrame service frame with ⟨_ | reply, c'⟩
  · rfl
  · rfl

theorem handleFrame_of_not_isRequest (service : Service) (c : Connection) {frame : Frame}
    (h : ¬ frame.header.isRequest = true) :
    c.handleFrame service frame = (none, c.handleReply frame) := by
  unfold handleFrame
  rw [if_neg h]

theorem serve_of_not_isRequest (service : Service) (c : Connection) {frame : Frame}
    (h : ¬ frame.header.isRequest = true) :
    c.serve service frame = (.served, c.handleReply frame) := by
  unfold serve
  rw [handleFrame_of_not_isRequest service c h]

/-- `handleReply` changes at most the calls and the events. -/
theorem exists_handleReply (c : Connection) (frame : Frame) :
    ∃ (calls : Calls) (problems : List String), c.handleReply frame =
      { c with calls, events := c.events ++ problems.map Event.problem } := by
  have hsilent (calls : Calls) : ∃ (calls' : Calls) (problems : List String),
      { c with calls } =
        { c with calls := calls', events := c.events ++ problems.map Event.problem } :=
    ⟨calls, [], by rw [List.map_nil, List.append_nil]⟩
  unfold handleReply
  split
  · dsimp only
    split
    · next text _ => exact ⟨_, [text], rfl⟩
    · exact hsilent _
  · exact hsilent _
  · exact ⟨_, [_], rfl⟩

/-! ### Turns of the reader -/

/-- The cases of `Connection.readerTurn`. -/
inductive ReaderTurn (service : Service) (c : Connection) : Turn × Connection → Prop
  | idle (decoder : FrameDecoder) (buffer : Bytes) :
      ReaderTurn service c (.idle, { c with decoder, buffer })
  | takesIn (decoder : FrameDecoder) (buffer : Bytes) (held : Option Frame) (arrived : Bytes) :
      ReaderTurn service c
        (.read, { c with decoder, buffer, held, socket := { c.socket with arrived } })
  | serves (decoder : FrameDecoder) (buffer : Bytes) (held : Option Frame) (frame : Frame)
      (hwaiting : c.outbound.waiting = none) :
      ReaderTurn service c ({ c with decoder, buffer, held }.serve service frame)
  | halted (decoder : FrameDecoder) (buffer : Bytes) (hhalted : c.outbound.isHalted = true) :
      ReaderTurn service c ({ c with decoder, buffer }.stopReading .user)
  | refused {e : RpcError} (hwaiting : c.outbound.waiting = none)
      (hdecode : (c.decoder.decode c.buffer).result = .error e) :
      ReaderTurn service c (c.stopReading .protocolError)
  | reset (decoder : FrameDecoder) (buffer : Bytes) (hwaiting : c.outbound.waiting = none)
      (hreset : c.socket.isReset = true) :
      ReaderTurn service c ({ c with decoder, buffer }.stopReading .ioError)
  | closed (decoder : FrameDecoder) (buffer : Bytes) (hwaiting : c.outbound.waiting = none)
      (harrived : c.socket.arrived = []) (hdone : c.socket.peerDone = true) :
      ReaderTurn service c ({ c with decoder, buffer }.stopReading .closed)

theorem readSocket_turn (service : Service) (c : Connection) (decoder : FrameDecoder)
    (buffer : Bytes) (hwaiting : c.outbound.waiting = none) :
    c.ReaderTurn service { c with decoder, buffer }.readSocket := by
  unfold readSocket
  split
  · next hhalted => exact .halted decoder buffer hhalted
  split
  · exact .takesIn decoder _ c.held []
  · next harrived =>
    split
    · next hreset => exact .reset decoder buffer hwaiting hreset
    split
    · next hdone =>
      refine .closed decoder buffer hwaiting ?_ hdone
      simpa using harrived
    · exact .idle decoder buffer

/-- Every result of `readerTurn` is one of these cases. -/
theorem readerTurn_turn (service : Service) (c : Connection) :
    c.ReaderTurn service (c.readerTurn service) := by
  unfold readerTurn
  cases hwaiting : c.outbound.waiting with
  | some reply =>
    rw [Option.isSome_some, if_pos rfl]
    split
    · next hhalted => exact .halted c.decoder c.buffer hhalted
    · exact .idle c.decoder c.buffer
  | none =>
    rw [Option.isSome_none, if_neg Bool.false_ne_true]
    split
    · next frame _ =>
      unfold resume
      split
      · next hhalted => exact .halted c.decoder c.buffer hhalted
      split
      · exact .idle c.decoder c.buffer
      · exact .serves c.decoder c.buffer none frame hwaiting
    · unfold nextFrame
      rcases hdecode : c.decoder.decode c.buffer with ⟨e | _ | frame, decoder, buffer⟩
      · exact .refused hwaiting (congrArg Decoded.result hdecode)
      · exact c.readSocket_turn service decoder buffer hwaiting
      · dsimp only
        split
        · exact .takesIn decoder buffer (some frame) c.socket.arrived
        · exact .serves decoder buffer c.held frame hwaiting

/-- `R` holds between the connection before and after each part of `readerTurn`. -/
structure AllowsReading (service : Service) (R : Connection → Connection → Prop) : Prop
    extends AllowsHandlers service R where
  takeIn : ∀ (c : Connection) (decoder : FrameDecoder) (buffer : Bytes) (held : Option Frame)
    (arrived : Bytes), R c { c with decoder, buffer, held, socket := { c.socket with arrived } }
  handleReply : ∀ c frame, R c (c.handleReply frame)
  sendReply : ∀ c command sequence answer reply,
    answerImage service.config.maxPayloadLength command sequence answer = some reply →
    R c (c.sendReply reply)
  stopReading : ∀ c reason, R c (c.stopReading reason).2

section Turns

variable (h : AllowsReading service R) (c : Connection)
include h

theorem AllowsReading.serveFrame (frame : Frame) : R c (c.serve service frame).2 := by
  by_cases hrequest : frame.header.isRequest = true
  · exact h.serve c hrequest fun c answer reply himage => h.sendReply c _ _ answer reply himage
  · rw [c.serve_of_not_isRequest service hrequest]
    exact h.handleReply c frame

theorem AllowsReading.readerTurn : R c (c.readerTurn service).2 := by
  have hbefore (decoder : FrameDecoder) (buffer : Bytes) (held : Option Frame) :
      R c { c with decoder, buffer, held } := h.takeIn c decoder buffer held c.socket.arrived
  have hturn := c.readerTurn_turn service
  generalize c.readerTurn service = turn at hturn ⊢
  cases hturn with
  | idle decoder buffer => exact hbefore decoder buffer c.held
  | takesIn decoder buffer held arrived => exact h.takeIn c decoder buffer held arrived
  | serves decoder buffer held frame =>
    exact h.trans (hbefore decoder buffer held) (h.serveFrame _ frame)
  | refused => exact h.stopReading c .protocolError
  | halted decoder buffer | reset decoder buffer | closed decoder buffer =>
    exact h.trans (hbefore decoder buffer c.held) (h.stopReading _ _)

end Turns

/-! ### Turns of the writer -/

/-- The cases of `Connection.writerTurn`. -/
inductive WriterTurn (c : Connection) : Connection → Prop
  | halted (hhalted : c.outbound.isHalted = true) : WriterTurn c c.stopWriting
  | writes {frame : Bytes} {outbound : Outbound} {socket : Socket}
      (hpop : c.outbound.pop = some (frame, outbound))
      (hwrite : c.socket.write frame = some socket) : WriterTurn c { c with outbound, socket }
  | breaks {frame : Bytes} {outbound : Outbound}
      (hpop : c.outbound.pop = some (frame, outbound)) (hwrite : c.socket.write frame = none) :
      WriterTurn c ({ c with outbound }.fail .ioError).stopWriting
  | shutsDown (hpop : c.outbound.pop = none) (hdraining : c.outbound.isDraining = true) :
      WriterTurn c { c with socket := c.socket.shutDown }.stopWriting

theorem writerTurn_turn {c c' : Connection} (h : c.writerTurn = some c') :
    c.outbound.isDone = false ∧ c.WriterTurn c' := by
  unfold writerTurn at h
  split at h
  · cases h
  · next hdone =>
    refine ⟨Bool.eq_false_iff.mpr hdone, ?_⟩
    split at h
    · next hhalted =>
      cases h
      exact .halted hhalted
    split at h
    · next hpop =>
      split at h
      · next hwrite =>
        cases h
        exact .writes hpop hwrite
      · next hwrite =>
        cases h
        exact .breaks hpop hwrite
    · next hpop =>
      split at h
      · next hdraining =>
        cases h
        exact .shutsDown hpop hdraining
      · cases h

end Connection

end CallWire
