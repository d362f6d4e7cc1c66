import CallWire.Proofs.Connection.AnsweredOnce

/-!
# CallWire.Proofs.Connection.Quiet — what leaves the reader alone

An application that does not close its connection, and handlers that do not, leave the reader what
it still has to process, and the writer what it has to write: whatever they send is queued behind
the rest.  The one thing that can hold the reader up is its own reply, which may wait for room.
-/

namespace CallWire

def Effect.isQuiet : Effect → Bool
  | .close | .shutDown => false
  | .stopEvents | .startEvents | .notify _ _ _ | .call _ _ _ => true

def Service.IsQuiet (service : Service) : Prop :=
  ∀ command entry, service.protocol.handled.get? command = some entry →
    entry.handler.Only Effect.isQuiet

namespace Connection

/-- The state of the connection, and whether a handler has shut the set down. -/
def standing (c : Connection) : Lifecycle × Bool := (c.life, c.shutsDown)

/-- The reader and the writer find everything as before, except for more frames in the queue. -/
structure Beside (c c' : Connection) : Prop where
  decoder : c'.decoder = c.decoder
  buffer : c'.buffer = c.buffer
  held : c'.held = c.held
  socket : c'.socket = c.socket
  capacity : c'.outbound.capacity = c.outbound.capacity
  inHand : c'.outbound.inHand = c.outbound.inHand
  waiting : c'.outbound.waiting = c.outbound.waiting
  queue : c.outbound.queue <+: c'.outbound.queue

variable {service : Service} {c c' c'' : Connection}

theorem Beside.of_outbound (hdecoder : c'.decoder = c.decoder) (hbuffer : c'.buffer = c.buffer)
    (hheld : c'.held = c.held) (hsocket : c'.socket = c.socket)
    (houtbound : c'.outbound = c.outbound) : c.Beside c' where
  decoder := hdecoder
  buffer := hbuffer
  held := hheld
  socket := hsocket
  capacity := by rw [houtbound]
  inHand := by rw [houtbound]
  waiting := by rw [houtbound]
  queue := by rw [houtbound]

theorem Beside.refl (c : Connection) : c.Beside c := .of_outbound rfl rfl rfl rfl rfl

theorem Beside.trans (h : c.Beside c') (h' : c'.Beside c'') : c.Beside c'' where
  decoder := h'.decoder.trans h.decoder
  buffer := h'.buffer.trans h.buffer
  held := h'.held.trans h.held
  socket := h'.socket.trans h.socket
  capacity := h'.capacity.trans h.capacity
  inHand := h'.inHand.trans h.inHand
  waiting := h'.waiting.trans h.waiting
  queue := h.queue.trans h'.queue

/-! ### One operation after the other -/

theorem beside_calls (c : Connection) (calls : Calls) : c.Beside { c with calls } :=
  .of_outbound rfl rfl rfl rfl rfl

theorem enqueue_beside (c : Connection) (frame : Bytes) :
    c.Beside (c.enqueue frame).2 ∧ (c.enqueue frame).2.standing = c.standing := by
  rcases c.enqueue_cases frame with heq | ⟨-, heq⟩
  · rw [heq]
    exact ⟨.refl c, rfl⟩
  · rw [heq]
    exact ⟨⟨rfl, rfl, rfl, rfl, rfl, rfl, rfl, List.prefix_append _ _⟩, rfl⟩

theorem startCall_beside (service : Service) (c : Connection) (command : UInt32)
    (types : CommandTypes) (request : Value) :
    c.Beside (c.startCall service command types request).2 ∧
      (c.startCall service command types request).2.standing = c.standing := by
  obtain ⟨calls, -, heq | ⟨n, payload, -, hqueued⟩⟩ :=
    c.startCall_cases service command types request
  · rw [heq]
    exact ⟨c.beside_calls calls, rfl⟩
  · obtain ⟨hbeside, hstanding⟩ := enqueue_beside { c with calls }
      (Frame.image (.request command n) payload)
    rw [hqueued] at hbeside hstanding
    exact ⟨(c.beside_calls calls).trans hbeside, hstanding⟩

theorem sendOneWay_beside (service : Service) (c : Connection) (command : UInt32)
    (type : PayloadType) (request : Value) :
    c.Beside (c.sendOneWay service command type request).2 ∧
      (c.sendOneWay service command type request).2.standing = c.standing := by
  rcases c.sendOneWay_cases service command type request with heq | ⟨n, calls, payload, -, -, heq⟩
  · rw [heq]
    exact ⟨.refl c, rfl⟩
  · obtain ⟨hbeside, hstanding⟩ := enqueue_beside { c with calls }
      (Frame.image (.oneWay command n) payload)
    rw [heq]
    exact ⟨(c.beside_calls calls).trans hbeside, hstanding⟩

theorem close_beside (c : Connection) : c.Beside c.close.2 := by
  unfold close
  rcases c.life.close with ⟨e | _, l⟩
  · exact .of_outbound rfl rfl rfl rfl rfl
  · exact ⟨rfl, rfl, rfl, rfl, rfl, rfl, rfl, List.prefix_refl _⟩

theorem beside_allowsHandlers (service : Service) : AllowsHandlers service Beside where
  refl := .refl
  trans := .trans
  record := fun _ _ => .of_outbound rfl rfl rfl rfl rfl
  events := fun _ _ => .of_outbound rfl rfl rfl rfl rfl
  close := close_beside
  shutDown := fun _ => .of_outbound rfl rfl rfl rfl rfl
  oneWay := fun c command type note => (sendOneWay_beside service c command type note).1
  call := fun c command types request => (startCall_beside service c command types request).1
  keep := fun _ _ => .of_outbound rfl rfl rfl rfl rfl
  reply := fun c _ _ _ _ => (c.enqueue_beside _).1
  error := fun c _ _ _ => (c.enqueue_beside _).1

/-! ### The state of the connection -/

theorem standing_allowsAnswers (service : Service) :
    AllowsAnswers service fun c c' => c'.standing = c.standing where
  refl := fun _ => rfl
  reply := fun c _ _ _ _ => (c.enqueue_beside _).2
  error := fun c _ _ _ => (c.enqueue_beside _).2

theorem standing_useHandle (service : Service) (c : Connection) (handle : ReplyHandle)
    (use : HandleUse) : (c.useHandle service handle use).2.standing = c.standing := by
  cases use with
  | keep => rfl
  | reply v => exact (standing_allowsAnswers service).replyValue c handle v
  | replyElsewhere v => exact (standing_allowsAnswers service).replyValue c handle v
  | error status => exact (standing_allowsAnswers service).replyError c handle status
  | drop => exact (standing_allowsAnswers service).dropHandle c handle

theorem standing_act (service : Service) (c : Connection) {effect : Effect}
    (h : effect.isQuiet = true) : (c.act service effect).2.standing = c.standing := by
  cases effect with
  | stopEvents =>
    obtain ⟨eventsStopped, heq⟩ := c.exists_stopEvents
    show c.stopEvents.2.standing = c.standing
    rw [heq]
    rfl
  | startEvents =>
    obtain ⟨eventsStopped, heq⟩ := c.exists_startEvents
    show c.startEvents.2.standing = c.standing
    rw [heq]
    rfl
  | notify command type note => exact (sendOneWay_beside service c command type note).2
  | call command types request => exact (startCall_beside service c command types request).2
  | close => cases h
  | shutDown => cases h

theorem standing_allows (service : Service) :
    Allows service Effect.isQuiet fun c c' => c'.standing = c.standing where
  refl := fun _ => rfl
  trans := fun h h' => h'.trans h
  acted := fun _ _ => rfl
  act := fun c _ heffect => c.standing_act service heffect

theorem life_startEvents (c : Connection) : c.startEvents.2.life = c.life := by
  obtain ⟨eventsStopped, heq⟩ := c.exists_startEvents
  rw [heq]

theorem eventsStopped_startEvents (hconnected : c.life.isConnected = true) :
    c.startEvents.2.eventsStopped = false := by
  unfold startEvents
  rw [hconnected, if_neg (by decide)]
  cases hstopped : c.eventsStopped with
  | true => rfl
  | false => exact hstopped

theorem standing_afterEffects (hquiet : service.IsQuiet) (c : Connection) (frame : Frame) :
    (c.afterEffects service frame).standing = c.standing :=
  (standing_allows service).afterEffects (fun _ _ => rfl) c fun entry _ hhandler =>
    hquiet _ entry (handlerFor?_eq_some_iff.mp hhandler).2.1

theorem standing_answer (hquiet : service.IsQuiet) (c : Connection) (frame : Frame) :
    (c.answer service frame).2.standing = c.standing := by
  rcases c.answer_cases service frame with
    ⟨answer, events, -, heq⟩ | ⟨entry, request, release, hhandler, honly, heq⟩
  · rw [heq]
    exact standing_afterEffects hquiet c frame
  · have hrelease := honly _ (hquiet _ entry (handlerFor?_eq_some_iff.mp hhandler).2.1)
    rw [heq]
    exact ((standing_allows service).carryOut _ (hrelease _ _)).1.trans
      ((standing_useHandle service _ _ release.use).trans (standing_afterEffects hquiet c frame))

/-- `Connection.serve` changes nothing of this except for the reply that the reader sends. -/
theorem serve_beside (service : Service) (c : Connection) (frame : Frame) :
    ∃ c₁, c.Beside c₁ ∧ (service.IsQuiet → c₁.standing = c.standing) ∧ c.Keeps c₁ ∧
      (c.serve service frame = (.served, c₁) ∨
        ∃ reply, c.serve service frame = (.served, c₁.sendReply reply)) := by
  by_cases hrequest : frame.header.isRequest = true
  · refine ⟨(c.answer service frame).2, (beside_allowsHandlers service).answer c frame,
      fun hquiet => standing_answer hquiet c frame,
      (keeps_allowsHandlers service).answer c frame, ?_⟩
    rw [serve_of_isRequest service c hrequest]
    rcases replyTo service frame (c.answer service frame).1 with _ | reply
    · exact .inl rfl
    · exact .inr ⟨reply, rfl⟩
  · have hreply : c.Beside (c.handleReply frame) ∧
        (c.handleReply frame).standing = c.standing := by
      obtain ⟨calls, events, heq⟩ := c.exists_handleReply frame
      rw [heq]
      exact ⟨.of_outbound rfl rfl rfl rfl rfl, rfl⟩
    rw [c.serve_of_not_isRequest service hrequest]
    exact ⟨_, hreply.1, fun _ => hreply.2, c.keeps_handleReply frame, .inl rfl⟩

/-! ### The application -/

/-- The actions of the application other than to close the connection. -/
inductive Acts (service : Service) (c : Connection) : Connection → Prop
  | startCall (command : UInt32) (types : CommandTypes) (request : Value) :
      Acts service c (c.startCall service command types request).2
  | sendOneWay (command : UInt32) (type : PayloadType) (request : Value) :
      Acts service c (c.sendOneWay service command type request).2
  | cancel (n : UInt32) : Acts service c (c.cancel n).2
  | wait (call : PendingCall) : Acts service c (c.wait call).2
  | waitUntil (call : PendingCall) (milliseconds : Nat) :
      Acts service c (c.waitUntil call milliseconds).2
  | drop (call : PendingCall) : Acts service c (c.drop call)
  | reply (handle : ReplyHandle) (v : Value) : Acts service c (handle.reply service c v).2
  | replyError (handle : ReplyHandle) (status : Status) :
      Acts service c (handle.replyError c status).2
  | dropHandle (handle : ReplyHandle) : Acts service c (handle.drop c)
  | stopEvents : Acts service c c.stopEvents.2
  | startEvents : Acts service c c.startEvents.2
  | look (events : List Event) (kept : List ReplyHandle) : Acts service c { c with events, kept }

theorem Acts.beside (h : c.Acts service c') : c.Beside c' := by
  cases h with
  | startCall command types request => exact (startCall_beside service c command types request).1
  | sendOneWay command type request => exact (sendOneWay_beside service c command type request).1
  | cancel n => exact c.beside_calls _
  | wait call => exact c.beside_calls _
  | waitUntil call milliseconds => exact c.beside_calls _
  | drop call =>
    unfold Connection.drop
    split
    · exact .refl c
    · exact c.beside_calls _
  | reply handle v => exact (beside_allowsHandlers service).replyValue c handle v
  | replyError handle status => exact (beside_allowsHandlers service).replyError c handle status
  | dropHandle handle => exact (beside_allowsHandlers service).dropHandle c handle
  | stopEvents => exact (beside_allowsHandlers service).act c .stopEvents
  | startEvents => exact (beside_allowsHandlers service).act c .startEvents
  | look events kept => exact .of_outbound rfl rfl rfl rfl rfl

theorem Acts.standing (h : c.Acts service c') : c'.standing = c.standing := by
  cases h with
  | startCall command types request => exact (startCall_beside service c command types request).2
  | sendOneWay command type request => exact (sendOneWay_beside service c command type request).2
  | drop call =>
    unfold Connection.drop
    split
    · rfl
    · rfl
  | reply handle v => exact (standing_allowsAnswers service).replyValue c handle v
  | replyError handle status => exact (standing_allowsAnswers service).replyError c handle status
  | dropHandle handle => exact (standing_allowsAnswers service).dropHandle c handle
  | stopEvents => exact @standing_act service c .stopEvents rfl
  | startEvents => exact @standing_act service c .startEvents rfl
  | cancel | wait | waitUntil | look => rfl

theorem Acts.keeps (h : c.Acts service c') : c.Keeps c' := by
  cases h with
  | startCall command types request => exact keeps_startCall service c command types request
  | sendOneWay command type request => exact keeps_sendOneWay service c command type request
  | cancel n => exact c.keeps_cancel n
  | wait call => exact c.keeps_wait call
  | waitUntil call milliseconds => exact c.keeps_waitUntil call milliseconds
  | drop call => exact c.keeps_drop call
  | reply handle v => exact (keeps_allowsHandlers service).replyValue c handle v
  | replyError handle status => exact (keeps_allowsHandlers service).replyError c handle status
  | dropHandle handle => exact (keeps_allowsHandlers service).dropHandle c handle
  | stopEvents => exact (keeps_allowsHandlers service).act c .stopEvents
  | startEvents => exact (keeps_allowsHandlers service).act c .startEvents
  | look events kept => exact fun hlive => ⟨hlive, rfl, rfl⟩

end Connection

end CallWire
