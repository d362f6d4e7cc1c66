import CallWire.Proofs.Codec.RoundTrip
import CallWire.Proofs.Connection.Reachable
import CallWire.Proofs.Frame.Image
import CallWire.Proofs.Pending.Numbers

/-!
# CallWire.Proofs.Connection.Answering — from a request to the outcome of its call

A request is handed to its handler once, and what an inline handler ends with is answered by one
frame, whether it can be encoded and sent or not.  At the other end that frame resolves the call,
and the caller gets what the handler ended with, as far as it could be sent.
-/

namespace CallWire

/-! ### What a caller gets -/

/-- The outcome that the caller gets for the result of an inline handler. -/
def InlineResult.outcome (limit : Nat) (type : PayloadType) : InlineResult → Except RpcError Value
  | .reply v =>
    match type.encode v with
    | .ok payload => if payload.length ≤ limit then .ok v else .error (.remote .frameTooLarge)
    | .error _ => .error (.remote .handlerFailed)
  | .error .ok | .crash => .error (.remote .handlerFailed)
  | .error s => .error (.remote (.ofCode s.code))

namespace Connection

/-! ### The handler answers -/

/-- The requests passed to inline handlers, oldest first. -/
def invocations (c : Connection) : List (PayloadType × Value) :=
  c.events.filterMap fun
    | .handled type request => some (type, request)
    | _ => none

section Answer

variable {service : Service} {c : Connection}

theorem close_context_events (c : Connection) :
    c.close.2.context = c.context ∧ c.close.2.events = c.events := by
  unfold close
  rcases c.life.close_cases with ⟨e, h⟩ | ⟨life, h, -⟩
  · rw [h]
    exact ⟨rfl, rfl⟩
  · rw [h]
    exact ⟨rfl, rfl⟩

theorem enqueue_context_events (c : Connection) (frame : Bytes) :
    (c.enqueue frame).2.context = c.context ∧ (c.enqueue frame).2.events = c.events := by
  rcases c.enqueue_cases frame with heq | ⟨-, heq⟩
  · rw [heq]
    exact ⟨rfl, rfl⟩
  · rw [heq]
    exact ⟨rfl, rfl⟩

theorem startCall_context_events (service : Service) (c : Connection) (command : UInt32)
    (types : CommandTypes) (request : Value) :
    (c.startCall service command types request).2.context = c.context ∧
      (c.startCall service command types request).2.events = c.events := by
  obtain ⟨calls, -, heq | ⟨n, payload, -, hqueued⟩⟩ :=
    c.startCall_cases service command types request
  · rw [heq]
    exact ⟨rfl, rfl⟩
  · have hkept := enqueue_context_events { c with calls } (Frame.image (.request command n) payload)
    rw [hqueued] at hkept
    exact hkept

theorem sendOneWay_context_events (service : Service) (c : Connection) (command : UInt32)
    (type : PayloadType) (request : Value) :
    (c.sendOneWay service command type request).2.context = c.context ∧
      (c.sendOneWay service command type request).2.events = c.events := by
  rcases c.sendOneWay_cases service command type request with heq | ⟨n, calls, payload, -, -, heq⟩
  · rw [heq]
    exact ⟨rfl, rfl⟩
  · rw [heq]
    exact enqueue_context_events { c with calls } _

theorem act_context_events (service : Service) (c : Connection) (effect : Effect) :
    (c.act service effect).2.context = c.context ∧
      (c.act service effect).2.events = c.events := by
  cases effect with
  | stopEvents =>
    obtain ⟨eventsStopped, heq⟩ := c.exists_stopEvents
    show c.stopEvents.2.context = c.context ∧ c.stopEvents.2.events = c.events
    rw [heq]
    exact ⟨rfl, rfl⟩
  | startEvents =>
    obtain ⟨eventsStopped, heq⟩ := c.exists_startEvents
    show c.startEvents.2.context = c.context ∧ c.startEvents.2.events = c.events
    rw [heq]
    exact ⟨rfl, rfl⟩
  | close => exact c.close_context_events
  | notify command type note => exact sendOneWay_context_events service c command type note
  | call command types request => exact startCall_context_events service c command types request
  | shutDown => exact c.close_context_events

theorem invocations_record_other {e : Event} (he : ∀ type request, e ≠ .handled type request) :
    (c.record e).invocations = c.invocations := by
  unfold invocations record
  cases e with
  | handled type request => exact absurd rfl (he type request)
  | _ => simp

theorem carryOut_context_invocations {α : Type} (service : Service) (c : Connection)
    (conduct : Conduct α) :
    (c.carryOut service conduct).2.context = c.context ∧
      (c.carryOut service conduct).2.invocations = c.invocations := by
  have hallows : Allows service (fun _ => true) fun c c' =>
      c'.context = c.context ∧ c'.invocations = c.invocations :=
    { refl := fun _ => ⟨rfl, rfl⟩
      trans := fun h h' => ⟨h'.1.trans h.1, h'.2.trans h.2⟩
      acted := fun c result => ⟨rfl, invocations_record_other (by simp)⟩
      act := fun c effect _ => by
        obtain ⟨hcontext, hevents⟩ := act_context_events service c effect
        exact ⟨hcontext, congrArg (List.filterMap _) hevents⟩ }
  exact (hallows.carryOut c (conduct.only_true fun _ => trivial)).1

variable {type : PayloadType} {request : Value} {run : Connection → Value → Conduct InlineResult}

theorem invocations_runInline :
    (c.runInline service type request run).2.invocations = c.invocations ++ [(type, request)] := by
  have hrecord : (c.record (.handled type request)).invocations =
      c.invocations ++ [(type, request)] := by
    unfold invocations record
    simp
  exact (carryOut_context_invocations service _ _).2.trans hrecord

theorem keeps_runInline : c.Keeps (c.runInline service type request run).2 :=
  (keeps_allowsHandlers service).runInline c type request run

/-- The answer to a request whose payload decodes is the result of its inline handler. (A result of
`malformedPayload` is also reported.) -/
theorem answer_inline {frame : Frame} {types : CommandTypes} {v : Value}
    (hflag : Flag.error.isIn frame.header.flags = false)
    (hhandled : service.protocol.handled.get? frame.header.command = some ⟨types, .inline run⟩)
    (hdecode : types.request.decode frame.payload = .ok v) :
    ∃ c', c.answer service frame =
        (inlineAnswer types.reply (c.runInline service types.request v run).1, c') ∧
      c'.life = (c.runInline service types.request v run).2.life ∧
      c'.outbound = (c.runInline service types.request v run).2.outbound ∧
      c'.invocations = (c.runInline service types.request v run).2.invocations := by
  have hinvoke : c.invoke service ⟨types, .inline run⟩ frame.header frame.payload =
      (inlineAnswer types.reply (c.runInline service types.request v run).1,
        (c.runInline service types.request v run).2) := by
    unfold invoke
    rw [hdecode]
    rfl
  unfold answer
  dsimp only
  rw [hflag, if_neg Bool.false_ne_true, hhandled]
  dsimp only
  rw [hinvoke]
  by_cases hmalformed : inlineAnswer types.reply (c.runInline service types.request v run).1 =
      .error .malformedPayload
  · rw [hmalformed]
    exact ⟨_, rfl, rfl, rfl, invocations_record_other (by simp)⟩
  · refine ⟨(c.runInline service types.request v run).2, ?_, rfl, rfl, rfl⟩
    split
    · next heq => exact absurd (congrArg Prod.fst heq) hmalformed
    · rfl

theorem sendReply_eq (hconnected : c.life.isConnected) (hdone : c.outbound.isDone = false)
    (hroom : c.outbound.hasRoom) (frame : Bytes) :
    c.sendReply frame =
      { c with outbound := { c.outbound with queue := c.outbound.queue ++ [frame] } } := by
  unfold sendReply Outbound.await
  rw [if_pos hconnected, if_neg (by simp [hdone]), if_pos hroom]

theorem serve_request (frame : Frame) {types : CommandTypes} {v : Value} {reply : Bytes}
    (hkind : frame.header.kind = .request) (hflag : Flag.error.isIn frame.header.flags = false)
    (hhandled : service.protocol.handled.get? frame.header.command = some ⟨types, .inline run⟩)
    (hdecode : types.request.decode frame.payload = .ok v)
    (hreply : answerImage service.config.maxPayloadLength frame.header.command
      frame.header.sequence (inlineAnswer types.reply
        (c.runInline service types.request v run).1) = some reply)
    (hconnected : (c.runInline service types.request v run).2.life.isConnected)
    (hdone : (c.runInline service types.request v run).2.outbound.isDone = false)
    (hroom : (c.runInline service types.request v run).2.outbound.hasRoom) :
    ∃ c', c.serve service frame = (.served, c') ∧
      c'.invocations = c.invocations ++ [(types.request, v)] ∧
      c'.outbound.queue =
        (c.runInline service types.request v run).2.outbound.queue ++ [reply] := by
  obtain ⟨c', hanswer, hlife, houtbound, hinvocations⟩ := answer_inline hflag hhandled hdecode
  rw [← hlife] at hconnected
  rw [← houtbound] at hdone hroom
  have hsend := sendReply_eq hconnected hdone hroom reply
  have hhandle : c.handleFrame service frame = (some reply, c') := by
    unfold handleFrame handleRequest
    rw [if_pos (by simp [Header.isRequest, hkind]), hanswer]
    dsimp only
    rw [if_pos (by simp [Header.expectsReply, hkind]), hreply]
  refine ⟨c'.sendReply reply, ?_, ?_, ?_⟩
  · unfold serve
    rw [hhandle]
  · rw [hsend]
    exact hinvocations.trans invocations_runInline
  · rw [hsend, ← houtbound]

end Answer

/-! ### The answer travels -/

section Travel

variable {limit slot : Nat} {command sequence : UInt32} {outcome : Outcome} {type : PayloadType}

/-- The bytes encode a frame within the limit, whose payload gives this outcome to a call with this
command and number. -/
def Carries (limit : Nat) (command sequence : UInt32) (outcome : Outcome) (bytes : Bytes) : Prop :=
  ∃ header payload, bytes = Frame.image header payload ∧
    Header.flagError? header.flags = none ∧ payload.length ≤ limit ∧
    header.isRequest = false ∧ header.sequence = sequence ∧
    ∀ slot, replyOutcome ⟨sequence, command, slot⟩ (Frame.of header payload) = (outcome, none)

theorem replyOutcome_reply {entry : Entry} {frame : Frame}
    (hcommand : entry.command = frame.header.command) (hkind : frame.header.kind = .reply) :
    replyOutcome entry frame = (.ok frame.payload, none) := by
  unfold replyOutcome
  dsimp only
  rw [if_neg (not_not.mpr hcommand), hkind, if_neg (by decide)]

theorem replyOutcome_errorReply {entry : Entry} {frame : Frame} {code : UInt32}
    (hcommand : entry.command = frame.header.command) (hkind : frame.header.kind = .errorReply)
    (hcode : frame.statusCode = .ok code) :
    replyOutcome entry frame = (.error (.remote (.ofCode code)), none) := by
  unfold replyOutcome
  dsimp only
  rw [if_neg (not_not.mpr hcommand), hkind, if_pos rfl, hcode]

theorem carries_reply {payload : Bytes} (hlength : payload.length ≤ limit) :
    Carries limit command sequence (.ok payload)
      (Frame.image (.reply command sequence) payload) := by
  have hkind := Header.kind_reply command sequence
  exact ⟨.reply command sequence, payload, rfl, Header.flagError?_reply _ _, hlength,
    by simp [Header.isRequest, hkind], rfl, fun slot => replyOutcome_reply rfl hkind⟩

theorem carries_error (hfour : 4 ≤ limit) (status : Status) :
    Carries limit command sequence (.error (.remote (.ofCode status.code)))
      (errorImage command sequence status) := by
  have hkind := Header.kind_errorReply command sequence
  have hcode := Frame.statusCode_errorReply command sequence status.code
  refine ⟨.errorReply command sequence, Bytes.ofNat 4 status.code.toNat, rfl,
    Header.flagError?_errorReply _ _, ?_, by simp [Header.isRequest, hkind], rfl,
    fun slot => replyOutcome_errorReply rfl hkind hcode⟩
  rw [Bytes.length_ofNat]
  exact hfour

theorem inlineAnswer_carries (command sequence : UInt32) (hfour : 4 ≤ limit)
    (hf : type.schema.IsFaithful type.defs) (result : InlineResult) :
    ∃ outcome bytes, answerImage limit command sequence (inlineAnswer type result) = some bytes ∧
      Carries limit command sequence outcome bytes ∧
      ∀ call : PendingCall, call.type = type → call.result outcome = result.outcome limit type := by
  cases result with
  | reply v =>
    cases hencode : type.encode v with
    | error e =>
      refine ⟨_, _, ?_, carries_error hfour .handlerFailed, fun call _ => ?_⟩
      · simp only [inlineAnswer, hencode, answerImage]
      · simp only [InlineResult.outcome, hencode]
        rfl
    | ok payload =>
      -- A reply over the limit becomes an error reply, and `4 ≤ limit` leaves room for its code.
      by_cases hlength : payload.length ≤ limit
      · have hcheck : FrameDecoder.checkLength limit payload.length = .ok () :=
          if_neg (Nat.not_lt.mpr hlength)
        refine ⟨.ok payload, _, ?_, carries_reply hlength, fun call htype => ?_⟩
        · simp only [inlineAnswer, hencode, answerImage, replyImage, hcheck]
          rfl
        · have hdecode : call.type.decode payload = .ok v := by
            rw [htype]
            exact (Schema.decode_eq_ok_iff hf).mpr hencode
          simp only [InlineResult.outcome, hencode, if_pos hlength]
          show (call.type.decode payload).mapError RpcError.codec = .ok v
          rw [hdecode]
          rfl
      · have hcheck : FrameDecoder.checkLength limit payload.length =
            .error (.frameTooLarge payload.length limit) := if_pos (Nat.not_le.mp hlength)
        refine ⟨_, _, ?_, carries_error hfour .frameTooLarge, fun call _ => ?_⟩
        · simp only [inlineAnswer, hencode, answerImage, replyImage, hcheck]
          rfl
        · simp only [InlineResult.outcome, hencode, if_neg hlength]
          rfl
  | error status =>
    refine ⟨_, _, rfl, carries_error hfour status.asFailure, fun call _ => ?_⟩
    cases status with
    | ok => rfl
    | _ => rfl
  | crash => exact ⟨_, _, rfl, carries_error hfour .handlerFailed, fun call _ => rfl⟩

theorem serve_reply {service : Service} {c : Connection} {frame : Frame} {table : PendingTable}
    (hkind : frame.header.isRequest = false)
    (hresolve : c.calls.table.resolve frame.header.sequence =
      (.pending ⟨sequence, command, slot⟩, table))
    (houtcome : replyOutcome ⟨sequence, command, slot⟩ frame = (outcome, none)) :
    c.serve service frame = (.served, { c with
      calls := ({ c.calls with table }.complete slot outcome).2 }) := by
  have hhandle : c.handleFrame service frame = (none, { c with
      calls := ({ c.calls with table }.complete slot outcome).2 }) := by
    unfold handleFrame handleReply Calls.resolve
    rw [hkind, if_neg Bool.false_ne_true, hresolve]
    dsimp only
    rw [houtcome]
  unfold serve
  rw [hhandle]

theorem wait_complete {c : Connection} (calls : Calls) (call : PendingCall)
    (hc : c.calls = (calls.complete call.slot outcome).2) (hi : call.slot < calls.slots.length)
    (hw : calls.slot call.slot = .waiting) :
    ∃ c', c.wait call = (some (call.result outcome), c') ∧ c'.calls.table = calls.table ∧
      c'.events = c.events := by
  obtain ⟨hpoll, htable⟩ := Calls.poll_complete hi hw outcome
  rw [← hc] at hpoll htable
  refine ⟨(c.wait call).2, Prod.ext ?_ rfl, htable, rfl⟩
  show (c.calls.poll call.slot).1.map call.result = some (call.result outcome)
  rw [hpoll]
  rfl

theorem serve_wait {c : Connection} {t : PendingTable} {slots : List Completion}
    (service : Service) (call : PendingCall) (frame : Frame) (hfree : t.isFree call.sequence)
    (hslot : call.slot = slots.length)
    (hcalls : c.calls = ⟨{ t with
      entries := ⟨call.sequence, call.command, call.slot⟩ :: t.entries }, slots ++ [.waiting]⟩)
    (hkind : frame.header.isRequest = false) (hsequence : frame.header.sequence = call.sequence)
    (houtcome : replyOutcome ⟨call.sequence, call.command, call.slot⟩ frame = (outcome, none)) :
    ∃ c' c'', c.serve service frame = (.served, c') ∧
      c'.wait call = (some (call.result outcome), c'') ∧ c''.calls.table = t ∧
      c''.events = c.events := by
  have hresolve : c.calls.table.resolve frame.header.sequence =
      (.pending ⟨call.sequence, call.command, call.slot⟩, t) := by
    rw [hcalls, hsequence]
    exact PendingTable.resolve_cons hfree
  have hslots : c.calls.slots = slots ++ [.waiting] := congrArg Calls.slots hcalls
  have hi : call.slot < { c.calls with table := t }.slots.length := by simp [hslots, hslot]
  have hw : { c.calls with table := t }.slot call.slot = .waiting := by
    simp [Calls.slot, hslots, hslot]
  obtain ⟨c'', hwait, htable, hevents⟩ := wait_complete
    (c := { c with calls := ({ c.calls with table := t }.complete call.slot outcome).2 })
    { c.calls with table := t } call rfl hi hw
  exact ⟨_, c'', serve_reply hkind hresolve houtcome, hwait, htable, hevents⟩

end Travel

end Connection

end CallWire
