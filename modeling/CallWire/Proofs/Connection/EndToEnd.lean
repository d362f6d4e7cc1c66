import CallWire.Proofs.Connection.Answering

/-!
# CallWire.Proofs.Connection.EndToEnd — a call brings back what its handler ended with

A call goes from the caller through encoding, framing and the stream to the handler, and what the
handler ends with takes the same way back.
-/

namespace CallWire

/-- A decoder that is fed these pieces yields this frame and nothing else, and ends up idle with an
empty buffer. -/
def FramePipe.Delivers (limit : Nat) (pieces : List Bytes) (frame : Frame) : Prop :=
  ((empty limit).drainChunks 0 pieces).1.map (·.2) = [.ok frame] ∧
    ((empty limit).drainChunks 0 pieces).2 = empty limit

/-! ### The request leaves -/

theorem Config.maxPayloadLength_lt {config : Config} (h : config.validate = .ok ()) :
    config.maxPayloadLength < UInt32.size := by
  unfold validate refusal? at h
  by_contra hge
  rw [if_pos (Nat.not_lt.mp hge)] at h
  split_ifs at h

theorem Config.maxQueuedFrames_pos {config : Config} (h : config.validate = .ok ()) :
    0 < config.maxQueuedFrames := by
  unfold validate refusal? at h
  by_contra hzero
  rw [if_pos (Nat.eq_zero_of_not_pos hzero)] at h
  split_ifs at h

namespace Connection

section Request

variable {service : Service} {c : Connection} {command : UInt32} {types : CommandTypes} {v : Value}
  {payload : Bytes}

theorem prepareCall_eq_ok (hsent : service.protocol.sent.get? command = some types)
    (hconnected : c.life.isConnected) (hencode : types.request.encode v = .ok payload)
    (hlength : payload.length ≤ service.config.maxPayloadLength) :
    c.prepareCall service command types v = .ok payload := by
  have htypes : service.protocol.sentTypes command = .ok types := by
    unfold Protocol.sentTypes
    rw [hsent]
  have hcheck : types.check command types = .ok () := by
    unfold CommandTypes.check
    rw [if_pos (by simp [CommandTypes.isSame, PayloadType.isSame])]
  have hstate : c.requireConnected = .ok () := if_pos hconnected
  have hroom : FrameDecoder.checkLength service.config.maxPayloadLength payload.length = .ok () :=
    if_neg (Nat.not_lt.mpr hlength)
  unfold prepareCall requestPayload
  rw [htypes, hstate, hencode]
  show (do types.check command types; _ : Except RpcError Bytes) = _
  rw [hcheck]
  show (do FrameDecoder.checkLength _ payload.length; return payload : Except RpcError Bytes) = _
  rw [hroom]
  rfl

theorem enqueue_eq_ok (hconnected : c.life.isConnected) (hdone : c.outbound.isDone = false)
    (hroom : c.outbound.hasRoom) (frame : Bytes) :
    c.enqueue frame = (.ok (), { c with
      outbound := { c.outbound with queue := c.outbound.queue ++ [frame] } }) := by
  unfold enqueue Outbound.offer
  rw [if_pos hconnected, if_neg (by simp [hdone]), if_pos hroom]

theorem startCall_eq_ok (hprepare : c.prepareCall service command types v = .ok payload)
    (hconnected : c.life.isConnected) (hopen : c.calls.table.isClosed = false)
    (hdone : c.outbound.isDone = false) (hroom : c.outbound.hasRoom)
    (hpending : c.calls.pending < service.config.maxPending) :
    let n := c.calls.table.allocate.1
    let slot := c.calls.slots.length
    let table := { c.calls.table.allocate.2 with
      entries := ⟨n, command, slot⟩ :: c.calls.table.entries }
    c.startCall service command types v = (.ok ⟨command, n, slot, types.reply⟩, { c with
      calls := ⟨table, c.calls.slots ++ [.waiting]⟩
      outbound := { c.outbound with
        queue := c.outbound.queue ++ [Frame.image (.request command n) payload] } }) := by
  intro n slot table
  have hregister : c.calls.register service.config.maxPending command =
      (.ok (n, slot), ⟨table, c.calls.slots ++ [.waiting]⟩) :=
    Calls.register_eq_ok command hopen hpending
  have hqueue := enqueue_eq_ok (c := { c with calls := ⟨table, c.calls.slots ++ [.waiting]⟩ })
    hconnected hdone hroom (Frame.image (.request command n) payload)
  unfold startCall register
  simp only [hprepare, hregister, hqueue]

end Request

/-! ### There and back -/

/-- The settings that both ends of a call share: the command with its types, an inline handler on
the serving side, and a limit that admits an error reply. -/
structure Share (clientService serverService : Service) (command : UInt32) (types : CommandTypes)
    (run : Connection → Value → Conduct InlineResult) : Prop where
  sent : clientService.protocol.sent.get? command = some types
  handled : serverService.protocol.handled.get? command = some ⟨types, .inline run⟩
  request : types.request.schema.IsFaithful types.request.defs
  reply : types.reply.schema.IsFaithful types.reply.defs
  limit : serverService.config.maxPayloadLength = clientService.config.maxPayloadLength
  valid : clientService.config.validate = .ok ()
  four_le : 4 ≤ clientService.config.maxPayloadLength

/-- A call can be started. (Without a free number the search for one would not end.) -/
structure CanCall (service : Service) (c : Connection) : Prop where
  reachable : c.Reachable service
  connected : c.life.isConnected
  pending : c.calls.pending < service.config.maxPending
  room : c.outbound.hasRoom
  number : c.calls.table.used.length < UInt32.size

/-- The request can be answered after the effects of its handler. -/
structure CanAnswer (service : Service) (c : Connection) (type : PayloadType) (request : Value)
    (run : Connection → Value → Conduct InlineResult) : Prop where
  reachable : c.Reachable service
  connected : (c.runInline service type request run).2.life.isConnected
  room : (c.runInline service type request run).2.outbound.hasRoom

theorem IsLive.of_isConnected {c : Connection} (h : c.life.isConnected) : c.IsLive :=
  .inr (eq_of_beq h)

theorem Coherent.of_isConnected {c : Connection} (h : c.Coherent) (hc : c.life.isConnected) :
    c.calls.table.isClosed = false ∧ c.outbound.isDone = false := by
  obtain ⟨hopen, hrunning⟩ := h (.of_isConnected hc)
  refine ⟨hopen, ?_⟩
  unfold Outbound.isRunning at hrunning
  simp only [Bool.and_eq_true, Bool.not_eq_true'] at hrunning
  exact hrunning.2

/-- **A call brings back what its handler ended with.**  The request leaves as one frame.  In
whatever pieces its bytes arrive, they are that frame; processing it gives the handler the value
that was sent, once, and queues one frame in answer.  In whatever pieces that arrives, it is the
answer; and whatever else the caller's end has been doing, the call then gets what the handler ended
with, and the calls in flight and the cancelled ones are those from before. -/
theorem call_gets_outcome {clientService serverService : Service} {client server : Connection}
    {command : UInt32} {types : CommandTypes} {run : Connection → Value → Conduct InlineResult}
    {v : Value} {payload : Bytes} (hshare : Share clientService serverService command types run)
    (hclient : CanCall clientService client)
    (hserver : CanAnswer serverService server types.request v run)
    (hencode : types.request.encode v = .ok payload)
    (hlength : payload.length ≤ clientService.config.maxPayloadLength) :
    ∃ call client₁ request requestFrame server₁ reply replyFrame,
      client.startCall clientService command types v = (.ok call, client₁) ∧
      client₁.outbound.queue = client.outbound.queue ++ [request] ∧
      (∀ pieces : List Bytes, pieces.flatten = request →
        FramePipe.Delivers serverService.config.maxPayloadLength pieces requestFrame) ∧
      server.serve serverService requestFrame = (.served, server₁) ∧
      server₁.invocations = server.invocations ++ [(types.request, v)] ∧
      server₁.outbound.queue =
        (server.runInline serverService types.request v run).2.outbound.queue ++ [reply] ∧
      (∀ pieces : List Bytes, pieces.flatten = reply →
        FramePipe.Delivers clientService.config.maxPayloadLength pieces replyFrame) ∧
      ∀ client' : Connection, client'.calls = client₁.calls → ∃ client₂ client₃,
        client'.serve clientService replyFrame = (.served, client₂) ∧
        client₂.wait call = (some ((server.runInline serverService types.request v run).1.outcome
          clientService.config.maxPayloadLength types.reply), client₃) ∧
        client₃.calls.table.entries = client.calls.table.entries ∧
        client₃.calls.table.cancelled = client.calls.table.cancelled ∧
        client₃.events = client'.events := by
  have hlimit := Config.maxPayloadLength_lt hshare.valid
  -- The request leaves under a number that is free.
  obtain ⟨hopen, hdone⟩ := hclient.reachable.coherent.of_isConnected hclient.connected
  have hprepare := prepareCall_eq_ok hshare.sent hclient.connected hencode hlength
  have hstart := startCall_eq_ok hprepare hclient.connected hopen hdone hclient.room
    hclient.pending
  have hfree : client.calls.table.allocate.2.isFree client.calls.table.allocate.1 :=
    PendingTable.isFree_allocate_snd.trans
      (PendingTable.isFree_allocate (PendingTable.exists_isFree hclient.number))
  generalize client.calls.table.allocate.1 = n at hstart hfree
  have hrequest := Header.flagError?_request command n
  -- The handler gets what was sent.
  have hdecode : types.request.decode payload = .ok v :=
    (Schema.decode_eq_ok_iff hshare.request).mpr hencode
  obtain ⟨outcome, reply, hreply, hcarries, hresult⟩ :=
    inlineAnswer_carries command n hshare.four_le hshare.reply
      (server.runInline serverService types.request v run).1
  have hafter : (server.runInline serverService types.request v run).2.Coherent :=
    hserver.reachable.coherent.of_keeps keeps_runInline
  have hreply' : answerImage serverService.config.maxPayloadLength command n (inlineAnswer
      types.reply (server.runInline serverService types.request v run).1) = some reply := by
    rw [hshare.limit]
    exact hreply
  obtain ⟨server₁, hserve, hinvocations, hqueue⟩ :=
    serve_request (Frame.of (.request command n) payload) (Header.kind_request command n)
      (Header.isIn_error_request command n) hshare.handled hdecode hreply' hserver.connected
      (hafter.of_isConnected hserver.connected).2 hserver.room
  -- The answer is a frame that finds its call.
  obtain ⟨header, body, rfl, hflags, hbody, hkind, hsequence, houtcome⟩ := hcarries
  refine ⟨_, _, _, Frame.of (.request command n) payload, server₁, _, Frame.of header body,
    hstart, rfl, ?_, hserve, hinvocations, hqueue, ?_, ?_⟩
  · intro pieces hpieces
    rw [hshare.limit]
    exact FramePipe.drainChunks_image hrequest hlength hlimit hpieces
  · intro pieces hpieces
    exact FramePipe.drainChunks_image hflags hbody hlimit hpieces
  · intro client' hcalls
    obtain ⟨client₂, client₃, hserve', hwait, htable, hevents⟩ := serve_wait
      clientService ⟨command, n, client.calls.slots.length, types.reply⟩ (Frame.of header body)
      hfree rfl hcalls hkind hsequence (houtcome client.calls.slots.length)
    rw [hresult _ rfl] at hwait
    refine ⟨client₂, client₃, hserve', hwait, ?_, ?_, hevents⟩
    · rw [htable]
      rfl
    · rw [htable]
      rfl

/-- An option is sent to a handler that stops events and gives it back. -/
theorem call_gets_outcome_echo :
    let run (c : Connection) (v : Value) : Conduct InlineResult :=
      .afterAll (Handler.echo c v) [.stopEvents]
    let type : PayloadType := ⟨0, "Option<i8>", .option (.int .i8), []⟩
    let v : Value := .present (.int (-1))
    let clientService : Service := { protocol := { name := "client", sent := [(7, ⟨type, type⟩)] } }
    let serverService : Service := { protocol :=
      { name := "server", handled := [(7, ⟨⟨type, type⟩, .inline run⟩)] } }
    let client := (new clientService "caller").establish true
    let server := (new serverService "handler").establish true
    ∃ call client₁ requestFrame server₁ replyFrame client₂ client₃,
      client.startCall clientService 7 ⟨type, type⟩ v = (.ok call, client₁) ∧
        server.serve serverService requestFrame = (.served, server₁) ∧
        server₁.invocations = [(type, v)] ∧
        client₁.serve clientService replyFrame = (.served, client₂) ∧
        client₂.wait call = (some (.ok v), client₃) := by
  intro run type v clientService serverService client server
  have hf : type.schema.IsFaithful type.defs :=
    Schema.isFaithful_of_isPlain (by decide) (by decide)
  have hshare : Share clientService serverService 7 ⟨type, type⟩ run :=
    ⟨rfl, rfl, hf, hf, rfl, rfl, by decide⟩
  have hreachable (service : Service) (context : String) :
      ((new service context).establish true).Reachable service :=
    ⟨context, .single (.establish _ true rfl)⟩
  have hclient : CanCall clientService client :=
    ⟨hreachable _ _, rfl, by decide, by decide, by decide⟩
  have hserver : CanAnswer serverService server type v run :=
    ⟨hreachable _ _, by decide, by decide⟩
  have hencode : type.encode v = .ok [0, 0, 0, 1, 255, 255, 255, 255] := by rfl
  obtain ⟨call, client₁, _, requestFrame, server₁, _, replyFrame, hstart, -, -, hserve,
    hinvocations, -, -, hback⟩ :=
    call_gets_outcome hshare hclient hserver hencode (by decide)
  obtain ⟨client₂, client₃, hreply, hwait, -⟩ := hback client₁ rfl
  exact ⟨call, client₁, requestFrame, server₁, replyFrame, client₂, client₃, hstart, hserve,
    hinvocations, hreply, hwait⟩

end Connection

end CallWire
