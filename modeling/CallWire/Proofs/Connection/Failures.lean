import CallWire.Proofs.Connection.EndToEnd
import CallWire.Proofs.Connection.Scene

/-!
# CallWire.Proofs.Connection.Failures — what a caller is told of a failure

A handler fails with a status, and its caller gets a status back.  In between there is only a code
of 32 bits, and two guards that look at the status and not at its code.  So every failure arrives as
a failure, and nearly every one as itself; but the code of success, when it is sent as one of the
application's own, arrives as success.
-/

namespace CallWire

/-! ### From a status to a code and back -/

namespace Status

/-- The status that the caller reads when a handler fails with `s`. -/
def told (s : Status) : Status := ofCode s.asFailure.code

/-- A transport failure, or an application code that no fixed status has. -/
def IsDistinct (s : Status) : Prop := s ≠ ok ∧ ∀ c, s = application c → fixed.length ≤ c.toNat

theorem ofCode_of_le {c : UInt32} (h : fixed.length ≤ c.toNat) : ofCode c = application c := by
  have hge : 12 ≤ c.toNat := h
  unfold ofCode
  split
  case h_13 => rfl
  all_goals omega

theorem ofCode_eq_ok_iff {c : UInt32} : ofCode c = ok ↔ c = 0 := by
  refine ⟨?_, ?_⟩
  · intro h
    unfold ofCode at h
    split at h
    case h_1 hzero => exact UInt32.toNat_inj.mp hzero
    all_goals cases h
  · rintro rfl
    rfl

theorem told_of_isDistinct {s : Status} (h : s.IsDistinct) : s.told = s := by
  obtain ⟨hfailure, hcode⟩ := h
  cases s with
  | ok => exact absurd rfl hfailure
  | application c => exact ofCode_of_le (hcode c rfl)
  | _ => rfl

/-- `Application(0)` is the only status read as success. -/
theorem told_eq_ok_iff {s : Status} : s.told = ok ↔ s = application 0 := by
  unfold told
  rw [ofCode_eq_ok_iff]
  cases s with
  | application c => exact ⟨congrArg application, application.inj⟩
  | _ => exact ⟨nofun, nofun⟩

end Status

/-! ### From a frame to a caller -/

theorem PendingTable.resolve_of_find? {t : PendingTable} {n : UInt32} {e : Entry}
    (h : t.find? n = some e) : t.resolve n = (.pending e, t.without n) := by
  unfold resolve remove
  rw [h]
  rfl

theorem Calls.waits_of_register {c calls : Calls} {limit slot : Nat} {command n : UInt32}
    (h : c.register limit command = (.ok (n, slot), calls)) :
    calls.table.find? n = some ⟨n, command, slot⟩ ∧ slot < calls.slots.length ∧
      calls.slot slot = .waiting := by
  rcases c.register_cases limit command with ⟨e, -, heq⟩ | ⟨-, heq⟩
  · cases heq.symm.trans h
  · cases heq.symm.trans h
    refine ⟨List.find?_cons_of_pos (beq_self_eq_true _), ?_, ?_⟩
    · show c.slots.length < (c.slots ++ [_]).length
      rw [List.length_append]
      exact Nat.lt_succ_self _
    · exact (slot_append_waiting _).trans (slot_of_length_le (Nat.le_refl _))

namespace Connection

/-- The call is in the table without an outcome. -/
structure Awaits (c : Connection) (call : PendingCall) : Prop where
  find? : c.calls.table.find? call.sequence = some call.entry
  slot_lt : call.slot < c.calls.slots.length
  waiting : c.calls.slot call.slot = .waiting

/-- In any pieces, the bytes decode to one frame, and a call with this command and number ends with
this remote status. -/
def Tells (command sequence : UInt32) (status : Status) (bytes : Bytes) : Prop :=
  ∃ frame : Frame,
    (∀ limit, 4 ≤ limit → limit < UInt32.size → ∀ pieces : List Bytes, pieces.flatten = bytes →
      FramePipe.Delivers limit pieces frame) ∧
    ∀ (service : Service) (caller : Connection) (call : PendingCall),
      call.command = command → call.sequence = sequence → caller.Awaits call →
      ∃ caller' caller'', caller.serve service frame = (.served, caller') ∧
        caller'.wait call = (some (.error (.remote status)), caller'')

variable {c : Connection}

theorem serve_wait_of_awaits (service : Service) {frame : Frame} {call : PendingCall}
    {outcome : Outcome} (h : c.Awaits call) (hkind : frame.header.isRequest = false)
    (hsequence : frame.header.sequence = call.sequence)
    (houtcome : replyOutcome call.entry frame = (outcome, none)) :
    ∃ c' c'', c.serve service frame = (.served, c') ∧
      c'.wait call = (some (call.result outcome), c'') := by
  have hresolve := PendingTable.resolve_of_find? h.find?
  rw [← hsequence] at hresolve
  have hserve : c.serve service frame = (.served, _) := serve_reply hkind hresolve houtcome
  obtain ⟨c'', hwait, -, -⟩ := wait_complete
    (c := { c with calls := ({ c.calls with
      table := c.calls.table.without frame.header.sequence }.complete call.slot outcome).2 })
    { c.calls with table := c.calls.table.without frame.header.sequence } call rfl h.slot_lt
    h.waiting
  exact ⟨_, c'', hserve, hwait⟩

theorem awaits_of_startCall {service : Service} {command : UInt32} {types : CommandTypes}
    {v : Value} {call : PendingCall} {c' : Connection}
    (h : c.startCall service command types v = (.ok call, c')) :
    c'.Awaits call ∧ call.command = command := by
  unfold startCall at h
  rcases hprepare : c.prepareCall service command types v with e | payload
  · rw [hprepare] at h
    cases h
  · rw [hprepare] at h
    dsimp only at h
    rcases hregister : c.calls.register service.config.maxPending command with
      ⟨e | ⟨n, slot⟩, calls⟩
    · rw [register_of_error hregister] at h
      cases h
    · obtain ⟨hfind, hlt, hwaiting⟩ := Calls.waits_of_register hregister
      have hcalls := calls_enqueue (c := { c with calls }) (Frame.image (.request command n) payload)
      rcases hqueued : { c with calls }.enqueue (Frame.image (.request command n) payload) with
        ⟨e | ⟨⟩, c''⟩
      · rw [register_of_refused hregister hqueued] at h
        cases h
      · rw [register_of_queued hregister hqueued] at h
        cases h
        rw [hqueued] at hcalls
        have hkept : c'.calls = calls := hcalls
        rw [← hkept] at hfind hlt hwaiting
        exact ⟨⟨hfind, hlt, hwaiting⟩, rfl⟩

theorem tells_errorImage (command sequence : UInt32) (status : Status) :
    Tells command sequence (.ofCode status.code) (errorImage command sequence status) := by
  have hcarries : Carries 4 command sequence (.error (.remote (.ofCode status.code)))
      (errorImage command sequence status) := carries_error (Nat.le_refl 4) status
  obtain ⟨header, payload, himage, hflags, hlength, hkind, hsequence, houtcome⟩ := hcarries
  refine ⟨Frame.of header payload, ?_, ?_⟩
  · intro limit hfour hlimit pieces hpieces
    exact FramePipe.drainChunks_image hflags (Nat.le_trans hlength hfour) hlimit
      (hpieces.trans himage)
  · rintro service caller call rfl rfl hawaits
    have hanswers : (Frame.of header payload).header.isRequest = false := hkind
    exact serve_wait_of_awaits service hawaits hanswers hsequence (houtcome call.slot)

/-! ### From a handler to a frame -/

/-- The request goes to an inline handler, and can be answered after its effects. -/
structure Reaches (service : Service) (c : Connection) (frame : Frame) (types : CommandTypes)
    (request : Value) (run : Connection → Value → Conduct InlineResult) : Prop where
  kind : frame.header.kind = .request
  flag : Flag.error.isIn frame.header.flags = false
  handled : service.protocol.handled.get? frame.header.command = some ⟨types, .inline run⟩
  decode : types.request.decode frame.payload = .ok request
  answers : CanAnswer service c types.request request run

/-- **A failure is told as a failure, and as itself.**  When an inline handler fails with a status,
or a deferred one answers with it, one frame is queued, and in whatever pieces that comes to its
caller, the caller's call ends with the status that is told for it.  This is the same status for
every failure of the transport, and of the application under a code of its own.  It is a failure,
unless the application sends the code of success as its own. -/
theorem failure_is_told (status : Status) :
    (∀ {service : Service} {c : Connection} {frame : Frame} {types : CommandTypes} {request : Value}
      {run : Connection → Value → Conduct InlineResult}, Reaches service c frame types request run →
      (c.runInline service types.request request run).1 = .error status →
      ∃ c' bytes, c.serve service frame = (.served, c') ∧
        c'.outbound.queue =
          (c.runInline service types.request request run).2.outbound.queue ++ [bytes] ∧
        Tells frame.header.command frame.header.sequence status.told bytes) ∧
    (∀ {c : Connection} {handle : ReplyHandle}, c.Coherent → handle.expectsReply →
      c.life.isConnected → c.outbound.hasRoom →
      ∃ c' bytes, handle.replyError c status = (.ok (), c') ∧
        c'.outbound.queue = c.outbound.queue ++ [bytes] ∧
        Tells handle.command handle.sequence status.told bytes) ∧
    (status.IsDistinct → status.told = status) ∧
    (status.told = .ok ↔ status = .application 0) := by
  refine ⟨?_, ?_, Status.told_of_isDistinct, Status.told_eq_ok_iff⟩
  · intro service c frame types request run h hfails
    have hafter : (c.runInline service types.request request run).2.Coherent :=
      h.answers.reachable.coherent.of_keeps keeps_runInline
    have hreply : answerImage service.config.maxPayloadLength frame.header.command
        frame.header.sequence (inlineAnswer types.reply
          (c.runInline service types.request request run).1) =
          some (errorImage frame.header.command frame.header.sequence status.asFailure) := by
      rw [hfails]
      rfl
    obtain ⟨c', hserve, -, hqueue⟩ := serve_request frame h.kind h.flag h.handled h.decode hreply
      h.answers.connected (hafter.of_isConnected h.answers.connected).2 h.answers.room
    exact ⟨c', _, hserve, hqueue, tells_errorImage _ _ _⟩
  · intro c handle hc hexpects hconnected hroom
    let reply := errorImage handle.command handle.sequence status.asFailure
    have hqueued := enqueue_eq_ok hconnected (hc.of_isConnected hconnected).2 hroom reply
    have hreply : handle.replyError c status = c.enqueue reply := if_pos hexpects
    exact ⟨_, _, hreply.trans hqueued, rfl, tells_errorImage _ _ _⟩

theorem exists_awaits_first :
    ∃ (service : Service) (c : Connection) (call : PendingCall), c.Reachable service ∧
      c.Awaits call ∧ call.command = 7 ∧ call.sequence = 1 := by
  let type : PayloadType := ⟨0, "Option<i8>", .option (.int .i8), []⟩
  let v : Value := .present (.int (-1))
  let service : Service := { protocol := { name := "caller", sent := [(7, ⟨type, type⟩)] } }
  let c₀ := (new service "default").establish true
  have hencode : type.encode v = .ok [0, 0, 0, 1, 255, 255, 255, 255] := by rfl
  have hprepare : c₀.prepareCall service 7 ⟨type, type⟩ v = .ok _ :=
    prepareCall_eq_ok rfl rfl hencode (by decide)
  have hstart := startCall_eq_ok hprepare rfl rfl rfl rfl (by decide)
  have hnumber : c₀.calls.table.allocate = (1, { c₀.calls.table with next := 2 }) :=
    PendingTable.allocate_eq_of_isFree (by decide)
  have hstep : Step service c₀ (c₀.startCall service 7 ⟨type, type⟩ v).2 := .startCall c₀ 7 _ v
  obtain ⟨hawaits, hcommand⟩ := awaits_of_startCall hstart
  rw [hstart] at hstep
  exact ⟨service, _, _, ⟨_, .tail (.single (.establish _ true rfl)) hstep⟩, hawaits, hcommand,
    congrArg Prod.fst hnumber⟩

/-- An inline handler fails with a status of its application's own, and a deferred one, too. -/
theorem failure_is_told_application :
    ∃ (service : Service) (server server' server'' caller caller' caller'' : Connection)
      (handle : ReplyHandle) (call : PendingCall) (frame reply : Frame) (bytes bytes' : Bytes),
      server.serve service frame = (.served, server') ∧ server'.outbound.queue = [bytes] ∧
      handle.replyError server (.application 300) = (.ok (), server'') ∧
      server''.outbound.queue = [bytes'] ∧ FramePipe.Delivers 4 [bytes] reply ∧
      caller.serve service reply = (.served, caller') ∧
      caller'.wait call = (some (.error (.remote (.application 300))), caller'') := by
  let type : PayloadType := ⟨0, "Option<i8>", .option (.int .i8), []⟩
  let v : Value := .present (.int (-1))
  let fails : Connection → Value → Conduct InlineResult :=
    fun _ _ => .done (.error (.application 300))
  let service : Service := { protocol :=
    { name := "server", handled := [(7, ⟨⟨type, type⟩, .inline fails⟩)] } }
  let server := (new service "default").establish true
  have hserver : server.Reachable service := ⟨_, .single (.establish _ true rfl)⟩
  let frame := Frame.of (.request 7 1) [0, 0, 0, 1, 255, 255, 255, 255]
  have hdecode : type.decode frame.payload = .ok v :=
    (Schema.decode_eq_ok_iff (Schema.isFaithful_of_isPlain (by decide) (by decide))).mpr rfl
  have hreaches : Reaches service server frame ⟨type, type⟩ v fails :=
    ⟨Header.kind_request 7 1, Header.isIn_error_request 7 1, rfl, hdecode, hserver, rfl, by decide⟩
  have hdistinct : (Status.application 300).IsDistinct := by
    refine ⟨nofun, ?_⟩
    rintro c ⟨⟩
    decide
  obtain ⟨hinline, hdeferred, htold, -⟩ := failure_is_told (.application 300)
  obtain ⟨server', bytes, hserve, hqueue, reply, hdelivers, hends⟩ := hinline hreaches rfl
  let handle : ReplyHandle := ⟨7, 1, true, type⟩
  have hexpects : handle.expectsReply = true := rfl
  obtain ⟨server'', bytes', herror, hqueue', -⟩ :=
    hdeferred hserver.coherent hexpects rfl (by decide)
  rw [htold hdistinct] at hends
  obtain ⟨_, caller, call, -, hawaits, hcommand, hnumber⟩ := exists_awaits_first
  obtain ⟨caller', caller'', hreply, hwait⟩ := hends service caller call hcommand hnumber hawaits
  exact ⟨service, server, server', server'', caller, caller', caller'', _, call, frame, reply,
    bytes, bytes', hserve, hqueue, herror, hqueue',
    hdelivers 4 (by decide) (by decide) [bytes] List.flatten_singleton, hreply, hwait⟩

/-- The application sends the code of success as one of its own, and the call ends with the status
for success. -/
theorem success_is_told :
    ∃ (service : Service) (server server' caller caller' caller'' : Connection)
      (handle : ReplyHandle) (call : PendingCall) (bytes : Bytes) (reply : Frame),
      server.Reachable service ∧ handle.replyError server (.application 0) = (.ok (), server') ∧
      server'.outbound.queue = [bytes] ∧ FramePipe.Delivers 4 [bytes] reply ∧
      caller.Awaits call ∧ caller.serve service reply = (.served, caller') ∧
      caller'.wait call = (some (.error (.remote .ok)), caller'') := by
  let service : Service := { protocol := { name := "server" } }
  let server := (new service "default").establish true
  let handle : ReplyHandle := ⟨7, 1, true, ⟨0, "()", .unit, []⟩⟩
  let bytes := errorImage 7 1 (.application 0)
  have hserver : server.Reachable service := ⟨_, .single (.establish _ true rfl)⟩
  have hqueued := enqueue_eq_ok (c := server) rfl rfl (by decide) bytes
  obtain ⟨reply, hdelivers, hends⟩ := tells_errorImage 7 1 (.application 0)
  obtain ⟨_, caller, call, -, hawaits, hcommand, hnumber⟩ := exists_awaits_first
  obtain ⟨caller', caller'', hreply, hwait⟩ := hends service caller call hcommand hnumber hawaits
  exact ⟨service, server, _, caller, caller', caller'', handle, call, bytes, reply, hserver, hqueued,
    rfl, hdelivers 4 (by decide) (by decide) _ List.flatten_singleton, hawaits, hreply, hwait⟩

end Connection

end CallWire
