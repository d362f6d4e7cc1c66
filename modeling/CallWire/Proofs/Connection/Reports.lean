import CallWire.Proofs.Connection.AnsweredOnce

/-!
# CallWire.Proofs.Connection.Reports — what a peer is reported for

A frame is reported once at most.  A peer breaks the protocol in one of six ways, and is reported
for each of them; nothing else that becomes of a frame is reported, whatever handlers do, but for
one thing: an inline handler that ends with the status for a malformed request has a request
reported that was none.
-/

namespace CallWire

def Event.report? : Event → Option String
  | problem text => some text
  | handled _ _ | deferred _ _ _ | acted _ | replied _ | disconnected _ => none

namespace Connection

variable {service : Service} {c c' c'' : Connection} {frame : Frame}

/-- The reports made between `c` and `c'`. -/
def Reports (c c' : Connection) (texts : List String) : Prop :=
  ∃ later, c'.events = c.events ++ later ∧ later.filterMap Event.report? = texts

theorem Reports.of_eq (h : c'.events = c.events) : c.Reports c' [] :=
  ⟨[], h.trans (List.append_nil _).symm, rfl⟩

theorem Reports.trans {texts texts' : List String} (h : c.Reports c' texts)
    (h' : c'.Reports c'' texts') : c.Reports c'' (texts ++ texts') := by
  obtain ⟨later, hevents, rfl⟩ := h
  obtain ⟨later', hevents', rfl⟩ := h'
  refine ⟨later ++ later', ?_, List.filterMap_append⟩
  rw [hevents', hevents, List.append_assoc]

theorem reports_record (c : Connection) (e : Event) : c.Reports (c.record e) e.report?.toList := by
  refine ⟨[e], rfl, ?_⟩
  rw [List.filterMap_cons, List.filterMap_nil]
  cases e.report? with
  | none => rfl
  | some text => rfl

/-! ### What handlers do -/

theorem events_sendReply (c : Connection) (frame : Bytes) :
    (c.sendReply frame).events = c.events := by
  unfold sendReply
  split
  · rfl
  · rfl

theorem events_allowsAnswers (service : Service) :
    AllowsAnswers service fun c c' => c'.events = c.events where
  refl := fun _ => rfl
  reply := fun c _ _ _ _ => (c.enqueue_context_events _).2
  error := fun c _ _ _ => (c.enqueue_context_events _).2

theorem reports_carryOut {α : Type} (service : Service) (c : Connection) (conduct : Conduct α) :
    c.Reports (c.carryOut service conduct).2 [] := by
  have hallows : Allows service (fun _ => true) fun c c' => c.Reports c' [] :=
    { refl := fun _ => .of_eq rfl
      trans := fun h h' => h.trans h'
      acted := fun c result => reports_record c (.acted result)
      act := fun c effect _ => .of_eq (act_context_events service c effect).2 }
  exact (hallows.carryOut c (conduct.only_true fun _ => trivial)).1

theorem reports_useHandle (service : Service) (c : Connection) (handle : ReplyHandle)
    (use : HandleUse) : c.Reports (c.useHandle service handle use).2 [] := by
  have hanswers := events_allowsAnswers service
  cases use with
  | keep => exact .of_eq rfl
  | reply v =>
    have hreply : c.Reports (handle.reply service c v).2 [] :=
      .of_eq (hanswers.replyValue c handle v)
    exact hreply.trans (reports_record _ (.replied _))
  | replyElsewhere v => exact .of_eq (hanswers.replyValue c handle v)
  | error status =>
    have herror : c.Reports (handle.replyError c status).2 [] :=
      .of_eq (hanswers.replyError c handle status)
    exact herror.trans (reports_record _ (.replied _))
  | drop => exact .of_eq (hanswers.dropHandle c handle)

theorem reports_runHandler (service : Service) (c : Connection) (entry : HandledCommand)
    (header : Header) (request : Value) :
    c.Reports (c.runHandler service entry header request).2 [] := by
  unfold runHandler
  split
  · exact (c.reports_record (.handled _ _)).trans (reports_carryOut service _ _)
  · exact ((c.reports_record (.deferred _ _ _)).trans (reports_carryOut service _ _)).trans
      ((reports_useHandle service _ _ _).trans (reports_carryOut service _ _))

/-! ### What is reported -/

/-- The ways in which a frame breaks the protocol, each with the text of its report. -/
inductive Breach (service : Service) (c : Connection) (frame : Frame) : String → Prop
  | flagged (hrequest : frame.header.isRequest = true)
      (hflag : Flag.error.isIn frame.header.flags = true) :
      Breach service c frame
        s!"request {frame.header.sequence.toNat} for command {frame.header.command.toNat} carries the error flag"
  | unhandled (hrequest : frame.header.isRequest = true)
      (hflag : Flag.error.isIn frame.header.flags = false)
      (hentry : service.protocol.handled.get? frame.header.command = none) :
      Breach service c frame s!"request for unknown command {frame.header.command.toNat}"
  /-- The payload does not decode as the request type of the command. -/
  | undecodable {entry : HandledCommand} {e : CodecError}
      (hrequest : frame.header.isRequest = true)
      (hflag : Flag.error.isIn frame.header.flags = false)
      (hentry : service.protocol.handled.get? frame.header.command = some entry)
      (hdecode : entry.types.request.decode frame.payload = .error e) :
      Breach service c frame s!"malformed request payload for command {frame.header.command.toNat}"
  | misnamed {entry : Entry} (hreply : frame.header.isRequest = false)
      (hentry : c.calls.table.find? frame.header.sequence = some entry)
      (hcommand : entry.command ≠ frame.header.command) :
      Breach service c frame
        s!"reply {frame.header.sequence.toNat} names command {frame.header.command.toNat} but the request was for command {entry.command.toNat}"
  | misshapen {entry : Entry} (hreply : frame.header.kind = .errorReply)
      (hentry : c.calls.table.find? frame.header.sequence = some entry)
      (hcommand : entry.command = frame.header.command) (hlength : frame.payload.length ≠ 4) :
      Breach service c frame (RpcError.malformedFrame
        s!"error reply payload must be 4 bytes, got {frame.payload.length}").text
  /-- The number is neither in flight nor that of a cancelled call. -/
  | stray (hreply : frame.header.isRequest = false)
      (hentry : c.calls.table.find? frame.header.sequence = none)
      (hcancelled : frame.header.sequence ∉ c.calls.table.cancelled) :
      Breach service c frame s!"reply {frame.header.sequence.toNat} matches no pending call"

/-- A well-formed request whose inline handler ends with the status `malformedPayload`. -/
structure IsDisowned (service : Service) (c : Connection) (frame : Frame) : Prop where
  request : frame.header.isRequest = true
  handler : ∃ entry request run, handlerFor? service frame = some (entry, request) ∧
    entry.handler = .inline run ∧
    (c.runInline service entry.types.request request run).1 = .error .malformedPayload

/-- The text is reported when the frame is processed. -/
def Reported (service : Service) (c : Connection) (frame : Frame) (text : String) : Prop :=
  Breach service c frame text ∨ IsDisowned service c frame ∧
    text = s!"malformed request payload for command {frame.header.command.toNat}"

/-! ### Requests -/

theorem inlineAnswer_eq_malformed_iff {type : PayloadType} {result : InlineResult} :
    inlineAnswer type result = .error .malformedPayload ↔ result = .error .malformedPayload := by
  cases result with
  | reply v =>
    rcases hencode : type.encode v with e | payload
    · simp [inlineAnswer, hencode]
    · simp [inlineAnswer, hencode]
  | error status =>
    cases status with
    | malformedPayload => exact ⟨fun _ => rfl, fun _ => rfl⟩
    | _ => simp [inlineAnswer, Status.asFailure]
  | crash => simp [inlineAnswer]

theorem fst_runHandler_eq_malformed_iff (service : Service) (c : Connection)
    (entry : HandledCommand) (header : Header) (request : Value) :
    (c.runHandler service entry header request).1 = .error .malformedPayload ↔
      ∃ run, entry.handler = .inline run ∧
        (c.runInline service entry.types.request request run).1 = .error .malformedPayload := by
  unfold runHandler
  rcases entry.handler with run | run
  · dsimp only
    rw [inlineAnswer_eq_malformed_iff]
    refine ⟨fun h => ⟨run, rfl, h⟩, ?_⟩
    rintro ⟨_, heq, h⟩
    cases heq
    exact h
  · refine ⟨nofun, ?_⟩
    rintro ⟨_, heq, -⟩
    cases heq

theorem Breach.unique {text text' : String} (h : c.Breach service frame text)
    (h' : c.Breach service frame text') : text' = text := by
  cases h with
  | flagged hrequest hflag =>
    cases h' with
    | flagged => rfl
    | _ => simp_all [Header.isRequest]
  | unhandled hrequest hflag hentry =>
    cases h' with
    | unhandled => rfl
    | _ => simp_all [Header.isRequest]
  | undecodable hrequest hflag hentry hdecode =>
    cases h' with
    | undecodable => rfl
    | _ => simp_all [Header.isRequest]
  | misnamed hreply hentry hcommand =>
    cases h' with
    | misnamed => simp_all
    | _ => simp_all
  | misshapen hreply hentry hcommand hlength =>
    cases h' with
    | misshapen => rfl
    | _ => simp_all [Header.isRequest]
  | stray hreply hentry hcancelled =>
    cases h' with
    | stray => rfl
    | _ => simp_all

theorem not_breach_of_handled {entry : HandledCommand} {request : Value}
    (hrequest : frame.header.isRequest = true)
    (hhandler : handlerFor? service frame = some (entry, request)) (text : String) :
    ¬ c.Breach service frame text := by
  obtain ⟨hflag, hget, hdecode⟩ := handlerFor?_eq_some_iff.mp hhandler
  intro h
  cases h <;> simp_all [Header.isRequest]

/-! ### Each frame -/

/-- The texts are at most one, and exactly what is `Reported`. -/
def AreReports (service : Service) (c : Connection) (frame : Frame) (texts : List String) : Prop :=
  texts.length ≤ 1 ∧ ∀ text, text ∈ texts ↔ c.Reported service frame text

theorem areReports_of_breach {text : String} (h : c.Breach service frame text) :
    c.AreReports service frame [text] := by
  refine ⟨Nat.le_refl 1, fun text' => ?_⟩
  rw [List.mem_singleton]
  constructor
  · rintro rfl
    exact .inl h
  · rintro (h' | ⟨⟨hrequest, entry, request, -, hhandler, -⟩, -⟩)
    · exact h.unique h'
    · exact absurd h (not_breach_of_handled hrequest hhandler text)

theorem areReports_of_isDisowned (h : c.IsDisowned service frame) :
    c.AreReports service frame
      [s!"malformed request payload for command {frame.header.command.toNat}"] := by
  refine ⟨Nat.le_refl 1, fun text => ?_⟩
  rw [List.mem_singleton]
  constructor
  · exact fun heq => .inr ⟨h, heq⟩
  · rintro (hbreach | ⟨-, heq⟩)
    · obtain ⟨entry, request, -, hhandler, -⟩ := h.handler
      exact absurd hbreach (not_breach_of_handled h.request hhandler text)
    · exact heq

theorem areReports_nil (hbreach : ∀ text, ¬ c.Breach service frame text)
    (hdisowned : ¬ c.IsDisowned service frame) : c.AreReports service frame [] := by
  refine ⟨Nat.zero_le 1, fun text => ⟨fun h => (List.not_mem_nil h).elim, ?_⟩⟩
  rintro (h | ⟨h, -⟩)
  · exact (hbreach text h).elim
  · exact (hdisowned h).elim

theorem reports_answer_handled {entry : HandledCommand} {request : Value}
    (hrequest : frame.header.isRequest = true)
    (hhandler : handlerFor? service frame = some (entry, request)) :
    ∃ texts, c.Reports (c.answer service frame).2 texts ∧ c.AreReports service frame texts := by
  have hrun := reports_runHandler service c entry frame.header request
  have hmalformed := c.fst_runHandler_eq_malformed_iff service entry frame.header request
  have hdisowned : c.IsDisowned service frame ↔
      (c.runHandler service entry frame.header request).1 = .error .malformedPayload := by
    rw [hmalformed]
    constructor
    · rintro ⟨-, entry', request', run, hhandler', hinline, hresult⟩
      obtain ⟨rfl, rfl⟩ := Prod.mk.inj (Option.some.inj (hhandler'.symm.trans hhandler))
      exact ⟨run, hinline, hresult⟩
    · rintro ⟨run, hinline, hresult⟩
      exact ⟨hrequest, entry, request, run, hhandler, hinline, hresult⟩
  rw [c.answer_eq_of_handled hhandler]
  generalize c.runHandler service entry frame.header request = ran at hrun hdisowned ⊢
  split
  · exact ⟨_, hrun.trans (reports_record _ (.problem _)),
      areReports_of_isDisowned (hdisowned.mpr rfl)⟩
  · next hne =>
    refine ⟨[], hrun, areReports_nil (not_breach_of_handled hrequest hhandler) ?_⟩
    intro h
    obtain ⟨answer, c'⟩ := ran
    exact hne c' (by rw [show answer = _ from hdisowned.mp h])

theorem reports_answer (service : Service) (c : Connection)
    (hrequest : frame.header.isRequest = true) :
    ∃ texts, c.Reports (c.answer service frame).2 texts ∧ c.AreReports service frame texts := by
  by_cases hflag : Flag.error.isIn frame.header.flags = true
  · refine ⟨_, ?_, areReports_of_breach (.flagged hrequest hflag)⟩
    unfold answer
    simp only [if_pos hflag]
    exact c.reports_record (.problem _)
  · rcases hget : service.protocol.handled.get? frame.header.command with _ | entry
    · refine ⟨_, ?_, areReports_of_breach
        (.unhandled hrequest (Bool.eq_false_of_not_eq_true hflag) hget)⟩
      unfold answer
      simp only [if_neg hflag, hget]
      exact c.reports_record (.problem _)
    · rcases hdecode : entry.types.request.decode frame.payload with e | request
      · refine ⟨_, ?_, areReports_of_breach
          (.undecodable hrequest (Bool.eq_false_of_not_eq_true hflag) hget hdecode)⟩
        unfold answer
        simp only [if_neg hflag, hget, invoke, hdecode]
        exact c.reports_record (.problem _)
      · exact reports_answer_handled hrequest
          (handlerFor?_eq_some_iff.mpr ⟨Bool.eq_false_of_not_eq_true hflag, hget, hdecode⟩)

theorem reports_handleReply (hreply : frame.header.isRequest = false) :
    ∃ texts, c.Reports (c.handleReply frame) texts ∧ c.AreReports service frame texts := by
  have hdisowned : ¬ c.IsDisowned service frame := fun h =>
    Bool.false_ne_true (hreply.symm.trans h.request)
  unfold handleReply Calls.resolve PendingTable.resolve PendingTable.remove
  rcases hfind : c.calls.table.find? frame.header.sequence with _ | entry
  · dsimp only
    by_cases hcancelled : frame.header.sequence ∈ c.calls.table.cancelled
    · rw [if_pos (List.contains_iff_mem.mpr hcancelled)]
      refine ⟨[], .of_eq rfl, areReports_nil (fun text h => ?_) hdisowned⟩
      cases h <;> simp_all [Header.isRequest]
    · rw [if_neg fun h => hcancelled (List.contains_iff_mem.mp h)]
      exact ⟨_, reports_record _ (.problem _), areReports_of_breach (.stray hreply hfind hcancelled)⟩
  · dsimp only
    unfold replyOutcome
    by_cases hcommand : entry.command = frame.header.command
    · rw [if_neg (not_not_intro hcommand)]
      by_cases hkind : frame.header.kind = .errorReply
      · rw [if_pos hkind]
        unfold Frame.statusCode
        by_cases hlength : frame.payload.length = 4
        · rw [if_pos hlength]
          refine ⟨[], .of_eq rfl, areReports_nil (fun text h => ?_) hdisowned⟩
          cases h <;> simp_all [Header.isRequest]
        · rw [if_neg hlength]
          exact ⟨_, reports_record _ (.problem _),
            areReports_of_breach (.misshapen hkind hfind hcommand hlength)⟩
      · rw [if_neg hkind]
        refine ⟨[], .of_eq rfl, areReports_nil (fun text h => ?_) hdisowned⟩
        cases h <;> simp_all [Header.isRequest]
    · rw [if_pos hcommand]
      exact ⟨_, reports_record _ (.problem _),
        areReports_of_breach (.misnamed hreply hfind hcommand)⟩

theorem exists_reports (service : Service) (c : Connection) (frame : Frame) :
    ∃ texts, c.Reports (c.serve service frame).2 texts ∧ c.AreReports service frame texts := by
  by_cases hrequest : frame.header.isRequest = true
  · obtain ⟨texts, ⟨later, hevents, htexts⟩, hare⟩ :=
      reports_answer service c hrequest
    refine ⟨texts, ⟨later, ?_, htexts⟩, hare⟩
    rw [serve_of_isRequest service c hrequest, ← hevents]
    rcases replyTo service frame (c.answer service frame).1 with _ | reply
    · rfl
    · exact events_sendReply _ reply
  · rw [c.serve_of_not_isRequest service hrequest]
    exact reports_handleReply (Bool.eq_false_of_not_eq_true hrequest)

/-- **A frame is reported once at most.  It is reported if it breaks the protocol, and else only if
it is a request whose inline handler ends with the status for a malformed one.**  No other outcome
of a handler is reported. -/
theorem reports_serve (service : Service) (c : Connection) (frame : Frame) :
    ∃ texts, c.Reports (c.serve service frame).2 texts ∧ texts.length ≤ 1 ∧
      (∀ text, text ∈ texts ↔ Breach service c frame text ∨ IsDisowned service c frame ∧
        text = s!"malformed request payload for command {frame.header.command.toNat}") ∧
      ∀ entry request, frame.header.isRequest = true →
        handlerFor? service frame = some (entry, request) → texts ≠ [] →
        ∃ run, entry.handler = .inline run ∧
          (c.runInline service entry.types.request request run).1 = .error .malformedPayload := by
  obtain ⟨texts, htexts, hlength, hmem⟩ := exists_reports service c frame
  refine ⟨texts, htexts, hlength, hmem, ?_⟩
  intro entry request hrequest hhandler hsome
  obtain ⟨text, htext⟩ := List.exists_mem_of_ne_nil texts hsome
  rcases (hmem text).mp htext with hbreach | ⟨hdisowned, -⟩
  · exact absurd hbreach (not_breach_of_handled hrequest hhandler text)
  · obtain ⟨entry', request', run, hhandler', hinline, hresult⟩ := hdisowned.handler
    obtain ⟨rfl, rfl⟩ := Prod.mk.inj (Option.some.inj (hhandler'.symm.trans hhandler))
    exact ⟨run, hinline, hresult⟩

/-- An inline handler gets the number 5 and ends with the status for a malformed request: the peer,
which has kept to the protocol, is reported. -/
theorem reports_well_formed :
    ∃ (service : Service) (entry : HandledCommand) (c : Connection) (frame : Frame),
      c.Reachable service ∧ frame.header.kind = .request ∧
      handlerFor? service frame = some (entry, .int 5) ∧
      (∀ text, ¬ c.Breach service frame text) ∧
      c.Reports (c.serve service frame).2
        [s!"malformed request payload for command {frame.header.command.toNat}"] := by
  let type : PayloadType := ⟨0, "u32", .int .u32, []⟩
  let entry : HandledCommand :=
    ⟨⟨type, type⟩, .inline fun _ _ => .done (.error .malformedPayload)⟩
  let service : Service := { protocol := { name := "server", handled := [(19, entry)] } }
  let c := (new service "default").establish true
  let frame := Frame.of (.request 19 1) [0, 0, 0, 5]
  have hkind : frame.header.kind = .request := Header.kind_request 19 1
  have hrequest : frame.header.isRequest = true := by simp [Header.isRequest, hkind]
  have hhandler : handlerFor? service frame = some (entry, .int 5) :=
    handlerFor?_eq_some_iff.mpr ⟨Header.isIn_error_request 19 1, rfl, by rfl⟩
  have hreachable : c.Reachable service := ⟨_, .single (.establish _ true rfl)⟩
  have hdisowned : c.IsDisowned service frame :=
    ⟨hrequest, entry, .int 5, _, hhandler, rfl, rfl⟩
  obtain ⟨texts, hreports, hlength, hmem⟩ := exists_reports service c frame
  have htext := (hmem _).mpr (.inr ⟨hdisowned, rfl⟩)
  obtain ⟨text, rfl⟩ := List.length_eq_one_iff.mp
    (Nat.le_antisymm hlength (List.length_pos_of_mem htext))
  rw [← List.mem_singleton.mp htext] at hreports
  exact ⟨service, entry, c, frame, hreachable, hkind, hhandler,
    not_breach_of_handled hrequest hhandler, hreports⟩

end Connection

end CallWire
