import CallWire.Proofs.Connection.Outflow
import CallWire.Proofs.Connection.Reading

/-!
# CallWire.Proofs.Connection.BreakingOff — handlers that break off

A handler that breaks off is answered for.  For an inline handler the reader does so, and where
there is no room its answer waits for some; for a deferred handler the handle that it lets go of does
so, and where there is no room nobody does.
-/

namespace CallWire

namespace Connection

variable {service : Service} {c c' c'' : Connection} {frame : Frame} {entry : HandledCommand}
  {request : Value} {queue : List Bytes} {reply : Bytes}

/-! ### Without room -/

/-- Without room in the queue, nothing was queued. -/
def Refrains (c c' : Connection) : Prop := c.outbound.hasRoom = false → c'.outbound = c.outbound

theorem enqueue_of_full (hfull : c.outbound.hasRoom = false) (bytes : Bytes) :
    (c.enqueue bytes).2 = c := by
  rcases c.enqueue_cases bytes with heq | ⟨hroom, -⟩
  · exact heq
  · exact absurd (hroom.symm.trans hfull) nofun

theorem refrains_enqueue (c : Connection) (bytes : Bytes) : c.Refrains (c.enqueue bytes).2 :=
  fun hfull => by rw [enqueue_of_full hfull]

theorem refrains_allowsAnswers (service : Service) : AllowsAnswers service Refrains where
  refl := fun _ _ => rfl
  reply := fun c _ _ _ _ => c.refrains_enqueue _
  error := fun c _ _ _ => c.refrains_enqueue _

theorem refrains_startCall (service : Service) (c : Connection) (command : UInt32)
    (types : CommandTypes) (v : Value) :
    c.Refrains (c.startCall service command types v).2 := by
  intro hfull
  obtain ⟨calls, -, heq | ⟨n, payload, -, hqueued⟩⟩ := c.startCall_cases service command types v
  · rw [heq]
  · have hrefrains := refrains_enqueue { c with calls } (Frame.image (.request command n) payload)
      hfull
    rw [hqueued] at hrefrains
    exact hrefrains

theorem refrains_sendOneWay (service : Service) (c : Connection) (command : UInt32)
    (type : PayloadType) (v : Value) :
    c.Refrains (c.sendOneWay service command type v).2 := by
  intro hfull
  rcases c.sendOneWay_cases service command type v with heq | ⟨n, calls, payload, -, -, heq⟩
  · rw [heq]
  · rw [heq]
    exact refrains_enqueue { c with calls } _ hfull

/-! ### A reply that waits -/

/-- The reader's reply is in `waiting`, behind a full queue. -/
structure IsHeldUp (queue : List Bytes) (reply : Bytes) (c : Connection) : Prop where
  full : c.outbound.hasRoom = false
  queue : c.outbound.queue = queue
  waiting : c.outbound.waiting = some reply

theorem IsHeldUp.of_outbound (h : IsHeldUp queue reply c) (heq : c'.outbound = c.outbound) :
    IsHeldUp queue reply c' :=
  ⟨heq ▸ h.full, heq ▸ h.queue, heq ▸ h.waiting⟩

/-- The first frame has left the queue and the reply was appended. -/
def TakesRoom (queue : List Bytes) (reply : Bytes) (c : Connection) : Prop :=
  ∃ first rest, queue = first :: rest ∧ c.outbound.queue = rest ++ [reply] ∧
    c.outbound.waiting = none

theorem IsHeldUp.of_pickUp (h : IsHeldUp queue reply c) (inHand : Option Bytes)
    (hinHand : c'.outbound = { c.outbound.pickUp with inHand }) :
    IsHeldUp queue reply c' ∨ TakesRoom queue reply c' := by
  rcases c.outbound.pickUp_cases with ⟨-, heq⟩ | ⟨-, first, rest, hqueue, heq⟩
  · rw [heq] at hinHand
    refine .inl ⟨?_, ?_, ?_⟩
    · rw [hinHand]
      exact h.full
    · rw [hinHand]
      exact h.queue
    · rw [hinHand]
      exact h.waiting
  · rw [heq] at hinHand
    refine .inr ⟨first, rest, h.queue.symm.trans hqueue, ?_, ?_⟩
    · rw [hinHand, h.waiting]
      rfl
    · rw [hinHand]

/-- A waiting reply keeps waiting until the writer pops the queue, which appends it. -/
theorem IsHeldUp.step (h : IsHeldUp queue reply c) (hcoherent : c.Coherent)
    (hconnected : c.life.isConnected = true) (hstep : c.Step service c')
    (hconnected' : c'.life.isConnected = true) :
    IsHeldUp queue reply c' ∨ TakesRoom queue reply c' := by
  have hstays (heq : c'.outbound = c.outbound) :
      IsHeldUp queue reply c' ∨ TakesRoom queue reply c' := .inl (h.of_outbound heq)
  have hlive : c.IsLive := .of_isConnected hconnected
  obtain ⟨hdraining, hhalted, hdone⟩ := Outbound.isRunning_iff.mp (hcoherent hlive).2
  -- The queue is full, so only the writer can change what is in it.
  cases hstep with
  | establish hasPeerAddress hconnecting =>
    rw [Lifecycle.isConnected, hconnecting] at hconnected
    cases hconnected
  | abandon => cases hconnected'
  | startCall command types v => exact hstays (refrains_startCall service c command types v h.full)
  | sendOneWay command type v =>
    exact hstays (refrains_sendOneWay service c command type v h.full)
  | reply handle v => exact hstays ((refrains_allowsAnswers service).replyValue c handle v h.full)
  | replyError handle status =>
    exact hstays ((refrains_allowsAnswers service).replyError c handle status h.full)
  | dropHandle handle => exact hstays ((refrains_allowsAnswers service).dropHandle c handle h.full)
  | close =>
    obtain ⟨life, isDraining, heq, hover, -⟩ := c.exists_close
    rw [heq] at hconnected'
    exact absurd (hconnected'.symm.trans hover) nofun
  | finish reason => exact absurd (hconnected'.symm.trans (c.isConnected_finish reason)) nofun
  | stopEvents =>
    obtain ⟨eventsStopped, heq⟩ := c.exists_stopEvents
    exact hstays (by rw [heq])
  | startEvents =>
    obtain ⟨eventsStopped, heq⟩ := c.exists_startEvents
    exact hstays (by rw [heq])
  | drop call =>
    refine hstays ?_
    unfold Connection.drop
    split
    · rfl
    · rfl
  | claim | cancel | wait | waitUntil | transport | look => exact hstays rfl
  | pickUp => exact h.of_pickUp c.outbound.pickUp.inHand rfl
  | readerTurn =>
    -- The reader waits for its reply.
    refine hstays ?_
    unfold readerTurn
    rw [h.waiting, Option.isSome_some, if_pos rfl, hhalted, if_neg Bool.false_ne_true]
  | writerTurn _ _ hturn =>
    cases (writerTurn_turn hturn).2 with
    | halted hasked => exact absurd (hasked.symm.trans hhalted) nofun
    | writes hpop _ => exact h.of_pickUp none (Outbound.pop_eq_some hpop)
    | @breaks _ outbound =>
      have hclosing : ({ c with outbound }.fail .ioError).life.state = .closing :=
        state_fail (c := { c with outbound }) (.inl (eq_of_beq hconnected)) .ioError
      exact absurd (hclosing.symm.trans (eq_of_beq hconnected')) nofun
    | shutsDown _ hasked => exact absurd (hasked.symm.trans hdraining) nofun

/-- Runs of `Connection.Step` that stay connected. -/
def Stays (service : Service) : Connection → Connection → Prop :=
  Relation.ReflTransGen fun c c' => c.Step service c' ∧ c'.life.isConnected = true

/-- The reply still waits at `c''`, or some step of the run popped the queue and appended it. -/
def IsQueuedLater (service : Service) (queue : List Bytes) (reply : Bytes) (c c'' : Connection) :
    Prop :=
  IsHeldUp queue reply c'' ∨ ∃ c₁ c₂, Stays service c c₁ ∧ IsHeldUp queue reply c₁ ∧
    c₁.Step service c₂ ∧ TakesRoom queue reply c₂ ∧ Stays service c₂ c''

theorem IsHeldUp.stays (h : IsHeldUp queue reply c) (hcoherent : c.Coherent)
    (hconnected : c.life.isConnected = true) (hstays : Stays service c c'') :
    IsQueuedLater service queue reply c c'' := by
  suffices hrun : c''.Coherent ∧ c''.life.isConnected = true ∧
      IsQueuedLater service queue reply c c'' from hrun.2.2
  induction hstays with
  | refl => exact ⟨hcoherent, hconnected, .inl h⟩
  | @tail c₁ c₂ hbefore hlast ih =>
    obtain ⟨hcoherent₁, hconnected₁, hlater⟩ := ih
    obtain ⟨hstep, hconnected₂⟩ := hlast
    refine ⟨hcoherent₁.step hstep, hconnected₂, ?_⟩
    rcases hlater with hwaits | ⟨d₁, d₂, hbefore', hheld, hstep', htakes, hafter⟩
    · rcases hwaits.step hcoherent₁ hconnected₁ hstep hconnected₂ with hwaits | htakes
      · exact .inl hwaits
      · exact .inr ⟨c₁, c₂, hbefore, hwaits, hstep, htakes, .refl⟩
    · exact .inr ⟨d₁, d₂, hbefore', hheld, hstep', htakes, hafter.tail ⟨hstep, hconnected₂⟩⟩

theorem IsHeldUp.writerTurn (h : IsHeldUp queue reply c) (hrunning : c.outbound.isRunning = true)
    (hdeaf : c.socket.peerDeaf = false) (hcapacity : 0 < c.outbound.capacity)
    (hinHand : c.outbound.inHand = none) :
    ∃ c', c.writerTurn = some c' ∧ TakesRoom queue reply c' := by
  have hwaits : c.outbound.queue ≠ [] := by
    intro hempty
    have hfull := h.full
    unfold Outbound.hasRoom at hfull
    rw [hempty, decide_eq_false_iff_not] at hfull
    exact hfull hcapacity
  obtain ⟨first, outbound, hpop⟩ := Outbound.exists_pop_eq_some (.inr hwaits)
  have hturn := writerTurn_eq hrunning hdeaf
  rw [hpop] at hturn
  refine ⟨_, hturn, ?_⟩
  rcases c.outbound.pickUp_cases with ⟨hnothing, -⟩ | ⟨-, first', rest, hqueue, heq⟩
  · simp [hinHand, hwaits] at hnothing
  · refine ⟨first', rest, h.queue.symm.trans hqueue, ?_, ?_⟩
    · show outbound.queue = _
      rw [Outbound.pop_eq_some hpop, heq, h.waiting]
      rfl
    · show outbound.waiting = _
      rw [Outbound.pop_eq_some hpop, heq]

theorem IsHeldUp.write (h : IsHeldUp queue reply c) (hrunning : c.outbound.isRunning = true)
    (hdeaf : c.socket.peerDeaf = false) (hcapacity : 0 < c.outbound.capacity) :
    ∃ n ≤ 2, TakesRoom queue reply (c.write n) := by
  -- A frame in hand has to leave before one of the queue makes room, which is the second turn.
  cases hinHand : c.outbound.inHand with
  | none =>
    obtain ⟨c', hturn, htakes⟩ := h.writerTurn hrunning hdeaf hcapacity hinHand
    refine ⟨1, by omega, ?_⟩
    unfold Connection.write
    rw [hturn]
    exact htakes
  | some first =>
    have hpop : c.outbound.pop = some (first, { c.outbound with inHand := none }) := by
      unfold Outbound.pop Outbound.pickUp
      simp only [hinHand, Option.map_some]
    have hturn := writerTurn_eq hrunning hdeaf
    rw [hpop, Option.map_some] at hturn
    have hfree : IsHeldUp queue reply
        { c with
          outbound := { c.outbound with inHand := none }
          socket := { c.socket with delivered := c.socket.delivered ++ first } } :=
      ⟨h.full, h.queue, h.waiting⟩
    obtain ⟨c', hturn', htakes⟩ := hfree.writerTurn hrunning hdeaf hcapacity rfl
    refine ⟨2, by omega, ?_⟩
    unfold Connection.write
    rw [hturn]
    unfold Connection.write
    dsimp only
    rw [hturn']
    exact htakes

/-! ### Who answers for the handler -/

/-- Dropping the handle queues an error reply if there is room, and does nothing otherwise. -/
theorem drop_of_expectsReply {handle : ReplyHandle} (hexpects : handle.expectsReply = true)
    (hcoherent : c.Coherent) (hconnected : c.life.isConnected = true) :
    (c.outbound.hasRoom = true → handle.drop c =
        c.queued (errorImage handle.command handle.sequence .handlerFailed)) ∧
      (c.outbound.hasRoom = false → handle.drop c = c) := by
  have hdrop : handle.drop c =
      (c.enqueue (errorImage handle.command handle.sequence .handlerFailed)).2 := if_pos hexpects
  rw [hdrop]
  refine ⟨fun hroom => ?_, fun hfull => enqueue_of_full hfull _⟩
  rw [enqueue_eq_ok hconnected (hcoherent.of_isConnected hconnected).2 hroom]
  rfl

/-- The connection with this reply of the reader in `waiting`. -/
def heldUp (c : Connection) (reply : Bytes) : Connection :=
  { c with outbound := { c.outbound with waiting := some reply } }

theorem sendReply_of_connected (hcoherent : c.Coherent) (hconnected : c.life.isConnected = true)
    (reply : Bytes) :
    (c.outbound.hasRoom = true → c.sendReply reply = c.queued reply) ∧
      (c.outbound.hasRoom = false → c.sendReply reply = c.heldUp reply) := by
  have hdone := (hcoherent.of_isConnected hconnected).2
  refine ⟨fun hroom => sendReply_eq hconnected hdone hroom reply, fun hfull => ?_⟩
  unfold sendReply Outbound.await
  rw [if_pos hconnected, if_neg (by simp [hdone]), if_neg (by simp [hfull])]
  rfl

/-- Serving a request whose inline handler crashes sends an error reply from the reader. -/
theorem serve_of_crash (hkind : frame.header.kind = .request)
    (hhandler : handlerFor? service frame = some (entry, request))
    {run : Connection → Value → Conduct InlineResult} (hinline : entry.handler = .inline run)
    (hcrash : (c.runInline service entry.types.request request run).1 = .crash) :
    (c.serve service frame).2 = (c.afterEffects service frame).sendReply
      (errorImage frame.header.command frame.header.sequence .handlerFailed) := by
  have hrun := c.runHandler_inline hhandler hinline
  rw [hcrash] at hrun
  have hanswer : c.answer service frame = (.error .handlerFailed, c.afterEffects service frame) := by
    rw [c.answer_eq_of_handled hhandler, hrun]
    rfl
  rw [serve_of_isRequest service c (by simp [Header.isRequest, hkind]), hanswer]
  unfold replyTo
  rw [if_pos (by simp [Header.expectsReply, hkind])]
  rfl

/-- The connection after the effects of a deferred handler that has dropped its handle. -/
def goesOn (service : Service) (c : Connection) (release : Release) : Connection :=
  (c.carryOut service (release.after (.ok ()) c)).2

/-- Serving a request whose deferred handler drops its handle leaves the reply to
`ReplyHandle.drop`. -/
theorem serve_of_drop (hkind : frame.header.kind = .request)
    (hhandler : handlerFor? service frame = some (entry, request))
    {run : Connection → Value → ReplyHandle → Conduct Release}
    (hdeferred : entry.handler = .deferred run) {release : Release}
    (hrelease : (c.runDeferred service entry.types.request request
      (.ofHeader frame.header entry.types.reply) run).1 = release)
    (hdrop : release.use = .drop) :
    (c.serve service frame).2 = ((ReplyHandle.ofHeader frame.header entry.types.reply).drop
      (c.afterEffects service frame)).goesOn service release := by
  have hrun := c.runHandler_deferred hhandler hdeferred
  have hfinish : (c.afterEffects service frame).finishDeferred service
      (.ofHeader frame.header entry.types.reply) release =
        ((ReplyHandle.ofHeader frame.header entry.types.reply).drop
          (c.afterEffects service frame)).goesOn service release := by
    unfold finishDeferred
    rw [hdrop]
    rfl
  rw [hrelease, hfinish] at hrun
  have hanswer : c.answer service frame =
      (.deferred, ((ReplyHandle.ofHeader frame.header entry.types.reply).drop
        (c.afterEffects service frame)).goesOn service release) := by
    rw [c.answer_eq_of_handled hhandler, hrun]
  rw [serve_of_isRequest service c (by simp [Header.isRequest, hkind]), hanswer]
  unfold replyTo
  rw [if_pos (by simp [Header.expectsReply, hkind])]
  rfl

/-- **A handler that breaks off is answered for.**  Before it breaks off it has queued nothing but
requests.  Then one error reply is queued, or for an inline handler, if there is no room, waits for
some; it is queued when the writer takes a frame off the queue, and before that nothing is.  The
handle of a deferred handler, let go of at once or later, has one error reply queued if there is
room, and if there is none nothing is done; a handler that goes on after that queues nothing but
requests. -/
theorem failed_handler_answered (hc : c.Reachable service)
    (hkind : frame.header.kind = .request)
    (hhandler : handlerFor? service frame = some (entry, request))
    (hconnected : (c.afterEffects service frame).life.isConnected = true) :
    let broken := c.afterEffects service frame
    let handle := ReplyHandle.ofHeader frame.header entry.types.reply
    let answer := errorImage frame.header.command frame.header.sequence .handlerFailed
    c.Announces broken ∧
    (∀ run, entry.handler = .inline run →
      (c.runInline service entry.types.request request run).1 = .crash →
      (broken.outbound.hasRoom = true → (c.serve service frame).2 = broken.queued answer) ∧
      (broken.outbound.hasRoom = false → (c.serve service frame).2 = broken.heldUp answer ∧
        (∀ later, Stays service (broken.heldUp answer) later →
          IsQueuedLater service broken.outbound.queue answer (broken.heldUp answer) later) ∧
        (broken.socket.peerDeaf = false → 0 < broken.outbound.capacity →
          ∃ n ≤ 2, TakesRoom broken.outbound.queue answer ((broken.heldUp answer).write n)))) ∧
    (∀ run release, entry.handler = .deferred run →
      (c.runDeferred service entry.types.request request handle run).1 = release →
      release.use = .drop →
      (broken.outbound.hasRoom = true →
        (c.serve service frame).2 = (broken.queued answer).goesOn service release) ∧
      (broken.outbound.hasRoom = false →
        (c.serve service frame).2 = broken.goesOn service release)) ∧
    (∀ later : Connection, later.goesOn service (.last .drop) = later ∧
      ∀ release, later.Announces (later.goesOn service release)) ∧
    ∀ (later : Connection) (type : PayloadType), later.Reachable service →
      later.life.isConnected = true →
      (later.outbound.hasRoom = true →
        (ReplyHandle.ofHeader frame.header type).drop later = later.queued answer) ∧
      (later.outbound.hasRoom = false →
        (ReplyHandle.ofHeader frame.header type).drop later = later) := by
  -- All four parts start from the connection as the effects of the handler have left it.
  intro broken handle answer
  have hcoherent : broken.Coherent := hc.coherent.of_keeps (c.keeps_afterEffects frame)
  have hexpects : frame.header.expectsReply = true := by simp [Header.expectsReply, hkind]
  obtain ⟨hroom, hfull⟩ := sendReply_of_connected hcoherent hconnected answer
  refine ⟨announces_afterEffects service c frame, ?_, ?_, ?_, ?_⟩
  · intro run hinline hcrash
    rw [serve_of_crash hkind hhandler hinline hcrash]
    refine ⟨hroom, fun hno => ⟨hfull hno, ?_⟩⟩
    have hheld : IsHeldUp broken.outbound.queue answer (broken.heldUp answer) := ⟨hno, rfl, rfl⟩
    have hcoherent' : (broken.heldUp answer).Coherent :=
      hcoherent.of_keeps (broken.keeps_outbound rfl)
    have hrunning := (hcoherent' (.of_isConnected hconnected)).2
    exact ⟨fun later => hheld.stays hcoherent' hconnected,
      fun hdeaf hcapacity => hheld.write hrunning hdeaf hcapacity⟩
  · intro run release hdeferred hrelease hdrop
    obtain ⟨hqueues, hrefrains⟩ :=
      @drop_of_expectsReply broken handle hexpects hcoherent hconnected
    rw [serve_of_drop hkind hhandler hdeferred hrelease hdrop]
    exact ⟨fun hroom => by rw [hqueues hroom]; rfl, fun hno => by rw [hrefrains hno]⟩
  · exact fun later => ⟨rfl, fun release => (announces_allowsEffects service).carryOut later _⟩
  · intro later type hlater hconnected'
    exact drop_of_expectsReply hexpects hlater.coherent hconnected'

/-- An inline handler fills the queue before it breaks off. Its answer waits, and is queued once the
writer has taken the other frame. -/
theorem failed_handler_answered_full :
    ∃ (service : Service) (c : Connection) (frame : Frame) (n : Nat), c.Reachable service ∧
      frame.header.kind = .request ∧ (c.serve service frame).2.life.isConnected = true ∧
      (c.serve service frame).2.outbound.queue.length = service.config.maxQueuedFrames ∧
      ((c.serve service frame).2.write n).outbound.queue = [errorImage 20 9 .handlerFailed] := by
  let unit : PayloadType := ⟨0, "()", .unit, []⟩
  let run (_ : Connection) (_ : Value) : Conduct InlineResult :=
    .afterAll .crash [.notify 7 unit .unit]
  let entry : HandledCommand := ⟨⟨unit, unit⟩, .inline run⟩
  let service : Service := {
    protocol := { name := "server", sent := [(7, ⟨unit, unit⟩)], handled := [(20, entry)] }
    config := { maxQueuedFrames := 1 } }
  let c := (new service "default").establish true
  let frame := Frame.of (.request 20 9) []
  have hc : c.Reachable service := ⟨_, .single (.establish _ true rfl)⟩
  have hkind : frame.header.kind = .request := Header.kind_request 20 9
  have hhandler : handlerFor? service frame = some (entry, .unit) :=
    handlerFor?_eq_some_iff.mpr ⟨Header.isIn_error_request 20 9, rfl, by rfl⟩
  let broken := (c.runInline service unit .unit run).2
  have hafter : c.afterEffects service frame = broken := c.afterEffects_inline hhandler rfl
  have hconnected : broken.life.isConnected = true := by rfl
  have hfull : broken.outbound.hasRoom = false := by rfl
  have hone : ∃ note, broken.outbound.queue = [note] := ⟨_, rfl⟩
  obtain ⟨-, hinline, -⟩ := failed_handler_answered hc hkind hhandler (hafter ▸ hconnected)
  rw [hafter] at hinline
  obtain ⟨hserve, -, hwrite⟩ := (hinline run rfl rfl).2 hfull
  obtain ⟨n, -, first, rest, hqueue, hqueued, -⟩ := hwrite rfl (by decide)
  obtain ⟨note, hnote⟩ := hone
  obtain ⟨-, rfl⟩ := List.cons.inj (hqueue.symm.trans hnote)
  refine ⟨service, c, frame, n, hc, hkind, ?_⟩
  rw [hserve]
  exact ⟨hconnected, congrArg List.length hnote, hqueued⟩

/-- A deferred handler fills the queue before it breaks off: the request is not answered, and there
is nothing left that could answer it. -/
theorem failed_handler_unanswered :
    ∃ (service : Service) (c : Connection) (frame : Frame), c.Reachable service ∧
      frame.header.kind = .request ∧
      (∃ entry request run, handlerFor? service frame = some (entry, request) ∧
        entry.handler = .deferred run ∧ (c.runDeferred service entry.types.request request
          (.ofHeader frame.header entry.types.reply) run).1 = .last .drop) ∧
      (c.serve service frame).2.life.isConnected = true ∧ (c.serve service frame).2.kept = [] ∧
      (c.serve service frame).2.outbound.waiting = none ∧
      ∀ bytes ∈ (c.serve service frame).2.outbound.queue, ¬ IsAnswer 20 9 bytes := by
  let unit : PayloadType := ⟨0, "()", .unit, []⟩
  let run (_ : Connection) (_ : Value) (_ : ReplyHandle) : Conduct Release :=
    .afterAll (.last .drop) [.notify 7 unit .unit]
  let entry : HandledCommand := ⟨⟨unit, unit⟩, .deferred run⟩
  let service : Service := {
    protocol := { name := "server", sent := [(7, ⟨unit, unit⟩)], handled := [(20, entry)] }
    config := { maxQueuedFrames := 1 } }
  let c := (new service "default").establish true
  let frame := Frame.of (.request 20 9) []
  have hc : c.Reachable service := ⟨_, .single (.establish _ true rfl)⟩
  have hkind : frame.header.kind = .request := Header.kind_request 20 9
  have hexpects : frame.header.expectsReply = true := by simp [Header.expectsReply, hkind]
  have hhandler : handlerFor? service frame = some (entry, .unit) :=
    handlerFor?_eq_some_iff.mpr ⟨Header.isIn_error_request 20 9, rfl, by rfl⟩
  let handle := ReplyHandle.ofHeader frame.header unit
  let broken := (c.runDeferred service unit .unit handle run).2
  have hrelease : (c.runDeferred service unit .unit handle run).1 = .last .drop := by rfl
  have hafter : c.afterEffects service frame = broken := c.afterEffects_deferred hhandler rfl
  have hconnected : broken.life.isConnected = true := by rfl
  have hfull : broken.outbound.hasRoom = false := by rfl
  have hcoherent : broken.Coherent := hafter ▸ hc.coherent.of_keeps (c.keeps_afterEffects frame)
  have hserve : (c.serve service frame).2 = broken := by
    rw [serve_of_drop hkind hhandler rfl hrelease rfl, hafter]
    exact (drop_of_expectsReply hexpects hcoherent hconnected).2 hfull
  obtain ⟨-, notes, hqueue, hnotes⟩ := announces_afterEffects service c frame
  rw [hafter] at hqueue
  refine ⟨service, c, frame, hc, hkind, ⟨entry, .unit, run, hhandler, rfl, hrelease⟩, ?_⟩
  rw [hserve]
  refine ⟨hconnected, rfl, rfl, fun bytes hb hanswer => ?_⟩
  rw [hqueue] at hb
  have hboth := (hnotes bytes hb).symm.trans hanswer.asks_eq_false
  cases hboth

end Connection

end CallWire
