import CallWire.Proofs.Connection.Reading
import CallWire.Proofs.Connection.Toggles

/-!
# CallWire.Proofs.Connection.Suspension — a connection whose events are stopped and started

While events are stopped the reader holds the first request that it comes to, and what stands behind
it stays in the stream.  So nothing is lost and nothing overtakes: the frames processed, the one held
and those that a decoder takes from the rest are at every moment the frames that have arrived.
-/

namespace CallWire

/-- The frames in these bytes, up to a header that is refused. -/
def Service.framesOf (service : Service) (bs : Bytes) : List Frame :=
  (({ limit := service.config.maxPayloadLength } : FrameDecoder).drain bs).result.1

theorem Socket.eq_nil_of_peerWrite {s s' : Socket} {bs : Bytes} (h : s.peerWrite bs = some s')
    (hdone : s.peerDone = true) : bs = [] := by
  unfold peerWrite at h
  split at h
  · next hempty => exact List.isEmpty_iff.mp hempty
  · rw [hdone, Bool.or_true, if_pos rfl] at h
    cases h

namespace Connection

variable {service : Service} {c c' c'' : Connection} {frame : Frame}

/-! ### What the reader has before it -/

/-- The reader has the same input left. -/
structure KeepsInput (c c' : Connection) : Prop where
  decoder : c'.decoder = c.decoder
  buffer : c'.buffer = c.buffer
  held : c'.held = c.held
  arrived : c'.socket.arrived = c.socket.arrived
  peerDone : c.socket.peerDone = true → c'.socket.peerDone = true
  isReset : c'.socket.isReset = c.socket.isReset

theorem KeepsInput.refl (c : Connection) : c.KeepsInput c := ⟨rfl, rfl, rfl, rfl, id, rfl⟩

theorem KeepsInput.trans (h : c.KeepsInput c') (h' : c'.KeepsInput c'') : c.KeepsInput c'' where
  decoder := h'.decoder.trans h.decoder
  buffer := h'.buffer.trans h.buffer
  held := h'.held.trans h.held
  arrived := h'.arrived.trans h.arrived
  peerDone := h'.peerDone ∘ h.peerDone
  isReset := h'.isReset.trans h.isReset

theorem Beside.keepsInput (h : c.Beside c') : c.KeepsInput c' where
  decoder := h.decoder
  buffer := h.buffer
  held := h.held
  arrived := congrArg Socket.arrived h.socket
  peerDone := (congrArg Socket.peerDone h.socket).trans
  isReset := congrArg Socket.isReset h.socket

theorem sendReply_keepsInput (c : Connection) (reply : Bytes) :
    c.KeepsInput (c.sendReply reply) := by
  unfold sendReply
  split
  · exact ⟨rfl, rfl, rfl, rfl, id, rfl⟩
  · exact .refl c

theorem serve_keepsInput (service : Service) (c : Connection) (frame : Frame) :
    c.KeepsInput (c.serve service frame).2 := by
  obtain ⟨c₁, hbeside, -, -, heq | ⟨reply, heq⟩⟩ := serve_beside service c frame
  · rw [heq]
    exact hbeside.keepsInput
  · rw [heq]
    exact hbeside.keepsInput.trans (c₁.sendReply_keepsInput reply)

theorem writerTurn_keepsInput (h : c.writerTurn = some c') :
    c.KeepsInput c' ∧ c'.eventsStopped = c.eventsStopped := by
  cases (writerTurn_turn h).2 with
  | halted | shutsDown => exact ⟨⟨rfl, rfl, rfl, rfl, id, rfl⟩, rfl⟩
  | writes hpop hwrite =>
    unfold Socket.write at hwrite
    split at hwrite
    · cases hwrite
    · cases hwrite
      exact ⟨⟨rfl, rfl, rfl, rfl, id, rfl⟩, rfl⟩
  | breaks =>
    unfold fail
    split
    all_goals exact ⟨⟨rfl, rfl, rfl, rfl, id, rfl⟩, rfl⟩

/-! ### Turns of the reader -/

/-- The connection on which the frame taken up is served. -/
def onTakingUp (c : Connection) : Connection :=
  match c.held with
  | some _ => { c with held := none }
  | none =>
    { c with
      decoder := (c.decoder.decode c.buffer).decoder
      buffer := (c.decoder.decode c.buffer).buffer }

/-- The toggles made by the handler that the reader calls in this turn. -/
def turnToggles (service : Service) (c : Connection) : Option Frame → ToggleLog
  | some frame => c.onTakingUp.handlerToggles service frame
  | none => []

theorem readerTurn_of_suspended (service : Service) (hhalted : c.outbound.isHalted = false)
    (hheld : c.held = some frame) (hstopped : c.eventsStopped = true) :
    c.takeUp = none ∧ c.readerTurn service = (.idle, c) := by
  unfold takeUp readerTurn resume
  rw [hheld, hhalted, hstopped]
  split
  · exact ⟨rfl, rfl⟩
  · exact ⟨rfl, rfl⟩

theorem reads_or_stops (service : Service) (hhalted : c.outbound.isHalted = false)
    (htorn : c.socket.isReset = true → c.socket.arrived = []) :
    c.Reads service c.takeUp (c.readerTurn service) ∨
      c.takeUp = none ∧ ∃ c₁ : Connection, c.readerTurn service = c₁.stopReading .ioError := by
  by_cases hreset : c.socket.isReset = true
  · -- Frames that are in the buffer are still processed.
    by_cases hsocket : c.outbound.waiting = none ∧ c.held = none ∧
        ∃ decoder buffer, c.decoder.decode c.buffer = ⟨.ok none, decoder, buffer⟩
    · obtain ⟨hwaiting, hheld, decoder, buffer, hdecode⟩ := hsocket
      refine .inr ⟨?_, { c with decoder, buffer }, ?_⟩
      · unfold takeUp
        rw [hwaiting, hheld, hdecode]
        rfl
      · unfold readerTurn nextFrame readSocket
        rw [hwaiting, hheld, hdecode]
        simp [hhalted, hreset, htorn hreset]
    · exact .inl (reads_of_readSocket hhalted fun decoder buffer hwaiting hheld hdecode =>
        absurd ⟨hwaiting, hheld, decoder, buffer, hdecode⟩ hsocket)
  · exact .inl (c.reads_readerTurn service hhalted (Bool.eq_false_of_not_eq_true hreset))

theorem not_isConnected_stopReading {reason : DisconnectReason} :
    ¬ (c.stopReading reason).2.life.isConnected = true := fun h =>
  absurd (h.symm.trans (isConnected_finish _ _)) nofun

/-- The toggles of the handler take events from where they were before the turn to where they are
after it. -/
theorem leads_turnToggles (hreads : c.Reads service c.takeUp (c.readerTurn service))
    (hconnected : (c.readerTurn service).2.life.isConnected = true) :
    ToggleLog.Leads c.eventsStopped (c.turnToggles service c.takeUp)
      (c.readerTurn service).2.eventsStopped := by
  generalize c.takeUp = taken at hreads ⊢
  generalize c.readerTurn service = turn at hreads hconnected ⊢
  cases hreads with
  | waits | suspended | holds | takesIn | starves => exact .nil
  | refuses | ends => exact absurd hconnected not_isConnected_stopReading
  | @resumes frame hwaiting hheld =>
    have htakingUp : c.onTakingUp = { c with held := none } := by
      simp only [onTakingUp, hheld]
    simp only [turnToggles, htakingUp]
    exact leads_handlerToggles service { c with held := none } frame hconnected
  | @serves frame decoder buffer hwaiting hheld hdecode =>
    have htakingUp : c.onTakingUp = { c with decoder, buffer } := by
      simp only [onTakingUp, hheld, hdecode]
    simp only [turnToggles, htakingUp]
    exact leads_handlerToggles service { c with decoder, buffer } frame hconnected

end Connection

/-- A connection with the bytes that have arrived, the frames served, and the toggles made. -/
structure Intake where
  conn : Connection
  arrived : Bytes := []
  /-- The bytes dropped by a reset of the stream. -/
  lost : Bytes := []
  served : List Frame := []
  toggles : ToggleLog := []

namespace Intake

variable {service : Service} {s s' : Intake} {frame : Frame}

def start (service : Service) (context : String) (hasPeerAddress : Bool) : Intake where
  conn := (Connection.new service context).claim.2.establish hasPeerAddress

/-- `Connection.readerTurn`, with the toggles of the handler that it calls. -/
def read (service : Service) (s : Intake) : Intake :=
  { s with
    conn := (s.conn.readerTurn service).2
    served := s.served ++ s.conn.takeUp.toList
    toggles := s.toggles ++ s.conn.turnToggles service s.conn.takeUp }

/-- `stopEvents` or `startEvents`, called by another thread. What a handler calls itself is part of
`read`. -/
def toggle (s : Intake) (t : Toggle) : Intake :=
  { s with
    conn := (t.perform s.conn).2
    toggles := s.toggles ++ [(t, (t.perform s.conn).1)] }

/-- The stream is reset, and drops what was not read. -/
def reset (s : Intake) : Intake :=
  { s with
    conn := { s.conn with socket := s.conn.socket.peerReset }
    lost := s.lost ++ s.conn.socket.arrived }

inductive Step (service : Service) (s : Intake) : Intake → Prop
  | arrive {chunk : Bytes} {socket : Socket} (h : s.conn.socket.peerWrite chunk = some socket) :
      Step service s { s with conn := { s.conn with socket }, arrived := s.arrived ++ chunk }
  | peer {socket : Socket} (harrived : socket.arrived = s.conn.socket.arrived)
      (hdone : s.conn.socket.peerDone = true → socket.peerDone = true)
      (hreset : socket.isReset = s.conn.socket.isReset) :
      Step service s { s with conn := { s.conn with socket } }
  | reset : Step service s s.reset
  | reader : Step service s (s.read service)
  | toggle (t : Toggle) : Step service s (s.toggle t)
  | writer {c : Connection} (h : s.conn.writerTurn = some c) : Step service s { s with conn := c }
  | pickUp : Step service s { s with conn := s.conn.pickUp }
  /-- The application does something else. -/
  | act {c : Connection} (h : s.conn.Acts service c)
      (hevents : c.eventsStopped = s.conn.eventsStopped) : Step service s { s with conn := c }

def Stays (service : Service) : Intake → Intake → Prop :=
  Relation.ReflTransGen fun s s' => Step service s s' ∧ s'.conn.life.isConnected = true

/-- The connection with the rest of its input and these bytes still to come. -/
def inbound (s : Intake) (later : Bytes) : Inbound :=
  { conn := s.conn, toCome := [s.lost ++ later], served := s.served }

/-- The frames in the rest of the input. -/
def unread (s : Intake) : List Frame := (s.inbound []).ahead.1

/-- The connection is connected; frames served, held and unread are those in the bytes that have
arrived, whatever comes behind them. -/
structure Inv (service : Service) (s : Intake) : Prop where
  connected : s.conn.life.isConnected = true
  coherent : s.conn.Coherent
  torn : s.conn.socket.isReset = true → s.conn.socket.peerDone = true ∧ s.conn.socket.arrived = []
  whole : s.conn.socket.isReset = false → s.lost = []
  frames : ∀ later, s.served ++ (s.conn.held.toList ++ (s.inbound later).ahead.1) =
    service.framesOf (s.arrived ++ later)
  request : ∀ frame, s.conn.held = some frame → frame.header.isRequest = true
  toggles : ToggleLog.Leads false s.toggles s.conn.eventsStopped

theorem inv_start (service : Service) (context : String) (hasPeerAddress : Bool) :
    (start service context hasPeerAddress).Inv service where
  connected := rfl
  coherent := fun _ => ⟨rfl, rfl⟩
  torn := nofun
  whole := fun _ => rfl
  frames := fun later => by
    unfold inbound Inbound.ahead
    rw [List.flatten_singleton]
    rfl
  request := nofun
  toggles := .nil

/-! ### What one step preserves -/

theorem Inv.keepsInput (h : s.Inv service) {c : Connection} (hinput : s.conn.KeepsInput c)
    (hconnected : c.life.isConnected = true) (hcoherent : c.Coherent) {toggles : ToggleLog}
    (htoggles : ToggleLog.Leads false toggles c.eventsStopped) :
    { s with conn := c, toggles }.Inv service where
  connected := hconnected
  coherent := hcoherent
  torn := by
    rw [hinput.isReset, hinput.arrived]
    exact fun htorn => (h.torn htorn).imp_left hinput.peerDone
  whole := by
    rw [hinput.isReset]
    exact h.whole
  frames := by
    intro later
    have hahead : ({ s with conn := c, toggles }.inbound later).ahead = (s.inbound later).ahead := by
      show (c.decoder.drain (c.buffer ++ (c.socket.arrived ++ _))).result = _
      rw [hinput.decoder, hinput.buffer, hinput.arrived]
      rfl
    rw [hahead, hinput.held]
    exact h.frames later
  request := by
    rw [hinput.held]
    exact h.request
  toggles := htoggles

theorem Inv.takes (h : s.Inv service) (decoder : FrameDecoder) (buffer : Bytes)
    (held : Option Frame) (arrived : Bytes) (served : List Frame)
    (hframes : ∀ later, served ++ (held.toList ++
        ({ s with
          conn := { s.conn with
            decoder, buffer, held
            socket := { s.conn.socket with arrived } } }.inbound later).ahead.1) =
      s.served ++ (s.conn.held.toList ++ (s.inbound later).ahead.1))
    (hrequest : ∀ frame, held = some frame → frame.header.isRequest = true)
    (harrived : arrived = s.conn.socket.arrived ∨ arrived = []) :
    { s with
      conn := { s.conn with decoder, buffer, held, socket := { s.conn.socket with arrived } }
      served }.Inv service where
  connected := h.connected
  coherent := h.coherent
  torn := by
    intro htorn
    obtain ⟨hdone, hempty⟩ := h.torn htorn
    exact ⟨hdone, harrived.elim (fun heq => heq.trans hempty) id⟩
  whole := h.whole
  frames := fun later => (hframes later).trans (h.frames later)
  request := hrequest
  toggles := h.toggles

theorem Inv.outbound (h : s.Inv service) :
    s.conn.outbound.isDraining = false ∧ s.conn.outbound.isHalted = false ∧
      s.conn.outbound.isDone = false :=
  Outbound.isRunning_iff.mp (h.coherent (.of_isConnected h.connected)).2

theorem Inv.reads (h : s.Inv service) :
    s.conn.Reads service s.conn.takeUp (s.conn.readerTurn service) ∨
      s.conn.takeUp = none ∧
        ∃ c : Connection, s.conn.readerTurn service = c.stopReading .ioError :=
  Connection.reads_or_stops service h.outbound.2.1 fun hreset => (h.torn hreset).2

theorem Inv.serve (h : s.Inv service) (frame : Frame)
    (hconnected : (s.conn.serve service frame).2.life.isConnected = true) :
    { s with
      conn := (s.conn.serve service frame).2
      toggles := s.toggles ++ s.conn.handlerToggles service frame }.Inv service :=
  h.keepsInput (s.conn.serve_keepsInput service frame) hconnected
    (h.coherent.of_keeps (s.conn.keeps_serve service frame))
    (h.toggles.trans (s.conn.leads_handlerToggles service frame hconnected))

theorem Inv.read (h : s.Inv service)
    (hconnected : (s.conn.readerTurn service).2.life.isConnected = true) :
    (s.read service).Inv service := by
  obtain hreads | ⟨-, c, hstops⟩ := h.reads
  case inr =>
    rw [hstops] at hconnected
    exact absurd hconnected Connection.not_isConnected_stopReading
  unfold Intake.read
  generalize htaken : s.conn.takeUp = taken at hreads ⊢
  generalize s.conn.readerTurn service = turn at hreads hconnected ⊢
  cases hreads with
  | waits | suspended =>
    simp only [Connection.turnToggles, Option.toList_none, List.append_nil]
    exact h
  | @resumes frame hwaiting hheld hstarted =>
    have hafter := h.takes s.conn.decoder s.conn.buffer none s.conn.socket.arrived
      (s.served ++ [frame]) (fun later => by rw [hheld, List.append_assoc]; rfl) nofun (.inl rfl)
    have htakingUp : s.conn.onTakingUp = { s.conn with held := none } := by
      simp only [Connection.onTakingUp, hheld]
    simp only [Connection.turnToggles, htakingUp]
    exact hafter.serve frame hconnected
  | refuses | ends => exact absurd hconnected Connection.not_isConnected_stopReading
  | @holds frame decoder buffer hwaiting hheld hdecode hstopped =>
    -- It was not taken up, as a reply would have been.
    have hrequest : frame.header.isRequest = true := by
      unfold Connection.takeUp at htaken
      rw [hwaiting, hheld, hdecode] at htaken
      simpa [hstopped] using htaken
    simp only [Connection.turnToggles, Option.toList_none, List.append_nil]
    refine h.takes decoder buffer (some frame) s.conn.socket.arrived s.served (fun later => ?_)
      (fun f hf => Option.some.inj hf ▸ hrequest) (.inl rfl)
    rw [hheld, (Inbound.ahead_of_frame (s := s.inbound later) hdecode (some frame) s.served).1]
    rfl
  | @serves frame decoder buffer hwaiting hheld hdecode =>
    have hafter := h.takes decoder buffer s.conn.held s.conn.socket.arrived (s.served ++ [frame])
      (fun later => by
        rw [(Inbound.ahead_of_frame (s := s.inbound later) hdecode s.conn.held s.served).1, hheld,
          List.append_assoc]
        rfl)
      h.request (.inl rfl)
    have htakingUp : s.conn.onTakingUp = { s.conn with decoder, buffer } := by
      simp only [Connection.onTakingUp, hheld, hdecode]
    simp only [Connection.turnToggles, htakingUp]
    exact hafter.serve frame hconnected
  | @takesIn decoder buffer hwaiting hheld hdecode harrived =>
    simp only [Connection.turnToggles, Option.toList_none, List.append_nil]
    refine h.takes decoder (buffer ++ s.conn.socket.arrived) s.conn.held [] s.served
      (fun later => ?_) h.request (.inr rfl)
    rw [← Inbound.ahead_of_none (s := s.inbound later) hdecode]
    unfold inbound Inbound.ahead
    dsimp only
    rw [List.append_assoc]
    rfl
  | @starves decoder buffer hwaiting hheld hdecode harrived hdone =>
    simp only [Connection.turnToggles, Option.toList_none, List.append_nil]
    refine h.takes decoder buffer s.conn.held s.conn.socket.arrived s.served (fun later => ?_)
      h.request (.inl rfl)
    rw [← Inbound.ahead_of_none (s := s.inbound later) hdecode]
    rfl

theorem Inv.arrive (h : s.Inv service) {chunk : Bytes} {socket : Socket}
    (hwrite : s.conn.socket.peerWrite chunk = some socket) :
    { s with conn := { s.conn with socket }, arrived := s.arrived ++ chunk }.Inv service := by
  -- Either nothing has been lost so far, or nothing arrives any more.
  have hnone (hreset : s.conn.socket.isReset = true) : chunk = [] :=
    Socket.eq_nil_of_peerWrite hwrite (h.torn hreset).1
  obtain rfl := Socket.peerWrite_eq_some hwrite
  have hahead (later : Bytes) :
      s.conn.socket.arrived ++ chunk ++ (s.lost ++ later) =
        s.conn.socket.arrived ++ (s.lost ++ (chunk ++ later)) := by
    cases hreset : s.conn.socket.isReset with
    | true => rw [hnone hreset, List.append_nil, List.nil_append]
    | false => rw [h.whole hreset, List.nil_append, List.nil_append, List.append_assoc]
  exact {
    connected := h.connected
    coherent := h.coherent
    torn := fun hreset => by
      obtain ⟨hdone, hempty⟩ := h.torn hreset
      exact ⟨hdone, by rw [hempty, hnone hreset, List.append_nil]⟩
    whole := h.whole
    frames := fun later => by
      have hframes := h.frames (chunk ++ later)
      unfold inbound Inbound.ahead at hframes ⊢
      rw [List.flatten_singleton] at hframes ⊢
      rw [hahead, List.append_assoc]
      exact hframes
    request := h.request
    toggles := h.toggles }

theorem Inv.reset (h : s.Inv service) : s.reset.Inv service where
  connected := h.connected
  coherent := h.coherent
  torn := fun _ => ⟨rfl, rfl⟩
  whole := nofun
  frames := fun later => by
    have hahead : s.lost ++ s.conn.socket.arrived = s.conn.socket.arrived ++ s.lost := by
      cases hreset : s.conn.socket.isReset with
      | true => rw [(h.torn hreset).2, List.append_nil, List.nil_append]
      | false => rw [h.whole hreset, List.append_nil, List.nil_append]
    have hframes := h.frames later
    unfold inbound Inbound.ahead at hframes ⊢
    rw [List.flatten_singleton] at hframes ⊢
    show s.served ++ (s.conn.held.toList ++ (s.conn.decoder.drain
      (s.conn.buffer ++ ([] ++ (s.lost ++ s.conn.socket.arrived ++ later)))).result.1) = _
    rw [hahead, List.nil_append, List.append_assoc]
    exact hframes
  request := h.request
  toggles := h.toggles

theorem Inv.toggle (h : s.Inv service) (t : Toggle) : (s.toggle t).Inv service := by
  have hleads := h.toggles.trans (ToggleLog.leads_perform t h.connected)
  unfold Intake.toggle
  rcases t.perform_cases h.connected with ⟨-, heq⟩ | ⟨-, heq⟩
  · rw [heq] at hleads ⊢
    exact h.keepsInput (c := { s.conn with eventsStopped := t.target })
      ⟨rfl, rfl, rfl, rfl, id, rfl⟩ h.connected h.coherent hleads
  · rw [heq] at hleads ⊢
    exact { h with toggles := hleads }

theorem Inv.step (h : s.Inv service) (hstep : Step service s s')
    (hconnected : s'.conn.life.isConnected = true) : s'.Inv service := by
  cases hstep with
  | arrive hwrite => exact h.arrive hwrite
  | @peer socket harrived hdone hreset =>
    exact h.keepsInput (c := { s.conn with socket })
      ⟨rfl, rfl, rfl, harrived, hdone, hreset⟩ hconnected h.coherent h.toggles
  | reset => exact h.reset
  | reader => exact h.read hconnected
  | toggle t => exact h.toggle t
  | writer hturn =>
    obtain ⟨hinput, hevents⟩ := Connection.writerTurn_keepsInput hturn
    refine h.keepsInput hinput hconnected ?_ (hevents.symm ▸ h.toggles)
    exact h.coherent.writerTurn (.inl (eq_of_beq h.connected)) hturn
  | pickUp =>
    have hcoherent := h.coherent.step (Connection.Step.pickUp s.conn : s.conn.Step service _)
    exact h.keepsInput (c := s.conn.pickUp) ⟨rfl, rfl, rfl, rfl, id, rfl⟩ hconnected hcoherent
      h.toggles
  | act hact hevents =>
    exact h.keepsInput hact.beside.keepsInput hconnected (h.coherent.of_keeps hact.keeps)
      (hevents.symm ▸ h.toggles)

theorem Inv.stays (h : s.Inv service) (hstays : s.Stays service s') : s'.Inv service := by
  induction hstays with
  | refl => exact h
  | tail _ hlast ih => exact ih.step hlast.1 hlast.2

/-! ### While a request is held -/

theorem Inv.waits (h : s.Inv service) (hstep : Step service s s')
    (hconnected : s'.conn.life.isConnected = true) :
    s.served <+: s'.served ∧ ∃ log, s'.toggles = s.toggles ++ log ∧
      ∀ frame, s.conn.held = some frame → s.conn.eventsStopped = true → (.start, .ok ()) ∉ log →
        s'.conn.held = some frame ∧ s'.conn.eventsStopped = true ∧ s'.served = s.served := by
  cases hstep with
  | arrive | peer | reset | pickUp =>
    exact ⟨List.prefix_rfl, [], (List.append_nil _).symm, fun frame hheld hstopped _ =>
      ⟨hheld, hstopped, rfl⟩⟩
  | reader =>
    refine ⟨List.prefix_append _ _, _, rfl, fun frame hheld hstopped _ => ?_⟩
    obtain ⟨htaken, hturn⟩ :=
      Connection.readerTurn_of_suspended service h.outbound.2.1 hheld hstopped
    unfold Intake.read
    rw [htaken, hturn]
    exact ⟨hheld, hstopped, List.append_nil _⟩
  | toggle t =>
    refine ⟨List.prefix_rfl, _, rfl, fun frame hheld hstopped hnone => ?_⟩
    unfold Intake.toggle
    -- A toggle that takes effect while events are stopped is a start, and so is in the log.
    rcases t.perform_cases h.connected with ⟨hchanges, heq⟩ | ⟨-, heq⟩
    · rw [heq] at hnone ⊢
      cases t with
      | stop => exact absurd hstopped.symm hchanges
      | start => exact absurd List.mem_cons_self hnone
    · rw [heq]
      exact ⟨hheld, hstopped, rfl⟩
  | writer hturn =>
    obtain ⟨hinput, hevents⟩ := Connection.writerTurn_keepsInput hturn
    exact ⟨List.prefix_rfl, [], (List.append_nil _).symm, fun frame hheld hstopped _ =>
      ⟨hinput.held.trans hheld, hevents.trans hstopped, rfl⟩⟩
  | act hact hevents =>
    exact ⟨List.prefix_rfl, [], (List.append_nil _).symm, fun frame hheld hstopped _ =>
      ⟨hact.beside.held.trans hheld, hevents.trans hstopped, rfl⟩⟩

theorem Inv.waits_on (h : s.Inv service) (hstays : s.Stays service s') :
    s.served <+: s'.served ∧ ∃ log, s'.toggles = s.toggles ++ log ∧
      ∀ frame, s.conn.held = some frame → s.conn.eventsStopped = true → (.start, .ok ()) ∉ log →
        s'.conn.held = some frame ∧ s'.conn.eventsStopped = true ∧ s'.served = s.served := by
  induction hstays with
  | refl =>
    exact ⟨List.prefix_rfl, [], (List.append_nil _).symm, fun frame hheld hstopped _ =>
      ⟨hheld, hstopped, rfl⟩⟩
  | @tail s₁ s₂ hbefore hlast ih =>
    obtain ⟨hserved, log, hlog, hwaits⟩ := ih
    obtain ⟨hserved', log', hlog', hwaits'⟩ := (h.stays hbefore).waits hlast.1 hlast.2
    refine ⟨hserved.trans hserved', log ++ log', by rw [hlog', hlog, List.append_assoc], ?_⟩
    intro frame hheld hstopped hnone
    rw [List.mem_append, not_or] at hnone
    obtain ⟨hheld₁, hstopped₁, hserved₁⟩ := hwaits frame hheld hstopped hnone.1
    obtain ⟨hheld₂, hstopped₂, hserved₂⟩ := hwaits' frame hheld₁ hstopped₁ hnone.2
    exact ⟨hheld₂, hstopped₂, hserved₂.trans hserved₁⟩

/-! ### At every moment -/

/-- At this moment and in the next turn of the reader no frame is skipped or overtaken. -/
structure InOrder (service : Service) (s : Intake) : Prop where
  /-- The frames in what has arrived are those served, the one held, and those unread, in this
  order. -/
  conserves : service.framesOf s.arrived = s.served ++ (s.conn.held.toList ++ s.unread)
  /-- The frame taken up is the next one, and no request while events are stopped. -/
  serves : ∀ frame, s.conn.takeUp = some frame →
    s.conn.readerTurn service = s.conn.onTakingUp.serve service frame ∧
      (s.conn.held.toList ++ s.unread).head? = some frame ∧
      (frame.header.isRequest = true → s.conn.eventsStopped = false)
  /-- If none is taken up, the reader only reads on, or ends. -/
  passes : s.conn.takeUp = none → (s.conn.readerTurn service).1 ≠ .ended →
    ∃ decoder buffer held socket,
      (s.conn.readerTurn service).2 = { s.conn with decoder, buffer, held, socket }
  /-- A reply ahead of any request is processed even while events are stopped. -/
  replies : s.conn.outbound.waiting = none → s.conn.held = none → ∀ frame decoder buffer,
    s.conn.decoder.decode s.conn.buffer = ⟨.ok (some frame), decoder, buffer⟩ →
    frame.header.isRequest = false →
    s.conn.takeUp = some frame ∧
      s.conn.readerTurn service = (.served, { s.conn with decoder, buffer }.handleReply frame)
  /-- Only a request is held, and nothing is read behind it while events are stopped. -/
  holds : ∀ frame, s.conn.held = some frame → frame.header.isRequest = true ∧
    (s.conn.eventsStopped = true → s.conn.readerTurn service = (.idle, s.conn))
  /-- The reader is idle only if nothing is left ahead of the request that is held, or at all. -/
  idles : (s.conn.readerTurn service).1 = .idle → s.conn.outbound.waiting = none →
    s.conn.held = none ∧ s.served = service.framesOf s.arrived ∨
      s.conn.held.isSome = true ∧ s.conn.eventsStopped = true
  toggles : s.toggles.Alternates s.conn.eventsStopped
  /-- The toggles of a handler called in this turn have the same effect on events as toggles made by
  other threads. -/
  handlers : (s.conn.readerTurn service).2.life.isConnected = true → ∃ own : List Toggle,
    (own.foldl toggle s).toggles = (s.read service).toggles ∧
      (own.foldl toggle s).conn.eventsStopped = (s.read service).conn.eventsStopped

theorem foldl_toggle {before after : Bool} {log : ToggleLog} (h : ToggleLog.Leads before log after)
    (hconnected : s.conn.life.isConnected = true) (hbefore : s.conn.eventsStopped = before) :
    ((log.map Prod.fst).foldl toggle s).toggles = s.toggles ++ log ∧
      ((log.map Prod.fst).foldl toggle s).conn.eventsStopped = after ∧
      ((log.map Prod.fst).foldl toggle s).conn.life.isConnected = true := by
  induction h with
  | nil => exact ⟨(List.append_nil _).symm, hbefore, hconnected⟩
  | @succeeds log between _ t hchanges ih =>
    rw [List.map_append, List.foldl_append, ← List.append_assoc]
    obtain ⟨htoggles, hstopped, hconnected'⟩ := ih
    generalize (log.map Prod.fst).foldl toggle s = s' at htoggles hstopped hconnected' ⊢
    rcases t.perform_cases hconnected' with ⟨-, heq⟩ | ⟨hsame, -⟩
    · show (s'.toggle t).toggles = _ ∧ (s'.toggle t).conn.eventsStopped = _ ∧
        (s'.toggle t).conn.life.isConnected = true
      unfold Intake.toggle
      rw [heq, htoggles]
      exact ⟨rfl, rfl, hconnected'⟩
    · exact absurd (hsame.trans hstopped) hchanges
  | @fails log between _ t hkeeps ih =>
    rw [List.map_append, List.foldl_append, ← List.append_assoc]
    obtain ⟨htoggles, hstopped, hconnected'⟩ := ih
    generalize (log.map Prod.fst).foldl toggle s = s' at htoggles hstopped hconnected' ⊢
    rcases t.perform_cases hconnected' with ⟨hchanges, -⟩ | ⟨-, heq⟩
    · exact absurd (hkeeps.trans hstopped.symm) hchanges
    · show (s'.toggle t).toggles = _ ∧ (s'.toggle t).conn.eventsStopped = _ ∧
        (s'.toggle t).conn.life.isConnected = true
      unfold Intake.toggle
      rw [heq, htoggles]
      exact ⟨rfl, hstopped, hconnected'⟩

theorem Inv.handlers (h : s.Inv service)
    (hconnected : (s.conn.readerTurn service).2.life.isConnected = true) :
    ∃ own : List Toggle, (own.foldl Intake.toggle s).toggles = (s.read service).toggles ∧
      (own.foldl Intake.toggle s).conn.eventsStopped = (s.read service).conn.eventsStopped := by
  obtain hreads | ⟨-, c, hstops⟩ := h.reads
  case inr =>
    rw [hstops] at hconnected
    exact absurd hconnected Connection.not_isConnected_stopReading
  have hleads := Connection.leads_turnToggles hreads hconnected
  obtain ⟨htoggles, hstopped, -⟩ := foldl_toggle hleads h.connected rfl
  exact ⟨_, htoggles, hstopped⟩

theorem Inv.conserves (h : s.Inv service) :
    service.framesOf s.arrived = s.served ++ (s.conn.held.toList ++ s.unread) := by
  have hframes := h.frames []
  rw [List.append_nil] at hframes
  exact hframes.symm

theorem Inv.serves (h : s.Inv service) (htaken : s.conn.takeUp = some frame) :
    s.conn.readerTurn service = s.conn.onTakingUp.serve service frame ∧
      (s.conn.held.toList ++ s.unread).head? = some frame ∧
      (frame.header.isRequest = true → s.conn.eventsStopped = false) := by
  obtain hreads | ⟨hnone, -⟩ := h.reads
  case inr =>
    rw [hnone] at htaken
    cases htaken
  rw [htaken] at hreads
  unfold Connection.takeUp at htaken
  unfold Connection.onTakingUp
  generalize s.conn.readerTurn service = turn at hreads ⊢
  cases hreads with
  | resumes hwaiting hheld hstarted =>
    rw [hheld]
    exact ⟨rfl, rfl, fun _ => hstarted⟩
  | @serves _ decoder buffer hwaiting hheld hdecode =>
    rw [hwaiting, hheld, hdecode] at htaken
    have hunread := (Inbound.ahead_of_frame (s := s.inbound []) hdecode none []).1
    refine ⟨by simp only [hheld, hdecode], ?_, ?_⟩
    · rw [hheld, unread, hunread]
      rfl
    · simpa using htaken

theorem Inv.passes (h : s.Inv service) (hnone : s.conn.takeUp = none)
    (hgoes : (s.conn.readerTurn service).1 ≠ .ended) :
    ∃ decoder buffer held socket,
      (s.conn.readerTurn service).2 = { s.conn with decoder, buffer, held, socket } := by
  obtain hreads | ⟨-, c, hstops⟩ := h.reads
  case inr =>
    rw [hstops] at hgoes
    exact absurd rfl hgoes
  rw [hnone] at hreads
  generalize s.conn.readerTurn service = turn at hreads hgoes ⊢
  cases hreads with
  | refuses | ends => exact absurd rfl hgoes
  | waits | suspended | holds | takesIn | starves => exact ⟨_, _, _, _, rfl⟩

theorem Inv.replies (h : s.Inv service) (hwaiting : s.conn.outbound.waiting = none)
    (hheld : s.conn.held = none) {decoder : FrameDecoder} {buffer : Bytes}
    (hdecode : s.conn.decoder.decode s.conn.buffer = ⟨.ok (some frame), decoder, buffer⟩)
    (hreply : frame.header.isRequest = false) :
    s.conn.takeUp = some frame ∧
      s.conn.readerTurn service = (.served, { s.conn with decoder, buffer }.handleReply frame) := by
  have htaken : s.conn.takeUp = some frame := by
    unfold Connection.takeUp
    rw [hwaiting, hheld, hdecode]
    simp [hreply]
  obtain ⟨hturn, -, -⟩ := h.serves htaken
  refine ⟨htaken, ?_⟩
  rw [hturn, Connection.serve_of_not_isRequest _ _ (by simp [hreply])]
  simp only [Connection.onTakingUp, hheld, hdecode]

theorem Inv.idles (h : s.Inv service) (hidle : (s.conn.readerTurn service).1 = .idle)
    (hwaiting : s.conn.outbound.waiting = none) :
    s.conn.held = none ∧ s.served = service.framesOf s.arrived ∨
      s.conn.held.isSome = true ∧ s.conn.eventsStopped = true := by
  obtain hreads | ⟨-, c, hstops⟩ := h.reads
  case inr =>
    rw [hstops] at hidle
    cases hidle
  generalize s.conn.takeUp = taken, s.conn.readerTurn service = turn at hreads hidle
  cases hreads with
  | waits hwaits =>
    rw [hwaiting] at hwaits
    cases hwaits
  | suspended _ hheld hstopped => exact .inr ⟨by rw [hheld]; rfl, hstopped⟩
  | resumes | serves =>
    rw [Connection.fst_serve] at hidle
    cases hidle
  | refuses | holds | takesIn | ends => cases hidle
  | starves _ hheld hdecode harrived hdone =>
    -- A reset ends the stream, and a reader that waits for more has not come to an end.
    have hlost : s.lost = [] := by
      refine h.whole (Bool.eq_false_of_not_eq_true fun hreset => ?_)
      exact absurd ((h.torn hreset).1.symm.trans hdone) nofun
    have hahead := Inbound.ahead_of_starved (s := s.inbound []) hdecode harrived
      (by simp [inbound, hlost])
    rw [h.conserves, hheld, unread, hahead]
    exact .inl ⟨rfl, (List.append_nil _).symm⟩

theorem Inv.inOrder (h : s.Inv service) : s.InOrder service where
  conserves := h.conserves
  serves := fun _ => h.serves
  passes := h.passes
  replies := fun hwaiting hheld _ _ _ => h.replies hwaiting hheld
  holds := fun frame hheld => ⟨h.request frame hheld, fun hstopped =>
    (Connection.readerTurn_of_suspended service h.outbound.2.1 hheld hstopped).2⟩
  idles := h.idles
  toggles := h.toggles.alternates
  handlers := h.handlers

/-- **Stopping events keeps the order and loses nothing.**  On a connection that stays connected,
whether other threads or handlers stop and start events, and whenever they do, every moment is in
order; a toggle that is refused changes nothing; and what has been processed stays processed, while
a request that is held, and with it all behind it, waits until events are started. -/
theorem suspension_keeps_order {context : String} {hasPeerAddress : Bool}
    (hstays : (start service context hasPeerAddress).Stays service s) :
    s.InOrder service ∧
    (∀ (t : Toggle) (c c' : Connection) (e : RpcError), t.perform c = (.error e, c') → c' = c) ∧
    ∀ s', s.Stays service s' →
      s.served <+: s'.served ∧ ∃ log, s'.toggles = s.toggles ++ log ∧
        ∀ frame, s.conn.held = some frame → s.conn.eventsStopped = true →
          (.start, .ok ()) ∉ log → s'.conn.held = some frame ∧ s'.served = s.served := by
  have h : s.Inv service := (inv_start service context hasPeerAddress).stays hstays
  refine ⟨h.inOrder, fun t c c' e => t.perform_of_error, fun s' hlater => ?_⟩
  obtain ⟨hserved, log, hlog, hwaits⟩ := h.waits_on hlater
  refine ⟨hserved, log, hlog, fun frame hheld hstopped hnone => ?_⟩
  obtain ⟨hheld', -, hserved'⟩ := hwaits frame hheld hstopped hnone
  exact ⟨hheld', hserved'⟩

/-- A handler that stops events if its request says so, and replies whether they are stopped. -/
def pauseIf (c : Connection) : Value → Conduct InlineResult
  | .bool true => .act .stopEvents fun result c =>
    .done (.reply (.bool (result.isOk && c.eventsStopped)))
  | _ => .done (.reply (.bool c.eventsStopped))

/-- A request asks the handler to stop events, and a second one does not.  The first is answered, and
the second held until events have been started. -/
theorem suspension_keeps_order_of_two :
    ∃ (service : Service) (held resumed : Intake),
      (start service "default" false).Stays service held ∧ held.Stays service resumed ∧
      held.InOrder service ∧ held.conn.held.isSome = true ∧ held.served.length = 1 ∧
      held.toggles.done = [.stop] ∧ held.served <+: resumed.served ∧ resumed.served.length = 2 ∧
      resumed.toggles.done = [.stop, .start] := by
  let flag : PayloadType := ⟨0, "bool", .bool, []⟩
  let entry : HandledCommand := ⟨⟨flag, flag⟩, .inline pauseIf⟩
  let service : Service := { protocol := { name := "plug", sent := [], handled := [(50, entry)] } }
  let stream := (Frame.of (.request 50 1) [0, 0, 0, 1]).toBytes ++
    (Frame.of (.request 50 2) [0, 0, 0, 0]).toBytes
  let first := start service "default" false
  let arrived : Intake := { first with
    conn := { first.conn with socket := { first.conn.socket with arrived := stream } }
    arrived := stream }
  let served := (arrived.read service).read service
  let held := served.read service
  let started := (held.toggle .stop).toggle .start
  have harrive : Step service first arrived := .arrive rfl
  have hserves : first.Stays service served :=
    ((Relation.ReflTransGen.single ⟨harrive, rfl⟩).tail ⟨.reader, by decide +kernel⟩).tail
      ⟨.reader, by decide +kernel⟩
  have hheld : first.Stays service held := hserves.tail ⟨.reader, by decide +kernel⟩
  have hresumed : held.Stays service (started.read service) :=
    ((Relation.ReflTransGen.single ⟨.toggle .stop, by decide +kernel⟩).tail
      ⟨.toggle .start, by decide +kernel⟩).tail ⟨.reader, by decide +kernel⟩
  obtain ⟨hinOrder, -, hlater⟩ := suspension_keeps_order hheld
  exact ⟨service, held, started.read service, hheld, hresumed, hinOrder, by decide +kernel,
    by decide +kernel, by decide +kernel, (hlater _ hresumed).1, by decide +kernel,
    by decide +kernel⟩

end Intake

end CallWire
