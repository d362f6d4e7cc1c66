import CallWire.Proofs.Connection.EndToEnd
import CallWire.Proofs.Connection.Rounds
import CallWire.Proofs.Frame.Tail

/-!
# CallWire.Proofs.Connection.StreamEnd — only the stream ends a session from the wire

Whatever the frames of the peer say, the reader processes all of them, each once and in order, and
nothing of what is left behind them.  It then stops: because the stream has ended, be it in the
middle of a frame, or because what follows is not a frame.  It cannot be kept from that for longer
than the frames before it take, as long as the writer writes and events are not stopped.
-/

namespace CallWire

namespace Connection

variable {service : Service} {c : Connection}

/-- The effect of a turn of the reader on the rest of the connection. -/
inductive ReadsOn (service : Service) (reason : DisconnectReason) (c : Connection) :
    Option Frame → Connection → Prop
  /-- It processes a frame, changing nothing else but its own decoder and buffer. -/
  | processes {frame : Frame} {decoder : FrameDecoder} {buffer : Bytes} {c' : Connection}
      (hserve : { c with decoder, buffer, held := none }.serve service frame = (.served, c'))
      (hlife : c'.life = c.life) : ReadsOn service reason c (some frame) c'
  | leaves {decoder : FrameDecoder} {buffer : Bytes} {held : Option Frame} {socket : Socket} :
      ReadsOn service reason c none { c with decoder, buffer, held, socket }
  | ends {c' : Connection}
      (hlife : c'.life = { c.life with state := .closed, reason := some reason })
      (hcalls : c'.calls = c.calls.drain.2)
      (hevents : c'.events = c.events ++ [.disconnected reason]) : ReadsOn service reason c none c'

theorem readsOn_serve (hquiet : service.IsQuiet) (reason : DisconnectReason)
    (hstate : c.life.state = .connected) (frame : Frame) (decoder : FrameDecoder) (buffer : Bytes) :
    c.ReadsOn service reason (some frame)
      ({ c with decoder, buffer, held := none }.serve service frame).2 := by
  have hserved := fst_serve service { c with decoder, buffer, held := none } frame
  have hspares := serve_spares hquiet (c := { c with decoder, buffer, held := none }) frame hstate
  exact .processes (Prod.ext hserved rfl) hspares.life

theorem readsOn_stopReading {reason : DisconnectReason} (hstate : c.life.state = .connected)
    (hreason : c.life.reason = none) (decoder : FrameDecoder) (buffer : Bytes) :
    c.ReadsOn service reason none ({ c with decoder, buffer }.stopReading reason).2 := by
  obtain ⟨-, hlife, -, hcalls, hevents⟩ :=
    stopReading_of_connected { c with decoder, buffer } reason hstate hreason
  exact .ends hlife hcalls hevents

end Connection

namespace Inbound

variable {service : Service} {s s' : Inbound} {frames : List Frame} {error : Option RpcError}

/-! ### The turns of the reader -/

theorem Inv.readsOn (h : s.Inv frames error) (hquiet : service.IsQuiet) :
    s.conn.ReadsOn service (stopReason error) s.conn.takeUp (s.conn.readerTurn service).2 := by
  have hreads := h.reads service
  generalize s.conn.takeUp = taken, s.conn.readerTurn service = turn at hreads ⊢
  cases hreads with
  | waits | suspended | holds | takesIn | starves => exact .leaves
  | @resumes frame =>
    exact Connection.readsOn_serve hquiet _ h.state frame s.conn.decoder s.conn.buffer
  | @serves frame decoder buffer hwaiting hheld hdecode =>
    rw [hheld]
    exact Connection.readsOn_serve hquiet _ h.state frame decoder buffer
  | refuses hwaiting hheld hdecode =>
    obtain rfl : _ = error := (congrArg Prod.snd (ahead_of_error hdecode)).symm.trans h.error
    exact Connection.readsOn_stopReading h.state h.reason s.conn.decoder s.conn.buffer
  | @ends decoder buffer hwaiting hheld hdecode harrived hdone =>
    obtain rfl : none = error := (congrArg Prod.snd
      (ahead_of_starved hdecode harrived
        (congrArg List.flatten (h.last hdone)))).symm.trans h.error
    exact Connection.readsOn_stopReading h.state h.reason decoder buffer

/-! ### Settling -/

theorem Inv.run_write (service : Service) (h : s.Inv frames error)
    (hdeaf : s.conn.socket.peerDeaf = false) (turns : Nat) :
    Relation.ReflTransGen (Step service) s { s with conn := s.conn.write turns } ∧
      s.conn.Spares (s.conn.write turns) := by
  induction turns generalizing s with
  | zero => exact ⟨.refl, .refl s.conn⟩
  | succ turns ih =>
    unfold Connection.write
    cases hturn : s.conn.writerTurn with
    | none => exact ⟨.refl, .refl s.conn⟩
    | some c =>
      have hspares := Connection.writerTurn_spares h.running hdeaf hturn
      obtain ⟨hrun, hlater⟩ := ih (h.spares hspares) (hspares.peerDeaf.trans hdeaf)
      exact ⟨.head (.writer hturn hdeaf) hrun, hspares.trans hlater⟩

theorem Inv.exists_run_turns (h : s.Inv frames error) (hquiet : service.IsQuiet)
    (hdeaf : s.conn.socket.peerDeaf = false) (turns : Nat) :
    ∃ served, Relation.ReflTransGen (Step service) s
      { s with conn := s.conn.run service turns, served } := by
  -- `Connection.run` calls itself once for every turn of the reader.
  induction turns generalizing s with
  | zero => exact ⟨s.served, .refl⟩
  | succ turns ih =>
    have hstep : Step service s (s.read service) := .reader h.state
    have hread := h.read hquiet
    have hkeeps := (h.reads service).keeps hquiet h.state
    unfold Inbound.read at hstep hread
    unfold Connection.run
    generalize s.conn.readerTurn service = r at hstep hread hkeeps ⊢
    obtain ⟨turn, c⟩ := r
    have hinv (hgoes : turn ≠ .ended) := (hread.resolve_left fun hended => hgoes hended.1).2
    cases turn with
    | ended => exact ⟨_, .single hstep⟩
    | read =>
      obtain ⟨served, hrun⟩ := ih (hinv nofun) ((hkeeps nofun).2.trans hdeaf)
      exact ⟨served, .head hstep hrun⟩
    | served =>
      have hafter := hinv nofun
      have hdeaf' := (hkeeps nofun).2.trans hdeaf
      obtain ⟨hflush, hspares⟩ := hafter.run_write service hdeaf' (c.outbound.queue.length + 4)
      have hflushed := hafter.spares hspares
      obtain ⟨served, hrun⟩ := ih hflushed (hspares.peerDeaf.trans hdeaf')
      have hupheld : ¬ c.flush.shutsDown = true := Bool.eq_false_iff.mp hflushed.upheld
      refine ⟨served, .head hstep (hflush.trans ?_)⟩
      dsimp only
      rw [if_neg hupheld]
      exact hrun
    | idle =>
      have hafter := hinv nofun
      have hdeaf' := (hkeeps nofun).2.trans hdeaf
      cases hturn : c.writerTurn with
      | none =>
        dsimp only
        rw [hturn]
        exact ⟨_, .single hstep⟩
      | some c' =>
        have hspares := Connection.writerTurn_spares hafter.running hdeaf' hturn
        obtain ⟨served, hrun⟩ := ih (hafter.spares hspares) (hspares.peerDeaf.trans hdeaf')
        refine ⟨served, .head hstep (.head (.writer hturn hdeaf') ?_)⟩
        dsimp only
        rw [hturn]
        exact hrun

theorem Inv.exists_run_settle (h : s.Inv frames error) (hquiet : service.IsQuiet)
    (hdeaf : s.conn.socket.peerDeaf = false) :
    ∃ served, Relation.ReflTransGen (Step service) s
      { s with conn := s.conn.settle service, served } := by
  unfold Connection.settle
  rw [h.state]
  exact h.exists_run_turns hquiet hdeaf s.conn.turnBound

/-! ### The session -/

/-- A newly connected connection on which these pieces will arrive. -/
def start (service : Service) (context : String) (hasPeerAddress : Bool) (chunks : List Bytes) :
    Inbound where
  conn := (Connection.new service context).claim.2.establish hasPeerAddress
  toCome := chunks

theorem Inv.start {service : Service} (hvalid : service.config.validate = .ok ())
    {chunks : List Bytes} (hwhole : ((FrameDecoder.mk service.config.maxPayloadLength none).drain
      chunks.flatten).result = (frames, error)) (context : String) (hasPeerAddress : Bool) :
    (start service context hasPeerAddress chunks).Inv frames error where
  state := rfl
  reason := rfl
  running := rfl
  capacity := Config.maxQueuedFrames_pos hvalid
  parked := nofun
  sound := rfl
  upheld := rfl
  last := nofun
  frames := congrArg Prod.fst hwhole
  error := congrArg Prod.snd hwhole

/-- The reader processes exactly these frames, each once and in order, and the connection then ends
for the reason of this error. -/
structure Follows (service : Service) (frames : List Frame) (error : Option RpcError)
    (s : Inbound) : Prop where
  served : s.served <+: frames
  state : s.conn.life.state = .connected ∧ s.conn.life.reason = none ∨ s.Stopped frames error
  turn : s.conn.life.state = .connected →
    s.conn.ReadsOn service (stopReason error) s.conn.takeUp (s.conn.readerTurn service).2
  ends : s.IsComplete error → ∀ n, s.conn.turnsLeft < n →
    (∃ s', Rounds service s n s') ∧ ∀ s', Rounds service s n s' → s'.Stopped frames error

theorem Inv.follows (h : s.Inv frames error) (hquiet : service.IsQuiet) :
    s.Follows service frames error where
  served := ⟨_, h.frames⟩
  state := .inl ⟨h.state, h.reason⟩
  turn := fun _ => h.readsOn hquiet
  ends := by
    intro hcomplete n hmany
    obtain ⟨s', hrounds, -⟩ := exists_rounds service s n
    refine ⟨⟨s', hrounds⟩, fun s' hrounds => ?_⟩
    rcases h.rounds hcomplete hquiet hrounds with hstopped | ⟨-, hle⟩
    · exact hstopped
    · omega

theorem Stopped.follows (h : s.Stopped frames error) : s.Follows service frames error where
  served := h.served ▸ List.prefix_refl _
  state := .inr h
  turn := by
    intro hconnected
    cases hconnected.symm.trans h.state
  ends := by
    intro _ n _
    obtain ⟨s', hrounds, -⟩ := exists_rounds service s n
    exact ⟨⟨s', hrounds⟩, fun s' => h.rounds⟩

theorem follows_of_run {service : Service} (hvalid : service.config.validate = .ok ())
    (hquiet : service.IsQuiet) {chunks : List Bytes}
    (hwhole : ((FrameDecoder.mk service.config.maxPayloadLength none).drain chunks.flatten).result =
      (frames, error)) {context : String} {hasPeerAddress : Bool}
    (hrun : Relation.ReflTransGen (Step service) (start service context hasPeerAddress chunks) s) :
    s.Follows service frames error := by
  rcases (Inv.start hvalid hwhole context hasPeerAddress).run hquiet hrun with hinv | hstopped
  · exact hinv.follows hquiet
  · exact hstopped.follows

theorem exists_follows {service : Service} (hvalid : service.config.validate = .ok ())
    (hquiet : service.IsQuiet) (chunks : List Bytes) : ∃ sent rest error,
      chunks.flatten = Frame.stream sent ++ rest ∧
      Frame.IsTail service.config.maxPayloadLength rest error ∧
      ∀ (context : String) (hasPeerAddress : Bool) (s : Inbound),
        Relation.ReflTransGen (Step service) (start service context hasPeerAddress chunks) s →
        s.Follows service (sent.map Frame.arrived) error := by
  obtain ⟨sent, rest, error, hchunks, hsent, htail⟩ :=
    Frame.exists_stream service.config.maxPayloadLength chunks.flatten
  have hwhole := Frame.drain_stream_append (Config.maxPayloadLength_lt hvalid) hsent htail
  rw [← hchunks] at hwhole
  exact ⟨sent, rest, error, hchunks, htail, fun _ _ _ => follows_of_run hvalid hquiet hwhole⟩

/-- **Only the stream ends a session from the wire.**  Frames are followed by one that does not come
to its end, or by a header that is refused and anything behind it.  In whatever pieces all this
arrives, and whatever else happens short of closing the connection, the reader processes exactly
those frames, whatever they say.  Then, and not before, the connection ends: in the first case when
the peer writes no more, because the stream has ended, and in the second because of the header. -/
theorem follows_of_stream {service : Service} (hvalid : service.config.validate = .ok ())
    (hquiet : service.IsQuiet) {sent : List Frame} {rest : Bytes} {error : Option RpcError}
    (hsent : ∀ f ∈ sent, f.IsSendable service.config.maxPayloadLength)
    (htail : Frame.IsTail service.config.maxPayloadLength rest error)
    {chunks : List Bytes} (hchunks : chunks.flatten = Frame.stream sent ++ rest)
    {context : String} {hasPeerAddress : Bool} {s : Inbound}
    (hrun : Relation.ReflTransGen (Step service) (start service context hasPeerAddress chunks) s) :
    s.Follows service (sent.map Frame.arrived) error := by
  have hwhole := Frame.drain_stream_append (Config.maxPayloadLength_lt hvalid) hsent htail
  rw [← hchunks] at hwhole
  exact follows_of_run hvalid hquiet hwhole hrun

/-- A request with the error flag is processed, and then a header with flags that do not exist ends
the session. -/
theorem follows_of_stream_refused :
    let service : Service := { protocol := { name := "plain" } }
    let request : Frame := ⟨⟨9, 1, Flag.error.bit, 0⟩, [7]⟩
    let bytes : Bytes := Frame.stream [request] ++ (Header.mk 7 2 0xff 0).toBytes
    ∃ s, Relation.ReflTransGen (Step service)
        (start service "" true [bytes.take 5, bytes.drop 5]) s ∧
      s.served = [request.arrived] ∧ s.conn.life.state = .closed ∧
      s.conn.life.reason = some .protocolError := by
  intro service request bytes
  let opened : Inbound := start service "" true [bytes.take 5, bytes.drop 5]
  let cut : Inbound :=
    { conn := { opened.conn with socket := { arrived := bytes.take 5 } }, toCome := [bytes.drop 5] }
  let whole : Inbound :=
    { conn := { opened.conn with socket := { arrived := bytes.take 5 ++ bytes.drop 5 } }
      toCome := [] }
  have hcut : Step service opened cut := .arrive rfl rfl
  have hwhole : Step service cut whole := .arrive rfl rfl
  have hconnected : whole.conn.life.state = .connected ∧
      (whole.read service).conn.life.state = .connected ∧
      ((whole.read service).read service).conn.life.state = .connected ∧
      (((whole.read service).read service).read service).conn.life.state = .closed := by
    dsimp only [whole, opened, bytes, request, service]
    decide +kernel
  obtain ⟨hfirst, hsecond, hthird, hclosed⟩ := hconnected
  have hread : Relation.ReflTransGen (Step service) whole
      (((whole.read service).read service).read service) :=
    ((Relation.ReflTransGen.single (.reader hfirst)).tail (.reader hsecond)).tail (.reader hthird)
  have hrun := ((Relation.ReflTransGen.single hcut).tail hwhole).trans hread
  have hsent : ∀ f ∈ [request], f.IsSendable service.config.maxPayloadLength := by
    intro f hf
    rw [List.mem_singleton.mp hf]
    exact ⟨by decide, by decide⟩
  have hbytes : [bytes.take 5, bytes.drop 5].flatten = bytes := by
    rw [List.flatten_cons, List.flatten_singleton, List.take_append_drop]
  obtain ⟨e, he⟩ : ∃ e, FrameDecoder.accept service.config.maxPayloadLength
      (Header.mk 7 2 0xff 0).toBytes = .error e := ⟨_, rfl⟩
  have hfollows := follows_of_stream (rfl : service.config.validate = .ok ()) nofun hsent
    (.refused (Header.length_toBytes _).ge he) hbytes hrun
  rcases hfollows.state with ⟨hconnected, -⟩ | hstopped
  · cases hclosed.symm.trans hconnected
  · exact ⟨_, hrun, hstopped.served, hclosed, hstopped.reason⟩

end Inbound

end CallWire
