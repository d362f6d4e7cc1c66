import CallWire.Proofs.Connection.Flushing
import CallWire.Proofs.Connection.Reading

/-!
# CallWire.Proofs.Connection.Turns — the turns of a connection, step by step

A connection that runs by itself lets its reader and its writer take turns, and a turn is done in
one go.  Each is a run of the single steps that the threads take: nothing comes between them, and
the writer writes a frame in one piece.  So whatever holds of all such runs holds of a connection
that settles.
-/

namespace CallWire

namespace Outflow

variable {service : Service} {s s' s'' : Outflow} {c c' c'' : Connection} {n m : Nat}

/-- The reader and the writer are between two turns. -/
structure AtRest (s : Outflow) : Prop where
  life : s.conn.life.state = .connected ∨ s.conn.life.state = .closing
  reader : s.reader = .reading
  free : s.isPromised = false
  working : s.conn.outbound.isDone = false →
    s.writer = .serving ∧ s.rest = s.conn.outbound.inHand.getD []
  done : s.conn.outbound.isDone = true →
    s.writer = .left ∧ s.conn.outbound.inHand = none ∧ s.conn.outbound.queue = []

theorem atRest_start (service : Service) (context : String) (hasPeerAddress : Bool) :
    (start service context hasPeerAddress).AtRest where
  life := .inl rfl
  reader := rfl
  free := rfl
  working := fun _ => ⟨rfl, rfl⟩
  done := nofun

theorem AtRest.of_eq (h : s.AtRest)
    (hlife : s'.conn.life.state = .connected ∨ s'.conn.life.state = .closing)
    (hreader : s'.reader = s.reader) (hfree : s'.isPromised = s.isPromised)
    (hwriter : s'.writer = s.writer) (hrest : s'.rest = s.rest)
    (hhand : s'.conn.outbound.inHand = s.conn.outbound.inHand)
    (hdone : s'.conn.outbound.isDone = s.conn.outbound.isDone)
    (hqueue : s.conn.outbound.isDone = true → s'.conn.outbound.queue = s.conn.outbound.queue) :
    s'.AtRest where
  life := hlife
  reader := hreader.trans h.reader
  free := hfree.trans h.free
  working := by
    rw [hdone, hwriter, hrest, hhand]
    exact h.working
  done := by
    intro hstopped
    rw [hdone] at hstopped
    rw [hwriter, hhand, hqueue hstopped]
    exact h.done hstopped

theorem Proceeds.trans (h : s.Proceeds n s') (h' : s'.Proceeds m s'') :
    s.Proceeds (n + m) s'' := by
  induction h' with
  | refl => exact h
  | writer _ hstep ih => exact ih.writer hstep
  | others _ hstep ih => exact ih.others hstep

/-! ### What handlers do -/

/-- A run of steps by the application and the reader from `c` to `c'`. -/
def Does (c c' : Connection) : Prop :=
  ∀ s : Outflow, s.AtRest → s.conn = c →
    ∃ s', s.Proceeds 0 s' ∧ s'.AtRest ∧ s'.conn = c'

theorem does_refl (c : Connection) : Does c c := fun s hs hconn => ⟨s, .refl, hs, hconn⟩

theorem Does.trans (h : Does c c') (h' : Does c' c'') : Does c c'' := by
  intro s hs hconn
  obtain ⟨s', hrun, hs', hconn'⟩ := h s hs hconn
  obtain ⟨s'', hrun', hs'', hconn''⟩ := h' s' hs' hconn'
  exact ⟨s'', hrun.trans hrun', hs'', hconn''⟩

theorem does_other (houtbound : c'.outbound = c.outbound)
    (hdelivered : c'.socket.delivered = c.socket.delivered)
    (hdone : c'.socket.isDone = c.socket.isDone) (hlife : c'.life = c.life) : Does c c' := by
  rintro s hs rfl
  have hkept : c'.life.isConnected = true → s.conn.life.isConnected = true := by
    rw [hlife]
    exact id
  refine ⟨{ s with conn := c' }, .others .refl (.other houtbound hdelivered hdone hkept), ?_, rfl⟩
  refine hs.of_eq ?_ rfl rfl rfl rfl ?_ ?_ fun _ => ?_
  · exact hlife ▸ hs.life
  · exact congrArg Outbound.inHand houtbound
  · exact congrArg Outbound.isDone houtbound
  · exact congrArg Outbound.queue houtbound

theorem does_enqueue (c : Connection) (frame : Bytes) : Does c (c.enqueue frame).2 := by
  rintro s hs rfl
  refine ⟨(s.enqueue frame).2, .others .refl (.enqueue frame), ?_, (s.enqueue_eq hs.free frame).2⟩
  rcases s.enqueue_cases frame with ⟨e, heq, -⟩ | ⟨-, hconnected, heq⟩
  · rw [heq]
    exact hs
  · have hok : (s.conn.enqueue frame).1 = .ok () := by
      rw [← (s.enqueue_eq hs.free frame).1, heq]
    have hworks : ¬ s.conn.outbound.isDone = true := by
      intro hdone
      unfold Connection.enqueue Outbound.offer at hok
      rw [if_pos hconnected, if_pos hdone] at hok
      cases hok
    rw [heq]
    exact hs.of_eq hs.life rfl rfl rfl rfl rfl rfl fun hdone => absurd hdone hworks

theorem does_close (c : Connection) : Does c c.close.2 := by
  rintro s hs rfl
  refine ⟨s.close, .others .refl .close, ?_, rfl⟩
  have hlife : s.conn.close.2.life.state = .connected ∨ s.conn.close.2.life.state = .closing := by
    unfold Connection.close
    rcases s.conn.life.close_cases with ⟨e, h⟩ | ⟨life, h, hclosing⟩
    · rw [h]
      exact hs.life
    · rw [h]
      exact .inr hclosing
  obtain ⟨life, isDraining, heq, -⟩ := s.conn.exists_close
  rw [heq] at hlife
  unfold close
  rw [heq]
  exact hs.of_eq hlife rfl rfl rfl rfl rfl rfl fun _ => rfl

theorem does_calls (c : Connection) (calls : Calls) : Does c { c with calls } :=
  does_other rfl rfl rfl rfl

theorem does_sendOneWay (service : Service) (c : Connection) (command : UInt32)
    (type : PayloadType) (note : Value) : Does c (c.sendOneWay service command type note).2 := by
  rcases c.sendOneWay_cases service command type note with heq | ⟨n, calls, payload, -, -, heq⟩
  · rw [heq]
    exact does_refl c
  · rw [heq]
    exact (does_calls c calls).trans (does_enqueue _ _)

theorem does_startCall (service : Service) (c : Connection) (command : UInt32)
    (types : CommandTypes) (request : Value) :
    Does c (c.startCall service command types request).2 := by
  obtain ⟨calls, -, heq | ⟨n, payload, -, hqueued⟩⟩ :=
    c.startCall_cases service command types request
  · rw [heq]
    exact does_calls c calls
  · have hdoes := does_enqueue { c with calls } (Frame.image (.request command n) payload)
    rw [hqueued] at hdoes
    exact (does_calls c calls).trans hdoes

/-- What a handler does is such a run. -/
theorem does_allowsHandlers (service : Service) : Connection.AllowsHandlers service Does where
  refl := does_refl
  trans := .trans
  record := fun _ _ => does_other rfl rfl rfl rfl
  events := fun _ _ => does_other rfl rfl rfl rfl
  close := does_close
  shutDown := fun _ => does_other rfl rfl rfl rfl
  oneWay := does_sendOneWay service
  call := does_startCall service
  keep := fun _ _ => does_other rfl rfl rfl rfl
  reply := fun c _ _ _ _ => does_enqueue c _
  error := fun c _ _ _ => does_enqueue c _

/-! ### The reader -/

theorem does_sendReply (hwaiting : c.outbound.waiting = none) (reply : Bytes) :
    Does c (c.sendReply reply) := by
  rintro s hs rfl
  unfold Connection.sendReply
  by_cases hconnected : s.conn.life.isConnected = true
  · rw [if_pos hconnected]
    have hreply : s.ReaderStep { s with reader := .replying reply } :=
      .reply reply hs.reader hwaiting hconnected
    have hsend : ({ s with reader := .replying reply } : Outflow).ReaderStep
        (({ s with reader := .replying reply } : Outflow).send reply) := .send rfl
    refine ⟨_, .others (.others .refl (.reader hreply)) (.reader hsend), ?_, rfl⟩
    unfold send Outbound.await
    by_cases hdone : s.conn.outbound.isDone = true
    · simp only [if_pos hdone]
      exact hs.of_eq hs.life hs.reader.symm rfl rfl rfl rfl rfl fun _ => rfl
    · simp only [if_neg hdone]
      split
      · exact hs.of_eq hs.life hs.reader.symm rfl rfl rfl rfl rfl fun h => absurd h hdone
      · exact hs.of_eq hs.life hs.reader.symm rfl rfl rfl rfl rfl fun _ => rfl
  · rw [if_neg hconnected]
    exact ⟨s, .refl, hs, rfl⟩

theorem does_serve (service : Service) (hwaiting : c.outbound.waiting = none) (frame : Frame) :
    Does c (c.serve service frame).2 := by
  by_cases hrequest : frame.header.isRequest = true
  · have hanswer := (does_allowsHandlers service).answer c frame
    have hbeside := (Connection.beside_allowsHandlers service).answer c frame
    rw [Connection.serve_of_isRequest service c hrequest]
    rcases Connection.replyTo service frame (c.answer service frame).1 with _ | reply
    · exact hanswer
    · exact hanswer.trans (does_sendReply (hbeside.waiting.trans hwaiting) reply)
  · rw [c.serve_of_not_isRequest service hrequest]
    obtain ⟨calls, events, heq⟩ := c.exists_handleReply frame
    rw [heq]
    exact does_other rfl rfl rfl rfl

theorem finish_of_stopped (hlife : c.life.state = .connected ∨ c.life.state = .closing)
    (reason : DisconnectReason) :
    (({ c with outbound := { c.outbound with waiting := none } } : Connection).fail
      reason).stopWriting.finish reason = (c.stopReading reason).2 := by
  obtain ⟨context, outbound, decoder, ⟨state, isClaimed, because⟩⟩ := c
  rcases hlife with rfl | rfl
  · rfl
  · rfl

theorem AtRest.stopReading (hs : s.AtRest) {reason : DisconnectReason}
    (hreason : s.conn.outbound.isHalted = true ∧ reason = .user ∨
      s.conn.outbound.waiting = none ∧ FindsEnd s.conn reason) :
    ∃ s', s.Proceeds 0 s' ∧ s'.conn = (s.conn.stopReading reason).2 := by
  -- `stopReading` is six steps: the reader ends, tells the connection, halts the writer, which
  -- leaves and lets go of the queue, and the connection finishes.
  let atEnd := s.endReading reason
  let failed : Outflow := { atEnd.fail reason with reader := .failed reason }
  let halted : Outflow := { failed.halt with reader := .stopped reason }
  let left : Outflow := { halted with writer := .left }
  let stopped := left.stopWriting
  let finished : Outflow :=
    { stopped with conn := stopped.conn.finish reason, isPromised := false }
  have hend : s.ReaderStep atEnd := by
    rcases hreason with ⟨hhalted, rfl⟩ | ⟨hwaiting, hfinds⟩
    · exact .cancelled (hs.reader ▸ rfl) hhalted
    · exact .ends hs.reader hwaiting hfinds
  have hfail : atEnd.ReaderStep failed := .fail rfl
  have hhalt : failed.ReaderStep halted := .halt rfl
  have hleave : halted.Proceeds 0 left := by
    cases hdone : s.conn.outbound.isDone with
    | false => exact .others .refl (.leave ((hs.working hdone).1 ▸ rfl) rfl)
    | true =>
      have hgone : halted.writer = .left := (hs.done hdone).1
      rw [show left = halted from congrArg (fun writer => { halted with writer }) hgone.symm]
      exact .refl
  have hstop : left.Step .others stopped := .stop rfl rfl
  have hfinish : stopped.ReaderStep finished := .finish rfl rfl rfl
  have hbegun : s.Proceeds 0 halted :=
    ((Proceeds.refl.others (.reader hend)).others (.reader hfail)).others (.reader hhalt)
  refine ⟨finished, ((hbegun.trans hleave).others hstop).others (.reader hfinish), ?_⟩
  exact finish_of_stopped hs.life reason

theorem AtRest.readerTurn (service : Service) (hs : s.AtRest) :
    ∃ s', s.Proceeds 0 s' ∧ s'.conn = (s.conn.readerTurn service).2 ∧
      ((s.conn.readerTurn service).1 ≠ .ended → s'.AtRest) := by
  have hgoes {turn : Turn} {c : Connection} (h : Does s.conn c) :
      ∃ s', s.Proceeds 0 s' ∧ s'.conn = c ∧ (turn ≠ .ended → s'.AtRest) := by
    obtain ⟨s', hrun, hs', hconn⟩ := h s hs rfl
    exact ⟨s', hrun, hconn, fun _ => hs'⟩
  have hstops {reason : DisconnectReason} (decoder : FrameDecoder) (buffer : Bytes)
      (hreason : s.conn.outbound.isHalted = true ∧ reason = .user ∨
        s.conn.outbound.waiting = none ∧ FindsEnd { s.conn with decoder, buffer } reason) :
      ∃ s', s.Proceeds 0 s' ∧
        s'.conn = ({ s.conn with decoder, buffer }.stopReading reason).2 ∧
        (Turn.ended ≠ .ended → s'.AtRest) := by
    have hbefore : Does s.conn { s.conn with decoder, buffer } := does_other rfl rfl rfl rfl
    obtain ⟨s₁, hrun, hs₁, hconn⟩ := hbefore s hs rfl
    have hreason₁ : s₁.conn.outbound.isHalted = true ∧ reason = .user ∨
        s₁.conn.outbound.waiting = none ∧ FindsEnd s₁.conn reason := by
      rw [hconn]
      exact hreason
    obtain ⟨s', hend, hended⟩ := hs₁.stopReading hreason₁
    rw [hconn] at hended
    exact ⟨s', hrun.trans hend, hended, fun h => absurd rfl h⟩
  have hturn := s.conn.readerTurn_turn service
  generalize s.conn.readerTurn service = turn at hturn ⊢
  cases hturn with
  | idle => exact hgoes (does_other rfl rfl rfl rfl)
  | takesIn => exact hgoes (does_other rfl rfl rfl rfl)
  | serves decoder buffer held frame hwaiting =>
    have hbefore : Does s.conn { s.conn with decoder, buffer, held } := does_other rfl rfl rfl rfl
    exact hgoes (hbefore.trans
      (does_serve service (c := { s.conn with decoder, buffer, held }) hwaiting frame))
  | halted decoder buffer hhalted => exact hstops decoder buffer (.inl ⟨hhalted, rfl⟩)
  | refused hwaiting hdecode =>
    exact hstops s.conn.decoder s.conn.buffer (.inr ⟨hwaiting, _, hdecode⟩)
  | reset decoder buffer hwaiting hreset => exact hstops decoder buffer (.inr ⟨hwaiting, hreset⟩)
  | closed decoder buffer hwaiting harrived hdone =>
    exact hstops decoder buffer (.inr ⟨hwaiting, harrived, hdone⟩)

/-! ### The writer -/

theorem AtRest.pickUp (hs : s.AtRest) :
    ∃ n s', s.Proceeds n s' ∧ s'.AtRest ∧ s'.conn = s.conn.pickUp := by
  unfold Connection.pickUp
  rcases s.conn.outbound.pickUp_cases with ⟨-, heq⟩ | ⟨hhand, frame, queue, hqueue, heq⟩
  · rw [heq]
    exact ⟨0, s, .refl, hs, rfl⟩
  · have hworks : ¬ s.conn.outbound.isDone = true := by
      intro hdone
      have hempty := (hs.done hdone).2.2
      rw [hqueue] at hempty
      cases hempty
    obtain ⟨hwriter, -⟩ := hs.working (Bool.eq_false_iff.mpr hworks)
    have htake : s.Step .writer (s.take frame queue) := .writer (.take (hwriter ▸ rfl) hhand hqueue)
    rw [heq]
    cases hwaiting : s.conn.outbound.waiting with
    | none =>
      refine ⟨1, s.take frame queue, .writer .refl htake, ?_, ?_⟩
      · have hfree : (s.take frame queue).isPromised = false := congrArg Option.isSome hwaiting
        exact ⟨hs.life, hs.reader, hfree, fun _ => ⟨hwriter, rfl⟩, fun h => absurd h hworks⟩
      · unfold Outflow.take
        rw [Option.toList_none, List.append_nil, ← hwaiting]
    | some reply =>
      have hredeem : (s.take frame queue).ReaderStep ((s.take frame queue).redeem reply) :=
        .redeem (congrArg Option.isSome hwaiting) hwaiting
      refine ⟨1, _, .others (.writer .refl htake) (.reader hredeem), ?_, rfl⟩
      exact ⟨hs.life, hs.reader, rfl, fun _ => ⟨hwriter, rfl⟩, fun h => absurd h hworks⟩

theorem AtRest.writeOut (hs : s.AtRest) {frame : Bytes} {socket : Socket}
    (hdone : s.conn.outbound.isDone = false) (hhand : s.conn.outbound.inHand = some frame)
    (hwrite : s.conn.socket.write frame = some socket) :
    ∃ n s', s.Proceeds n s' ∧ s'.AtRest ∧
      s'.conn = { s.conn with outbound := { s.conn.outbound with inHand := none }, socket } := by
  obtain ⟨hdeaf, rfl⟩ := Socket.write_eq_some hwrite
  have hworks : ¬ s.conn.outbound.isDone = true := Bool.eq_false_iff.mp hdone
  obtain ⟨hwriter, hrest⟩ := hs.working hdone
  rw [hhand, Option.getD_some] at hrest
  let written : Outflow := { s with
    conn := { s.conn with
      socket := { s.conn.socket with delivered := s.conn.socket.delivered ++ frame } }
    rest := [] }
  -- An empty frame has no piece to write.
  have hpieces : ∃ n, s.Proceeds n written := by
    by_cases hempty : frame = []
    · refine ⟨0, ?_⟩
      have hsame : written = s := by
        rw [hempty] at hrest
        simp only [written, hempty, List.append_nil]
        exact congrArg (fun rest => { s with rest }) hrest.symm
      rw [hsame]
      exact .refl
    · have hpos : 0 < s.rest.length := by
        rw [hrest]
        exact List.length_pos_iff.mpr hempty
      have hsocket := Socket.write_of_not_deaf hdeaf (s.rest.take s.rest.length)
      have hpiece := WriterStep.piece (hwriter ▸ rfl) hhand hpos (Nat.le_refl _) hsocket
      rw [List.take_length, List.drop_length, hrest] at hpiece
      exact ⟨1, .writer .refl (.writer hpiece)⟩
  obtain ⟨n, hpieces⟩ := hpieces
  have hnext : written.Step .writer { written with
      conn := { written.conn with
        outbound := { written.conn.outbound with inHand := none } } } :=
    .writer (.next (hwriter ▸ rfl) hhand rfl)
  refine ⟨n + 1, _, hpieces.writer hnext, ?_, rfl⟩
  exact ⟨hs.life, hs.reader, hs.free, fun _ => ⟨hwriter, rfl⟩, fun h => absurd h hworks⟩

theorem AtRest.shutDown (hs : s.AtRest) (hdone : s.conn.outbound.isDone = false)
    (hhand : s.conn.outbound.inHand = none) (hqueue : s.conn.outbound.queue = [])
    (hasked : s.conn.outbound.isDraining = true) :
    ∃ n s', s.Proceeds n s' ∧ s'.AtRest ∧
      s'.conn = ({ s.conn with socket := s.conn.socket.shutDown } : Connection).stopWriting := by
  obtain ⟨hwriter, -⟩ := hs.working hdone
  let draining : Outflow := { s with writer := .draining }
  let finishing : Outflow := { s with writer := .finishing }
  let down : Outflow :=
    { s with conn := { s.conn with socket := s.conn.socket.shutDown }, writer := .left }
  have hdrain : s.WriterStep draining := .drain hwriter hhand (.inl hasked)
  have hfinish : draining.WriterStep finishing := .finish rfl hhand hqueue
  have hdown : finishing.WriterStep down := .shutDown rfl
  have hhalt : down.Step .others down.halt := .halt rfl
  have hstop : down.halt.Step .others down.halt.stopWriting := .stop rfl rfl
  refine ⟨3, _, ((((Proceeds.refl.writer (.writer hdrain)).writer (.writer hfinish)).writer
    (.writer hdown)).others hhalt).others hstop, ?_, rfl⟩
  exact ⟨hs.life, hs.reader, rfl, nofun, fun _ => ⟨rfl, rfl, rfl⟩⟩

theorem AtRest.stopWriting (hs : s.AtRest) (hdone : s.conn.outbound.isDone = false)
    (hhalted : s.conn.outbound.isHalted = true) :
    ∃ n s', s.Proceeds n s' ∧ s'.AtRest ∧ s'.conn = s.conn.stopWriting := by
  obtain ⟨hwriter, -⟩ := hs.working hdone
  have hleave : s.Step .others { s with writer := .left } := .leave (hwriter ▸ rfl) hhalted
  have hstop : ({ s with writer := .left } : Outflow).Step .others
      ({ s with writer := .left } : Outflow).stopWriting := .stop rfl hhalted
  refine ⟨0, _, (Proceeds.refl.others hleave).others hstop, ?_, rfl⟩
  exact ⟨hs.life, hs.reader, rfl, nofun, fun _ => ⟨rfl, rfl, rfl⟩⟩

theorem AtRest.breakOff (hs : s.AtRest) (hdone : s.conn.outbound.isDone = false) :
    ∃ s', s.Leads s' ∧ s'.AtRest ∧ s'.conn = (s.conn.fail .ioError).stopWriting := by
  obtain ⟨hwriter, -⟩ := hs.working hdone
  let broken : Outflow := { s with writer := .broken }
  let told : Outflow := { broken.fail .ioError with writer := .left }
  have hstate : (s.conn.fail .ioError).life.state = .closing :=
    Connection.state_fail hs.life .ioError
  have hhalted : (s.conn.fail .ioError).outbound.isHalted = true := by
    unfold Connection.fail
    rcases hs.life with hstate | hstate
    · rw [hstate]
      rfl
    · rw [hstate]
      rfl
  have hfault : s.Step .fault broken := .fault (hwriter ▸ rfl)
  have hreport : broken.Step .fault told := .report rfl
  have hstop : told.Step .others told.stopWriting := .stop rfl hhalted
  refine ⟨_, ((Relation.ReflTransGen.single ⟨_, hfault⟩).tail ⟨_, hreport⟩).tail ⟨_, hstop⟩, ?_, rfl⟩
  exact ⟨.inr hstate, hs.reader, rfl, nofun, fun _ => ⟨rfl, rfl, rfl⟩⟩

theorem stopWriting_fail_of_inHand (c : Connection) (inHand : Option Bytes)
    (reason : DisconnectReason) :
    (({ c with outbound := { c.outbound with inHand } } : Connection).fail reason).stopWriting =
      (c.fail reason).stopWriting := by
  unfold Connection.fail
  dsimp only
  split
  · rfl
  · rfl
  · rfl
  · rfl

theorem AtRest.writerTurn (hs : s.AtRest) (hturn : s.conn.writerTurn = some c) :
    ∃ s', s.Leads s' ∧ s'.AtRest ∧ s'.conn = c := by
  obtain ⟨hdone, hturn⟩ := Connection.writerTurn_turn hturn
  have hpick {frame : Bytes} {outbound : Outbound}
      (hpop : s.conn.outbound.pop = some (frame, outbound)) :
      ∃ s', s.Leads s' ∧ s'.AtRest ∧ s'.conn = s.conn.pickUp ∧
        s'.conn.outbound.isDone = false ∧ s'.conn.outbound.inHand = some frame ∧
        outbound = { s'.conn.outbound with inHand := none } := by
    obtain ⟨n, s', hrun, hs', hconn⟩ := hs.pickUp
    refine ⟨s', hrun.leads, hs', hconn, ?_⟩
    rw [hconn]
    exact ⟨s.conn.outbound.isDone_pickUp.trans hdone, Outbound.inHand_pickUp_of_pop hpop,
      Outbound.pop_eq_some hpop⟩
  cases hturn with
  | halted hhalted =>
    obtain ⟨n, s', hrun, h⟩ := hs.stopWriting hdone hhalted
    exact ⟨s', hrun.leads, h⟩
  | @writes frame outbound socket hpop hwrite =>
    obtain ⟨s₁, hrun₁, hs₁, hconn, hdone₁, hhand, houtbound⟩ := hpick hpop
    have hwrite₁ : s₁.conn.socket.write frame = some socket := hconn ▸ hwrite
    obtain ⟨n, s', hrun, hs', hconn'⟩ := hs₁.writeOut hdone₁ hhand hwrite₁
    refine ⟨s', hrun₁.trans hrun.leads, hs', ?_⟩
    rw [hconn', ← houtbound, hconn]
    rfl
  | @breaks frame outbound hpop =>
    obtain ⟨s₁, hrun₁, hs₁, hconn, hdone₁, -, houtbound⟩ := hpick hpop
    obtain ⟨s', hrun, hs', hconn'⟩ := hs₁.breakOff hdone₁
    refine ⟨s', hrun₁.trans hrun, hs', ?_⟩
    rw [hconn', houtbound, hconn]
    exact (stopWriting_fail_of_inHand s.conn.pickUp none .ioError).symm
  | shutsDown hpop hdraining =>
    obtain ⟨hhand, hqueue⟩ := Outbound.pop_eq_none hpop
    obtain ⟨n, s', hrun, h⟩ := hs.shutDown hdone hhand hqueue hdraining
    exact ⟨s', hrun.leads, h⟩

theorem AtRest.write (hs : s.AtRest) (turns : Nat) :
    ∃ s', s.Leads s' ∧ s'.AtRest ∧ s'.conn = s.conn.write turns := by
  induction turns generalizing s with
  | zero => exact ⟨s, .refl, hs, rfl⟩
  | succ turns ih =>
    unfold Connection.write
    cases hturn : s.conn.writerTurn with
    | none => exact ⟨s, .refl, hs, rfl⟩
    | some c =>
      obtain ⟨s₁, hrun₁, hs₁, rfl⟩ := hs.writerTurn hturn
      obtain ⟨s', hrun, h⟩ := ih hs₁
      exact ⟨s', hrun₁.trans hrun, h⟩

/-! ### Both in turn -/

theorem AtRest.run (service : Service) (hs : s.AtRest) (turns : Nat) :
    ∃ s', s.Leads s' ∧ s'.conn = s.conn.run service turns := by
  induction turns generalizing s with
  | zero => exact ⟨s, .refl, rfl⟩
  | succ turns ih =>
    unfold Connection.run
    obtain ⟨s₁, hread, hconn, hrest⟩ := hs.readerTurn service
    -- After each kind of turn the rest of the run is the induction hypothesis, at rest again.
    have hgoes {s₂ : Outflow} (hrun : s₁.Leads s₂) (hs₂ : s₂.AtRest) :
        ∃ s', s.Leads s' ∧ s'.conn = s₂.conn.run service turns := by
      obtain ⟨s', hrun', h⟩ := ih hs₂
      exact ⟨s', (hread.leads.trans hrun).trans hrun', h⟩
    rcases hturn : s.conn.readerTurn service with ⟨_ | _ | _ | _, c⟩
    all_goals
      rw [hturn] at hconn hrest
      subst hconn
      dsimp only
    · cases hwriter : s₁.conn.writerTurn with
      | none => exact ⟨s₁, hread.leads, rfl⟩
      | some c =>
        obtain ⟨s₂, hwrite, hs₂, rfl⟩ := (hrest nofun).writerTurn hwriter
        exact hgoes hwrite hs₂
    · exact hgoes .refl (hrest nofun)
    · obtain ⟨s₂, hflush, hs₂, hflushed⟩ := (hrest nofun).write (s₁.conn.outbound.queue.length + 4)
      change s₂.conn = s₁.conn.flush at hflushed
      rw [← hflushed]
      split
      · have hevict : s₂.Step .force
            { s₂ with conn := s₂.conn.finish .user, writer := .left, isPromised := false } :=
          .evict .user
        exact ⟨_, (hread.leads.trans hflush).tail ⟨_, hevict⟩, rfl⟩
      · exact hgoes hflush hs₂
    · exact ⟨s₁, hread.leads, rfl⟩

theorem AtRest.settle (service : Service) (hs : s.AtRest) :
    ∃ s', s.Leads s' ∧ s'.conn = s.conn.settle service := by
  unfold Connection.settle
  rcases hs.life with hstate | hstate
  · rw [hstate]
    exact hs.run service _
  · rw [hstate]
    exact hs.run service _

theorem AtRest.begin (service : Service) (hs : s.AtRest) :
    ∃ s', s.Leads s' ∧ s'.conn = s.conn.begin service := by
  unfold Connection.begin
  split
  · obtain ⟨s₁, hflush, hs₁, hconn⟩ := hs.write (s.conn.outbound.queue.length + 4)
    obtain ⟨s', hrun, h⟩ := hs₁.settle service
    rw [hconn] at h
    exact ⟨s', hflush.trans hrun, h⟩
  · obtain ⟨n, s₁, hpick, hs₁, hconn⟩ := hs.pickUp
    obtain ⟨s', hrun, h⟩ := hs₁.settle service
    rw [hconn] at h
    exact ⟨s', hpick.leads.trans hrun, h⟩

theorem AtRest.begin_isOrderly {context : String} {hasPeerAddress : Bool} (hs : s.AtRest)
    (hleads : (start service context hasPeerAddress).Leads s) :
    ∃ s' : Outflow, s'.conn = s.conn.begin service ∧
      s'.IsOrderly service.config.maxQueuedFrames ∧
      s.accepted <+: s'.accepted ∧ s.written <+: s'.written := by
  obtain ⟨s', hbegin, hconn⟩ := hs.begin service
  have hlater := hbegin.later
  exact ⟨s', hconn, isOrderly_of_leads (hleads.trans hbegin), hlater.accepted, hlater.written⟩

end Outflow

end CallWire
