import CallWire.Proofs.Connection.Reading

/-!
# CallWire.Proofs.Connection.Rounds — how long a reader can be kept from the end of its stream

Every turn of the reader leaves less before it, unless its last reply waits for room.  For room to
be made, two frames at most have to be written.  So once everything has arrived, a bounded number of
turns of the writer and the reader, one after the other, brings the reader to the end of the stream,
whatever else happens in between.
-/

namespace CallWire

/-! ### What is before the reader -/

theorem FrameDecoder.measure_le_of_none {d d' : FrameDecoder} {buffer rest : Bytes}
    (h : d.decode buffer = ⟨.ok none, d', rest⟩) : d'.measure rest ≤ d.measure buffer := by
  have hpayload {header : Header} {bytes : Bytes}
      (h : d.payload header bytes = ⟨.ok none, d', rest⟩) :
      d'.measure rest = 2 * bytes.length + 1 := by
    unfold FrameDecoder.payload at h
    split at h
    · cases h
    · cases h
      rfl
  cases hawaiting : d.awaiting with
  | some header =>
    rw [decode_awaiting hawaiting] at h
    rw [hpayload h]
    unfold measure
    rw [hawaiting]
    exact Nat.le_refl _
  | none =>
    cases hsplit : split? Header.size buffer with
    | none =>
      rw [decode_short hawaiting hsplit] at h
      cases h
      exact Nat.le_refl _
    | some taken =>
      obtain ⟨head, behind⟩ := taken
      cases haccept : accept d.limit buffer with
      | error e =>
        rw [decode_refused hawaiting hsplit haccept] at h
        cases h
      | ok header =>
        rw [decode_accepted hawaiting hsplit haccept] at h
        have hlength := length_of_split? hsplit
        have hsize : Header.size = 13 := rfl
        rw [hpayload h]
        unfold measure
        omega

namespace Outbound

/-- The number of frames to be written before a waiting reply has room. -/
def blockage (o : Outbound) : Nat :=
  if o.waiting.isSome then if o.inHand.isSome then 2 else 1 else 0

variable {o o' : Outbound}

theorem blockage_le_two (o : Outbound) : o.blockage ≤ 2 := by
  unfold blockage
  split
  · split
    · exact Nat.le_refl 2
    · exact Nat.le_succ 1
  · exact Nat.zero_le 2

theorem blockage_eq_zero : o.blockage = 0 ↔ o.waiting = none := by
  unfold blockage
  cases o.waiting with
  | none => simp
  | some reply =>
    cases o.inHand with
    | none => simp
    | some frame => simp

theorem blockage_pickUp_le (o : Outbound) : o.pickUp.blockage ≤ o.blockage := by
  rcases o.pickUp_cases with ⟨-, heq⟩ | ⟨-, frame, rest, -, heq⟩
  · rw [heq]
  · rw [heq]
    exact Nat.zero_le _

theorem blockage_pop {frame : Bytes} (h : o.pop = some (frame, o')) :
    o'.blockage ≤ o.blockage ∧ (o.blockage ≠ 0 → o'.blockage < o.blockage) := by
  obtain ⟨f, hinHand, -⟩ := Option.map_eq_some_iff.mp h
  obtain rfl := pop_eq_some h
  rcases o.pickUp_cases with ⟨-, heq⟩ | ⟨-, first, rest, -, heq⟩
  · rw [heq] at hinHand ⊢
    unfold blockage
    rw [hinHand]
    cases o.waiting with
    | none => simp
    | some reply => simp
  · rw [heq]
    exact ⟨Nat.zero_le _, Nat.pos_of_ne_zero⟩

theorem IsParked.exists_pop (h : o.IsParked) (hblockage : o.blockage ≠ 0) :
    ∃ frame o', o.pop = some (frame, o') := by
  have hwaiting : o.waiting.isSome = true := by
    rw [← Option.ne_none_iff_isSome]
    exact fun hnone => hblockage (blockage_eq_zero.mpr hnone)
  exact exists_pop_eq_some (.inr (h hwaiting))

end Outbound

namespace Connection

variable {service : Service} {c c' c'' : Connection} {taken : Option Frame}
  {turn : Turn × Connection}

/-- A measure of what the reader has still to take in, decode and process. -/
def backlog (c : Connection) : Nat :=
  2 * c.decoder.measure c.buffer + 5 * c.socket.arrived.length + c.held.toList.length

/-- A bound on the turns until the reader is idle. -/
def turnsLeft (c : Connection) : Nat := 3 * c.backlog + c.outbound.blockage

/-- The measure of the reader has not grown. -/
def Eases (c c' : Connection) : Prop :=
  c'.backlog < c.backlog ∨ c'.backlog = c.backlog ∧ c'.outbound.blockage ≤ c.outbound.blockage

theorem Eases.refl (c : Connection) : c.Eases c := .inr ⟨rfl, Nat.le_refl _⟩

theorem Eases.trans (h : c.Eases c') (h' : c'.Eases c'') : c.Eases c'' := by
  unfold Eases at *
  omega

theorem Eases.turnsLeft_le (h : c.Eases c') : c'.turnsLeft ≤ c.turnsLeft := by
  have htwo := c'.outbound.blockage_le_two
  unfold Eases at h
  unfold turnsLeft
  omega

theorem turnsLeft_lt_of_backlog (h : c'.backlog < c.backlog) : c'.turnsLeft < c.turnsLeft := by
  have htwo := c'.outbound.blockage_le_two
  unfold turnsLeft
  omega

theorem Spares.backlog_eq (h : c.Spares c') : c'.backlog = c.backlog := by
  unfold backlog
  rw [h.decoder, h.buffer, h.arrived, h.held]

theorem Beside.eases (h : c.Beside c') : c.Eases c' := by
  refine .inr ⟨?_, ?_⟩
  · unfold backlog
    rw [h.decoder, h.buffer, h.socket, h.held]
  · unfold Outbound.blockage
    rw [h.waiting, h.inHand]

theorem Reads.backlog_lt (h : Reads service c taken turn) (hquiet : service.IsQuiet)
    (hstate : c.life.state = .connected) (hgoes : turn.1 ≠ .ended) :
    turn.2.backlog < c.backlog ∨
      turn.1 = .idle ∧ turn.2.backlog ≤ c.backlog ∧ turn.2.outbound = c.outbound := by
  -- Each case takes something out of `backlog`, except for a reader that has nothing to take.
  cases h with
  | waits | suspended => exact .inr ⟨rfl, Nat.le_refl _, rfl⟩
  | refuses | ends => exact absurd rfl hgoes
  | @resumes frame hwaiting hheld hstarted =>
    refine .inl ?_
    rw [(serve_spares hquiet (c := { c with held := none }) frame hstate).backlog_eq]
    unfold backlog
    rw [hheld]
    exact Nat.lt_succ_self _
  | @holds frame decoder buffer hwaiting hheld hdecode hstopped =>
    have hless := FrameDecoder.decode_measure hdecode
    refine .inl ?_
    unfold backlog
    rw [hheld]
    dsimp only [Option.toList_some, List.length_singleton]
    omega
  | @serves frame decoder buffer hwaiting hheld hdecode =>
    have hless := FrameDecoder.decode_measure hdecode
    refine .inl ?_
    rw [(serve_spares hquiet (c := { c with decoder, buffer }) frame hstate).backlog_eq]
    unfold backlog
    dsimp only
    omega
  | @takesIn decoder buffer hwaiting hheld hdecode harrived =>
    have hle := FrameDecoder.measure_le_of_none hdecode
    have hpos := List.length_pos_iff.mpr harrived
    refine .inl ?_
    unfold backlog
    unfold FrameDecoder.measure at hle ⊢
    dsimp only
    rw [List.length_append, List.length_nil]
    omega
  | @starves decoder buffer hwaiting hheld hdecode harrived hdone =>
    have hle := FrameDecoder.measure_le_of_none hdecode
    refine .inr ⟨rfl, ?_, rfl⟩
    unfold backlog
    dsimp only
    omega

theorem Reads.of_idle (h : Reads service c taken turn) (hidle : turn.1 = .idle) :
    c.outbound.waiting.isSome = true ∨ c.eventsStopped = true ∨
      c.socket.arrived = [] ∧ c.socket.peerDone = false ∧
        ∃ decoder buffer, c.decoder.decode c.buffer = ⟨.ok none, decoder, buffer⟩ := by
  cases h with
  | waits hwaiting => exact .inl hwaiting
  | suspended _ _ hstopped => exact .inr (.inl hstopped)
  | starves _ _ hdecode harrived hdone => exact .inr (.inr ⟨harrived, hdone, _, _, hdecode⟩)
  | resumes | serves =>
    rw [fst_serve] at hidle
    cases hidle
  | refuses | holds | takesIn | ends => cases hidle

theorem eases_writerTurn (hrunning : c.outbound.isRunning = true)
    (hdeaf : c.socket.peerDeaf = false) (hturn : c.writerTurn = some c') :
    c.Eases c' ∧ (c.outbound.blockage ≠ 0 → c'.turnsLeft < c.turnsLeft) := by
  have hbacklog := (writerTurn_spares hrunning hdeaf hturn).backlog_eq
  rw [writerTurn_eq hrunning hdeaf] at hturn
  obtain ⟨⟨frame, outbound⟩, hpop, rfl⟩ := Option.map_eq_some_iff.mp hturn
  obtain ⟨hle, hless⟩ := Outbound.blockage_pop hpop
  refine ⟨.inr ⟨hbacklog, hle⟩, fun hblocked => ?_⟩
  unfold turnsLeft
  rw [hbacklog]
  exact Nat.add_lt_add_left (hless hblocked) _

theorem blockage_of_writerTurn (hrunning : c.outbound.isRunning = true)
    (hdeaf : c.socket.peerDeaf = false) (hparked : c.outbound.IsParked)
    (hturn : c.writerTurn = none) : c.outbound.blockage = 0 := by
  by_contra hblocked
  obtain ⟨frame, outbound, hpop⟩ := hparked.exists_pop hblocked
  rw [writerTurn_eq hrunning hdeaf, hpop] at hturn
  cases hturn

end Connection

namespace Inbound

variable {service : Service} {s s' s'' : Inbound} {frames : List Frame} {error : Option RpcError}

/-! ### The way to the end -/

/-- Everything up to the end of the stream has been written by the peer. -/
structure IsComplete (error : Option RpcError) (s : Inbound) : Prop where
  toCome : s.toCome = []
  done : error.isSome = true ∨ s.conn.socket.peerDone = true

/-- The session goes on without more turns left than before. -/
structure Nears (frames : List Frame) (error : Option RpcError) (s s' : Inbound) : Prop where
  inv : s'.Inv frames error
  complete : s'.IsComplete error
  eases : s.conn.Eases s'.conn

theorem Nears.trans (h : Nears frames error s s') (h' : Nears frames error s' s'') :
    Nears frames error s s'' :=
  ⟨h'.inv, h'.complete, h.eases.trans h'.eases⟩

theorem IsComplete.of_eq (h : s.IsComplete error) (htoCome : s'.toCome = s.toCome)
    (hdone : s.conn.socket.peerDone = true → s'.conn.socket.peerDone = true) :
    s'.IsComplete error :=
  ⟨htoCome.trans h.toCome, h.done.imp_right hdone⟩

theorem Inv.nears_read (h : s.Inv frames error) (hcomplete : s.IsComplete error)
    (hquiet : service.IsQuiet) : (s.read service).Stopped frames error ∨
      Nears frames error s (s.read service) ∧ (s.conn.eventsStopped = false →
        s.conn.outbound.blockage = 0 → (s.read service).conn.backlog < s.conn.backlog) := by
  rcases h.read hquiet with ⟨-, hstopped⟩ | ⟨hgoes, hinv⟩
  · exact .inl hstopped
  have hreads := h.reads service
  have hdone := (hreads.keeps hquiet h.state hgoes).1
  have hless := hreads.backlog_lt hquiet h.state hgoes
  refine .inr ⟨⟨hinv, hcomplete.of_eq rfl hdone.trans, ?_⟩, ?_⟩
  · rcases hless with hless | ⟨-, hle, houtbound⟩
    · exact .inl hless
    · rcases hle.lt_or_eq with hless | heq
      · exact .inl hless
      · exact .inr ⟨heq, (congrArg Outbound.blockage houtbound).le⟩
  · intro hstarted hfree
    rcases hless with hless | ⟨hidle, -, -⟩
    · exact hless
    exfalso
    rcases hreads.of_idle hidle with
      hwaiting | hstopped | ⟨harrived, hopen, decoder, buffer, hdecode⟩
    · rw [Outbound.blockage_eq_zero.mp hfree] at hwaiting
      cases hwaiting
    · rw [hstarted] at hstopped
      cases hstopped
    -- There is nothing before the reader, so no error either.
    · have hnone : none = error := (congrArg Prod.snd
        (ahead_of_starved hdecode harrived
          (congrArg List.flatten hcomplete.toCome))).symm.trans h.error
      rcases hcomplete.done with herror | hclosed
      · rw [← hnone] at herror
        cases herror
      · rw [hopen] at hclosed
        cases hclosed

theorem Inv.nears_step (h : s.Inv frames error) (hcomplete : s.IsComplete error)
    (hquiet : service.IsQuiet) (hstep : Step service s s') :
    s'.Stopped frames error ∨ Nears frames error s s' := by
  have hafter := h.step hquiet hstep
  cases hstep with
  | arrive htoCome =>
    rw [hcomplete.toCome] at htoCome
    cases htoCome
  | reader => exact (h.nears_read hcomplete hquiet).imp_right And.left
  | endOfStream =>
    exact hafter.symm.imp_right fun hinv => ⟨hinv, hcomplete.of_eq rfl fun _ => rfl, .refl _⟩
  | peer harrived hdone hreset =>
    refine hafter.symm.imp_right fun hinv => ⟨hinv, hcomplete.of_eq rfl hdone.trans, ?_⟩
    refine .inr ⟨?_, Nat.le_refl _⟩
    unfold Connection.backlog
    rw [harrived]
  | writer hturn hdeaf =>
    have hdone := (Connection.writerTurn_spares h.running hdeaf hturn).peerDone
    exact hafter.symm.imp_right fun hinv => ⟨hinv, hcomplete.of_eq rfl hdone.trans,
      (Connection.eases_writerTurn h.running hdeaf hturn).1⟩
  | pickUp =>
    exact hafter.symm.imp_right fun hinv => ⟨hinv, hcomplete.of_eq rfl id,
      .inr ⟨rfl, s.conn.outbound.blockage_pickUp_le⟩⟩
  | act hact =>
    exact hafter.symm.imp_right fun hinv => ⟨hinv,
      hcomplete.of_eq rfl (congrArg Socket.peerDone hact.beside.socket).trans, hact.beside.eases⟩

theorem Inv.nears_run (h : s.Inv frames error) (hcomplete : s.IsComplete error)
    (hquiet : service.IsQuiet) (hrun : Relation.ReflTransGen (Step service) s s') :
    s'.Stopped frames error ∨ Nears frames error s s' := by
  induction hrun with
  | refl => exact .inr ⟨h, hcomplete, .refl _⟩
  | tail _ hstep ih =>
    rcases ih with hstopped | hnears
    · exact .inl (hstopped.step hstep)
    · exact (hnears.inv.nears_step hnears.complete hquiet hstep).imp_right hnears.trans

theorem Stopped.run (h : s.Stopped frames error)
    (hrun : Relation.ReflTransGen (Step service) s s') : s'.Stopped frames error := by
  induction hrun with
  | refl => exact h
  | tail _ hstep ih => exact ih.step hstep

def writeNext (s : Inbound) : Inbound := { s with conn := s.conn.writerTurn.getD s.conn }

def readNext (service : Service) (s : Inbound) : Inbound :=
  if s.conn.life.isConnected then s.read service else s

/-- A run in which the writer and the reader each take this many turns while the peer reads and
events are not stopped. -/
inductive Rounds (service : Service) (s : Inbound) : Nat → Inbound → Prop
  | run {s' : Inbound} (hrun : Relation.ReflTransGen (Step service) s s') : Rounds service s 0 s'
  | round {n : Nat} {s₁ s₂ s' : Inbound} (h : Rounds service s n s₁)
      (hdeaf : s₁.conn.socket.peerDeaf = false)
      (hbetween : Relation.ReflTransGen (Step service) s₁.writeNext s₂)
      (hstarted : s₂.conn.life.isConnected = true → s₂.conn.eventsStopped = false)
      (hafter : Relation.ReflTransGen (Step service) (s₂.readNext service) s') :
      Rounds service s (n + 1) s'

theorem run_writeNext (service : Service) (hdeaf : s.conn.socket.peerDeaf = false) :
    Relation.ReflTransGen (Step service) s s.writeNext := by
  unfold writeNext
  cases hturn : s.conn.writerTurn with
  | none => exact .refl
  | some c => exact .single (.writer hturn hdeaf)

theorem Inv.nears_writeNext (h : s.Inv frames error) (hcomplete : s.IsComplete error)
    (hdeaf : s.conn.socket.peerDeaf = false) :
    Nears frames error s s.writeNext ∧
      (s.conn.outbound.blockage = 0 ∨ s.writeNext.conn.turnsLeft < s.conn.turnsLeft) := by
  unfold writeNext
  cases hturn : s.conn.writerTurn with
  | none =>
    exact ⟨⟨h, hcomplete, .refl _⟩,
      .inl (Connection.blockage_of_writerTurn h.running hdeaf h.parked hturn)⟩
  | some c =>
    have hspares := Connection.writerTurn_spares h.running hdeaf hturn
    obtain ⟨heases, hless⟩ := Connection.eases_writerTurn h.running hdeaf hturn
    exact ⟨⟨h.spares hspares, hcomplete.of_eq rfl hspares.peerDone.trans, heases⟩,
      or_iff_not_imp_left.mpr hless⟩

theorem Inv.readNext_eq (h : s.Inv frames error) : s.readNext service = s.read service :=
  if_pos (beq_iff_eq.mpr h.state)

theorem Stopped.readNext_eq (h : s.Stopped frames error) : s.readNext service = s := by
  refine if_neg fun hconnected => ?_
  cases (eq_of_beq hconnected).symm.trans h.state

theorem Inv.turnsLeft_lt (h : s.Inv frames error) (hcomplete : s.IsComplete error)
    (hquiet : service.IsQuiet) (hdeaf : s.conn.socket.peerDeaf = false)
    (hbetween : Relation.ReflTransGen (Step service) s.writeNext s')
    (hstarted : s'.conn.life.isConnected = true → s'.conn.eventsStopped = false) :
    (s'.readNext service).Stopped frames error ∨
      Nears frames error s (s'.readNext service) ∧
        (s'.readNext service).conn.turnsLeft < s.conn.turnsLeft := by
  obtain ⟨hwrite, hwritten⟩ := h.nears_writeNext hcomplete hdeaf
  rcases hwrite.inv.nears_run hwrite.complete hquiet hbetween with hstopped | hnears
  · rw [hstopped.readNext_eq]
    exact .inl hstopped
  have hs' := hwrite.trans hnears
  rw [hs'.inv.readNext_eq]
  refine (hs'.inv.nears_read hs'.complete hquiet).imp_right fun ⟨hread, hprogress⟩ => ?_
  refine ⟨hs'.trans hread, ?_⟩
  rcases hwritten with hfree | hless
  · rcases hs'.eases with hless | ⟨-, hle⟩
    · exact hread.eases.turnsLeft_le.trans_lt (Connection.turnsLeft_lt_of_backlog hless)
    -- Nothing has been sent in between that waits, so the reader takes its turn.
    · have hopen := hstarted (beq_iff_eq.mpr hs'.inv.state)
      have hfree' : s'.conn.outbound.blockage = 0 := by omega
      exact (Connection.turnsLeft_lt_of_backlog (hprogress hopen hfree')).trans_le
        hs'.eases.turnsLeft_le
  · exact (hnears.trans hread).eases.turnsLeft_le.trans_lt hless

theorem Stopped.round (h : s.Stopped frames error) (hdeaf : s.conn.socket.peerDeaf = false)
    (hbetween : Relation.ReflTransGen (Step service) s.writeNext s')
    (hafter : Relation.ReflTransGen (Step service) (s'.readNext service) s'') :
    s''.Stopped frames error := by
  have hread := (h.run (run_writeNext service hdeaf)).run hbetween
  rw [hread.readNext_eq] at hafter
  exact hread.run hafter

theorem Stopped.rounds (h : s.Stopped frames error) {n : Nat} (hrounds : Rounds service s n s') :
    s'.Stopped frames error := by
  induction hrounds with
  | run hrun => exact h.run hrun
  | round _ hdeaf hbetween _ hafter ih => exact ih.round hdeaf hbetween hafter

theorem Inv.rounds (h : s.Inv frames error) (hcomplete : s.IsComplete error)
    (hquiet : service.IsQuiet) {n : Nat} (hrounds : Rounds service s n s') :
    s'.Stopped frames error ∨
      Nears frames error s s' ∧ s'.conn.turnsLeft + n ≤ s.conn.turnsLeft := by
  induction hrounds with
  | run hrun =>
    exact (h.nears_run hcomplete hquiet hrun).imp_right fun hnears =>
      ⟨hnears, hnears.eases.turnsLeft_le⟩
  | round _ hdeaf hbetween hstarted hafter ih =>
    rcases ih with hstopped | ⟨hnears, hle⟩
    · exact .inl (hstopped.round hdeaf hbetween hafter)
    · rcases hnears.inv.turnsLeft_lt hnears.complete hquiet hdeaf hbetween hstarted with
        hstopped | ⟨hround, hless⟩
      · exact .inl (hstopped.run hafter)
      · refine (hround.inv.nears_run hround.complete hquiet hafter).imp_right fun hlater =>
          ⟨hnears.trans (hround.trans hlater), ?_⟩
        have hend := hlater.eases.turnsLeft_le
        omega

/-! ### Rounds can go on -/

theorem exists_run_started (service : Service) (s : Inbound) :
    ∃ s', Relation.ReflTransGen (Step service) s s' ∧
      (s'.conn.life.isConnected = true → s'.conn.eventsStopped = false) :=
  ⟨_, .single (.act .startEvents), fun hconnected =>
    Connection.eventsStopped_startEvents (s.conn.life_startEvents ▸ hconnected)⟩

theorem exists_rounds (service : Service) (s : Inbound) (n : Nat) :
    ∃ s', Rounds service s n s' ∧ s'.conn.socket.peerDeaf = false := by
  have hlistens (s : Inbound) :
      ∃ s', Relation.ReflTransGen (Step service) s s' ∧ s'.conn.socket.peerDeaf = false :=
    ⟨{ s with conn := { s.conn with socket := { s.conn.socket with peerDeaf := false } } },
      .single (.peer rfl rfl rfl), rfl⟩
  induction n with
  | zero =>
    obtain ⟨s', hrun, hdeaf⟩ := hlistens s
    exact ⟨s', .run hrun, hdeaf⟩
  | succ n ih =>
    obtain ⟨s₁, hrounds, hdeaf⟩ := ih
    obtain ⟨s₂, hbetween, hstarted⟩ := exists_run_started service s₁.writeNext
    obtain ⟨s', hafter, hlater⟩ := hlistens (s₂.readNext service)
    exact ⟨s', .round hrounds hdeaf hbetween hstarted hafter, hlater⟩

end Inbound

end CallWire
