import CallWire.Proofs.Connection.OutboundStream
import Mathlib.Algebra.BigOperators.Group.List.Basic
import Mathlib.Algebra.GroupWithZero.Nat

/-!
# CallWire.Proofs.Connection.Flushing — closing a connection with frames in its queue

Who closes a connection asks the writer to write out what is queued before it shuts the socket down.
The writer does so, and takes only so many steps, unless the reader finds the end of the stream, or
what is not a frame, before the writer is done: that stops the writer, and what is queued is lost.
-/

namespace CallWire

/-! ### A connection that was closed stays closed -/

theorem Connection.close_eq_ok {c : Connection} (h : c.close.1 = .ok ()) :
    c.life.isConnected = true ∧
      ∃ life, c.close.2 = { c with life, outbound := c.outbound.drain } := by
  unfold close at h ⊢
  rcases hclose : c.life.close with ⟨e | _, life⟩
  · rw [hclose] at h
    cases h
  · refine ⟨?_, life, rfl⟩
    unfold Lifecycle.close at hclose
    split at hclose
    case h_5 hstate => exact beq_iff_eq.mpr hstate
    all_goals cases hclose

/-- The steps left to the writer besides those that write frames. -/
def WriterPhase.stepsLeft : WriterPhase → Nat
  | serving => 3
  | draining => 2
  | finishing => 1
  | broken | left => 0

def ReaderPhase.reply? : ReaderPhase → Option Bytes
  | replying reply => some reply
  | reading | ended _ | failed _ | stopped _ => none

namespace Outflow

variable {s s' s'' : Outflow} {cause : Cause} {n : Nat}

theorem isConnected_close (s : Outflow) : s.close.conn.life.isConnected = false := by
  obtain ⟨life, isDraining, heq, hover, -⟩ := s.conn.exists_close
  unfold close
  rw [heq]
  exact hover

theorem ReaderStep.isOver (h : s.ReaderStep s') (hover : s.conn.life.isConnected = false) :
    s'.conn.life.isConnected = false := by
  cases h with
  | reply | send | redeem | ends | cancelled | halt => exact hover
  | @fail reason => exact s.conn.isConnected_fail reason
  | @finish reason => exact s.conn.isConnected_finish reason

theorem Step.isOver (h : s.Step cause s') (hover : s.conn.life.isConnected = false) :
    s'.conn.life.isConnected = false := by
  cases h with
  | writer h =>
    cases h with
    | take | piece | next | drain | finish | shutDown => exact hover
  | reader h => exact h.isOver hover
  | enqueue frame =>
    rcases s.enqueue_cases frame with ⟨e, heq, -⟩ | ⟨-, -, heq⟩
    · rw [heq]
      exact hover
    · rw [heq]
      exact hover
  | close => exact s.isConnected_close
  | leave | halt | stop | collect | fault => exact hover
  | other _ _ _ hlife =>
    refine Bool.eq_false_iff.mpr fun hconnected => ?_
    rw [hlife hconnected] at hover
    cases hover
  | report => exact s.conn.isConnected_fail .ioError
  | fail reason => exact s.conn.isConnected_fail reason
  | evict reason => exact s.conn.isConnected_finish reason

/-! ### Runs in which nobody is forced -/

/-- A run without a failed write or a forced end, in which the writer takes this many steps. -/
inductive Proceeds (s : Outflow) : Nat → Outflow → Prop
  | refl : Proceeds s 0 s
  | writer {n : Nat} {s' s'' : Outflow} (h : Proceeds s n s') (hstep : s'.Step .writer s'') :
      Proceeds s (n + 1) s''
  | others {n : Nat} {s' s'' : Outflow} (h : Proceeds s n s') (hstep : s'.Step .others s'') :
      Proceeds s n s''

theorem Proceeds.leads (h : s.Proceeds n s') : s.Leads s' := by
  induction h with
  | refl => exact .refl
  | writer _ hstep ih => exact ih.tail ⟨_, hstep⟩
  | others _ hstep ih => exact ih.tail ⟨_, hstep⟩

/-- The reader has ended for another reason than the user's. -/
def HitsEnd (s : Outflow) : Prop := ∃ reason, s.reader.reason? = some reason ∧ reason ≠ .user

/-- Neither the writer nor the reader has been stopped, and the socket is open. -/
structure IsUndisturbed (s : Outflow) : Prop where
  running : s.conn.outbound.isHalted = false
  writer : s.writer.isAtWork = true
  socket : s.conn.socket.isDone = false
  reader : s.reader.reason? = none

theorem ReaderStep.reason? (h : s.ReaderStep s') {reason : DisconnectReason}
    (hreason : s.reader.reason? = some reason) : s'.reader.reason? = some reason := by
  cases h with
  | reply _ hreader | send hreader | ends hreader =>
    rw [hreader] at hreason
    cases hreason
  | cancelled hreader =>
    rw [hreader] at hreason
    cases hreason
  | fail hreader | halt hreader =>
    rw [hreader] at hreason
    exact hreason
  | redeem | finish => exact hreason

theorem Step.reason? (h : s.Step cause s') {reason : DisconnectReason}
    (hreason : s.reader.reason? = some reason) : s'.reader.reason? = some reason := by
  cases h with
  | reader h => exact h.reason? hreason
  | writer h =>
    cases h with
    | take | piece | next | drain | finish | shutDown => exact hreason
  | enqueue frame =>
    rcases s.enqueue_cases frame with ⟨e, heq, -⟩ | ⟨-, -, heq⟩
    · rw [heq]
      exact hreason
    · rw [heq]
      exact hreason
  | close | leave | halt | stop | collect | other | fault | report | fail | evict => exact hreason

theorem HitsEnd.step (h : s.HitsEnd) (hstep : s.Step cause s') : s'.HitsEnd := by
  obtain ⟨reason, hreason, hne⟩ := h
  exact ⟨reason, hstep.reason? hreason, hne⟩

theorem FindsEnd.ne_user {c : Connection} {reason : DisconnectReason} (h : FindsEnd c reason) :
    reason ≠ .user := by
  rintro rfl
  exact h

/-! ### The writer is left to its work -/

theorem WriterStep.isUndisturbed (h : s.WriterStep s') (hs : s.IsUndisturbed) :
    s'.IsUndisturbed ∨ s.writer = .finishing ∧ s'.writer = .left := by
  obtain ⟨hrunning, hwork, hsocket, hreader⟩ := hs
  cases h with
  | take | next => exact .inl ⟨hrunning, hwork, hsocket, hreader⟩
  | @piece frame n socket _ _ _ _ hwrite =>
    obtain ⟨-, rfl⟩ := Socket.write_eq_some hwrite
    exact .inl ⟨hrunning, hwork, hsocket, hreader⟩
  | drain | finish => exact .inl ⟨hrunning, rfl, hsocket, hreader⟩
  | shutDown hwriter => exact .inr ⟨hwriter, rfl⟩

theorem ReaderStep.isUndisturbed (h : s.ReaderStep s') (hs : s.IsUndisturbed) :
    s'.HitsEnd ∨ s'.IsUndisturbed := by
  obtain ⟨hrunning, hwork, hsocket, hreader⟩ := hs
  cases h with
  | reply => exact .inr ⟨hrunning, hwork, hsocket, rfl⟩
  | @send reply =>
    refine .inr ?_
    rcases s.send_cases reply with (heq | heq) | ⟨-, heq⟩
    all_goals
      rw [heq]
      exact ⟨hrunning, hwork, hsocket, rfl⟩
  | redeem => exact .inr ⟨hrunning, hwork, hsocket, hreader⟩
  | ends _ _ hfinds => exact .inl ⟨_, rfl, hfinds.ne_user⟩
  | cancelled _ hhalted =>
    rw [hrunning] at hhalted
    cases hhalted
  | fail hover | halt hover | finish hover =>
    rw [hover] at hreader
    cases hreader

/-- An undisturbed flow stays so unless its reader ends or its writer finishes. -/
theorem IsUndisturbed.step (h : s.IsUndisturbed) (hstep : s.Step cause s')
    (hcause : cause = .writer ∨ cause = .others) :
    s'.HitsEnd ∨ s'.IsUndisturbed ∨ s.writer = .finishing ∧ s'.writer = .left := by
  have ⟨hrunning, hwork, hsocket, hreader⟩ := h
  have hleft (hwriter : s.writer = .left) : False := by
    rw [hwriter] at hwork
    cases hwork
  cases hstep with
  | writer hwrites => exact .inr (hwrites.isUndisturbed h)
  | reader hreads => exact (hreads.isUndisturbed h).imp_right .inl
  | enqueue frame =>
    refine .inr (.inl ?_)
    rcases s.enqueue_cases frame with ⟨e, heq, -⟩ | ⟨-, -, heq⟩
    all_goals
      rw [heq]
      exact ⟨hrunning, hwork, hsocket, hreader⟩
  | close =>
    obtain ⟨life, isDraining, heq, -⟩ := s.conn.exists_close
    unfold Outflow.close
    rw [heq]
    exact .inr (.inl ⟨hrunning, hwork, hsocket, hreader⟩)
  | leave _ hhalted =>
    rw [hrunning] at hhalted
    cases hhalted
  | halt hwriter | stop hwriter => exact (hleft hwriter).elim
  | collect => exact .inr (.inl ⟨hrunning, hwork, hsocket, hreader⟩)
  | other houtbound _ hdone =>
    refine .inr (.inl ⟨?_, hwork, hdone.trans hsocket, hreader⟩)
    exact (congrArg Outbound.isHalted houtbound).trans hrunning
  | fault | report | fail | evict =>
    rcases hcause with hcause | hcause
    · cases hcause
    · cases hcause

/-- Before the close request the writer serves, unless the reader has ended. -/
def IsReady (s : Outflow) : Prop :=
  s.conn.life.isConnected = false ∨ s.HitsEnd ∨
    s.IsUndisturbed ∧ s.writer = .serving ∧ s.conn.outbound.isDraining = false

theorem IsReady.step (h : s.IsReady) (hstep : s.Step cause s')
    (hcause : cause = .writer ∨ cause = .others) : s'.IsReady := by
  rcases h with hover | hend | ⟨hundisturbed, hwriter, hdraining⟩
  · exact .inl (hstep.isOver hover)
  · exact .inr (.inl (hend.step hstep))
  rcases hundisturbed.step hstep hcause with hend | hlater | ⟨hfinishing, -⟩
  · exact .inr (.inl hend)
  -- The writer itself, more frames behind it, or the end of all writing: three ways to step.
  · rcases hstep.quiet with ⟨-, hwrites⟩ | ⟨more, hextends⟩ | hsilences
    · cases hwrites with
      | take | piece | next => exact .inr (.inr ⟨hlater, hwriter, hdraining⟩)
      | drain _ _ hasked =>
        rcases hasked with hasked | hclosed
        · rw [hdraining] at hasked
          cases hasked
        · refine .inl ?_
          show (s.conn.life.state == .connected) = false
          rw [hclosed]
          rfl
      | finish hother | shutDown hother =>
        rw [hwriter] at hother
        cases hother
    · rcases hextends.draining with hasked | ⟨-, hover⟩
      · exact .inr (.inr ⟨hlater, hextends.writer.trans hwriter, hasked.trans hdraining⟩)
      · exact .inl hover
    · have hwork := hlater.writer
      rw [hsilences.writer] at hwork
      cases hwork
  · rw [hwriter] at hfinishing
    cases hfinishing

/-! ### Everything queued is written -/

/-- The writer has to write these frames before it finds the queue empty. -/
structure IsFlushing (frames : List Bytes) (s : Outflow) : Prop where
  undisturbed : s.IsUndisturbed
  asked : s.conn.outbound.isDraining = true
  accepted : frames <+: s.accepted
  written : s.writer = .finishing → frames.flatten <+: s.written

/-- These frames are written, and the writer has left. -/
structure HasFlushed (frames : List Bytes) (s : Outflow) : Prop where
  idle : s.writer.isAtWork = false
  written : frames.flatten <+: s.written

theorem HasFlushed.step {frames : List Bytes} (h : s.HasFlushed frames)
    (hstep : s.Step cause s') : s'.HasFlushed frames :=
  ⟨(hstep.later.idle h.idle).1, h.written.trans hstep.later.written⟩

theorem Aligned.written_eq (h : s.Aligned) (hhand : s.conn.outbound.inHand = none)
    (hqueue : s.conn.outbound.queue = []) : s.written = s.accepted.flatten := by
  obtain ⟨gone, haccepted, hwritten, hrest⟩ := h
  rw [hhand] at haccepted hwritten hrest
  rw [hqueue] at haccepted
  rw [List.suffix_nil.mp hrest, List.append_nil] at hwritten
  rw [haccepted, hwritten]
  simp

theorem IsFlushing.step {frames : List Bytes} (h : s.IsFlushing frames) (hs : s.Inv)
    (hstep : s.Step cause s') (hcause : cause = .writer ∨ cause = .others) :
    s'.HitsEnd ∨ s'.IsFlushing frames ∨ s'.HasFlushed frames := by
  have hlater := hstep.later
  rcases h.undisturbed.step hstep hcause with hend | hundisturbed | ⟨hfinishing, hleft⟩
  · exact .inl hend
  · -- Either the writer had found the queue empty before, or it does so now.
    have hkept (hasked : s'.conn.outbound.isDraining = true)
        (hwritten : s'.writer = .finishing → frames.flatten <+: s'.written) :
        s'.HitsEnd ∨ s'.IsFlushing frames ∨ s'.HasFlushed frames :=
      .inr (.inl ⟨hundisturbed, hasked, h.accepted.trans hlater.accepted, hwritten⟩)
    have hbefore (hwriter : s.writer = .finishing) : frames.flatten <+: s'.written :=
      (h.written hwriter).trans hlater.written
    rcases hstep.quiet with ⟨-, hwrites⟩ | ⟨more, hextends⟩ | hsilences
    · cases hwrites with
      | take | piece | next => exact hkept h.asked hbefore
      | drain => exact hkept h.asked nofun
      | finish hwriter hhand hqueue =>
        have haligned := hs.flows.aligned (hwriter ▸ rfl)
        refine hkept h.asked fun _ => ?_
        obtain ⟨more, hmore⟩ := h.accepted
        show frames.flatten <+: s.written
        rw [haligned.written_eq hhand hqueue, ← hmore, List.flatten_append]
        exact List.prefix_append _ _
      | shutDown => cases hundisturbed.writer
    · refine hkept ?_ fun hfinishing => hbefore (hextends.writer ▸ hfinishing)
      rcases hextends.draining with hsame | ⟨hasked, -⟩
      · exact hsame.trans h.asked
      · exact hasked
    · have hwork := hundisturbed.writer
      rw [hsilences.writer] at hwork
      cases hwork
  · refine .inr (.inr ⟨?_, (h.written hfinishing).trans hlater.written⟩)
    rw [hleft]
    rfl

/-! ### How much the writer has left to do -/

/-- A bound on the writer's steps for frames not yet in hand. -/
def stepsFor (frames : List Bytes) : Nat := (frames.map fun frame => frame.length + 2).sum

theorem stepsFor_append (frames more : List Bytes) :
    stepsFor (frames ++ more) = stepsFor frames + stepsFor more := by
  unfold stepsFor
  rw [List.map_append, List.sum_append]

/-- The frames that the writer of a closed connection may still take in hand. -/
def due (s : Outflow) : List Bytes :=
  s.conn.outbound.queue ++ (s.conn.outbound.waiting.toList ++ s.reader.reply?.toList)

/-- A bound on the steps of the writer of a closed connection. -/
def toDo (s : Outflow) : Nat :=
  if s.writer.isAtWork then
    s.writer.stepsLeft + (s.conn.outbound.inHand.elim 0 fun _ => s.rest.length + 1) +
      stepsFor s.due
  else 0

theorem toDo_of_idle (h : s.writer.isAtWork = false) : s.toDo = 0 := by
  unfold toDo
  rw [h]
  rfl

theorem toDo_of_work (h : s.writer.isAtWork = true) :
    s.toDo = s.writer.stepsLeft +
      (s.conn.outbound.inHand.elim 0 fun _ => s.rest.length + 1) + stepsFor s.due :=
  if_pos h

theorem WriterStep.toDo_lt (h : s.WriterStep s') : s'.toDo < s.toDo := by
  cases h with
  | @take frame queue hwriter hhand hqueue =>
    have hwork := WriterPhase.isAtWork_of_takes hwriter
    rw [toDo_of_work hwork, toDo_of_work (s := s.take frame queue) hwork]
    unfold Outflow.take due
    rw [hhand, hqueue, List.cons_append, ← List.singleton_append, stepsFor_append]
    simp [stepsFor]
    omega
  | @piece frame n socket hwriter hhand hpos hle hwrite =>
    have hwork := WriterPhase.isAtWork_of_takes hwriter
    rw [toDo_of_work hwork, toDo_of_work (by exact hwork)]
    unfold due
    rw [hhand]
    simp only [Option.elim_some, List.length_drop]
    omega
  | @next frame hwriter hhand hempty =>
    have hwork := WriterPhase.isAtWork_of_takes hwriter
    rw [toDo_of_work hwork, toDo_of_work (by exact hwork)]
    unfold due
    rw [hhand]
    simp only [Option.elim_some, Option.elim_none]
    omega
  | drain hwriter | finish hwriter =>
    rw [toDo_of_work (s := s) (hwriter ▸ rfl), toDo_of_work rfl, hwriter]
    unfold due WriterPhase.stepsLeft
    dsimp only
    omega
  | shutDown hwriter =>
    rw [toDo_of_work (s := s) (hwriter ▸ rfl), toDo_of_idle rfl, hwriter]
    unfold WriterPhase.stepsLeft
    dsimp only
    omega

theorem stepsFor_le {frames more : List Bytes} (h : frames.Sublist more) :
    stepsFor frames ≤ stepsFor more := by
  unfold stepsFor
  induction h with
  | slnil => exact Nat.le_refl _
  | cons frame _ ih =>
    rw [List.map_cons, List.sum_cons]
    omega
  | cons_cons frame _ ih =>
    rw [List.map_cons, List.map_cons, List.sum_cons, List.sum_cons]
    omega

theorem due_sublist_of_mute (hqueue : s'.conn.outbound.queue = s.conn.outbound.queue)
    (hwaiting : s'.conn.outbound.waiting = s.conn.outbound.waiting)
    (hreply : s'.reader.reply? = none ∨ s'.reader = s.reader) : s'.due.Sublist s.due := by
  unfold due
  rw [hqueue, hwaiting]
  rcases hreply with hmute | hsame
  · rw [hmute, Option.toList_none, List.append_nil]
    exact (List.sublist_append_left _ _).append_left _
  · simp only [hsame, List.Sublist.refl]

theorem due_sublist_of_free (hqueue : s'.conn.outbound.queue.Sublist s.conn.outbound.queue)
    (hwaiting : s'.conn.outbound.waiting = none) (hreply : s'.reader.reply? = none) :
    s'.due.Sublist s.due := by
  unfold due
  rw [hwaiting, hreply, Option.toList_none, List.append_nil, List.append_nil]
  exact hqueue.trans (List.sublist_append_left _ _)

theorem due_fail (s : Outflow) (reason : DisconnectReason) : (s.fail reason).due = s.due := by
  obtain ⟨life, isHalted, heq⟩ := s.conn.exists_fail reason
  unfold due fail
  rw [heq]

/-- The reader of a closed connection queues at most the reply that it holds. -/
theorem ReaderStep.due_sublist (h : s.ReaderStep s') (hs : s.Slots)
    (hover : s.conn.life.isConnected = false) : s'.due.Sublist s.due := by
  cases h with
  | reply _ _ _ hconnected =>
    rw [hover] at hconnected
    cases hconnected
  | @send reply hreader =>
    have hwaiting := hs.replying reply hreader
    unfold Outflow.due
    rw [hreader]
    -- A reply that is sent was due already, from the reader; it only moves to the queue, or is
    -- lost.
    rcases s.send_cases reply with (heq | heq) | ⟨-, heq⟩
    all_goals
      rw [heq, hwaiting]
      simp [ReaderPhase.reply?]
  | @redeem reply _ hwaiting =>
    unfold Outflow.due Outflow.redeem
    rw [hwaiting]
    simp
  | ends | cancelled => exact due_sublist_of_free (List.Sublist.refl _) rfl rfl
  | @fail reason =>
    rw [← s.due_fail reason]
    exact due_sublist_of_mute rfl rfl (.inl rfl)
  | halt => exact due_sublist_of_mute rfl rfl (.inl rfl)
  | @finish reason hreader =>
    rcases s.conn.finish_cases reason with heq | ⟨houtbound, -⟩
    · rw [heq]
      exact due_sublist_of_mute rfl rfl (.inr rfl)
    · refine due_sublist_of_free ?_ (congrArg Outbound.waiting houtbound) (hreader ▸ rfl)
      show (s.conn.finish reason).outbound.queue.Sublist _
      rw [houtbound]
      exact List.nil_sublist _

theorem Step.due_sublist (h : s.Step .others s') (hs : s.Slots)
    (hover : s.conn.life.isConnected = false) : s'.due.Sublist s.due := by
  cases h with
  | reader h => exact h.due_sublist hs hover
  | enqueue frame =>
    rcases s.enqueue_cases frame with ⟨e, heq, -⟩ | ⟨-, hconnected, -⟩
    · simp only [heq, List.Sublist.refl]
    · rw [hover] at hconnected
      cases hconnected
  | close =>
    obtain ⟨life, isDraining, heq, -⟩ := s.conn.exists_close
    unfold Outflow.close
    rw [heq]
    exact due_sublist_of_mute rfl rfl (.inr rfl)
  | leave | halt | collect => exact due_sublist_of_mute rfl rfl (.inr rfl)
  | stop =>
    exact (List.sublist_append_right _ _).trans (List.sublist_append_right _ _)
  | other houtbound =>
    refine due_sublist_of_mute ?_ ?_ (.inr rfl)
    · exact congrArg Outbound.queue houtbound
    · exact congrArg Outbound.waiting houtbound

theorem Step.toDo_le (h : s.Step .others s') (hs : s.Slots)
    (hover : s.conn.life.isConnected = false) : s'.toDo ≤ s.toDo := by
  rcases h.quiet with ⟨hcause, -⟩ | ⟨more, hextends⟩ | hsilences
  · cases hcause
  · have hdue := stepsFor_le (h.due_sublist hs hover)
    unfold toDo
    rw [hextends.writer, hextends.inHand, hextends.rest]
    split
    · omega
    · exact Nat.le_refl 0
  · rw [toDo_of_idle hsilences.writer]
    exact Nat.zero_le _

theorem IsFlushing.exists_step {frames : List Bytes} (h : s.IsFlushing frames)
    (hdeaf : s.conn.socket.peerDeaf = false) : ∃ s', s.Step .writer s' := by
  have hwork := h.undisturbed.writer
  have htakes (htakes : s.writer.takes = true) (hidle : s.conn.outbound.inHand = none →
      s.conn.outbound.queue = [] → ∃ s', s.WriterStep s') : ∃ s', s.Step .writer s' := by
    cases hhand : s.conn.outbound.inHand with
    | some frame =>
      by_cases hrest : s.rest = []
      · exact ⟨_, .writer (.next htakes hhand hrest)⟩
      · have hwrite := Socket.write_of_not_deaf hdeaf (s.rest.take s.rest.length)
        exact ⟨_, .writer
          (.piece htakes hhand (List.length_pos_iff.mpr hrest) (Nat.le_refl _) hwrite)⟩
    | none =>
      cases hqueue : s.conn.outbound.queue with
      | cons frame queue => exact ⟨_, .writer (.take htakes hhand hqueue)⟩
      | nil => exact (hidle hhand hqueue).imp fun _ => .writer
  -- Whatever it writes, a writer that has nothing left goes on to its next phase.
  cases hwriter : s.writer with
  | serving =>
    exact htakes (hwriter ▸ rfl) fun hhand _ => ⟨_, .drain hwriter hhand (.inl h.asked)⟩
  | draining =>
    exact htakes (hwriter ▸ rfl) fun hhand hqueue => ⟨_, .finish hwriter hhand hqueue⟩
  | finishing => exact ⟨_, .writer (.shutDown hwriter)⟩
  | broken | left =>
    rw [hwriter] at hwork
    cases hwork

/-! ### The whole run -/

theorem IsReady.proceeds (h : s.IsReady) (hrun : s.Proceeds n s') : s'.IsReady := by
  induction hrun with
  | refl => exact h
  | writer _ hstep ih => exact ih.step hstep (.inl rfl)
  | others _ hstep ih => exact ih.step hstep (.inr rfl)

theorem isReady_start (service : Service) (context : String) (hasPeerAddress : Bool) :
    (start service context hasPeerAddress).IsReady :=
  .inr (.inr ⟨⟨rfl, rfl, rfl, rfl⟩, rfl, rfl⟩)

theorem IsReady.isFlushing (h : s.IsReady) (hclose : s.conn.close.1 = .ok ()) :
    s.close.HitsEnd ∨ s.close.IsFlushing s.accepted := by
  obtain ⟨hconnected, life, heq⟩ := Connection.close_eq_ok hclose
  rcases h with hover | hend | ⟨⟨hrunning, hwork, hsocket, hreader⟩, hserving, -⟩
  · rw [hconnected] at hover
    cases hover
  · exact .inl (hend.step .close)
  · unfold close
    rw [heq]
    refine .inr ⟨⟨hrunning, hwork, hsocket, hreader⟩, rfl, List.prefix_refl _, ?_⟩
    rw [hserving]
    exact nofun

theorem IsFlushing.proceeds {frames : List Bytes} (h : s.HitsEnd ∨ s.IsFlushing frames)
    (hs : s.Inv) (hrun : s.Proceeds n s') :
    s'.HitsEnd ∨ s'.IsFlushing frames ∨ s'.HasFlushed frames := by
  have hstep {s₁ s₂ : Outflow} {n : Nat} {cause : Cause} (hrun : s.Proceeds n s₁)
      (ih : s₁.HitsEnd ∨ s₁.IsFlushing frames ∨ s₁.HasFlushed frames)
      (hstep : s₁.Step cause s₂) (hcause : cause = .writer ∨ cause = .others) :
      s₂.HitsEnd ∨ s₂.IsFlushing frames ∨ s₂.HasFlushed frames := by
    rcases ih with hend | hflushing | hflushed
    · exact .inl (hend.step hstep)
    · exact hflushing.step (hs.leads hrun.leads) hstep hcause
    · exact .inr (.inr (hflushed.step hstep))
  induction hrun with
  | refl => exact h.imp_right .inl
  | writer hrun hnext ih => exact hstep hrun ih hnext (.inl rfl)
  | others hrun hnext ih => exact hstep hrun ih hnext (.inr rfl)

theorem toDo_proceeds (hs : s.Inv) (hover : s.conn.life.isConnected = false)
    (hrun : s.Proceeds n s') : s'.conn.life.isConnected = false ∧ n + s'.toDo ≤ s.toDo := by
  induction hrun with
  | refl => exact ⟨hover, Nat.le_of_eq (Nat.zero_add _)⟩
  | writer _ hstep ih =>
    obtain ⟨hover, hle⟩ := ih
    refine ⟨hstep.isOver hover, ?_⟩
    cases hstep with
    | writer hwrites =>
      have hless := hwrites.toDo_lt
      omega
  | others hrun hstep ih =>
    obtain ⟨hover, hle⟩ := ih
    have hsame := hstep.toDo_le (hs.leads hrun.leads).slots hover
    exact ⟨hstep.isOver hover, by omega⟩

/-- **Closing flushes, as long as the stream goes on.**  No write fails and nobody forces the
connection to end.  Then all that was queued before the connection was closed is written before the
socket is shut down, whatever senders, the reader and the peer do, unless the reader comes to the
end of the stream, to what is not a frame, or cannot read.  The writer takes only so many more
steps, and as long as it is at work and the peer reads, it can take the next. -/
theorem close_flushes {service : Service} {context : String} {hasPeerAddress : Bool} {m : Nat}
    (hbefore : (start service context hasPeerAddress).Proceeds m s)
    (hclose : s.conn.close.1 = .ok ()) (hafter : s.close.Proceeds n s') :
    s'.HitsEnd ∨
      (s'.conn.socket.isDone = true ∨ s'.writer.isAtWork = false →
        s.accepted.flatten <+: s'.written) ∧
      n + s'.toDo ≤ s.close.toDo ∧
      (s'.writer.isAtWork = true → s'.conn.socket.peerDeaf = false → ∃ s'', s'.Step .writer s'') := by
  have hs := ((Inv.start service context hasPeerAddress).leads hbefore.leads).step .close
  have hready := (isReady_start service context hasPeerAddress).proceeds hbefore
  have hsteps := (toDo_proceeds hs s.isConnected_close hafter).2
  rcases IsFlushing.proceeds (hready.isFlushing hclose) hs hafter with
    hend | hflushing | hflushed
  · exact .inl hend
  · refine .inr ⟨?_, hsteps, fun _ hdeaf => hflushing.exists_step hdeaf⟩
    obtain ⟨-, hwork, hsocket, -⟩ := hflushing.undisturbed
    rintro (hdone | hidle)
    · rw [hsocket] at hdone
      cases hdone
    · rw [hwork] at hidle
      cases hidle
  · refine .inr ⟨fun _ => hflushed.written, hsteps, fun hwork => ?_⟩
    rw [hflushed.idle] at hwork
    cases hwork

/-- A frame that was queued before the connection was closed is written in two pieces, and then the
socket is shut down. -/
theorem close_flushes_pieces :
    let service : Service := { protocol := { name := "plain" } }
    ∃ s s', (start service "" true).Proceeds 0 s ∧ s.conn.close.1 = .ok () ∧
      s.close.Proceeds 7 s' ∧ s.accepted = [[1, 2, 3]] ∧ s'.conn.socket.isDone = true ∧
      [1, 2, 3] <+: s'.written := by
  intro service
  let queued := ((start service "" true).enqueue [1, 2, 3]).2
  let taken := queued.close.take [1, 2, 3] []
  let begun : Outflow :=
    { taken with conn := { taken.conn with socket := { delivered := [1, 2] } }, rest := [3] }
  let whole : Outflow :=
    { begun with conn := { begun.conn with socket := { delivered := [1, 2, 3] } }, rest := [] }
  let empty : Outflow :=
    { whole with conn := { whole.conn with outbound := { whole.conn.outbound with inHand := none } } }
  let draining : Outflow := { empty with writer := .draining }
  let finishing : Outflow := { draining with writer := .finishing }
  let down : Outflow := { finishing with
    conn := { finishing.conn with socket := finishing.conn.socket.shutDown }, writer := .left }
  have hqueue : (start service "" true).Proceeds 0 queued := .others .refl (.enqueue [1, 2, 3])
  have htake : queued.close.WriterStep taken := .take rfl rfl rfl
  have hfirst : taken.WriterStep begun := .piece rfl rfl (by decide : 0 < 2) (by decide) rfl
  have hsecond : begun.WriterStep whole := .piece rfl rfl (by decide : 0 < 1) (by decide) rfl
  have hnext : whole.WriterStep empty := .next rfl rfl rfl
  have hdrain : empty.WriterStep draining := .drain rfl rfl (.inl rfl)
  have hfinish : draining.WriterStep finishing := .finish rfl rfl rfl
  have hdown : finishing.WriterStep down := .shutDown rfl
  have hrun : queued.close.Proceeds 7 down :=
    ((((((Proceeds.refl.writer (.writer htake)).writer (.writer hfirst)).writer
      (.writer hsecond)).writer (.writer hnext)).writer (.writer hdrain)).writer
      (.writer hfinish)).writer (.writer hdown)
  refine ⟨queued, down, hqueue, rfl, hrun, rfl, rfl, ?_⟩
  rcases close_flushes hqueue rfl hrun with ⟨reason, hreason, -⟩ | ⟨hwritten, -⟩
  · cases hreason
  · exact hwritten (.inl rfl)

/-- A frame is queued and the connection closed, and then the peer ends its side of the stream,
which the reader finds before the writer has written anything.  The socket is shut down, and the
frame is lost. -/
theorem close_loses_queue :
    let service : Service := { protocol := { name := "plain" } }
    ∃ s s', (start service "" true).Proceeds 0 s ∧ s.accepted = [[1, 2, 3]] ∧
      s.conn.close.1 = .ok () ∧ s.close.Proceeds 1 s' ∧ s'.conn.socket.isDone = true ∧
      s'.written = [] ∧
      s'.conn = Connection.begin service
        { s.close.conn with socket := s.close.conn.socket.peerShutWrite } := by
  intro service
  let queued := ((start service "" true).enqueue [1, 2, 3]).2
  let closed := queued.close
  let ended : Outflow :=
    { closed with conn := { closed.conn with socket := closed.conn.socket.peerShutWrite } }
  let taken := ended.take [1, 2, 3] []
  let atEnd := taken.endReading .closed
  let failed : Outflow := { atEnd.fail .closed with reader := .failed .closed }
  let halted : Outflow := { failed.halt with reader := .stopped .closed }
  let left : Outflow := { halted with writer := .left }
  let stopped := left.stopWriting
  let finished : Outflow :=
    { stopped with conn := stopped.conn.finish .closed, isPromised := false }
  have hqueue : (start service "" true).Proceeds 0 queued := .others .refl (.enqueue [1, 2, 3])
  have hend : closed.Step .others ended := .other rfl rfl rfl id
  have htake : ended.WriterStep taken := .take rfl rfl rfl
  have hatEnd : taken.ReaderStep atEnd := .ends rfl rfl ⟨rfl, rfl⟩
  have hfail : atEnd.ReaderStep failed := .fail rfl
  have hhalt : failed.ReaderStep halted := .halt rfl
  have hleave : halted.Step .others left := .leave rfl rfl
  have hstop : left.Step .others stopped := .stop rfl rfl
  have hfinish : stopped.ReaderStep finished := .finish rfl rfl rfl
  have hrun : closed.Proceeds 1 finished :=
    (((((((Proceeds.refl.others hend).writer (.writer htake)).others (.reader hatEnd)).others
      (.reader hfail)).others (.reader hhalt)).others hleave).others hstop).others (.reader hfinish)
  exact ⟨queued, finished, hqueue, rfl, rfl, hrun, rfl, rfl, rfl⟩

end Outflow

end CallWire
