import CallWire.Proofs.Connection.Outflow

/-!
# CallWire.Proofs.Connection.OutboundStream — what a peer receives

However senders, the reader, the writer and the end of the connection come together, the bytes on
the socket are those of the frames that were queued, one after the other.  The queue keeps to its
bound, and refuses a frame only if each slot is taken or kept for the reply that waits.
-/

namespace CallWire

namespace Outflow

variable {s s' : Outflow} {cause : Cause}

/-! ### The slots of the queue -/

/-- A slot is reserved only for a waiting reply, and then the reader holds no other. -/
structure Slots (s : Outflow) : Prop where
  load : s.load ≤ s.conn.outbound.capacity
  promised : s.isPromised = true → s.conn.outbound.waiting.isSome = true
  replying : ∀ reply, s.reader = .replying reply → s.conn.outbound.waiting = none

theorem Slots.of_eq (h : s.Slots) (hqueue : s'.conn.outbound.queue = s.conn.outbound.queue)
    (hwaiting : s'.conn.outbound.waiting = s.conn.outbound.waiting)
    (hcapacity : s'.conn.outbound.capacity = s.conn.outbound.capacity)
    (hpromised : s'.isPromised = s.isPromised)
    (hreader : ∀ reply, s'.reader = .replying reply → s.reader = .replying reply) : s'.Slots where
  load := by
    unfold Outflow.load
    rw [hqueue, hpromised, hcapacity]
    exact h.load
  promised := by
    rw [hpromised, hwaiting]
    exact h.promised
  replying := by
    intro reply hreply
    rw [hwaiting]
    exact h.replying reply (hreader reply hreply)

theorem Slots.of_free (hfree : s'.isPromised = false)
    (hqueue : s'.conn.outbound.queue.length ≤ s'.conn.outbound.capacity)
    (hreplying : ∀ reply, s'.reader = .replying reply → s'.conn.outbound.waiting = none) :
    s'.Slots where
  load := by
    unfold Outflow.load
    rw [hfree]
    exact hqueue
  promised := by
    intro hpromised
    rw [hfree] at hpromised
    cases hpromised
  replying := hreplying

theorem Slots.queue_le (h : s.Slots) :
    s.conn.outbound.queue.length ≤ s.conn.outbound.capacity :=
  Nat.le_trans (Nat.le_add_right _ _) h.load

theorem Slots.free_of_replying (h : s.Slots) {reply : Bytes} (hreader : s.reader = .replying reply) :
    s.isPromised = false := by
  have hwaiting := h.replying reply hreader
  refine Bool.eq_false_iff.mpr fun hpromised => ?_
  have hsome := h.promised hpromised
  rw [hwaiting] at hsome
  cases hsome

theorem Slots.finish (h : s.Slots) (reason : DisconnectReason) (writer : WriterPhase) :
    Slots { s with conn := s.conn.finish reason, writer, isPromised := false } := by
  rcases s.conn.finish_cases reason with heq | ⟨houtbound, -⟩
  · rw [heq]
    exact .of_free rfl h.queue_le h.replying
  · refine .of_free rfl ?_ fun _ _ => congrArg Outbound.waiting houtbound
    show (s.conn.finish reason).outbound.queue.length ≤ _
    rw [houtbound]
    exact Nat.zero_le _

theorem Slots.fail (h : s.Slots) (reason : DisconnectReason) : (s.fail reason).Slots := by
  obtain ⟨life, isHalted, heq⟩ := s.conn.exists_fail reason
  unfold Outflow.fail
  rw [heq]
  exact h.of_eq rfl rfl rfl rfl fun _ => id

theorem ReaderStep.slots (h : s.ReaderStep s') (hs : s.Slots) : s'.Slots := by
  cases h with
  | reply bytes hreader hwaiting =>
    exact ⟨hs.load, hs.promised, fun _ _ => hwaiting⟩
  | @send reply hreader =>
    have hfree := hs.free_of_replying hreader
    rcases s.send_cases reply with (heq | heq) | ⟨hroom, heq⟩
    · rw [heq]
      exact .of_free hfree hs.queue_le nofun
    · rw [heq]
      exact .of_free hfree hs.queue_le nofun
    · rw [heq]
      refine .of_free hfree ?_ nofun
      rw [List.length_append]
      exact hroom
  | redeem hpromised hwaiting =>
    refine .of_free rfl ?_ fun _ _ => rfl
    have hload := hs.load
    unfold Outflow.load at hload
    rw [hpromised] at hload
    show (_ ++ _ : List Bytes).length ≤ _
    rw [List.length_append]
    exact hload
  | ends | cancelled => exact .of_free rfl hs.queue_le nofun
  | @fail reason =>
    exact (hs.fail reason).of_eq rfl rfl rfl rfl nofun
  | halt => exact hs.of_eq rfl rfl rfl rfl nofun
  | @finish reason => exact hs.finish reason s.writer

theorem WriterStep.slots (h : s.WriterStep s') (hs : s.Slots) : s'.Slots := by
  cases h with
  | @take frame queue hwriter hhand hqueue =>
    -- The slot that the frame leaves is promised to the frame that waits, if one does.
    have hlength := hs.queue_le
    rw [hqueue, List.length_cons] at hlength
    refine ⟨?_, id, hs.replying⟩
    show queue.length + s.conn.outbound.waiting.isSome.toNat ≤ s.conn.outbound.capacity
    have hone := Bool.toNat_le s.conn.outbound.waiting.isSome
    omega
  | piece | next | drain | finish | shutDown => exact hs.of_eq rfl rfl rfl rfl fun _ => id

theorem Step.slots (h : s.Step cause s') (hs : s.Slots) : s'.Slots := by
  cases h with
  | writer h => exact h.slots hs
  | reader h => exact h.slots hs
  | enqueue frame =>
    rcases s.enqueue_cases frame with ⟨e, heq, -⟩ | ⟨hload, -, heq⟩
    · rw [heq]
      exact hs
    · rw [heq]
      refine ⟨?_, hs.promised, hs.replying⟩
      unfold Outflow.load at hload ⊢
      dsimp only
      rw [List.length_append, List.length_singleton]
      omega
  | close =>
    obtain ⟨life, isDraining, heq, -⟩ := s.conn.exists_close
    unfold Outflow.close
    rw [heq]
    exact hs.of_eq rfl rfl rfl rfl fun _ => id
  | stop => exact .of_free rfl (Nat.zero_le _) fun _ _ => rfl
  | leave | halt | collect | fault => exact hs.of_eq rfl rfl rfl rfl fun _ => id
  | @other conn houtbound =>
    refine hs.of_eq ?_ ?_ ?_ rfl fun _ => id
    · exact congrArg Outbound.queue houtbound
    · exact congrArg Outbound.waiting houtbound
    · exact congrArg Outbound.capacity houtbound
  | report => exact (hs.fail .ioError).of_eq rfl rfl rfl rfl fun _ => id
  | fail reason => exact hs.fail reason
  | evict reason => exact hs.finish reason .left

/-! ### Every run -/

/-- The invariant of the outbound side. -/
structure Inv (s : Outflow) : Prop where
  flows : s.Flows
  slots : s.Slots

theorem Inv.start (service : Service) (context : String) (hasPeerAddress : Bool) :
    (start service context hasPeerAddress).Inv where
  flows := .of_aligned ⟨[], rfl, rfl, List.suffix_refl _⟩
  slots := .of_free rfl (Nat.zero_le _) nofun

theorem Inv.step (h : s.Inv) (hstep : s.Step cause s') : s'.Inv :=
  ⟨hstep.flows h.flows, hstep.slots h.slots⟩

theorem Inv.leads (h : s.Inv) (hleads : s.Leads s') : s'.Inv := by
  induction hleads with
  | refl => exact h
  | tail _ hstep ih => exact ih.step hstep.choose_spec

theorem Leads.later (h : s.Leads s') : s.Later s' := by
  induction h with
  | refl => exact .refl s
  | tail _ hstep ih => exact ih.trans hstep.choose_spec.later

/-- What the peer receives is a prefix of what was queued, and the queue keeps to its bound. -/
structure IsOrderly (limit : Nat) (s : Outflow) : Prop where
  written : s.written <+: s.accepted.flatten
  cut : IsCut s.accepted s.written
  queue : s.conn.outbound.queue.length ≤ limit
  /-- A frame is refused only if every slot is taken or reserved for the waiting reply. -/
  refused : s.conn.life.isConnected = true → s.conn.outbound.isDone = false → ∀ frame,
    (s.enqueue frame).1 = .ok () ∨
      (s.enqueue frame).1 = .error (.queueFull limit) ∧
        (s.conn.outbound.queue.length = limit ∨
          s.conn.outbound.queue.length + 1 = limit ∧ s.isPromised = true ∧
            s.conn.outbound.waiting.isSome = true)

theorem Inv.isOrderly (h : s.Inv) : s.IsOrderly s.conn.outbound.capacity where
  written := h.flows.cut.isPrefix
  cut := h.flows.cut
  queue := h.slots.queue_le
  refused := by
    intro hconnected hdone frame
    rcases s.enqueue_cases frame with ⟨e, heq, hfull⟩ | ⟨-, -, heq⟩
    · obtain ⟨rfl, hle⟩ := hfull hconnected hdone
      refine .inr ⟨congrArg Prod.fst heq, ?_⟩
      have hload := Nat.le_antisymm h.slots.load hle
      unfold Outflow.load at hload
      cases hpromised : s.isPromised with
      | false =>
        rw [hpromised] at hload
        exact .inl hload
      | true =>
        rw [hpromised] at hload
        exact .inr ⟨hload, rfl, h.slots.promised hpromised⟩
    · exact .inl (congrArg Prod.fst heq)

theorem isOrderly_of_leads {service : Service} {context : String} {hasPeerAddress : Bool}
    (hs : (start service context hasPeerAddress).Leads s) :
    s.IsOrderly service.config.maxQueuedFrames := by
  have horderly := ((Inv.start service context hasPeerAddress).leads hs).isOrderly
  rw [hs.later.capacity] at horderly
  exact horderly

/-- **The outbound stream is what was queued.**  Whatever senders, the reader, the writer, those who
close the connection and those who end it do, and in whatever order, everything written so far is
the beginning of the frames that were queued, in their order; and the queue keeps to its bound.
What has been queued and written stays.  Once the writer has been kept from its work, be it in the
middle of a frame, nothing more is written. -/
theorem outbound_stream {service : Service} {context : String} {hasPeerAddress : Bool}
    (hs : (start service context hasPeerAddress).Leads s) :
    s.IsOrderly service.config.maxQueuedFrames ∧
      ∀ s', s.Leads s' → s.accepted <+: s'.accepted ∧ s.written <+: s'.written ∧
        (s.writer.isAtWork = false → s'.written = s.written) := by
  refine ⟨isOrderly_of_leads hs, fun s' hleads => ?_⟩
  have hlater := hleads.later
  exact ⟨hlater.accepted, hlater.written, fun hidle => (hlater.idle hidle).2⟩

/-- With room for one frame, a second is queued while the first is being written, and a third is
refused.  The end comes in the middle of the first, so the second is never written. -/
theorem outbound_stream_cut :
    let service : Service := { protocol := { name := "plain" }, config := { maxQueuedFrames := 1 } }
    ∃ s s', (start service "" true).Leads s ∧ s.Leads s' ∧
      (s.enqueue [5]).1 = .error (.queueFull 1) ∧ s.conn.outbound.queue.length = 1 ∧
      s'.accepted = [[1, 2, 3], [4]] ∧ s'.written = [1, 2] ∧
      ∀ s'', s'.Leads s'' → s''.written = [1, 2] := by
  intro service
  let opened := start service "" true
  let queued := (opened.enqueue [1, 2, 3]).2
  let taken := queued.take [1, 2, 3] []
  let begun : Outflow :=
    { taken with conn := { taken.conn with socket := { delivered := [1, 2] } }, rest := [3] }
  let full := (begun.enqueue [4]).2
  let ended := full.fail .user
  let cut : Outflow := { ended with writer := .left }
  have hqueue : opened.Step .others queued := .enqueue [1, 2, 3]
  have htake : queued.Step .writer taken := .writer (.take rfl rfl rfl)
  have hpiece : taken.WriterStep
      { taken with conn := { taken.conn with socket := { delivered := [1, 2] } }, rest := [3] } :=
    .piece rfl rfl (by decide : 0 < 2) (by decide) rfl
  have hfull : begun.Step .others full := .enqueue [4]
  have hend : full.Step .force ended := .fail .user
  have hcut : ended.Step .others cut := .leave rfl rfl
  have hleads : opened.Leads full :=
    (((Relation.ReflTransGen.single ⟨_, hqueue⟩).tail ⟨_, htake⟩).tail
      ⟨_, .writer hpiece⟩).tail ⟨_, hfull⟩
  have hleads' : full.Leads cut := (Relation.ReflTransGen.single ⟨_, hend⟩).tail ⟨_, hcut⟩
  obtain ⟨-, hlater⟩ := outbound_stream (hleads.trans hleads')
  exact ⟨full, cut, hleads, hleads', rfl, rfl, rfl, rfl, fun s'' h => (hlater s'' h).2.2 rfl⟩

end Outflow

end CallWire
