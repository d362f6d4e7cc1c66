import CallWire.Proofs.Connection.Outflow
import CallWire.Proofs.Connection.Outgoing
import CallWire.Proofs.Connection.Reading

/-!
# CallWire.Proofs.Connection.Responses — what comes of a frame whose handler sends no requests

A request concerns the handlers, and a reply the calls.  A request whose handler sends none itself
leaves the calls alone, whatever its number, and brings about one answer at most, at once or through
a handle that is kept.  A reply brings about nothing that is sent, and no handler sees it.
-/

namespace CallWire

def Effect.isPassive : Effect → Bool
  | .notify _ _ _ | .call _ _ _ => false
  | .stopEvents | .startEvents | .close | .shutDown => true

def Handler.IsPassive (h : Handler) : Prop := h.Only Effect.isPassive

def Service.IsPassiveFor (service : Service) (command : UInt32) : Prop :=
  ∀ entry, service.protocol.handled.get? command = some entry → entry.handler.IsPassive

theorem Outbound.frames_push_perm (o : Outbound) (bytes : Bytes) :
    ({ o with queue := o.queue ++ [bytes] } : Outbound).frames.Perm (bytes :: o.frames) := by
  unfold frames
  have hmiddle : o.inHand.toList ++ (o.queue ++ [bytes] ++ o.waiting.toList) =
      (o.inHand.toList ++ o.queue) ++ bytes :: o.waiting.toList := by simp
  rw [hmiddle, ← List.append_assoc]
  exact List.perm_middle

namespace Connection

variable {service : Service} {c c' c'' : Connection} {frame : Frame} {expectsReply : Bool}

/-! ### Replies that wait -/

/-- The capacity is the same, and a reply waits only behind others if that was so before. -/
structure Parks (c c' : Connection) : Prop where
  capacity : c'.outbound.capacity = c.outbound.capacity
  parked : 0 < c.outbound.capacity → c.outbound.IsParked → c'.outbound.IsParked

theorem Parks.of_outbound (h : c'.outbound = c.outbound) : c.Parks c' := by
  refine ⟨?_, fun _ hparked => ?_⟩
  · rw [h]
  · rw [h]
    exact hparked

theorem Parks.trans (h : c.Parks c') (h' : c'.Parks c'') : c.Parks c'' where
  capacity := h'.capacity.trans h.capacity
  parked := fun hcapacity hparked => h'.parked (h.capacity ▸ hcapacity) (h.parked hcapacity hparked)

theorem Beside.parks (h : c.Beside c') : c.Parks c' where
  capacity := h.capacity
  parked := fun _ hparked hwaiting hempty => by
    rw [h.waiting] at hwaiting
    exact hparked hwaiting (List.prefix_nil.mp (hempty ▸ h.queue))

theorem parks_sendReply (c : Connection) (reply : Bytes) : c.Parks (c.sendReply reply) := by
  unfold sendReply
  split
  · exact ⟨c.outbound.capacity_await reply,
      fun hcapacity hparked => hparked.await hcapacity reply⟩
  · exact .of_outbound rfl

theorem parks_stopWriting (c : Connection) : c.Parks c.stopWriting := ⟨rfl, fun _ _ => nofun⟩

theorem parks_fail (c : Connection) (reason : DisconnectReason) : c.Parks (c.fail reason) := by
  obtain ⟨life, isHalted, heq⟩ := c.exists_fail reason
  rw [heq]
  exact ⟨rfl, fun _ hparked => hparked⟩

theorem parks_finish (c : Connection) (reason : DisconnectReason) : c.Parks (c.finish reason) := by
  rcases c.finish_cases reason with heq | ⟨houtbound, -⟩
  · rw [heq]
    exact .of_outbound rfl
  · exact c.parks_stopWriting.trans (.of_outbound houtbound)

theorem parks_pop {frame : Bytes} {outbound : Outbound}
    (h : c.outbound.pop = some (frame, outbound)) : c.Parks { c with outbound } := by
  obtain rfl := Outbound.pop_eq_some h
  exact ⟨c.outbound.capacity_pickUp, fun _ hparked => hparked.pickUp⟩

theorem parks_allowsReading (service : Service) : AllowsReading service Parks where
  refl := fun _ => .of_outbound rfl
  trans := .trans
  record := fun _ _ => .of_outbound rfl
  events := fun _ _ => .of_outbound rfl
  close := fun c => c.close_beside.parks
  shutDown := fun _ => .of_outbound rfl
  oneWay := fun c command type note => (sendOneWay_beside service c command type note).1.parks
  call := fun c command types request => (startCall_beside service c command types request).1.parks
  keep := fun _ _ => .of_outbound rfl
  reply := fun c _ _ _ _ => (c.enqueue_beside _).1.parks
  error := fun c _ _ _ => (c.enqueue_beside _).1.parks
  takeIn := fun _ _ _ _ _ => .of_outbound rfl
  handleReply := fun c frame => by
    obtain ⟨calls, events, heq⟩ := c.exists_handleReply frame
    rw [heq]
    exact .of_outbound rfl
  sendReply := fun c _ _ _ reply _ => c.parks_sendReply reply
  stopReading := fun c reason => (c.parks_fail reason).trans (parks_finish _ reason)

theorem parks_writerTurn (hw : c.writerTurn = some c') : c.Parks c' := by
  cases (writerTurn_turn hw).2 with
  | halted => exact c.parks_stopWriting
  | writes hpop => exact (parks_pop hpop).trans (.of_outbound rfl)
  | breaks hpop => exact ((parks_pop hpop).trans (parks_fail _ .ioError)).trans (parks_stopWriting _)
  | shutsDown => exact c.parks_stopWriting.trans (.of_outbound rfl)

theorem Step.parks (hstep : c.Step service c') : c.Parks c' := by
  cases hstep with
  | claim | abandon | establish | cancel | wait | waitUntil | transport | look =>
    exact .of_outbound rfl
  | startCall command types request =>
    exact (startCall_beside service c command types request).1.parks
  | sendOneWay command type request =>
    exact (sendOneWay_beside service c command type request).1.parks
  | drop call =>
    have hdrop : c.Acts service (c.drop call) := .drop call
    exact hdrop.beside.parks
  | reply handle v => exact (parks_allowsReading service).replyValue c handle v
  | replyError handle status => exact (parks_allowsReading service).replyError c handle status
  | dropHandle handle => exact (parks_allowsReading service).dropHandle c handle
  | stopEvents => exact (parks_allowsReading service).act c .stopEvents
  | startEvents => exact (parks_allowsReading service).act c .startEvents
  | close => exact c.close_beside.parks
  | finish reason => exact c.parks_finish reason
  | pickUp => exact ⟨c.outbound.capacity_pickUp, fun _ hparked => hparked.pickUp⟩
  | readerTurn hs => exact (parks_allowsReading service).readerTurn c
  | writerTurn c' hs hw => exact parks_writerTurn hw

/-- The frames to be sent and the handles kept are the same. -/
structure Aside (c c' : Connection) : Prop where
  kept : c'.kept = c.kept
  capacity : c'.outbound.capacity = c.outbound.capacity
  inHand : c'.outbound.inHand = c.outbound.inHand
  queue : c'.outbound.queue = c.outbound.queue
  waiting : c'.outbound.waiting = c.outbound.waiting

/-- The calls are the same, too. -/
structure Passes (c c' : Connection) : Prop extends Aside c c' where
  calls : c'.calls = c.calls

theorem Passes.refl (c : Connection) : c.Passes c := ⟨⟨rfl, rfl, rfl, rfl, rfl⟩, rfl⟩

theorem Passes.trans (h : c.Passes c') (h' : c'.Passes c'') : c.Passes c'' where
  kept := h'.kept.trans h.kept
  capacity := h'.capacity.trans h.capacity
  inHand := h'.inHand.trans h.inHand
  queue := h'.queue.trans h.queue
  waiting := h'.waiting.trans h.waiting
  calls := h'.calls.trans h.calls

theorem Aside.frames (h : c.Aside c') : c'.outbound.frames = c.outbound.frames := by
  unfold Outbound.frames
  rw [h.inHand, h.queue, h.waiting]

theorem Aside.parks (h : c.Aside c') : c.Parks c' where
  capacity := h.capacity
  parked := fun _ hparked => by
    unfold Outbound.IsParked
    rw [h.waiting, h.queue]
    exact hparked

theorem passes_close (c : Connection) : c.Passes c.close.2 := by
  obtain ⟨life, isDraining, heq, -⟩ := c.exists_close
  rw [heq]
  exact ⟨⟨rfl, rfl, rfl, rfl, rfl⟩, rfl⟩

theorem passes_stopEvents (c : Connection) : c.Passes c.stopEvents.2 := by
  obtain ⟨eventsStopped, heq⟩ := c.exists_stopEvents
  rw [heq]
  exact ⟨⟨rfl, rfl, rfl, rfl, rfl⟩, rfl⟩

theorem passes_startEvents (c : Connection) : c.Passes c.startEvents.2 := by
  obtain ⟨eventsStopped, heq⟩ := c.exists_startEvents
  rw [heq]
  exact ⟨⟨rfl, rfl, rfl, rfl, rfl⟩, rfl⟩

theorem passes_act (service : Service) (c : Connection) {effect : Effect}
    (h : effect.isPassive = true) : c.Passes (c.act service effect).2 := by
  cases effect with
  | stopEvents => exact c.passes_stopEvents
  | startEvents => exact c.passes_startEvents
  | close => exact c.passes_close
  | shutDown => exact c.passes_close.trans ⟨⟨rfl, rfl, rfl, rfl, rfl⟩, rfl⟩
  | notify | call => cases h

theorem passes_record (c : Connection) (e : Event) : c.Passes (c.record e) :=
  ⟨⟨rfl, rfl, rfl, rfl, rfl⟩, rfl⟩

theorem passes_allows (service : Service) : Allows service Effect.isPassive Passes where
  refl := .refl
  trans := .trans
  acted := fun c _ => c.passes_record _
  act := fun c _ heffect => c.passes_act service heffect

theorem passes_afterEffects (c : Connection) (h : service.IsPassiveFor frame.header.command) :
    c.Passes (c.afterEffects service frame) :=
  (passes_allows service).afterEffects passes_record c fun entry _ hhandler =>
    h entry (handlerFor?_eq_some_iff.mp hhandler).2.1

/-! ### The answer -/

/-- At most one answer was added to the frames to be sent, and none if none is expected. -/
structure Answers (expectsReply : Bool) (c c' : Connection) : Prop extends Parks c c' where
  kept : c'.kept = c.kept
  frames : c'.outbound.frames = c.outbound.frames ∨
    expectsReply = true ∧ ∃ command sequence bytes, IsAnswer command sequence bytes ∧
      c'.outbound.frames.Perm (bytes :: c.outbound.frames)

/-- The calls are the same, too. -/
structure Responds (expectsReply : Bool) (c c' : Connection) : Prop extends
    Answers expectsReply c c' where
  calls : c'.calls = c.calls

/-- A request leads to at most one answer, or to a handle that is kept. -/
inductive Yields (expectsReply : Bool) (c c' : Connection) : Prop
  | answers (h : c.Answers expectsReply c')
  | keeps {handle : ReplyHandle} (hexpects : handle.expectsReply = expectsReply)
      (hparks : c.Parks c') (hframes : c'.outbound.frames = c.outbound.frames)
      (hkept : c'.kept = c.kept ++ [handle])

theorem Aside.silent (h : c.Aside c') (expectsReply : Bool) : c.Answers expectsReply c' :=
  ⟨h.parks, h.kept, .inl h.frames⟩

theorem Passes.silent (h : c.Passes c') (expectsReply : Bool) : c.Responds expectsReply c' :=
  ⟨h.toAside.silent expectsReply, h.calls⟩

theorem Answers.aside (h : c.Answers expectsReply c') (hafter : c'.Aside c'') :
    c.Answers expectsReply c'' where
  toParks := h.toParks.trans hafter.parks
  kept := hafter.kept.trans h.kept
  frames := hafter.frames ▸ h.frames

theorem Yields.aside (h : c.Yields expectsReply c') (hafter : c'.Aside c'') :
    c.Yields expectsReply c'' := by
  cases h with
  | answers h => exact .answers (h.aside hafter)
  | keeps hexpects hparks hframes hkept =>
    exact .keeps hexpects (hparks.trans hafter.parks) (hafter.frames.trans hframes)
      (hafter.kept.trans hkept)

theorem Aside.answers (h : c.Aside c') (hanswer : c'.Answers expectsReply c'') :
    c.Answers expectsReply c'' where
  toParks := h.parks.trans hanswer.toParks
  kept := hanswer.kept.trans h.kept
  frames := h.frames ▸ hanswer.frames

theorem responds_enqueue {command sequence : UInt32} {bytes : Bytes}
    (h : IsAnswer command sequence bytes) : c.Responds true (c.enqueue bytes).2 := by
  have hparks := (c.enqueue_beside bytes).1.parks
  rcases c.enqueue_cases bytes with heq | ⟨-, heq⟩
  · rw [heq]
    exact (Passes.refl c).silent true
  · rw [heq] at hparks ⊢
    exact ⟨⟨hparks, rfl, .inr ⟨rfl, command, sequence, bytes, h,
      c.outbound.frames_push_perm bytes⟩⟩, rfl⟩

theorem Outbound.frames_await_perm {o : Outbound} (hwaiting : o.waiting = none) (bytes : Bytes) :
    (o.await bytes).frames = o.frames ∨ (o.await bytes).frames.Perm (bytes :: o.frames) := by
  unfold Outbound.await
  split
  · exact .inl rfl
  split
  · exact .inr (o.frames_push_perm bytes)
  · refine .inr ?_
    unfold Outbound.frames
    rw [hwaiting, Option.toList_none, List.append_nil, Option.toList_some, ← List.append_assoc]
    exact List.perm_append_singleton _ _

theorem answers_sendReply (hwaiting : c.outbound.waiting = none) {command sequence : UInt32}
    {bytes : Bytes} (h : IsAnswer command sequence bytes) : c.Answers true (c.sendReply bytes) := by
  have hparks := c.parks_sendReply bytes
  unfold sendReply at hparks ⊢
  split
  · rw [if_pos ‹_›] at hparks
    refine ⟨hparks, rfl, ?_⟩
    rcases Outbound.frames_await_perm hwaiting bytes with heq | hperm
    · exact .inl heq
    · exact .inr ⟨rfl, command, sequence, bytes, h, hperm⟩
  · exact (Passes.refl c).toAside.silent true

section Handles

variable (service : Service) (c : Connection) (handle : ReplyHandle)

theorem responds_enqueueError (status : Status) :
    c.Responds true (handle.enqueueError c status).2 :=
  responds_enqueue (isAnswer_error status)

theorem responds_replyError (status : Status) :
    c.Responds handle.expectsReply (handle.replyError c status).2 := by
  unfold ReplyHandle.replyError
  cases handle.expectsReply with
  | true => exact c.responds_enqueueError handle status.asFailure
  | false => exact (Passes.refl c).silent false

theorem responds_dropHandle : c.Responds handle.expectsReply (handle.drop c) := by
  unfold ReplyHandle.drop
  cases handle.expectsReply with
  | true => exact c.responds_enqueueError handle .handlerFailed
  | false => exact (Passes.refl c).silent false

theorem responds_reply (v : Value) :
    c.Responds handle.expectsReply (handle.reply service c v).2 := by
  unfold ReplyHandle.reply
  cases handle.expectsReply with
  | false => exact (Passes.refl c).silent false
  | true =>
    rw [if_neg (by decide)]
    split
    · exact c.responds_enqueueError handle .handlerFailed
    split
    · next frame himage =>
      obtain ⟨-, rfl⟩ := replyImage_eq_ok himage
      exact responds_enqueue (isAnswer_reply _)
    · have hlarge := c.responds_enqueueError handle .frameTooLarge
      generalize handle.enqueueError c .frameTooLarge = answered at hlarge ⊢
      rcases answered with ⟨e | _, c'⟩
      · exact hlarge
      · exact hlarge

theorem Responds.record {c c' : Connection} (h : c.Responds expectsReply c') (e : Event) :
    c.Responds expectsReply (c'.record e) :=
  ⟨⟨h.toParks.trans (.of_outbound rfl), h.kept, h.frames⟩, h.calls⟩

/-- Every `HandleUse` but `keep` leads to at most one answer. -/
theorem responds_useHandle {use : HandleUse} (h : use ≠ .keep) :
    c.Responds handle.expectsReply (c.useHandle service handle use).2 := by
  cases use with
  | keep => exact absurd rfl h
  | reply v => exact (c.responds_reply service handle v).record _
  | replyElsewhere v => exact c.responds_reply service handle v
  | error status => exact (c.responds_replyError handle status).record _
  | drop => exact c.responds_dropHandle handle

end Handles

/-! ### The frame -/

theorem aside_serve_reply (service : Service) (c : Connection)
    (hreply : frame.header.isRequest = false) : c.Aside (c.serve service frame).2 := by
  rw [c.serve_of_not_isRequest service (Bool.eq_false_iff.mp hreply)]
  obtain ⟨calls, events, heq⟩ := c.exists_handleReply frame
  rw [heq]
  exact ⟨rfl, rfl, rfl, rfl, rfl⟩

theorem yields_serve (c : Connection) (hrequest : frame.header.isRequest = true)
    (hwaiting : c.outbound.waiting = none) (h : service.IsPassiveFor frame.header.command) :
    c.Yields frame.header.expectsReply (c.serve service frame).2 := by
  have hpasses := c.passes_afterEffects h
  rw [serve_of_isRequest service c hrequest]
  unfold replyTo
  rcases c.answer_cases service frame with
    ⟨answer, events, hanswer, heq⟩ | ⟨entry, request, release, hhandler, honly, heq⟩
  · rw [heq]
    have hevents : c.Aside { c.afterEffects service frame with events } :=
      ⟨hpasses.kept, hpasses.capacity, hpasses.inHand, hpasses.queue, hpasses.waiting⟩
    refine .answers ?_
    cases hexpects : frame.header.expectsReply with
    | false => exact hevents.silent false
    | true =>
      obtain ⟨bytes, himage, hbytes⟩ := isAnswer_answerImage service.config.maxPayloadLength
        frame.header.command frame.header.sequence hanswer
      rw [if_pos rfl, himage]
      exact hevents.answers (answers_sendReply (hevents.waiting.trans hwaiting) hbytes)
  · -- The reader leaves the answer to the handle.
    have hnone : (if frame.header.expectsReply then
        answerImage service.config.maxPayloadLength frame.header.command frame.header.sequence
          .deferred else none) = none := ite_self none
    have hrelease := honly _ (h entry (handlerFor?_eq_some_iff.mp hhandler).2.1)
    let handle := ReplyHandle.ofHeader frame.header entry.types.reply
    have hused : c.Yields frame.header.expectsReply
        ((c.afterEffects service frame).useHandle service handle release.use).2 := by
      by_cases hkeep : release.use = .keep
      · rw [hkeep]
        exact .keeps rfl (hpasses.parks.trans (.of_outbound rfl)) hpasses.frames
          (congrArg (· ++ [handle]) hpasses.kept)
      · have hresponds := responds_useHandle service (c.afterEffects service frame) handle hkeep
        exact .answers (hpasses.toAside.answers hresponds.toAnswers)
    rw [heq, hnone]
    exact hused.aside ((passes_allows service).carryOut _ (hrelease _ _)).1.toAside

end Connection

end CallWire
