import CallWire.Proofs.Connection.Handlers
import Mathlib.Logic.Relation

/-!
# CallWire.Proofs.Connection.Reachable — what a connection can rely on until it ends

Whatever the application, the peer, the reader and the writer do, and in whatever order: until a
connection begins to end, its pending table is open and its writer at work.  Nearly every operation
leaves all three as they were, or begins the end (`Keeps`); this composes, and the few operations
that do otherwise are looked at one by one.
-/

namespace CallWire

/-! ### The pending table stays open -/

namespace PendingTable

variable (t : PendingTable)

theorem isClosed_register (limit : Nat) (command : UInt32) (slot : Nat) :
    (t.register limit command slot).2.isClosed = t.isClosed := by
  unfold register
  split
  · rfl
  · rfl

theorem isClosed_remove (n : UInt32) : (t.remove n).2.isClosed = t.isClosed := by
  unfold remove
  split
  · rfl
  · rfl

theorem isClosed_resolve (n : UInt32) : (t.resolve n).2.isClosed = t.isClosed := by
  have h := t.isClosed_remove n
  unfold resolve
  generalize t.remove n = removed at h ⊢
  rcases removed with ⟨_ | entry, t'⟩
  · show (if t'.cancelled.contains n then _ else _ : Resolution × PendingTable).2.isClosed = _
    split
    · exact h
    · exact h
  · exact h

theorem isClosed_cancel (n : UInt32) : (t.cancel n).2.isClosed = t.isClosed := by
  have h := t.isClosed_remove n
  unfold cancel
  generalize t.remove n = removed at h ⊢
  rcases removed with ⟨_ | entry, t'⟩
  · exact h
  · exact h

end PendingTable

namespace Calls

variable (c : Calls)

theorem isClosed_register (limit : Nat) (command : UInt32) :
    (c.register limit command).2.table.isClosed = c.table.isClosed := by
  have h := c.table.isClosed_register limit command c.slots.length
  unfold register
  generalize c.table.register limit command c.slots.length = registered at h ⊢
  rcases registered with ⟨e | n, t⟩
  · exact h
  · exact h

theorem isClosed_cancel (n : UInt32) : (c.cancel n).2.table.isClosed = c.table.isClosed := by
  have h := c.table.isClosed_cancel n
  unfold cancel
  generalize c.table.cancel n = cancelled at h ⊢
  rcases cancelled with ⟨_ | entry, t⟩
  · exact h
  · exact h

theorem isClosed_pollOrCancel (n : UInt32) (i milliseconds : Nat) :
    (c.pollOrCancel n i milliseconds).2.table.isClosed = c.table.isClosed := by
  unfold pollOrCancel
  rcases hpoll : c.poll i with ⟨_ | outcome, c'⟩
  · have hc' : c'.table = c.table := congrArg (·.2.table) hpoll.symm
    have h := c'.isClosed_cancel n
    rw [hc'] at h
    dsimp only
    generalize c'.cancel n = cancelled at h ⊢
    rcases cancelled with ⟨_ | _, c''⟩
    · exact h
    · exact h
  · exact congrArg (·.2.table.isClosed) hpoll.symm

end Calls

/-! ### What a request changes -/

namespace Connection

section Requests

variable (service : Service) (c : Connection) (command : UInt32)

theorem register_cases (type : PayloadType) (payload : Bytes) :
    ∃ calls, calls.table.isClosed = c.calls.table.isClosed ∧
      ((c.register service command type payload).2 = { c with calls } ∨
        ∃ n, { c with calls }.enqueue (Frame.image (.request command n) payload) =
          (.ok (), (c.register service command type payload).2)) := by
  have hclosed := c.calls.isClosed_register service.config.maxPending command
  unfold register
  generalize c.calls.register service.config.maxPending command = registered at hclosed ⊢
  rcases registered with ⟨e | ⟨n, slot⟩, calls⟩
  · exact ⟨calls, hclosed, .inl rfl⟩
  · have hcases := enqueue_enqueues { c with calls } (Frame.image (.request command n) payload)
    rcases hqueued : { c with calls }.enqueue (Frame.image (.request command n) payload) with
      ⟨e | ⟨⟩, c'⟩
    · rw [hqueued] at hcases
      dsimp only
      rw [hqueued]
      have hforgotten := (calls.table.isClosed_remove n).trans hclosed
      cases hcases with
      | unconnected | done | full => exact ⟨calls.forget n, hforgotten, .inl rfl⟩
    · dsimp only
      rw [hqueued]
      exact ⟨calls, hclosed, .inr ⟨n, hqueued⟩⟩

/-- `startCall` changes nothing but the calls, or also queues its request. -/
theorem startCall_cases (types : CommandTypes) (request : Value) :
    ∃ calls, calls.table.isClosed = c.calls.table.isClosed ∧
      ((c.startCall service command types request).2 = { c with calls } ∨
        ∃ n payload, c.prepareCall service command types request = .ok payload ∧
          { c with calls }.enqueue (Frame.image (.request command n) payload) =
            (.ok (), (c.startCall service command types request).2)) := by
  unfold startCall
  rcases c.prepareCall service command types request with e | payload
  · exact ⟨c.calls, rfl, .inl rfl⟩
  · obtain ⟨calls, hclosed, heq | ⟨n, hqueued⟩⟩ :=
      c.register_cases service command types.reply payload
    · exact ⟨calls, hclosed, .inl heq⟩
    · exact ⟨calls, hclosed, .inr ⟨n, payload, rfl, hqueued⟩⟩

/-- `sendOneWay` changes nothing, or uses a number up and may queue its request. -/
theorem sendOneWay_cases (type : PayloadType) (request : Value) :
    (c.sendOneWay service command type request).2 = c ∨
      ∃ n calls payload, calls.table.isClosed = c.calls.table.isClosed ∧
        c.prepareOneWay service command type request = .ok payload ∧
        (c.sendOneWay service command type request).2 =
          ({ c with calls }.enqueue (Frame.image (.oneWay command n) payload)).2 := by
  unfold sendOneWay
  rcases c.prepareOneWay service command type request with e | payload
  · exact .inl rfl
  · exact .inr ⟨c.calls.nextSequence.1, c.calls.nextSequence.2, payload, rfl, rfl, rfl⟩

end Requests

end Connection

/-! ### The writer stays at work -/

namespace Outbound

/-- The writer was not asked to drain or to stop. -/
def isRunning (o : Outbound) : Bool := !o.isDraining && !o.isHalted && !o.isDone

variable (o : Outbound)

theorem isRunning_await (frame : Bytes) : (o.await frame).isRunning = o.isRunning := by
  unfold await
  split
  · rfl
  · split
    · rfl
    · rfl

theorem isRunning_pickUp : o.pickUp.isRunning = o.isRunning := by
  unfold pickUp
  split
  · rfl
  · rfl

theorem isRunning_pop {o' : Outbound} {frame : Bytes} (h : o.pop = some (frame, o')) :
    o'.isRunning = o.isRunning := by
  obtain ⟨f, -, hf⟩ := Option.map_eq_some_iff.mp h
  obtain ⟨-, rfl⟩ := Prod.mk.inj hf
  exact o.isRunning_pickUp

end Outbound

theorem Lifecycle.state_claim (l : Lifecycle) : l.claim.2.state = l.state := by
  unfold claim
  split
  · rfl
  · rfl

theorem Lifecycle.close_cases (l : Lifecycle) :
    (∃ e, l.close = (.error e, l)) ∨ ∃ l', l.close = (.ok (), l') ∧ l'.state = .closing := by
  unfold close
  split
  case h_5 => exact .inr ⟨_, rfl, rfl⟩
  all_goals exact .inl ⟨_, rfl⟩

theorem Lifecycle.state_fail (l : Lifecycle) (reason : DisconnectReason)
    (h : l.state = .connected ∨ l.state = .closing) : (l.fail reason).state = .closing := by
  unfold fail
  rcases h with h | h
  · rw [h]
    rfl
  · rw [h]
    rfl

namespace Connection

theorem isConnected_fail (c : Connection) (reason : DisconnectReason) :
    (c.fail reason).life.isConnected = false := by
  unfold fail Lifecycle.fail Lifecycle.isConnected
  cases hstate : c.life.state with
  | connecting | closed =>
    show (c.life.state == .connected) = false
    rw [hstate]
    rfl
  | connected | closing => rfl

theorem isConnected_finish (c : Connection) (reason : DisconnectReason) :
    (c.finish reason).life.isConnected = false := by
  unfold finish Lifecycle.finish Lifecycle.isConnected
  cases hstate : c.life.state with
  | closed =>
    show (c.life.state == .connected) = false
    rw [hstate]
    rfl
  | connecting | connected | closing => rfl

/-! ### What nearly every operation keeps -/

/-- The connection is not closing and not closed. -/
def IsLive (c : Connection) : Prop :=
  c.life.state = .connecting ∨ c.life.state = .connected

/-- If `c'` is still live then so was `c`, with the same table state and the same running writer. -/
def Keeps (c c' : Connection) : Prop :=
  c'.IsLive → c.IsLive ∧ c'.calls.table.isClosed = c.calls.table.isClosed ∧
    c'.outbound.isRunning = c.outbound.isRunning

theorem Keeps.trans {c c' c'' : Connection} (h : c.Keeps c') (h' : c'.Keeps c'') :
    c.Keeps c'' := by
  intro hlive
  obtain ⟨hlive', htable', hwriter'⟩ := h' hlive
  obtain ⟨hlive'', htable, hwriter⟩ := h hlive'
  exact ⟨hlive'', htable'.trans htable, hwriter'.trans hwriter⟩

theorem Keeps.refl (c : Connection) : c.Keeps c := fun hlive => ⟨hlive, rfl, rfl⟩

theorem keeps_of_ended {c c' : Connection} (h : c'.life.state = .closing ∨ c'.life.state = .closed) :
    c.Keeps c' := by
  intro hlive
  rcases hlive with hlive | hlive
  · rw [hlive] at h
    rcases h with h | h
    · cases h
    · cases h
  · rw [hlive] at h
    rcases h with h | h
    · cases h
    · cases h

variable (service : Service) (c : Connection)

theorem keeps_record (e : Event) : c.Keeps (c.record e) := fun hlive => ⟨hlive, rfl, rfl⟩

theorem keeps_claim : c.Keeps c.claim.2 := by
  have hstate : c.claim.2.life.state = c.life.state := c.life.state_claim
  intro hlive
  unfold IsLive at hlive
  rw [hstate] at hlive
  exact ⟨hlive, rfl, rfl⟩

theorem keeps_calls {calls : Calls} (h : calls.table.isClosed = c.calls.table.isClosed) :
    c.Keeps { c with calls } :=
  fun hlive => ⟨hlive, h, rfl⟩

theorem keeps_outbound {outbound : Outbound} (h : outbound.isRunning = c.outbound.isRunning) :
    c.Keeps { c with outbound } :=
  fun hlive => ⟨hlive, rfl, h⟩

theorem keeps_enqueue (frame : Bytes) : c.Keeps (c.enqueue frame).2 := by
  rcases c.enqueue_cases frame with heq | ⟨-, heq⟩
  · rw [heq]
    exact .refl c
  · rw [heq]
    exact c.keeps_outbound rfl

theorem keeps_sendReply (frame : Bytes) : c.Keeps (c.sendReply frame) := by
  unfold sendReply
  split
  · exact c.keeps_outbound (c.outbound.isRunning_await frame)
  · exact .refl c

theorem keeps_startCall (command : UInt32) (types : CommandTypes) (request : Value) :
    c.Keeps (c.startCall service command types request).2 := by
  obtain ⟨calls, hclosed, heq | ⟨n, payload, -, hqueued⟩⟩ :=
    c.startCall_cases service command types request
  · rw [heq]
    exact c.keeps_calls hclosed
  · have hkeeps := keeps_enqueue { c with calls } (Frame.image (.request command n) payload)
    rw [hqueued] at hkeeps
    exact (c.keeps_calls hclosed).trans hkeeps

theorem keeps_sendOneWay (command : UInt32) (type : PayloadType) (request : Value) :
    c.Keeps (c.sendOneWay service command type request).2 := by
  rcases c.sendOneWay_cases service command type request with
    heq | ⟨n, calls, payload, hclosed, -, heq⟩
  · rw [heq]
    exact .refl c
  · rw [heq]
    exact (c.keeps_calls hclosed).trans (keeps_enqueue _ _)

theorem keeps_cancel (n : UInt32) : c.Keeps (c.cancel n).2 :=
  c.keeps_calls (c.calls.isClosed_cancel n)

theorem keeps_wait (call : PendingCall) : c.Keeps (c.wait call).2 := c.keeps_calls rfl

theorem keeps_waitUntil (call : PendingCall) (milliseconds : Nat) :
    c.Keeps (c.waitUntil call milliseconds).2 :=
  c.keeps_calls (c.calls.isClosed_pollOrCancel call.sequence call.slot milliseconds)

theorem keeps_drop (call : PendingCall) : c.Keeps (c.drop call) := by
  unfold drop
  split
  · exact .refl c
  · exact c.keeps_cancel call.sequence

theorem keeps_close : c.Keeps c.close.2 := by
  unfold close
  rcases c.life.close_cases with ⟨e, h⟩ | ⟨life, h, hclosing⟩
  · rw [h]
    exact .refl c
  · rw [h]
    exact keeps_of_ended (.inl hclosing)

theorem keeps_fail (reason : DisconnectReason) : c.Keeps (c.fail reason) := by
  unfold fail
  split
  · next h => exact keeps_of_ended (.inl (c.life.state_fail reason (.inl h)))
  · next h => exact keeps_of_ended (.inl (c.life.state_fail reason (.inr h)))
  · exact .refl c
  · exact .refl c

theorem keeps_finish (reason : DisconnectReason) : c.Keeps (c.finish reason) := by
  unfold finish Lifecycle.finish
  split
  · exact .refl c
  · next life h =>
    refine keeps_of_ended (.inr ?_)
    split at h
    · cases h
    · cases h
      rfl

/-! ### Handlers and the reader -/

theorem keeps_allowsHandlers (service : Service) : AllowsHandlers service Keeps where
  refl := Keeps.refl
  trans := Keeps.trans
  record := keeps_record
  events := fun _ _ hlive => ⟨hlive, rfl, rfl⟩
  close := keeps_close
  shutDown := fun _ hlive => ⟨hlive, rfl, rfl⟩
  oneWay := keeps_sendOneWay service
  call := keeps_startCall service
  keep := fun _ _ hlive => ⟨hlive, rfl, rfl⟩
  reply := fun c _ _ _ _ => c.keeps_enqueue _
  error := fun c _ _ _ => c.keeps_enqueue _

theorem keeps_handleReply (frame : Frame) : c.Keeps (c.handleReply frame) := by
  have hclosed := c.calls.table.isClosed_resolve frame.header.sequence
  unfold handleReply Calls.resolve
  generalize c.calls.table.resolve frame.header.sequence = resolved at hclosed ⊢
  rcases resolved with ⟨entry | _ | _, table⟩
  · dsimp only
    split
    · exact (c.keeps_calls hclosed).trans (keeps_record _ _)
    · exact c.keeps_calls hclosed
  · exact c.keeps_calls hclosed
  · exact (c.keeps_calls hclosed).trans (keeps_record _ _)

theorem keeps_stopReading (reason : DisconnectReason) : c.Keeps (c.stopReading reason).2 :=
  (c.keeps_fail reason).trans (keeps_finish _ reason)

theorem keeps_allowsReading (service : Service) : AllowsReading service Keeps where
  toAllowsHandlers := keeps_allowsHandlers service
  takeIn := fun _ _ _ _ _ hlive => ⟨hlive, rfl, rfl⟩
  handleReply := keeps_handleReply
  sendReply := fun c _ _ _ reply _ => c.keeps_sendReply reply
  stopReading := keeps_stopReading

theorem keeps_serve (frame : Frame) : c.Keeps (c.serve service frame).2 :=
  (keeps_allowsReading service).serveFrame c frame

/-! ### Every run -/

/-- One thing that happens to a connection: something the application does, a turn of the reader or
of the writer, or anything on the peer's side of the stream. -/
inductive Step (service : Service) : Connection → Connection → Prop
  | claim (c : Connection) : Step service c c.claim.2
  | abandon (c : Connection) : Step service c c.abandon
  | establish (c : Connection) (hasPeerAddress : Bool) (h : c.life.state = .connecting) :
      Step service c (c.establish hasPeerAddress)
  | startCall (c : Connection) (command : UInt32) (types : CommandTypes) (request : Value) :
      Step service c (c.startCall service command types request).2
  | sendOneWay (c : Connection) (command : UInt32) (type : PayloadType) (request : Value) :
      Step service c (c.sendOneWay service command type request).2
  | cancel (c : Connection) (n : UInt32) : Step service c (c.cancel n).2
  | wait (c : Connection) (call : PendingCall) : Step service c (c.wait call).2
  | waitUntil (c : Connection) (call : PendingCall) (milliseconds : Nat) :
      Step service c (c.waitUntil call milliseconds).2
  | drop (c : Connection) (call : PendingCall) : Step service c (c.drop call)
  | reply (c : Connection) (handle : ReplyHandle) (v : Value) :
      Step service c (handle.reply service c v).2
  | replyError (c : Connection) (handle : ReplyHandle) (status : Status) :
      Step service c (handle.replyError c status).2
  | dropHandle (c : Connection) (handle : ReplyHandle) : Step service c (handle.drop c)
  | stopEvents (c : Connection) : Step service c c.stopEvents.2
  | startEvents (c : Connection) : Step service c c.startEvents.2
  | close (c : Connection) : Step service c c.close.2
  | finish (c : Connection) (reason : DisconnectReason) : Step service c (c.finish reason)
  | transport (c : Connection) (socket : Socket) : Step service c { c with socket }
  | look (c : Connection) (events : List Event) (kept : List ReplyHandle) (shutsDown : Bool) :
      Step service c { c with events, kept, shutsDown }
  | pickUp (c : Connection) : Step service c c.pickUp
  | readerTurn (c : Connection) (h : c.life.state = .connected ∨ c.life.state = .closing) :
      Step service c (c.readerTurn service).2
  | writerTurn (c c' : Connection) (h : c.life.state = .connected ∨ c.life.state = .closing)
      (hw : c.writerTurn = some c') : Step service c c'

/-- The connection can come about in the course of a run. -/
def Reachable (service : Service) (c : Connection) : Prop :=
  ∃ context, Relation.ReflTransGen (Step service) (new service context) c

/-- Until it begins to end, calls can be registered on the connection and its writer is at work. -/
def Coherent (c : Connection) : Prop :=
  c.IsLive → c.calls.table.isClosed = false ∧ c.outbound.isRunning

variable {service : Service} {c c' : Connection}

theorem Coherent.of_keeps (h : c.Coherent) (hk : c.Keeps c') : c'.Coherent := by
  intro hlive
  obtain ⟨hlive', htable, hwriter⟩ := hk hlive
  obtain ⟨hopen, hrunning⟩ := h hlive'
  exact ⟨htable.trans hopen, hwriter.trans hrunning⟩

theorem state_fail (h : c.life.state = .connected ∨ c.life.state = .closing)
    (reason : DisconnectReason) : (c.fail reason).life.state = .closing := by
  unfold fail
  rcases h with hs | hs
  · rw [hs]
    exact c.life.state_fail reason (.inl hs)
  · rw [hs]
    exact c.life.state_fail reason (.inr hs)

/-- The writer stops only where the end has begun: it was asked to, or its writing failed. -/
theorem Coherent.writerTurn (h : c.Coherent)
    (hs : c.life.state = .connected ∨ c.life.state = .closing) (hw : c.writerTurn = some c') :
    c'.Coherent := by
  cases (writerTurn_turn hw).2 with
  | halted hhalted =>
    intro hlive
    have hrunning := (h hlive).2
    simp [Outbound.isRunning, hhalted] at hrunning
  | writes hpop =>
    exact h.of_keeps fun hlive => ⟨hlive, rfl, c.outbound.isRunning_pop hpop⟩
  | @breaks frame outbound =>
    have hfail : ({ c with outbound }.fail .ioError).life.state = .closing :=
      state_fail (c := { c with outbound }) hs .ioError
    exact h.of_keeps (keeps_of_ended (.inl hfail))
  | shutsDown _ hdraining =>
    intro hlive
    have hrunning := (h hlive).2
    simp [Outbound.isRunning, hdraining] at hrunning

theorem Coherent.step (h : c.Coherent) (hstep : c.Step service c') : c'.Coherent := by
  cases hstep with
  | claim => exact h.of_keeps c.keeps_claim
  | abandon => exact h.of_keeps (keeps_of_ended (.inr rfl))
  | establish hasPeerAddress hs => exact fun _ => h (.inl hs)
  | startCall command types request => exact h.of_keeps (keeps_startCall service c _ _ _)
  | sendOneWay command type request => exact h.of_keeps (keeps_sendOneWay service c _ _ _)
  | cancel n => exact h.of_keeps (c.keeps_cancel n)
  | wait call => exact h.of_keeps (c.keeps_wait call)
  | waitUntil call milliseconds => exact h.of_keeps (c.keeps_waitUntil call milliseconds)
  | drop call => exact h.of_keeps (c.keeps_drop call)
  | reply handle v => exact h.of_keeps ((keeps_allowsHandlers service).replyValue c handle v)
  | replyError handle status => exact h.of_keeps ((keeps_allowsHandlers service).replyError c handle status)
  | dropHandle handle => exact h.of_keeps ((keeps_allowsHandlers service).dropHandle c handle)
  | stopEvents => exact h.of_keeps ((keeps_allowsHandlers service).act c .stopEvents)
  | startEvents => exact h.of_keeps ((keeps_allowsHandlers service).act c .startEvents)
  | close => exact h.of_keeps c.keeps_close
  | finish reason => exact h.of_keeps (c.keeps_finish reason)
  | transport socket => exact h
  | look events kept shutsDown => exact h
  | pickUp => exact h.of_keeps (c.keeps_outbound c.outbound.isRunning_pickUp)
  | readerTurn hs => exact h.of_keeps ((keeps_allowsReading service).readerTurn c)
  | writerTurn c' hs hw => exact h.writerTurn hs hw

/-- **Until it begins to end, a connection that came about in a run takes calls and writes.** -/
theorem Reachable.coherent (h : c.Reachable service) : c.Coherent := by
  obtain ⟨context, hrun⟩ := h
  induction hrun with
  | refl => exact fun _ => ⟨rfl, rfl⟩
  | tail _ hstep ih => exact ih.step hstep

end Connection

end CallWire
