import CallWire.Proofs.Connection.Responses

/-!
# CallWire.Proofs.Connection.Dialogue — two ends that process each other's frames

Each end processes the frames of the other in any order, answers them at once or later, and writes
its answers whenever it gets to it.  If the handlers send no requests themselves, every frame is on
its way to an end: a request weighs more than the handle or the answer that it may come to, a handle
more than an answer, an answer more on the near side of the wire than beyond it, and of an answer
nothing remains.  So the weight of what is in flight falls with every move, and as long as there is
any, one of the ends can move.
-/

namespace CallWire

/-- No handler sends requests. -/
def Service.IsPassive (service : Service) : Prop := ∀ command, service.IsPassiveFor command

/-- The header can be read and is that of a request to be answered. -/
def Frame.expects (bytes : Bytes) : Bool :=
  match Header.parse bytes with
  | .ok header => header.expectsReply
  | .error _ => false

theorem Frame.asks_of_parse {bytes : Bytes} {header : Header} (h : Header.parse bytes = .ok header) :
    asks bytes = header.isRequest := by
  unfold asks
  rw [h]

theorem Frame.expects_of_parse {bytes : Bytes} {header : Header}
    (h : Header.parse bytes = .ok header) : expects bytes = header.expectsReply := by
  unfold expects
  rw [h]

theorem countP_cons_toNat {α : Type} (p : α → Bool) (a : α) (l : List α) :
    (a :: l).countP p = l.countP p + (p a).toNat := by
  rw [List.countP_cons]
  cases p a with
  | true | false => rfl

theorem Header.expectsReply_of_not_isRequest {header : Header} (h : header.isRequest = false) :
    header.expectsReply = false :=
  (Bool.or_eq_false_iff.mp h).1

theorem Frame.expects_of_not_asks {bytes : Bytes} (h : asks bytes = false) :
    expects bytes = false := by
  unfold asks at h
  unfold expects
  split
  · next header hparse =>
    rw [hparse] at h
    exact Header.expectsReply_of_not_isRequest h
  · rfl

theorem Outbound.frames_eq_cons_of_pop {o o' : Outbound} {bytes : Bytes}
    (h : o.pop = some (bytes, o')) : o.frames = bytes :: o'.frames := by
  obtain ⟨f, hinHand, hf⟩ := Option.map_eq_some_iff.mp h
  obtain ⟨rfl, rfl⟩ := Prod.mk.inj hf
  rw [← o.frames_pickUp]
  unfold frames
  rw [hinHand]
  rfl

namespace Connection

/-- The requests to be sent and the handles kept that are to be answered. -/
def debt (c : Connection) : Nat :=
  c.outbound.frames.countP Frame.expects + c.kept.countP (·.expectsReply)

/-- Weight of the frames to be sent and of the handles kept. -/
def load (c : Connection) : Nat :=
  2 * c.outbound.frames.length + 3 * c.outbound.frames.countP Frame.asks + 3 * c.kept.length

def keeping (c : Connection) (kept : List ReplyHandle) : Connection := { c with kept }

/-- How many more frames `c'` has to send than `c`. -/
def made (c c' : Connection) : Nat := c'.outbound.frames.length - c.outbound.frames.length

def IsReadable (bytes : Bytes) : Prop :=
  ∃ frame : Frame, bytes = frame.toBytes ∧ Header.parse bytes = .ok frame.header

/-- The frames to be sent have readable headers, and a reply waits only behind others. -/
structure CanWrite (c : Connection) : Prop where
  capacity : 0 < c.outbound.capacity
  parked : c.outbound.IsParked
  readable : ∀ bytes ∈ c.outbound.frames, IsReadable bytes

variable {service : Service} {c c' : Connection} {expectsReply : Bool}

/-! ### What is still to come of it -/

theorem Aside.counts (h : c.Aside c') : c.made c' = 0 ∧ c'.debt = c.debt ∧ c'.load = c.load := by
  unfold made debt load
  rw [h.frames, h.kept, Nat.sub_self]
  exact ⟨rfl, rfl, rfl⟩

theorem Answers.counts (h : c.Answers expectsReply c') :
    c.made c' + c'.debt ≤ c.debt + expectsReply.toNat ∧ c'.load ≤ c.load + 2 := by
  unfold made debt load
  rw [h.kept]
  rcases h.frames with heq | ⟨rfl, command, sequence, bytes, hanswer, hperm⟩
  · rw [heq]
    omega
  · have hasks := hanswer.asks_eq_false
    have hexpects := Frame.expects_of_not_asks hasks
    rw [hperm.countP_eq, hperm.countP_eq, hperm.length_eq, countP_cons_toNat, countP_cons_toNat,
      hasks, hexpects, List.length_cons, Bool.toNat_true, Bool.toNat_false]
    omega

theorem Yields.counts (h : c.Yields expectsReply c') :
    c.made c' + c'.debt ≤ c.debt + expectsReply.toNat ∧ c'.load ≤ c.load + 3 := by
  cases h with
  | answers h =>
    have hcounts := h.counts
    omega
  | @keeps handle hexpects _ hframes hkept =>
    unfold made debt load
    rw [hframes, hkept, List.countP_append, countP_cons_toNat, List.countP_nil, List.length_append,
      List.length_singleton, hexpects]
    omega

theorem counts_write {frame : Frame} {outbound : Outbound}
    (hpop : c.outbound.pop = some (frame.toBytes, outbound))
    (hparse : Header.parse frame.toBytes = .ok frame.header) :
    c.made { c with outbound } = 0 ∧
      ({ c with outbound } : Connection).debt + frame.header.expectsReply.toNat = c.debt ∧
      ({ c with outbound } : Connection).load + (2 + 3 * frame.header.isRequest.toNat) = c.load := by
  unfold made debt load
  rw [Outbound.frames_eq_cons_of_pop hpop, List.length_cons, countP_cons_toNat, countP_cons_toNat,
    Frame.asks_of_parse hparse, Frame.expects_of_parse hparse]
  dsimp only
  omega

theorem counts_answer (service : Service) {before after : List ReplyHandle} {handle : ReplyHandle}
    {use : HandleUse} (hkept : c.kept = before ++ handle :: after) (huse : use ≠ .keep) :
    c.made ((c.keeping (before ++ after)).useHandle service handle use).2 +
        ((c.keeping (before ++ after)).useHandle service handle use).2.debt ≤ c.debt ∧
      ((c.keeping (before ++ after)).useHandle service handle use).2.load < c.load := by
  have hdebt : (c.keeping (before ++ after)).debt + handle.expectsReply.toNat = c.debt := by
    unfold debt
    rw [hkept, List.countP_append, countP_cons_toNat]
    simp only [keeping, List.countP_append]
    omega
  have hload : (c.keeping (before ++ after)).load + 3 = c.load := by
    unfold load
    rw [hkept, List.length_append, List.length_cons]
    simp only [keeping, List.length_append]
    omega
  obtain ⟨hanswered, hanswer⟩ :=
    (responds_useHandle service (c.keeping (before ++ after)) handle huse).toAnswers.counts
  rw [show c.made = (c.keeping (before ++ after)).made from rfl]
  omega

theorem counts_stop (c : Connection) (reason : DisconnectReason) :
    (c.stopWriting.finish reason).outbound.frames = [] ∧
      (c.stopWriting.finish reason).kept = c.kept := by
  unfold finish
  split
  · exact ⟨rfl, rfl⟩
  · exact ⟨rfl, rfl⟩

/-! ### What can be written -/

theorem CanWrite.of_parks (h : c.CanWrite) (hparks : c.Parks c')
    (hframes : ∀ bytes ∈ c'.outbound.frames, bytes ∈ c.outbound.frames ∨ IsReadable bytes) :
    c'.CanWrite where
  capacity := hparks.capacity ▸ h.capacity
  parked := hparks.parked h.capacity h.parked
  readable := fun bytes hb => (hframes bytes hb).elim (h.readable bytes) id

theorem CanWrite.aside (h : c.CanWrite) (haside : c.Aside c') : c'.CanWrite :=
  h.of_parks haside.parks fun _ hb => .inl (haside.frames ▸ hb)

theorem CanWrite.answers (h : c.CanWrite) (hanswers : c.Answers expectsReply c') : c'.CanWrite := by
  refine h.of_parks hanswers.toParks ?_
  intro bytes hb
  rcases hanswers.frames with heq | ⟨-, command, sequence, answer, hanswer, hperm⟩
  · exact .inl (heq ▸ hb)
  · rcases List.mem_cons.mp (hperm.mem_iff.mp hb) with rfl | hb
    · obtain ⟨frame, hframe, -, -, -, hparse, -⟩ := hanswer
      have hheader := hparse []
      rw [List.append_nil] at hheader
      exact .inr ⟨frame, hframe, hheader⟩
    · exact .inl hb

theorem CanWrite.yields (h : c.CanWrite) (hyields : c.Yields expectsReply c') : c'.CanWrite := by
  cases hyields with
  | answers hanswers => exact h.answers hanswers
  | keeps _ hparks hframes _ => exact h.of_parks hparks fun _ hb => .inl (hframes ▸ hb)

theorem CanWrite.exists_pop (h : c.CanWrite) (hframes : c.outbound.frames ≠ []) :
    ∃ (frame : Frame) (outbound : Outbound),
      c.outbound.pop = some (frame.toBytes, outbound) ∧
        Header.parse frame.toBytes = .ok frame.header := by
  have hfirst : c.outbound.inHand.isSome = true ∨ c.outbound.queue ≠ [] := by
    by_contra hnone
    obtain ⟨hinHand, hqueue⟩ := not_or.mp hnone
    have hwaiting : ¬ c.outbound.waiting.isSome = true := fun hw => hqueue (h.parked hw)
    refine hframes ?_
    unfold Outbound.frames
    rw [Option.not_isSome_iff_eq_none.mp hinHand, Option.not_isSome_iff_eq_none.mp hwaiting,
      not_not.mp hqueue]
    rfl
  obtain ⟨bytes, outbound, hpop⟩ := Outbound.exists_pop_eq_some hfirst
  have hmem : bytes ∈ c.outbound.frames := by
    rw [Outbound.frames_eq_cons_of_pop hpop]
    exact List.mem_cons_self
  obtain ⟨frame, rfl, hparse⟩ := h.readable bytes hmem
  exact ⟨frame, outbound, hpop, hparse⟩

end Connection

/-- One end, with the frames that have arrived at it. -/
structure Endpoint where
  conn : Connection
  /-- Frames that have arrived and were not processed, in any order. -/
  inbox : List Frame := []

namespace Endpoint

def IsSilent (e : Endpoint) : Prop := e.inbox = [] ∧ e.conn.outbound.frames = []

def IsAwake (e : Endpoint) : Prop := e.conn.life.isConnected = true → e.conn.eventsStopped = false

/-- `stop` may happen: the writer was halted, or the connection is closing and everything is
written. -/
def MayStop (e : Endpoint) : Prop :=
  e.conn.outbound.isHalted = true ∨ e.conn.shutsDown = true ∨
    e.conn.life.isConnected = false ∧ e.conn.outbound.frames = []

/-- A move of one end concerning the frames in flight, with the frames that it writes. -/
inductive Move (service : Service) (e : Endpoint) : List Frame → Endpoint → Prop
  /-- `Connection.serve` of any of the frames in the inbox. A request waits while events are
  stopped, and every frame while a reply waits for room. -/
  | deliver {before after : List Frame} {frame : Frame} (hinbox : e.inbox = before ++ frame :: after)
      (hwaiting : e.conn.outbound.waiting = none)
      (hstarted : frame.header.isRequest = true → e.conn.eventsStopped = false) :
      Move service e []
        { conn := (e.conn.serve service frame).2, inbox := before ++ after }
  | write {frame : Frame} {outbound : Outbound} (hhalted : e.conn.outbound.isHalted = false)
      (hpop : e.conn.outbound.pop = some (frame.toBytes, outbound))
      (hparse : Header.parse frame.toBytes = .ok frame.header) :
      Move service e [frame] { e with conn := { e.conn with outbound } }
  /-- `Connection.useHandle` of a handle that was kept. -/
  | answer {before after : List ReplyHandle} {handle : ReplyHandle} {use : HandleUse}
      (hkept : e.conn.kept = before ++ handle :: after) (huse : use ≠ .keep) :
      Move service e [] { e with
        conn := ((e.conn.keeping (before ++ after)).useHandle service handle use).2 }
  /-- `Connection.finish`, which loses what was in flight. -/
  | stop (hflight : ¬ e.IsSilent) (hstop : e.MayStop) (reason : DisconnectReason) :
      Move service e [] { conn := e.conn.stopWriting.finish reason }

def requests (e : Endpoint) : Nat :=
  e.inbox.countP (·.header.expectsReply) + e.conn.outbound.frames.countP Frame.expects

def promises (e : Endpoint) : Nat := e.conn.kept.countP (·.expectsReply)

/-- Weight of what is in flight: four for a request that has arrived, three for a handle, two for an
answer to be sent, one for an answer that has arrived. -/
def weight (e : Endpoint) : Nat :=
  e.inbox.length + 3 * e.inbox.countP (·.header.isRequest) + e.conn.load

variable {service : Service} {e e' : Endpoint} {sent : List Frame}

/-! ### What a move does -/

theorem requests_add_promises (e : Endpoint) :
    e.requests + e.promises = e.inbox.countP (·.header.expectsReply) + e.conn.debt :=
  Nat.add_assoc _ _ _

theorem counts_deliver {before after : List Frame} {frame : Frame} {c : Connection}
    (hinbox : e.inbox = before ++ frame :: after)
    (hdebt : e.conn.made c + c.debt ≤ e.conn.debt + frame.header.expectsReply.toNat)
    (hload : c.load ≤ e.conn.load + 3 * frame.header.isRequest.toNat) :
    e.conn.made c + (Endpoint.requests ⟨c, before ++ after⟩ +
        Endpoint.promises ⟨c, before ++ after⟩) ≤ e.requests + e.promises ∧
      Endpoint.weight ⟨c, before ++ after⟩ < e.weight := by
  rw [requests_add_promises, requests_add_promises]
  unfold weight
  rw [hinbox]
  simp only [List.countP_append, countP_cons_toNat, List.length_append, List.length_cons]
  omega

theorem Move.counts (hmove : e.Move service sent e') (hpassive : service.IsPassive) :
    e.conn.made e'.conn + (e'.requests + e'.promises) + sent.countP (·.header.expectsReply) ≤
        e.requests + e.promises ∧
      e'.weight + (sent.length + 3 * sent.countP (·.header.isRequest)) < e.weight := by
  cases hmove with
  | @deliver before after frame hinbox hwaiting _ =>
    cases hrequest : frame.header.isRequest with
    | true =>
      have hyields := (e.conn.yields_serve hrequest hwaiting (hpassive _)).counts
      exact counts_deliver hinbox hyields.1 (by rw [hrequest]; exact hyields.2)
    | false =>
      obtain ⟨hmade, hdebt, hload⟩ := (e.conn.aside_serve_reply service hrequest).counts
      refine counts_deliver hinbox ?_ ?_
      · dsimp only
        omega
      · dsimp only
        omega
  | @write frame outbound _ hpop hparse =>
    obtain ⟨hmade, hdebt, hload⟩ := Connection.counts_write hpop hparse
    rw [requests_add_promises, requests_add_promises]
    unfold weight
    rw [countP_cons_toNat, countP_cons_toNat, List.length_singleton, List.countP_nil,
      List.countP_nil]
    dsimp only
    omega
  | @answer before after handle use hkept huse =>
    obtain ⟨hdebt, hload⟩ := Connection.counts_answer service hkept huse
    rw [requests_add_promises, requests_add_promises]
    unfold weight
    rw [List.countP_nil, List.countP_nil, List.length_nil]
    dsimp only
    omega
  -- A connection that stops loses everything in flight, of which there was something.
  | stop hflight _ reason =>
    obtain ⟨hframes, hkept⟩ := e.conn.counts_stop reason
    have hsome : 0 < e.inbox.length ∨ 0 < e.conn.outbound.frames.length := by
      rw [List.length_pos_iff, List.length_pos_iff]
      by_contra hnone
      obtain ⟨hinbox, hframes⟩ := not_or.mp hnone
      exact hflight ⟨not_not.mp hinbox, not_not.mp hframes⟩
    unfold requests promises weight Connection.made Connection.load
    dsimp only
    rw [hframes, hkept]
    simp only [List.countP_nil, List.length_nil]
    omega

theorem Move.canWrite (hmove : e.Move service sent e') (hpassive : service.IsPassive)
    (h : e.conn.CanWrite) : e'.conn.CanWrite := by
  cases hmove with
  | @deliver before after frame hinbox hwaiting _ =>
    cases hrequest : frame.header.isRequest with
    | true => exact h.yields (e.conn.yields_serve hrequest hwaiting (hpassive _))
    | false => exact h.aside (e.conn.aside_serve_reply service hrequest)
  | @write frame outbound _ hpop hparse =>
    refine h.of_parks (Connection.parks_pop hpop) fun bytes hb => .inl ?_
    rw [Outbound.frames_eq_cons_of_pop hpop]
    exact List.mem_cons_of_mem _ hb
  | @answer before after handle use hkept huse =>
    have htaken : (e.conn.keeping (before ++ after)).CanWrite := ⟨h.capacity, h.parked, h.readable⟩
    exact htaken.answers (Connection.responds_useHandle service _ handle huse).toAnswers
  | stop _ _ reason =>
    refine h.of_parks (e.conn.parks_stopWriting.trans (Connection.parks_finish _ reason)) ?_
    intro bytes hb
    rw [(e.conn.counts_stop reason).1] at hb
    cases hb

/-- Whenever something is in flight, an end that lets requests through has a move. -/
theorem exists_move (service : Service) (h : e.conn.CanWrite) (hawake : e.IsAwake)
    (hflight : ¬ e.IsSilent) : ∃ sent e', e.Move service sent e' := by
  by_cases hhalted : e.conn.outbound.isHalted = true
  · exact ⟨_, _, .stop hflight (.inl hhalted) .user⟩
  have hgoes := Bool.eq_false_iff.mpr hhalted
  by_cases hframes : e.conn.outbound.frames = []
  · -- With nothing to write, it takes up a frame that has come.
    obtain ⟨frame, after, hinbox⟩ :=
      List.exists_cons_of_ne_nil fun hnone => hflight ⟨hnone, hframes⟩
    obtain ⟨-, hbehind⟩ := List.append_eq_nil_iff.mp hframes
    obtain ⟨-, hwaits⟩ := List.append_eq_nil_iff.mp hbehind
    have hwaiting : e.conn.outbound.waiting = none := Option.toList_eq_nil_iff.mp hwaits
    by_cases hconnected : e.conn.life.isConnected = true
    · have hfirst : e.inbox = [] ++ frame :: after := hinbox
      exact ⟨_, _, .deliver hfirst hwaiting fun _ => hawake hconnected⟩
    · exact ⟨_, _, .stop hflight
        (.inr (.inr ⟨Bool.eq_false_iff.mpr hconnected, hframes⟩)) .user⟩
  · obtain ⟨frame, outbound, hpop, hparse⟩ := h.exists_pop hframes
    exact ⟨_, _, .write hgoes hpop hparse⟩

/-! ### What comes from the other end, and what else happens -/

def receive (e : Endpoint) (frames : List Frame) : Endpoint :=
  { e with inbox := e.inbox ++ frames }

theorem counts_receive (e : Endpoint) (frames : List Frame) :
    (e.receive frames).requests + (e.receive frames).promises =
        e.requests + e.promises + frames.countP (·.header.expectsReply) ∧
      (e.receive frames).weight =
        e.weight + (frames.length + 3 * frames.countP (·.header.isRequest)) := by
  rw [requests_add_promises, requests_add_promises]
  unfold weight receive
  simp only [List.countP_append, List.length_append]
  omega

/-- The end with another state of its connection and the same inbox. -/
def become (e : Endpoint) (c : Connection) : Endpoint := { e with conn := c }

theorem counts_become {c : Connection} (h : e.conn.Aside c) :
    (e.become c).requests + (e.become c).promises = e.requests + e.promises ∧
      (e.become c).weight = e.weight := by
  obtain ⟨-, hdebt, hload⟩ := h.counts
  rw [requests_add_promises, requests_add_promises]
  unfold weight become
  rw [hdebt, hload]
  exact ⟨rfl, rfl⟩

end Endpoint

/-! ### Both ends -/

/-- Two ends. What one of them writes arrives in the inbox of the other. -/
structure Dialogue where
  near : Endpoint
  far : Endpoint

namespace Dialogue

def IsSilent (d : Dialogue) : Prop := d.near.IsSilent ∧ d.far.IsSilent

def IsAwake (d : Dialogue) : Prop := d.near.IsAwake ∧ d.far.IsAwake

def CanWrite (d : Dialogue) : Prop := d.near.conn.CanWrite ∧ d.far.conn.CanWrite

def requests (d : Dialogue) : Nat := d.near.requests + d.far.requests

def promises (d : Dialogue) : Nat := d.near.promises + d.far.promises

def weight (d : Dialogue) : Nat := d.near.weight + d.far.weight

/-- A move of one of the ends that generates `made` frames. -/
inductive Step (near far : Service) (d : Dialogue) : Nat → Dialogue → Prop
  | near {sent : List Frame} {e : Endpoint} (h : d.near.Move near sent e) :
      Step near far d (d.near.conn.made e.conn) ⟨e, d.far.receive sent⟩
  | far {sent : List Frame} {e : Endpoint} (h : d.far.Move far sent e) :
      Step near far d (d.far.conn.made e.conn) ⟨d.near.receive sent, e⟩

/-- A number of moves of either end, with the number of frames generated. In between the
applications may do anything but send. -/
inductive Run (near far : Service) (d : Dialogue) : (moves made : Nat) → Dialogue → Prop
  | refl : Run near far d 0 0 d
  | move {moves made more : Nat} {d' d'' : Dialogue} (hrun : Run near far d moves made d')
      (hstep : Step near far d' more d'') : Run near far d (moves + 1) (made + more) d''
  | aside {moves made : Nat} {d' : Dialogue} {c c' : Connection}
      (hrun : Run near far d moves made d') (hnear : d'.near.conn.Aside c)
      (hfar : d'.far.conn.Aside c') :
      Run near far d moves made ⟨d'.near.become c, d'.far.become c'⟩

variable {near far : Service} {d d' d'' : Dialogue} {moves made moves' made' : Nat}

theorem Run.trans (h : Run near far d moves made d') (h' : Run near far d' moves' made' d'') :
    Run near far d (moves + moves') (made + made') d'' := by
  induction h' with
  | refl => exact h
  | move _ hstep ih => exact Nat.add_assoc made _ _ ▸ ih.move hstep
  | aside _ hnear hfar ih => exact ih.aside hnear hfar

/-- A move generates at most as many frames as it pays off, and lowers the weight. -/
theorem Step.counts (hstep : Step near far d made d') (hnear : near.IsPassive)
    (hfar : far.IsPassive) :
    made + (d'.requests + d'.promises) ≤ d.requests + d.promises ∧ d'.weight < d.weight := by
  unfold requests promises weight
  cases hstep with
  | @near sent e hmove =>
    have hmoved := hmove.counts hnear
    have hcome := d.far.counts_receive sent
    dsimp only
    omega
  | @far sent e hmove =>
    have hmoved := hmove.counts hfar
    have hcome := d.near.counts_receive sent
    dsimp only
    omega

theorem Step.canWrite (hstep : Step near far d made d') (hnear : near.IsPassive)
    (hfar : far.IsPassive) (h : d.CanWrite) : d'.CanWrite := by
  cases hstep with
  | near hmove => exact ⟨hmove.canWrite hnear h.1, h.2⟩
  | far hmove => exact ⟨h.1, hmove.canWrite hfar h.2⟩

theorem Run.canWrite (hrun : Run near far d moves made d') (hnear : near.IsPassive)
    (hfar : far.IsPassive) (h : d.CanWrite) : d'.CanWrite := by
  induction hrun with
  | refl => exact h
  | move _ hstep ih => exact hstep.canWrite hnear hfar ih
  | aside _ haside haside' ih => exact ⟨ih.1.aside haside, ih.2.aside haside'⟩

theorem Run.counts (hrun : Run near far d moves made d') (hnear : near.IsPassive)
    (hfar : far.IsPassive) :
    made + (d'.requests + d'.promises) ≤ d.requests + d.promises ∧
      moves + d'.weight ≤ d.weight := by
  induction hrun with
  | refl => omega
  | move _ hstep ih =>
    have hmoved := hstep.counts hnear hfar
    omega
  | @aside moves made d' c c' _ haside haside' ih =>
    have hstays := Endpoint.counts_become haside
    have hstays' := Endpoint.counts_become haside'
    unfold requests promises weight at ih ⊢
    dsimp only
    omega

theorem exists_step (near far : Service) (h : d.CanWrite) (hawake : d.IsAwake)
    (hflight : ¬ d.IsSilent) : ∃ made d', Step near far d made d' := by
  by_cases hnear : d.near.IsSilent
  · obtain ⟨sent, e, hmove⟩ :=
      Endpoint.exists_move far h.2 hawake.2 fun hfar => hflight ⟨hnear, hfar⟩
    exact ⟨_, _, .far hmove⟩
  · obtain ⟨sent, e, hmove⟩ := Endpoint.exists_move near h.1 hawake.1 hnear
    exact ⟨_, _, .near hmove⟩

end Dialogue

end CallWire
