import CallWire.Proofs.Connection.Correlation
import CallWire.Proofs.Connection.Handlers

/-!
# CallWire.Proofs.Connection.Uninterrupted — whole operations as runs beside a peer

To start a call, to send a request that is not answered, and to serve a frame of the peer are runs
of critical sections that nothing interrupts.  Of these runs only the one that serves a reply brings
one, and it is the reply that the peer has for the request.
-/

namespace CallWire

namespace Scene

variable {service : Service} {peer : Frame → PeerReply} {s s' : Scene} {c c' c'' : Connection}

theorem replies_grow (hstep : Step service s s') : s.race.replies <+: s'.race.replies := by
  have hkept (hparties : s'.race.parties = s.race.parties) : s.race.replies <+: s'.race.replies := by
    unfold Race.replies
    rw [hparties]
  cases hstep with
  | register hst hphase => exact hkept (s.race.parties_register _ _)
  | take hd => exact ⟨_, (s.race.replies_take _).symm⟩
  | complete hp he => exact ⟨[], (List.append_nil _).trans (Race.replies_complete hp).symm⟩
  | close reason => exact hkept (congrArg Race.parties (s.race_close reason).1)
  | drain hending => exact ⟨_, (s.race.replies_take .drain).symm⟩
  | start hprepare => exact hkept rfl
  | enqueue hst hphase => exact hkept rfl
  | forget hst hphase => exact hkept rfl
  | number => exact hkept rfl
  | wait hnew hpoll => exact hkept rfl
  | other hclosed => exact hkept rfl

theorem replies_grow_run (hrun : Relation.ReflTransGen (Step service) s s') :
    s.race.replies <+: s'.race.replies := by
  induction hrun with
  | refl => exact List.prefix_refl _
  | tail _ hstep ih => exact ih.trans (replies_grow hstep)

/-- A run without replies is a run with any peer. -/
theorem peerRun_of_run (hrun : Relation.ReflTransGen (Step service) s s')
    (hsilent : s'.race.replies = s.race.replies) :
    Relation.ReflTransGen (PeerStep service peer) s s' := by
  induction hrun with
  | refl => exact .refl
  | @tail s₁ s₂ hrun hstep ih =>
    have hlast := replies_grow hstep
    have hfirst := replies_grow_run hrun
    have hnone : s₁.race.replies = s.race.replies := by
      have hlength := hlast.length_le
      rw [hsilent] at hlength
      exact (hfirst.eq_of_length_le hlength).symm
    exact (ih hnone).tail (.own hstep (hsilent.trans hnone.symm))

theorem peerRun_of_parties (hrun : Relation.ReflTransGen (Step service) s s')
    (hparties : s'.race.parties = s.race.parties) :
    Relation.ReflTransGen (PeerStep service peer) s s' := by
  refine peerRun_of_run hrun ?_
  unfold Race.replies
  rw [hparties]

theorem exists_peerRun_startCall (peer : Frame → PeerReply) {command : UInt32}
    {types : CommandTypes} {request : Value} {payload : Bytes}
    (h : s.conn.prepareCall service command types request = .ok payload) :
    ∃ s' st', Relation.ReflTransGen (PeerStep service peer) s s' ∧ s'.starts = s.starts ++ [st'] ∧
      st'.phase = .ended (s.conn.startCall service command types request).1 ∧
      s'.conn = (s.conn.startCall service command types request).2 := by
  obtain ⟨s', st', hrun, hst', hphase, hconn, hparties⟩ := exists_run_startCall h
  exact ⟨s', st', peerRun_of_parties hrun hparties, hst', hphase, hconn⟩

/-- From `c` to `c'` there is a run with this peer, in which calls may be started. -/
def PeerRuns (service : Service) (peer : Frame → PeerReply) (c c' : Connection) : Prop :=
  ∀ s : Scene, s.conn = c → ∃ s', Relation.ReflTransGen (PeerStep service peer) s s' ∧
    s.starts <+: s'.starts ∧ s'.conn = c'

theorem PeerRuns.trans (h : PeerRuns service peer c c') (h' : PeerRuns service peer c' c'') :
    PeerRuns service peer c c'' := by
  intro s hconn
  obtain ⟨s', hrun, hstarts, hconn'⟩ := h s hconn
  obtain ⟨s'', hrun', hstarts', hconn''⟩ := h' s' hconn'
  exact ⟨s'', hrun.trans hrun', hstarts.trans hstarts', hconn''⟩

theorem peerRuns_other (hcalls : c'.calls = c.calls)
    (hclosed : c.life.state = .closed → c'.life.state = .closed) : PeerRuns service peer c c' := by
  rintro s rfl
  have hother : Step service s { s with shell := c' } := .other hclosed
  refine ⟨_, .single (.own hother rfl), List.prefix_rfl, ?_⟩
  show { c' with calls := s.race.calls } = c'
  rw [← show c'.calls = s.race.calls from hcalls]

theorem peerRuns_of_life (hcalls : c'.calls = c.calls) (hlife : c'.life = c.life) :
    PeerRuns service peer c c' :=
  peerRuns_other hcalls fun hclosed => (congrArg Lifecycle.state hlife).trans hclosed

theorem peerRuns_refl (c : Connection) : PeerRuns service peer c c := peerRuns_of_life rfl rfl

theorem peerRuns_enqueue (c : Connection) (frame : Bytes) :
    PeerRuns service peer c (c.enqueue frame).2 := by
  rcases c.enqueue_cases frame with heq | ⟨-, heq⟩
  · rw [heq]
    exact peerRuns_refl c
  · rw [heq]
    exact peerRuns_of_life rfl rfl

theorem peerRuns_sendReply (c : Connection) (frame : Bytes) :
    PeerRuns service peer c (c.sendReply frame) := by
  unfold Connection.sendReply
  split
  · exact peerRuns_of_life rfl rfl
  · exact peerRuns_refl c

theorem peerRuns_close (c : Connection) : PeerRuns service peer c c.close.2 := by
  unfold Connection.close
  rcases c.life.close_cases with ⟨e, h⟩ | ⟨life, h, -⟩
  · rw [h]
    exact peerRuns_of_life rfl rfl
  · have hopen : c.life.state ≠ .closed := by
      intro hclosed
      unfold Lifecycle.close at h
      rw [hclosed] at h
      cases hreason : c.life.reason with
      | none =>
        rw [hreason] at h
        cases h
      | some reason =>
        rw [hreason] at h
        cases h
    rw [h]
    exact peerRuns_other rfl fun hclosed => absurd hclosed hopen

theorem peerRuns_sendOneWay (c : Connection) (command : UInt32) (type : PayloadType)
    (note : Value) : PeerRuns service peer c (c.sendOneWay service command type note).2 := by
  unfold Connection.sendOneWay Connection.numberOneWay
  rcases c.prepareOneWay service command type note with e | payload
  · exact peerRuns_refl c
  · have hnumber : PeerRuns service peer c { c with calls := c.calls.nextSequence.2 } := by
      rintro s rfl
      exact ⟨{ s with race := s.race.number }, peerRun_of_parties (.single .number) rfl,
        List.prefix_rfl, rfl⟩
    exact hnumber.trans (peerRuns_enqueue _ _)

theorem peerRuns_startCall (c : Connection) (command : UInt32) (types : CommandTypes)
    (request : Value) :
    PeerRuns service peer c (c.startCall service command types request).2 := by
  rcases hprepare : c.prepareCall service command types request with e | payload
  · unfold Connection.startCall
    rw [hprepare]
    exact peerRuns_refl c
  · rintro s rfl
    obtain ⟨s', st', hrun, hstarts, -, hconn⟩ := exists_peerRun_startCall peer hprepare
    exact ⟨s', hrun, ⟨[st'], hstarts.symm⟩, hconn⟩

theorem peerRuns_allowsHandlers (service : Service) (peer : Frame → PeerReply) :
    Connection.AllowsHandlers service (PeerRuns service peer) where
  refl := peerRuns_refl
  trans := PeerRuns.trans
  record := fun _ _ => peerRuns_of_life rfl rfl
  events := fun _ _ => peerRuns_of_life rfl rfl
  close := peerRuns_close
  shutDown := fun _ => peerRuns_of_life rfl rfl
  oneWay := peerRuns_sendOneWay
  call := peerRuns_startCall
  keep := fun _ _ => peerRuns_of_life rfl rfl
  reply := fun c _ _ _ _ => peerRuns_enqueue c _
  error := fun c _ _ _ => peerRuns_enqueue c _

/-- Serving a request is such a run, whatever its handler does. -/
theorem peerRuns_serve_request (service : Service) (peer : Frame → PeerReply) (c : Connection)
    {frame : Frame} (h : frame.header.isRequest = true) :
    PeerRuns service peer c (c.serve service frame).2 :=
  (peerRuns_allowsHandlers service peer).serve c h fun c _ reply _ => peerRuns_sendReply c reply

/-- Serving a reply of the peer is a run with that peer. -/
theorem exists_peerRun_serve_reply {k : Nat} {call : PendingCall} {request : Frame}
    (service : Service) (peer : Frame → PeerReply) (hsent : s.Sent k call request) :
    ∃ s', Relation.ReflTransGen (PeerStep service peer) s s' ∧ s'.starts = s.starts ∧
      s'.conn = (s.conn.serve service ((peer request).frame request.header)).2 := by
  let reply := (peer request).frame request.header
  let rest (r : Race) : Scene := { s with race := r }
  obtain ⟨r, completed, hrun, -, hcalls, -⟩ :=
    Race.exists_run_completeEach
      (R := fun r r' => PeerStep service peer (rest r) (rest r'))
      (fun hp he => .own (.complete hp he) (Race.replies_complete hp))
      ((Deed.deliver reply).take s.race.calls.table).1 (s.race.take (.deliver reply)) [] rfl
  have hrequest : ¬ reply.header.isRequest = true := by
    rw [PeerReply.isRequest_frame]
    exact Bool.false_ne_true
  have hserve := congrArg Prod.snd (s.conn.serve_of_not_isRequest service hrequest)
  have hlife : (s.conn.handleReply reply).life = s.conn.life := by
    obtain ⟨calls, events, heq⟩ := s.conn.exists_handleReply reply
    rw [heq]
  have hother : Step service (rest r) { rest r with shell := s.conn.handleReply reply } := by
    refine .other fun hclosed => ?_
    rw [hlife]
    exact hclosed
  have hrest : Relation.ReflTransGen (PeerStep service peer) (rest (s.race.take (.deliver reply)))
      (rest r) := hrun.lift rest fun _ _ h => h
  refine ⟨_, .head (.reply hsent) (hrest.tail (.own hother rfl)), rfl, ?_⟩
  rw [hserve]
  have hreply : (s.conn.handleReply reply).calls = r.calls :=
    (s.conn.calls_handleReply reply).trans hcalls.symm
  show { s.conn.handleReply reply with calls := r.calls } = s.conn.handleReply reply
  rw [← hreply]

end Scene

end CallWire
