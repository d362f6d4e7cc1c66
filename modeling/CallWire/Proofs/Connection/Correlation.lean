import CallWire.Proofs.Connection.Answering
import CallWire.Proofs.Connection.Ending
import CallWire.Proofs.Pending.Outcomes

/-!
# CallWire.Proofs.Connection.Correlation — every reply finds the call it answers

A peer answers requests in whatever order it likes, and some of them never, while further calls are
started, other requests are sent and those of the peer are served.  A reply names the number of its
request.  Before the counter has come round no two calls have had the same number, so whoever a
reply finds in the table is the call whose request it answers.
-/

namespace CallWire

/-! ### The replies of a peer -/

/-- An answer of the peer: a payload, or a status. -/
inductive PeerReply
  | reply (payload : Bytes)
  | error (code : UInt32)
  deriving DecidableEq, Repr

namespace PeerReply

def frame (request : Header) : PeerReply → Frame
  | reply payload => .of (.reply request.command request.sequence) payload
  | error code => .errorReply request.command request.sequence code

/-- The outcome that the answer gives to the call. -/
def outcome : PeerReply → Outcome
  | reply payload => .ok payload
  | error code => .error (.remote (.ofCode code))

variable (r : PeerReply) {request : Header}

theorem sequence_frame : (r.frame request).header.sequence = request.sequence := by
  cases r with
  | reply payload => rfl
  | error code => rfl

theorem isRequest_frame : (r.frame request).header.isRequest = false := by
  have hkind : (r.frame request).header.kind = .reply ∨
      (r.frame request).header.kind = .errorReply := by
    cases r with
    | reply payload => exact .inl (Header.kind_reply request.command request.sequence)
    | error code => exact .inr (Header.kind_errorReply request.command request.sequence)
  unfold Header.isRequest
  rcases hkind with hkind | hkind
  · rw [hkind]
    rfl
  · rw [hkind]
    rfl

theorem replyOutcome_frame {entry : Entry} (h : entry.command = request.command) :
    Connection.replyOutcome entry (r.frame request) = (r.outcome, none) := by
  cases r with
  | reply payload =>
    exact Connection.replyOutcome_reply h (Header.kind_reply request.command request.sequence)
  | error code =>
    exact Connection.replyOutcome_errorReply h
      (Header.kind_errorReply request.command request.sequence)
      (Frame.statusCode_errorReply request.command request.sequence code)

end PeerReply

/-! ### The replies that have come -/

def Deed.reply? : Deed → Option Frame
  | deliver reply => some reply
  | cancel _ | drain => none

namespace Race

variable {r r' : Race}

/-- The replies delivered in the run, oldest first. -/
def replies (r : Race) : List Frame := r.parties.filterMap fun p => p.deed.reply?

theorem mem_replies {reply : Frame} :
    reply ∈ r.replies ↔ ∃ p ∈ r.parties, p.deed = .deliver reply := by
  have hdeed (d : Deed) : d.reply? = some reply ↔ d = .deliver reply := by
    cases d with
    | deliver reply' => simp [Deed.reply?]
    | cancel n => simp [Deed.reply?]
    | drain => simp [Deed.reply?]
  unfold replies
  rw [List.mem_filterMap]
  simp only [hdeed]

theorem replies_take (r : Race) (d : Deed) : (r.take d).replies = r.replies ++ d.reply?.toList := by
  show (r.parties ++ [_]).filterMap (fun p : Party => p.deed.reply?) = _
  rw [List.filterMap_append]
  cases d with
  | deliver reply => rfl
  | cancel n => rfl
  | drain => rfl

theorem replies_complete {before after : List Party} {p : Party} {e : Entry}
    (hp : r.parties = before ++ p :: after) : (r.complete before p after e).replies = r.replies := by
  unfold replies
  rw [hp, parties_complete, List.filterMap_append, List.filterMap_append]
  rfl

theorem Step.registered_since (hstep : r.Step r') :
    ∃ later, r'.registered = r.registered ++ later ∧
      ∀ e ∈ r'.calls.table.entries, e ∈ r.calls.table.entries ∨ e ∈ later := by
  cases hstep with
  | register limit command hends =>
    rcases r.register_cases limit command with ⟨-, heq⟩ | ⟨-, e, -, heq⟩
    · rw [heq]
      exact ⟨[], (List.append_nil _).symm, fun _ he => .inl he⟩
    · rw [heq]
      refine ⟨[e], rfl, fun e' he' => ?_⟩
      rcases List.mem_cons.mp he' with rfl | he'
      · exact .inr (List.mem_singleton_self _)
      · exact .inl he'
  | number hends => exact ⟨[], (List.append_nil _).symm, fun _ he => .inl he⟩
  | take d =>
    refine ⟨[], (List.append_nil _).symm, fun _ he => .inl ?_⟩
    exact (r.calls.table.entries_take_sublist d).subset he
  | complete hp he' => exact ⟨[], (List.append_nil _).symm, fun _ he => .inl he⟩
  | forget n =>
    refine ⟨[], (List.append_nil _).symm, fun _ he => .inl ?_⟩
    exact r.calls.table.entries_remove_subset n he
  | wait hnew hpoll => exact ⟨[], (List.append_nil _).symm, fun _ he => .inl he⟩

theorem Step.lacks (hstep : r.Step r') (h : r'.Numbered) {e : Entry} (he : e ∈ r.registered)
    (hlacks : r.calls.table.Lacks e.sequence) : r'.calls.table.Lacks e.sequence := by
  intro e' he' heq
  obtain ⟨later, hregistered, hmem⟩ := hstep.registered_since
  rcases hmem e' he' with hold | hnew
  · exact hlacks e' hold heq
  · have hdistinct := h.distinct
    rw [hregistered, List.map_append, List.nodup_append] at hdistinct
    exact hdistinct.2.2 _ (List.mem_map_of_mem he) _ (List.mem_map_of_mem hnew) heq.symm

theorem lacks_take_deliver (r : Race) (reply : Frame) :
    (r.take (.deliver reply)).calls.table.Lacks reply.header.sequence := by
  show ((Deed.deliver reply).take r.calls.table).2.Lacks reply.header.sequence
  rw [Deed.take_deliver]
  rcases r.calls.table.resolve_cases reply.header.sequence with
    ⟨e, -, -, heq⟩ | ⟨hlacks, -, heq⟩ | ⟨hlacks, -, heq⟩
  · rw [heq]
    exact PendingTable.lacks_without
  · rw [heq]
    exact hlacks
  · rw [heq]
    exact hlacks

end Race

namespace Scene

variable {service : Service} {peer : Frame → PeerReply} {s s' : Scene}

/-! ### Requests that were sent -/

/-- The thread at index `k` has queued this request and returned its call. -/
def Sent (s : Scene) (k : Nat) (call : PendingCall) (request : Frame) : Prop :=
  ∃ st, s.starts[k]? = some st ∧ st.phase = .ended (.ok call) ∧
    request = .of (.request call.command call.sequence) st.payload

/-- Some party of the run has done this deed. -/
def Did (s : Scene) (d : Deed) : Prop := ∃ p ∈ s.race.parties, p.deed = d

variable {k : Nat} {call : PendingCall} {request : Frame}

theorem Sent.entry_mem (h : s.Sent k call request) : call.entry ∈ s.entries := by
  obtain ⟨st, hst, hphase, -⟩ := h
  exact Returned.mem_entries ⟨st, hst, hphase⟩

theorem Sent.header_eq (h : s.Sent k call request) :
    request.header.command = call.command ∧ request.header.sequence = call.sequence := by
  obtain ⟨st, -, -, rfl⟩ := h
  exact ⟨rfl, rfl⟩

theorem Sent.of_replace (h : s.Sent k call request) {before after : List Start} {st st' : Start}
    (hst : s.starts = before ++ st :: after) (hst' : s'.starts = before ++ st' :: after)
    (hphase : st.phase ≠ .ended (.ok call)) : s'.Sent k call request := by
  obtain ⟨x, hx, hended, hrequest⟩ := h
  rw [hst] at hx
  refine ⟨x, ?_, hended, hrequest⟩
  rw [hst']
  exact getElem?_of_replace hx fun heq => hphase (heq ▸ hended)

theorem Sent.step (h : s.Sent k call request) (hstep : Step service s s') :
    s'.Sent k call request := by
  cases hstep with
  | start hprepare =>
    obtain ⟨st, hst, hphase, hrequest⟩ := h
    obtain ⟨hlt, -⟩ := List.getElem?_eq_some_iff.mp hst
    exact ⟨st, (List.getElem?_append_left hlt).trans hst, hphase, hrequest⟩
  | register hst hphase =>
    refine h.of_replace hst rfl ?_
    rw [hphase]
    exact nofun
  | @enqueue before after st call' hst hphase =>
    have hopen : st.phase ≠ .ended (.ok call) := by
      rw [hphase]
      exact nofun
    obtain ⟨shell, -, ⟨-, heq⟩ | ⟨e, heq⟩⟩ := s.enqueue_cases before st after call'
    · exact h.of_replace hst (by rw [heq]) hopen
    · exact h.of_replace hst (by rw [heq]) hopen
  | forget hst hphase =>
    refine h.of_replace hst rfl ?_
    rw [hphase]
    exact nofun
  | close reason =>
    obtain ⟨st, hst, hrest⟩ := h
    refine ⟨st, ?_, hrest⟩
    rw [(s.race_close reason).2]
    exact hst
  | number => exact h
  | take hd => exact h
  | complete hp he => exact h
  | wait hnew hpoll => exact h
  | drain hending => exact h
  | other hclosed => exact h

theorem Owned.place_eq (h : s.Owned) {k' : Nat} {st st' : Start} {e : Entry}
    (hst : s.starts[k]? = some st) (hst' : s.starts[k']? = some st')
    (he : st.phase.entry? = some e) (he' : st'.phase.entry? = some e) : k' = k := by
  have hapart : s.starts.Pairwise fun a b =>
      ∀ x, a.phase.entry? = some x → ∀ y, b.phase.entry? = some y → x ≠ y :=
    List.pairwise_filterMap.mp h.distinct
  rw [List.pairwise_iff_getElem] at hapart
  obtain ⟨hk, rfl⟩ := List.getElem?_eq_some_iff.mp hst
  obtain ⟨hk', rfl⟩ := List.getElem?_eq_some_iff.mp hst'
  rcases Nat.lt_trichotomy k' k with hlt | heq | hlt
  · exact absurd rfl (hapart k' k hk' hk hlt e he' e he)
  · exact heq
  · exact absurd rfl (hapart k k' hk hk' hlt e he e he')

theorem Sent.unique (h : s.Sent k call request) (hinv : s.Inv) {k' : Nat} {call' : PendingCall}
    {request' : Frame} (h' : s.Sent k' call' request') (hsequence : call'.sequence = call.sequence) :
    request' = request := by
  have hentry : call'.entry = call.entry :=
    List.inj_on_of_nodup_map hinv.numbered.distinct (hinv.owned.started _ h'.entry_mem).1
      (hinv.owned.started _ h.entry_mem).1 hsequence
  obtain ⟨st, hst, hphase, rfl⟩ := h
  obtain ⟨st', hst', hphase', rfl⟩ := h'
  have hplace : k' = k := by
    refine hinv.owned.place_eq (e := call.entry) hst hst' ?_ ?_
    · rw [hphase]
      rfl
    · rw [hphase', ← hentry]
      rfl
  subst hplace
  have hstart : st' = st := Option.some.inj (hst'.symm.trans hst)
  rw [hstart, hphase] at hphase'
  cases hphase'
  rw [hstart]

/-! ### A peer that replies -/

/-- A step of the scene in which every reply delivered is the peer's answer to some request sent to
it. -/
inductive PeerStep (service : Service) (peer : Frame → PeerReply) (s : Scene) : Scene → Prop
  | own {s' : Scene} (hstep : Step service s s') (hsilent : s'.race.replies = s.race.replies) :
      PeerStep service peer s s'
  | reply {k : Nat} {call : PendingCall} {request : Frame} (hsent : s.Sent k call request) :
      PeerStep service peer s
        { s with race := s.race.take (.deliver ((peer request).frame request.header)) }

theorem PeerStep.step (h : PeerStep service peer s s') : Step service s s' := by
  cases h with
  | own hstep hsilent => exact hstep
  | reply hsent => exact .take nofun

theorem run_of_peerRun (hrun : Relation.ReflTransGen (PeerStep service peer) s s') :
    Relation.ReflTransGen (Step service) s s' :=
  hrun.lift id fun _ _ h => h.step

/-- Every reply delivered answers a request that was sent, and the call of that request has left the
table. -/
structure Replied (peer : Frame → PeerReply) (s : Scene) : Prop where
  sent : ∀ reply ∈ s.race.replies, ∃ k call request,
    s.Sent k call request ∧ reply = (peer request).frame request.header
  gone : ∀ reply ∈ s.race.replies, s.race.calls.table.Lacks reply.header.sequence

theorem Replied.step (h : s.Replied peer) (hinv : s.Inv) (hinv' : s'.Inv)
    (hfew : s'.race.allocated < UInt32.size) (hstep : PeerStep service peer s s') :
    s'.Replied peer := by
  cases hstep with
  | own hstep hsilent =>
    constructor
    · intro reply hreply
      rw [hsilent] at hreply
      obtain ⟨k, call, request, hsent, heq⟩ := h.sent reply hreply
      exact ⟨k, call, request, hsent.step hstep, heq⟩
    · intro reply hreply
      rw [hsilent] at hreply
      have hlacks := h.gone reply hreply
      obtain ⟨k, call, request, hsent, rfl⟩ := h.sent reply hreply
      rw [PeerReply.sequence_frame, hsent.header_eq.2] at hlacks ⊢
      rcases hstep.race hinv hfew with heq | hrace
      · rw [heq]
        exact hlacks
      · -- The call is registered, so a call that is registered now gets another number.
        exact hrace.lacks hinv'.numbered (hinv.owned.started _ hsent.entry_mem).1 hlacks
  | @reply k call request hsent =>
    have hreplies := s.race.replies_take (.deliver ((peer request).frame request.header))
    constructor
    · intro reply hreply
      rw [hreplies] at hreply
      rcases List.mem_append.mp hreply with hreply | hreply
      · exact h.sent reply hreply
      · exact ⟨k, call, request, hsent, List.mem_singleton.mp hreply⟩
    · intro reply hreply
      rw [hreplies] at hreply
      rcases List.mem_append.mp hreply with hreply | hreply
      · have hsub := s.race.calls.table.entries_take_sublist
          (.deliver ((peer request).frame request.header))
        exact (h.gone reply hreply).of_subset hsub.subset
      · rw [List.mem_singleton.mp hreply]
        exact s.race.lacks_take_deliver _

theorem Replied.run (h : s.Replied peer) (hinv : s.Inv)
    (hrun : Relation.ReflTransGen (PeerStep service peer) s s')
    (hfew : s'.race.allocated < UInt32.size) : s'.Replied peer := by
  induction hrun with
  | refl => exact h
  | tail hrun hstep ih =>
    have hfew' := Nat.lt_of_le_of_lt (allocated_le hstep.step) hfew
    have hinv₁ := hinv.run (run_of_peerRun hrun) hfew'
    exact (ih hfew').step hinv₁ (hinv₁.step hstep.step hfew) hfew hstep

theorem replied_new (peer : Frame → PeerReply) (shell : Connection) : Replied peer { shell } where
  sent := fun _ h => (List.not_mem_nil h).elim
  gone := fun _ h => (List.not_mem_nil h).elim

/-! ### Every call gets the reply to its own request -/

/-- The outcome of the call is the peer's answer to its own request, a cancellation, or the end of
the connection. -/
structure Correlates (service : Service) (peer : Frame → PeerReply) (s : Scene)
    (call : PendingCall) (request : Frame) : Prop where
  outcome : ∀ o, s.race.outcome? call.slot = some o →
    (s.Did (.deliver ((peer request).frame request.header)) ∧ o = (peer request).outcome) ∨
      (s.Did (.cancel call.sequence) ∧ o = .error .cancelled) ∨
      (s.Did .drain ∧ o = .error .disconnected)
  got : ∀ o, (call.slot, o) ∈ s.race.got → s.race.outcome? call.slot = some o
  wait : (∀ o, (call.slot, o) ∉ s.race.got) →
    (s.conn.wait call).1 = (s.race.outcome? call.slot).map call.result
  /-- Until the reply to its own request is delivered the call waits in the table. -/
  waits : ¬ s.Did (.deliver ((peer request).frame request.header)) →
    ¬ s.Did (.cancel call.sequence) → ¬ s.Did .drain →
    s.race.outcome? call.slot = none ∧ call.entry ∈ s.conn.calls.table.entries
  arrives : s.Did (.deliver ((peer request).frame request.header)) →
    ¬ s.Did (.cancel call.sequence) → ¬ s.Did .drain →
    s.race.outcome? call.slot = some (peer request).outcome ∨
      ∃ s', PeerStep service peer s s' ∧ s'.race.outcome? call.slot = some (peer request).outcome

/-- The party that took out a call whose request was sent delivers the reply to that request,
cancels the call, or drains the table. -/
theorem deed_of_taken (hinv : s.Inv) (h : s.Replied peer) (hsent : s.Sent k call request) {p : Party}
    (hp : p ∈ s.race.parties) (htaken : call.entry ∈ p.taken) :
    (p.deed = .deliver ((peer request).frame request.header) ∧
        p.deed.outcome call.entry = (peer request).outcome) ∨
      (p.deed = .cancel call.sequence ∧ p.deed.outcome call.entry = .error .cancelled) ∨
      (p.deed = .drain ∧ p.deed.outcome call.entry = .error .disconnected) := by
  have hnumber (n : UInt32) (hn : p.deed.number? = some n) : call.sequence = n :=
    (hinv.race.single p hp n hn).2 _ htaken
  rcases hdeed : p.deed with reply | n | _
  · rw [hdeed] at hnumber
    obtain ⟨k', call', request', hsent', rfl⟩ := h.sent reply (Race.mem_replies.mpr ⟨p, hp, hdeed⟩)
    have hsequence : call'.sequence = call.sequence := by
      rw [hnumber _ rfl, PeerReply.sequence_frame, hsent'.header_eq.2]
    -- No two requests of the run have one number, so the reply to `request'` is the one to
    -- `request`.
    have hrequest := hsent.unique hinv hsent' hsequence
    subst hrequest
    have houtcome : Connection.replyOutcome call.entry ((peer request').frame request'.header) =
        ((peer request').outcome, none) := (peer request').replyOutcome_frame hsent.header_eq.1.symm
    exact .inl ⟨rfl, congrArg Prod.fst houtcome⟩
  · rw [hdeed] at hnumber
    rw [hnumber n rfl]
    exact .inr (.inl ⟨rfl, rfl⟩)
  · exact .inr (.inr ⟨rfl, rfl⟩)

theorem wait_eq (hinv : s.Inv) (hnew : ∀ o, (call.slot, o) ∉ s.race.got) :
    (s.conn.wait call).1 = (s.race.outcome? call.slot).map call.result :=
  congrArg (Option.map call.result) (hinv.race.poll_eq hnew)

/-- A call whose request was sent is in the table, in the hands of a party, or completed. -/
theorem Sent.place (h : s.Sent k call request) (hinv : s.Inv) :
    (call.entry ∈ s.conn.calls.table.entries ∧ s.race.outcome? call.slot = none) ∨
      (∃ p ∈ s.race.parties, call.entry ∈ p.held) ∨
      ∃ p ∈ s.race.parties, call.entry ∈ p.taken ∧
        s.race.outcome? call.slot = some (p.deed.outcome call.entry) := by
  obtain ⟨hregistered, hkept⟩ := hinv.owned.started _ h.entry_mem
  have hplace := hinv.race.perm.mem_iff.mp hregistered
  rw [List.mem_append, List.mem_append, List.mem_append] at hplace
  rcases hplace with hentry | hheld | hdone | hforgotten
  · have hwaiting := hinv.race.waiting _ (List.mem_append_left _ hentry)
    refine .inl ⟨hentry, ?_⟩
    unfold Race.outcome?
    rw [show s.race.calls.slot call.slot = .waiting from hwaiting]
  · exact .inr (.inl (List.mem_flatMap.mp hheld))
  · obtain ⟨p, hp, hmem, houtcome⟩ := hinv.race.outcome?_done hdone
    exact .inr (.inr ⟨p, hp, List.mem_append_right _ hmem, houtcome⟩)
  · exact absurd hforgotten hkept

theorem outcome_of_sent (hinv : s.Inv) (h : s.Replied peer) (hsent : s.Sent k call request)
    {o : Outcome} (ho : s.race.outcome? call.slot = some o) :
    (s.Did (.deliver ((peer request).frame request.header)) ∧ o = (peer request).outcome) ∨
      (s.Did (.cancel call.sequence) ∧ o = .error .cancelled) ∨
      (s.Did .drain ∧ o = .error .disconnected) := by
  rcases hsent.place hinv with ⟨-, hnone⟩ | ⟨p, hp, hheld⟩ | ⟨p, hp, htaken, houtcome⟩
  · rw [hnone] at ho
    cases ho
  · have hnone := hinv.race.outcome?_held hp hheld
    rw [show s.race.outcome? call.slot = none from hnone] at ho
    cases ho
  · have heq : p.deed.outcome call.entry = o := Option.some.inj (houtcome.symm.trans ho)
    rcases deed_of_taken hinv h hsent hp htaken with ⟨hdeed, hbrings⟩ | ⟨hdeed, hbrings⟩ |
      ⟨hdeed, hbrings⟩
    · exact .inl ⟨⟨p, hp, hdeed⟩, heq.symm.trans hbrings⟩
    · exact .inr (.inl ⟨⟨p, hp, hdeed⟩, heq.symm.trans hbrings⟩)
    · exact .inr (.inr ⟨⟨p, hp, hdeed⟩, heq.symm.trans hbrings⟩)

theorem waits_of_sent (hinv : s.Inv) (h : s.Replied peer) (hsent : s.Sent k call request)
    (hreply : ¬ s.Did (.deliver ((peer request).frame request.header)))
    (hcancel : ¬ s.Did (.cancel call.sequence)) (hdrain : ¬ s.Did .drain) :
    s.race.outcome? call.slot = none ∧ call.entry ∈ s.conn.calls.table.entries := by
  -- Whoever had taken it out would have done one of the three.
  have hnobody : ∀ p ∈ s.race.parties, call.entry ∉ p.taken := by
    intro p hp htaken
    rcases deed_of_taken hinv h hsent hp htaken with ⟨hdeed, -⟩ | ⟨hdeed, -⟩ | ⟨hdeed, -⟩
    · exact hreply ⟨p, hp, hdeed⟩
    · exact hcancel ⟨p, hp, hdeed⟩
    · exact hdrain ⟨p, hp, hdeed⟩
  rcases hsent.place hinv with ⟨hentry, hnone⟩ | ⟨p, hp, hheld⟩ | ⟨p, hp, htaken, -⟩
  · exact ⟨hnone, hentry⟩
  · exact absurd (List.mem_append_left _ hheld) (hnobody p hp)
  · exact absurd htaken (hnobody p hp)

theorem arrives_of_sent (hinv : s.Inv) (h : s.Replied peer) (hsent : s.Sent k call request)
    (hreply : s.Did (.deliver ((peer request).frame request.header)))
    (hcancel : ¬ s.Did (.cancel call.sequence)) (hdrain : ¬ s.Did .drain) :
    s.race.outcome? call.slot = some (peer request).outcome ∨
      ∃ s', PeerStep service peer s s' ∧
        s'.race.outcome? call.slot = some (peer request).outcome := by
  have hbrings : ∀ p ∈ s.race.parties, call.entry ∈ p.taken →
      p.deed.outcome call.entry = (peer request).outcome := by
    intro p hp htaken
    rcases deed_of_taken hinv h hsent hp htaken with ⟨-, hbrings⟩ | ⟨hdeed, -⟩ | ⟨hdeed, -⟩
    · exact hbrings
    · exact absurd ⟨p, hp, hdeed⟩ hcancel
    · exact absurd ⟨p, hp, hdeed⟩ hdrain
  -- The entry is in the table, in the hands of a party, or done with.
  rcases hsent.place hinv with ⟨hentry, -⟩ | ⟨p, hp, hheld⟩ | ⟨p, hp, htaken, houtcome⟩
  · have hlacks := h.gone _ (Race.mem_replies.mpr hreply)
    rw [PeerReply.sequence_frame, hsent.header_eq.2] at hlacks
    exact absurd rfl (hlacks _ hentry)
  · obtain ⟨before, after, heq⟩ := List.append_of_mem hp
    have houtcome := hinv.race.outcome?_complete heq hheld
    rw [hbrings p hp (List.mem_append_left _ hheld)] at houtcome
    exact .inr ⟨_, .own (.complete heq hheld) (Race.replies_complete heq), houtcome⟩
  · rw [hbrings p hp htaken] at houtcome
    exact .inl houtcome

/-- **Replies find their own calls, in whatever order they come.**  However many calls are started,
as long as the counter does not come round, and whatever else happens on the connection, every call
whose request was sent has the reply that the peer has for this very request, if it has any, and
otherwise waits for it. -/
theorem replies_reach_their_calls {shell : Connection}
    (hrun : Relation.ReflTransGen (PeerStep service peer) { shell } s)
    (hfew : s.race.allocated < UInt32.size) (hsent : s.Sent k call request) :
    s.Correlates service peer call request := by
  have hinv := (inv_new shell).run (run_of_peerRun hrun) hfew
  have hreplied := (replied_new peer shell).run (inv_new shell) hrun hfew
  exact {
    outcome := fun _ => outcome_of_sent hinv hreplied hsent
    got := hinv.race.got call.slot
    wait := wait_eq hinv
    waits := waits_of_sent hinv hreplied hsent
    arrives := arrives_of_sent hinv hreplied hsent }

/-- Two calls are answered in reverse, and between them a request was sent that is not answered. -/
theorem replies_reach_their_calls_reversed :
    ∃ (service : Service) (peer : Frame → PeerReply) (shell : Connection) (s s' : Scene)
      (first second : PendingCall) (request₁ request₂ : Frame),
      Relation.ReflTransGen (PeerStep service peer) { shell } s ∧
      Relation.ReflTransGen (PeerStep service peer) s s' ∧ s'.race.allocated = 3 ∧
      s.Sent 0 first request₁ ∧ s.Sent 1 second request₂ ∧
      s.Correlates service peer first request₁ ∧ s.Correlates service peer second request₂ ∧
      s.race.outcome? first.slot = none ∧
      s.race.outcome? second.slot = some (peer request₂).outcome ∧
      s'.Correlates service peer first request₁ ∧
      s'.race.outcome? first.slot = some (peer request₁).outcome ∧
      peer request₁ ≠ peer request₂ := by
  let type : PayloadType := ⟨0, "Option<i8>", .option (.int .i8), []⟩
  let v : Value := .present (.int (-1))
  let service : Service := { protocol := { name := "client", sent := [(7, ⟨type, type⟩)] } }
  let peer (request : Frame) : PeerReply :=
    if request.header.sequence = 1 then .error 12 else .reply [0, 0, 0, 0]
  let shell := (Connection.new service "caller").establish true
  let ready : Start := { command := 7, type, payload := [0, 0, 0, 1, 255, 255, 255, 255] }
  let first : PendingCall := ⟨7, 1, 0, type⟩
  let second : PendingCall := ⟨7, 3, 1, type⟩
  let request₁ : Frame := .of (.request 7 1) ready.payload
  let request₂ : Frame := .of (.request 7 3) ready.payload
  let s₁ : Scene := { shell, starts := [ready, ready] }
  have hstart (starts : List Start) :
      Step service { shell, starts } { shell, starts := starts ++ [ready] } := by
    have hprepare : (Scene.conn { shell, starts }).prepareCall service 7 ⟨type, type⟩ v =
        .ok ready.payload := rfl
    exact .start hprepare
  have h₁ : Relation.ReflTransGen (PeerStep service peer) { shell } s₁ :=
    .tail (.single (.own (hstart []) rfl)) (.own (hstart [ready]) rfl)
  let s₂ : Scene := { s₁ with
    race := {
      calls := { table := { next := 2, entries := [first.entry] }, slots := [.waiting] }
      registered := [first.entry] }
    starts := [{ ready with phase := .registered first }, ready] }
  have h₂ : Step service s₁ s₂ := by
    have hst : s₁.starts = [] ++ ready :: [ready] := rfl
    exact step_register_of_isFree hst rfl rfl (by decide) rfl
  let s₃ := s₂.enqueue [] { ready with phase := .registered first } [ready] first
  have h₃ : Step service s₂ s₃ := .enqueue rfl rfl
  let s₄ : Scene := { s₃ with
    race := {
      calls := { table := { next := 3, entries := [first.entry] }, slots := [.waiting] }
      registered := [first.entry]
      oneWays := 1 } }
  have h₄ : Step service s₃ s₄ := by
    have hallocate : s₃.race.calls.nextSequence.2 = s₄.race.calls := by
      unfold Calls.nextSequence
      rw [PendingTable.allocate_eq_of_isFree (t := s₃.race.calls.table) (by rfl)]
      rfl
    have hnumber : s₃.race.number = s₄.race := by
      unfold Race.number
      rw [hallocate]
      rfl
    have hstep : Step service s₃ { s₃ with race := s₃.race.number } := .number
    rw [hnumber] at hstep
    exact hstep
  let s₅ : Scene := { s₄ with
    race := {
      calls := {
        table := { next := 4, entries := [second.entry, first.entry] }
        slots := [.waiting, .waiting] }
      registered := [first.entry, second.entry]
      oneWays := 1 }
    starts := [{ ready with phase := .ended (.ok first) }, { ready with phase := .registered second }] }
  have h₅ : Step service s₄ s₅ := by
    have hst : s₄.starts = [{ ready with phase := .ended (.ok first) }] ++ ready :: [] := rfl
    exact step_register_of_isFree hst rfl rfl (by rfl) rfl
  let s₆ : Scene := { s₅ with
    shell := (s₅.conn.enqueue (Frame.image (.request 7 3) ready.payload)).2
    starts := [{ ready with phase := .ended (.ok first) }, { ready with phase := .ended (.ok second) }] }
  have h₆ : Step service s₅ s₆ := by
    have hst : s₅.starts = [{ ready with phase := .ended (.ok first) }] ++
      { ready with phase := .registered second } :: [] := rfl
    have hstep : Step service s₅ _ := .enqueue hst rfl
    exact hstep
  have hsent₁ (race : Race) : Sent { s₆ with race } 0 first request₁ := ⟨_, rfl, rfl, rfl⟩
  have hsent₂ (race : Race) : Sent { s₆ with race } 1 second request₂ := ⟨_, rfl, rfl, rfl⟩
  -- The reply to the second request comes first.
  let reply₂ : Frame := .of (.reply 7 3) [0, 0, 0, 0]
  have hreply₂ : Connection.replyOutcome second.entry reply₂ = (.ok [0, 0, 0, 0], none) :=
    Connection.replyOutcome_reply rfl (Header.kind_reply 7 3)
  let taken₂ : Party := ⟨.deliver reply₂, [second.entry], []⟩
  let done₂ : Party := ⟨.deliver reply₂, [], [(second.entry, true)]⟩
  let s₇ : Scene := { s₆ with
    race := {
      calls := { table := { next := 4, entries := [first.entry] }, slots := [.waiting, .waiting] }
      parties := [taken₂]
      registered := [first.entry, second.entry]
      oneWays := 1 } }
  have h₇ : PeerStep service peer s₆ s₇ := .reply (hsent₂ s₆.race)
  let s₈ : Scene := { s₇ with
    race := {
      calls := {
        table := { next := 4, entries := [first.entry] }
        slots := [.waiting, .resolved (Connection.replyOutcome second.entry reply₂).1] }
      parties := [done₂]
      registered := [first.entry, second.entry]
      oneWays := 1 } }
  have h₈ : PeerStep service peer s₇ s₈ := by
    have hstep : Step service s₇ { s₇ with race := s₇.race.complete [] taken₂ [] second.entry } :=
      .complete rfl List.mem_cons_self
    exact .own hstep rfl
  let reply₁ : Frame := .errorReply 7 1 12
  have hreply₁ : Connection.replyOutcome first.entry reply₁ =
      (.error (.remote (.ofCode 12)), none) :=
    Connection.replyOutcome_errorReply rfl (Header.kind_errorReply 7 1)
      (Frame.statusCode_errorReply 7 1 12)
  let taken₁ : Party := ⟨.deliver reply₁, [first.entry], []⟩
  let s₉ : Scene := { s₈ with
    race := {
      calls := {
        table := { next := 4 }
        slots := [.waiting, .resolved (Connection.replyOutcome second.entry reply₂).1] }
      parties := [done₂, taken₁]
      registered := [first.entry, second.entry]
      oneWays := 1 } }
  have h₉ : PeerStep service peer s₈ s₉ := .reply (hsent₁ s₈.race)
  let s' : Scene := { s₉ with race := s₉.race.complete [done₂] taken₁ [] first.entry }
  have h' : PeerStep service peer s₉ s' := by
    have hstep : Step service s₉ s' := .complete rfl List.mem_cons_self
    exact .own hstep rfl
  have hrun : Relation.ReflTransGen (PeerStep service peer) { shell } s₈ :=
    h₁.tail (.own h₂ rfl) |>.tail (.own h₃ rfl) |>.tail (.own h₄ rfl) |>.tail (.own h₅ rfl)
      |>.tail (.own h₆ rfl) |>.tail h₇ |>.tail h₈
  have hrun' : Relation.ReflTransGen (PeerStep service peer) s₈ s' := .tail (.single h₉) h'
  have hfew : s₈.race.allocated < UInt32.size := by decide
  have hfew' : s'.race.allocated < UInt32.size := by decide
  have hfirst := replies_reach_their_calls hrun hfew (hsent₁ s₈.race)
  have hsecond := replies_reach_their_calls hrun hfew (hsent₂ s₈.race)
  have hfirst' := replies_reach_their_calls (hrun.trans hrun') hfew' (hsent₁ s'.race)
  have houtcome₂ : s₈.race.outcome? second.slot = some (peer request₂).outcome := by
    show some (Connection.replyOutcome second.entry reply₂).1 = some (.ok [0, 0, 0, 0])
    rw [hreply₂]
  have houtcome₁ : s'.race.outcome? first.slot = some (peer request₁).outcome := by
    show some (Connection.replyOutcome first.entry reply₁).1 = some (.error (.remote (.ofCode 12)))
    rw [hreply₁]
  exact ⟨service, peer, shell, s₈, s', first, second, request₁, request₂, hrun, hrun', rfl,
    hsent₁ s₈.race, hsent₂ s₈.race, hfirst, hsecond, rfl, houtcome₂, hfirst', houtcome₁, nofun⟩

end Scene

end CallWire
