import CallWire.Proofs.Connection.Correlation
import CallWire.Proofs.Connection.Responses
import CallWire.Proofs.Frame.Tail

/-!
# CallWire.Proofs.Connection.Delivery — a reply concerns the call that it names, and no other

A reply is for the call in flight that has its number.  This call leaves the table with the outcome
that the reply brings, which need not be its payload.  A reply to a cancelled call makes the
connection forget that there was one, and any other reply is reported and concerns no call.  What
else is in the table, in the slots and in the connection stays as it is, and the same number finds
nothing again until it has been given to another call.
-/

namespace CallWire

namespace Calls

variable {c : Calls} {e : Entry}

/-- The calls after this entry was taken out and completed with this outcome. -/
def settle (c : Calls) (e : Entry) (outcome : Outcome) : Calls :=
  (complete { c with table := c.table.without e.sequence } e.slot outcome).2

theorem IsTidy.table_settle (h : c.IsTidy) (he : e ∈ c.table.entries) (outcome : Outcome) :
    (c.settle e outcome).table = { c.table with entries := c.table.entries.erase e } := by
  rw [← PendingTable.entries_without h.numbers he]
  rfl

theorem IsTidy.slot_settle (h : c.IsTidy) (he : e ∈ c.table.entries) (outcome : Outcome) :
    (c.settle e outcome).slot e.slot = .resolved outcome ∧
      ∀ i, i ≠ e.slot → (c.settle e outcome).slot i = c.slot i := by
  obtain ⟨hlt, hwaiting⟩ := h.waiting e he
  refine ⟨?_, fun i hi => slot_complete_ne hi outcome⟩
  exact (slot_complete_self (c := { c with table := c.table.without e.sequence })
    hlt hwaiting outcome).2

theorem IsTidy.others_settle (h : c.IsTidy) (he : e ∈ c.table.entries) (outcome : Outcome)
    {other : Entry} (hother : other ∈ c.table.entries) (hne : other ≠ e) :
    other ∈ (c.settle e outcome).table.entries ∧
      (c.settle e outcome).slot other.slot = .waiting := by
  have hslot : other.slot ≠ e.slot := fun hs =>
    hne (List.inj_on_of_nodup_map h.slots hother he hs)
  rw [h.table_settle he, (h.slot_settle he outcome).2 _ hslot]
  exact ⟨(List.mem_erase_of_ne hne).mpr hother, (h.waiting other hother).2⟩

theorem IsTidy.settle (h : c.IsTidy) (he : e ∈ c.table.entries) (outcome : Outcome) :
    (c.settle e outcome).IsTidy := by
  have htable := h.table_settle he outcome
  have hsub : (c.settle e outcome).table.entries.Sublist c.table.entries := by
    rw [htable]
    exact List.erase_sublist
  refine ⟨h.numbers.sublist (hsub.map _), h.slots.sublist (hsub.map _), fun other hother => ?_⟩
  have hbefore := hsub.subset hother
  have hne : other ≠ e := by
    rintro rfl
    rw [htable] at hother
    exact (List.Nodup.not_mem_erase (List.Nodup.of_map _ h.numbers)) hother
  have hlength : (c.settle e outcome).slots.length = c.slots.length := List.length_set
  rw [hlength]
  exact ⟨(h.waiting other hbefore).1, (h.others_settle he outcome hbefore hne).2⟩

end Calls

namespace Race

variable {r r' : Race} {n : UInt32}

theorem registered_since (hrun : Relation.ReflTransGen Step r r') :
    ∃ later, r'.registered = r.registered ++ later ∧
      ∀ e ∈ r'.calls.table.entries, e ∈ r.calls.table.entries ∨ e ∈ later := by
  induction hrun with
  | refl => exact ⟨[], (List.append_nil _).symm, fun _ he => .inl he⟩
  | tail _ hstep ih =>
    obtain ⟨earlier, hregistered, hmem⟩ := ih
    obtain ⟨later, hregistered', hmem'⟩ := hstep.registered_since
    refine ⟨earlier ++ later, ?_, fun e he => ?_⟩
    · rw [hregistered', hregistered, List.append_assoc]
    · rcases hmem' e he with he | he
      · rcases hmem e he with he | he
        · exact .inl he
        · exact .inr (List.mem_append_left _ he)
      · exact .inr (List.mem_append_right _ he)

theorem lacks_run (hrun : Relation.ReflTransGen Step r r') (hlacks : r.calls.table.Lacks n)
    {later : List Entry} (hlater : r'.registered = r.registered ++ later)
    (hothers : ∀ e ∈ later, e.sequence ≠ n) : r'.calls.table.Lacks n := by
  obtain ⟨since, hsince, hmem⟩ := registered_since hrun
  obtain rfl : since = later := List.append_cancel_left (hsince.symm.trans hlater)
  intro e he
  rcases hmem e he with he | he
  · exact hlacks e he
  · exact hothers e he

end Race

theorem Header.not_isRequest {h : Header} (hkind : h.kind = .reply ∨ h.kind = .errorReply) :
    ¬ h.isRequest = true := by
  unfold isRequest
  rcases hkind with hkind | hkind
  · simp [hkind]
  · simp [hkind]

namespace Connection

variable {c : Connection} {frame : Frame}

/-! ### The outcome -/

/-- The outcome that a reply frame gives to the entry with its number. -/
structure Brings (frame : Frame) (e : Entry) (outcome : Outcome) : Prop where
  misnamed : e.command ≠ frame.header.command → ∃ text, outcome = .error (.malformedFrame text)
  remote : e.command = frame.header.command → frame.header.kind = .errorReply →
    frame.payload.length = 4 → ∃ code : UInt32, frame.payload = Bytes.ofNat 4 code.toNat ∧
      outcome = .error (.remote (.ofCode code))
  misshapen : e.command = frame.header.command → frame.header.kind = .errorReply →
    frame.payload.length ≠ 4 → ∃ text, outcome = .error (.malformedFrame text)
  payload : e.command = frame.header.command → frame.header.kind = .reply →
    outcome = .ok frame.payload

theorem brings_replyOutcome (e : Entry) (frame : Frame) :
    Brings frame e (replyOutcome e frame).1 where
  misnamed := by
    intro hcommand
    unfold replyOutcome
    rw [if_pos hcommand]
    exact ⟨_, rfl⟩
  remote := by
    intro hcommand hkind hlength
    refine ⟨.ofNat (Bytes.toNat frame.payload), (Header.ofNat_word hlength).symm, ?_⟩
    unfold replyOutcome Frame.statusCode
    rw [if_neg (not_not_intro hcommand), if_pos hkind, if_pos hlength]
  misshapen := by
    intro hcommand hkind hlength
    unfold replyOutcome Frame.statusCode
    rw [if_neg (not_not_intro hcommand), if_pos hkind, if_neg hlength]
    exact ⟨_, rfl⟩
  payload := by
    intro hcommand hkind
    have hreply : frame.header.kind ≠ .errorReply := by
      rw [hkind]
      exact nofun
    unfold replyOutcome
    rw [if_neg (not_not_intro hcommand), if_neg hreply]

/-! ### What a reply does -/

/-- `handleReply` finds an entry with the number, a remembered cancellation, or neither. -/
theorem handleReply_cases (c : Connection) (frame : Frame) :
    (∃ e ∈ c.calls.table.entries, e.sequence = frame.header.sequence ∧
        (c.handleReply frame).calls = c.calls.settle e (replyOutcome e frame).1) ∨
      (c.calls.table.Lacks frame.header.sequence ∧
        frame.header.sequence ∈ c.calls.table.cancelled ∧
        (c.handleReply frame).calls = { c.calls with table := { c.calls.table with
          cancelled := c.calls.table.cancelled.filter (· != frame.header.sequence) } }) ∨
      (c.calls.table.Lacks frame.header.sequence ∧
        frame.header.sequence ∉ c.calls.table.cancelled ∧
        (c.handleReply frame).calls = c.calls) := by
  rw [c.calls_handleReply frame]
  unfold Calls.act
  rw [Deed.take_deliver]
  rcases c.calls.table.resolve_cases frame.header.sequence with
    ⟨e, he, hn, heq⟩ | ⟨hlacks, hcancelled, heq⟩ | ⟨hlacks, hunknown, heq⟩
  · rw [heq]
    refine .inl ⟨e, he, hn, ?_⟩
    dsimp only
    rw [Calls.completeEach_singleton, ← hn]
    rfl
  · rw [heq]
    exact .inr (.inl ⟨hlacks, hcancelled, rfl⟩)
  · rw [heq]
    exact .inr (.inr ⟨hlacks, hunknown, rfl⟩)

/-- The effect of `handleReply` on a connection. -/
structure Delivers (c : Connection) (frame : Frame) (c' : Connection) : Prop where
  named : ∀ e ∈ c.calls.table.entries, e.sequence = frame.header.sequence →
    c'.calls.table = { c.calls.table with entries := c.calls.table.entries.erase e } ∧
      c.calls.slot e.slot = .waiting ∧
      (∃ outcome, Brings frame e outcome ∧ c'.calls.slot e.slot = .resolved outcome) ∧
      ∀ i, i ≠ e.slot → c'.calls.slot i = c.calls.slot i
  cancelled : c.calls.table.Lacks frame.header.sequence →
    frame.header.sequence ∈ c.calls.table.cancelled →
    c'.calls = { c.calls with table := { c.calls.table with
      cancelled := c.calls.table.cancelled.filter (· != frame.header.sequence) } }
  unknown : c.calls.table.Lacks frame.header.sequence →
    frame.header.sequence ∉ c.calls.table.cancelled → c'.calls = c.calls
  others : ∀ e ∈ c.calls.table.entries, e.sequence ≠ frame.header.sequence →
    e ∈ c'.calls.table.entries ∧ c'.calls.slot e.slot = .waiting
  tidy : c'.calls.IsTidy
  counter : c'.calls.table.next = c.calls.table.next
  rest : ∃ reports : List String,
    c' = { c with calls := c'.calls, events := c.events ++ reports.map .problem }
  /-- As long as the number is not given out again, a further reply with it neither takes an entry
  nor completes a slot. -/
  again : ∀ (r r' : Race) (later : List Entry), r.calls = c'.calls →
    Relation.ReflTransGen Race.Step r r' → r'.registered = r.registered ++ later →
    (∀ e ∈ later, e.sequence ≠ frame.header.sequence) →
    ∀ (service : Service) (d : Connection) (second : Frame), d.calls = r'.calls →
      (second.header.kind = .reply ∨ second.header.kind = .errorReply) →
      second.header.sequence = frame.header.sequence →
      (d.handleFrame service second).2.calls.table.entries = d.calls.table.entries ∧
        (d.handleFrame service second).2.calls.slots = d.calls.slots

theorem lacks_handleReply (c : Connection) (frame : Frame) :
    (c.handleReply frame).calls.table.Lacks frame.header.sequence := by
  rcases c.handleReply_cases frame with ⟨e, -, hn, heq⟩ | ⟨hlacks, -, heq⟩ | ⟨hlacks, -, heq⟩
  · rw [heq, ← hn]
    exact PendingTable.lacks_without
  · rw [heq]
    exact hlacks
  · rw [heq]
    exact hlacks

theorem handleReply_of_lacks (h : c.calls.table.Lacks frame.header.sequence) :
    (c.handleReply frame).calls.table.entries = c.calls.table.entries ∧
      (c.handleReply frame).calls.slots = c.calls.slots := by
  rcases c.handleReply_cases frame with ⟨e, he, hn, -⟩ | ⟨-, -, heq⟩ | ⟨-, -, heq⟩
  · exact absurd hn (h e he)
  · rw [heq]
    exact ⟨rfl, rfl⟩
  · rw [heq]
    exact ⟨rfl, rfl⟩

theorem delivers_handleReply (h : c.calls.IsTidy) (frame : Frame) :
    c.Delivers frame (c.handleReply frame) where
  named := by
    intro e he hn
    rcases c.handleReply_cases frame with ⟨e', he', hn', heq⟩ | ⟨hlacks, -⟩ | ⟨hlacks, -⟩
    · obtain rfl : e' = e := List.inj_on_of_nodup_map h.numbers he' he (hn'.trans hn.symm)
      obtain ⟨hslot, hslots⟩ := h.slot_settle he (replyOutcome e' frame).1
      rw [heq]
      exact ⟨h.table_settle he _, (h.waiting e' he).2, ⟨_, brings_replyOutcome e' frame, hslot⟩,
        hslots⟩
    · exact absurd hn (hlacks e he)
    · exact absurd hn (hlacks e he)
  cancelled := by
    intro hlacks hcancelled
    rcases c.handleReply_cases frame with ⟨e, he, hn, -⟩ | ⟨-, -, heq⟩ | ⟨-, hunknown, -⟩
    · exact absurd hn (hlacks e he)
    · exact heq
    · exact absurd hcancelled hunknown
  unknown := by
    intro hlacks hunknown
    rcases c.handleReply_cases frame with ⟨e, he, hn, -⟩ | ⟨-, hcancelled, -⟩ | ⟨-, -, heq⟩
    · exact absurd hn (hlacks e he)
    · exact absurd hcancelled hunknown
    · exact heq
  others := by
    intro other hother hne
    rcases c.handleReply_cases frame with ⟨e, he, hn, heq⟩ | ⟨-, -, heq⟩ | ⟨-, -, heq⟩
    · rw [heq]
      exact h.others_settle he _ hother fun hsame => hne (hsame ▸ hn)
    · rw [heq]
      exact ⟨hother, (h.waiting other hother).2⟩
    · rw [heq]
      exact ⟨hother, (h.waiting other hother).2⟩
  tidy := by
    rcases c.handleReply_cases frame with ⟨e, he, -, heq⟩ | ⟨-, -, heq⟩ | ⟨-, -, heq⟩
    · rw [heq]
      exact h.settle he _
    · rw [heq]
      exact ⟨h.numbers, h.slots, h.waiting⟩
    · rw [heq]
      exact h
  counter := by
    rcases c.handleReply_cases frame with ⟨e, -, -, heq⟩ | ⟨-, -, heq⟩ | ⟨-, -, heq⟩
    · rw [heq]
      rfl
    · rw [heq]
    · rw [heq]
  rest := by
    obtain ⟨calls, reports, heq⟩ := c.exists_handleReply frame
    refine ⟨reports, ?_⟩
    rw [heq]
  again := by
    intro r r' later hcalls hrun hlater hothers service d second hd hsecond hn
    -- The first frame leaves no call of this number, and no step puts one there but a registration.
    have hlacks : r.calls.table.Lacks frame.header.sequence := by
      rw [hcalls]
      exact c.lacks_handleReply frame
    have hlacks' : d.calls.table.Lacks second.header.sequence := by
      rw [hd, hn]
      exact Race.lacks_run hrun hlacks hlater hothers
    rw [handleFrame_of_not_isRequest service d (Header.not_isRequest hsecond)]
    exact handleReply_of_lacks hlacks'

/-- **A reply affects the call that it names and no other.**  Calls are tidy in every run.  Where
they are, a reply or an error reply is answered with nothing; the call in flight that has its number
gets the outcome that it brings and leaves the table, a cancelled call is forgotten, and whatever
does not belong to that call stays as it is.  The number then finds no call until it has been given
out again. -/
theorem reply_affects_named_call :
    (∀ r : Race, r.Reachable → r.calls.IsTidy) ∧
      ∀ (service : Service) (c : Connection) (frame : Frame), c.calls.IsTidy →
        (frame.header.kind = .reply ∨ frame.header.kind = .errorReply) →
        ∃ c', c.handleFrame service frame = (none, c') ∧ c.Delivers frame c' := by
  refine ⟨fun r h => h.inv.isTidy, fun service c frame h hkind => ?_⟩
  exact ⟨_, handleFrame_of_not_isRequest service c (Header.not_isRequest hkind),
    delivers_handleReply h frame⟩

/-- Of two calls in flight the first is answered by an error reply.  The other is still there. -/
theorem reply_affects_named_call_error :
    ∃ r : Race, r.Reachable ∧ r.calls.table.entries = [⟨2, 4, 1⟩, ⟨1, 3, 0⟩] ∧
      ∀ (service : Service) (c : Connection), c.calls = r.calls →
        ∃ c', c.handleFrame service (.errorReply 3 1 9) = (none, c') ∧
          c'.calls.table.entries = [⟨2, 4, 1⟩] ∧ c'.calls.slot 1 = .waiting ∧
          c'.calls.slot 0 = .resolved (.error (.remote .invalidProtocol)) := by
  have hfirst : Race.Step {} _ := .register_of_isFree 16 3 rfl (by decide)
  have hreachable : Race.Reachable _ :=
    (Relation.ReflTransGen.single hfirst).tail (.register_of_isFree 16 4 rfl (by decide))
  refine ⟨_, hreachable, rfl, fun service c hc => ?_⟩
  have htidy : c.calls.IsTidy := by
    rw [hc]
    exact reply_affects_named_call.1 _ hreachable
  obtain ⟨c', hframe, hdelivers⟩ := reply_affects_named_call.2 service c (.errorReply 3 1 9) htidy
    (.inr (by decide))
  have hmem : ⟨1, 3, 0⟩ ∈ c.calls.table.entries := by
    rw [hc]
    exact List.mem_cons_of_mem _ List.mem_cons_self
  obtain ⟨htable, -, ⟨outcome, hbrings, hslot⟩, hslots⟩ := hdelivers.named ⟨1, 3, 0⟩ hmem rfl
  obtain ⟨code, hpayload, rfl⟩ := hbrings.remote rfl (by decide) rfl
  have hcode := Header.word_ofNat_toNat code
  rw [← hpayload] at hcode
  have hstatus : Status.ofCode code = .invalidProtocol := by
    rw [← hcode]
    decide
  rw [hstatus] at hslot
  refine ⟨c', hframe, ?_, ?_, hslot⟩
  · rw [htable, hc]
    rfl
  · rw [hslots 1 (by decide), hc]
    rfl

end Connection

end CallWire
