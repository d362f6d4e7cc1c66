import CallWire.Proofs.Connection.Course
import CallWire.Proofs.Connection.Reachable

/-!
# CallWire.Proofs.Connection.Forward — a connection goes one way

Whatever threads do to a connection, its state moves ahead, the reason for its end is known once
that has begun and stays what it is, and the application is told of it once.  A connection that
never got a socket ends without a reason, and nobody is told.
-/

namespace CallWire

/-! ### What the operations do to the state and the reason -/

namespace Lifecycle

variable {l : Lifecycle} {r reason : DisconnectReason}

theorem leads_close (l : Lifecycle) : l.state.Leads l.close.2.state := by
  unfold close
  split
  case h_5 hstate =>
    rw [hstate]
    exact .single .closing
  all_goals exact .refl

theorem leads_fail (l : Lifecycle) (reason : DisconnectReason) :
    l.state.Leads (l.fail reason).state := by
  unfold fail
  split
  case h_1 hstate =>
    rw [hstate]
    exact .single .closing
  case h_2 hstate =>
    rw [hstate]
    exact .refl
  all_goals exact .refl

theorem leads_finish (l : Lifecycle) (reason : DisconnectReason) :
    l.state.Leads (l.finish reason).2.state := by
  unfold finish
  cases hstate : l.state with
  | connecting => exact .single .unconnected
  | connected => exact (Relation.ReflTransGen.single .closing).tail .closed
  | closing => exact .single .closed
  | closed =>
    show ConnectionState.Leads .closed l.state
    rw [hstate]
    exact .refl

theorem reason_because (h : l.reason = some r) : (l.because reason).reason = some r := by
  unfold because
  rw [h]
  rfl

theorem reason_claim (l : Lifecycle) : l.claim.2.reason = l.reason := by
  unfold claim
  split
  · rfl
  · rfl

theorem reason_close (h : l.reason = some r) : l.close.2.reason = some r := by
  unfold close
  split
  case h_5 => exact reason_because h
  all_goals exact h

theorem reason_fail (h : l.reason = some r) : (l.fail reason).reason = some r := by
  unfold fail
  split
  case h_1 => exact reason_because h
  case h_2 => exact reason_because h
  all_goals exact h

theorem reason_finish (h : l.reason = some r) : (l.finish reason).2.reason = some r := by
  unfold finish
  split
  · exact h
  · exact reason_because h

end Lifecycle

namespace Course

variable {s s' : Course}

/-! ### State and reason along a run -/

theorem life_attempt (s : Course) : s.attempt.life = s.life.claim.2 := by
  unfold attempt
  rcases s.life.claim with ⟨e | _, l⟩
  · rfl
  · rfl

theorem life_finish (s : Course) (reason : DisconnectReason) :
    (s.finish reason).life = (s.life.finish reason).2 := by
  unfold finish Lifecycle.finish
  cases s.life.state with
  | closed => rfl
  | connecting | connected | closing => rfl

theorem Step.leads (hstep : s.Step s') (h : s.IsStaged) :
    s.life.state.Leads s'.life.state := by
  cases hstep with
  | attempt =>
    rw [life_attempt, Lifecycle.state_claim]
    exact .refl
  | abandon heq =>
    obtain ⟨-, -, hstage⟩ := h.attempt_eq heq
    rw [hstage.of_opening.1]
    exact .single .unconnected
  | establish heq =>
    obtain ⟨-, -, hstage⟩ := h.attempt_eq heq
    rw [hstage.of_opening.1]
    exact .single .connected
  | close => exact s.life.leads_close
  | fail reason => exact s.life.leads_fail reason
  | finish ha hmay =>
    rw [life_finish]
    exact s.life.leads_finish _
  | giveUp | track | drain | notify | returns | calls | set => exact .refl

theorem leads_of_run (hrun : Relation.ReflTransGen Step s s') (h : s.IsStaged) :
    s.life.state.Leads s'.life.state := by
  induction hrun with
  | refl => exact .refl
  | tail hrun hstep ih => exact ih.trans (hstep.leads (h.run hrun))

theorem Step.reason {r : DisconnectReason} (hstep : s.Step s') (hr : s.life.reason = some r) :
    s'.life.reason = some r := by
  cases hstep with
  | attempt =>
    rw [life_attempt, Lifecycle.reason_claim]
    exact hr
  | close => exact Lifecycle.reason_close hr
  | fail reason => exact Lifecycle.reason_fail hr
  | finish ha hmay =>
    rw [life_finish]
    exact Lifecycle.reason_finish hr
  | abandon | establish | giveUp | track | drain | notify | returns | calls | set => exact hr

theorem reason_of_run {r : DisconnectReason} (hrun : Relation.ReflTransGen Step s s')
    (hr : s.life.reason = some r) : s'.life.reason = some r := by
  induction hrun with
  | refl => exact hr
  | tail _ hstep ih => exact hstep.reason ih

/-! ### Whether the connection was ever connected -/

/-- An attempt obtained a socket. -/
def HasSocket (s : Course) : Prop := ∃ a ∈ s.attempts, a.hasSocket? = some true

theorem hasSocket_congr (h : s'.attempts = s.attempts) : s'.HasSocket ↔ s.HasSocket := by
  unfold HasSocket
  rw [h]

theorem hasSocket_singleton {a : Attempt} (h : s.attempts = [a]) :
    s.HasSocket ↔ a.hasSocket? = some true := by
  unfold HasSocket
  rw [h]
  simp

theorem hasSocket_attempt (s : Course) : s.attempt.HasSocket ↔ s.HasSocket := by
  unfold HasSocket attempt
  rcases s.life.claim with ⟨e | _, l⟩
  · rfl
  · simp [Attempt.hasSocket?]

theorem Step.hasSocket (hstep : s.Step s') (h : s.IsStaged) :
    (s.HasSocket → s'.HasSocket) ∧ (s'.HasSocket → s.HasSocket ∨ s'.life.state = .connected) := by
  have hsame (hiff : s'.HasSocket ↔ s.HasSocket) : (s.HasSocket → s'.HasSocket) ∧
      (s'.HasSocket → s.HasSocket ∨ s'.life.state = .connected) :=
    ⟨hiff.mpr, fun hsocket => .inl (hiff.mp hsocket)⟩
  -- Only `establish` makes a socket. The others change the attempt, if at all, within its side.
  cases hstep with
  | attempt => exact hsame s.hasSocket_attempt
  | abandon heq =>
    obtain ⟨rfl, rfl, -⟩ := h.attempt_eq heq
    refine hsame ?_
    rw [hasSocket_singleton heq, hasSocket_singleton rfl]
    decide
  | giveUp heq =>
    obtain ⟨rfl, rfl, -⟩ := h.attempt_eq heq
    refine hsame ?_
    rw [hasSocket_singleton heq, hasSocket_singleton rfl]
    rfl
  | establish heq =>
    obtain ⟨rfl, rfl, -⟩ := h.attempt_eq heq
    exact ⟨fun _ => ⟨_, List.mem_singleton_self _, rfl⟩, fun _ => .inr rfl⟩
  | track heq id =>
    obtain ⟨rfl, rfl, -⟩ := h.attempt_eq heq
    refine hsame ?_
    rw [hasSocket_singleton heq, hasSocket_singleton rfl, hasSocket?_admission]
    rfl
  | finish ha hmay =>
    refine hsame (hasSocket_congr ?_)
    unfold Course.finish
    rcases s.life.finish _ with ⟨_ | reason, l⟩
    · rfl
    · rfl
  | close | fail | drain | notify | returns | calls | set => exact hsame (hasSocket_congr rfl)

theorem HasSocket.run (hs : s.HasSocket) (h : s.IsStaged)
    (hrun : Relation.ReflTransGen Step s s') : s'.HasSocket := by
  induction hrun with
  | refl => exact hs
  | tail hrun hstep ih => exact (hstep.hasSocket (h.run hrun)).1 ih

theorem NeverConnected.reachable (h : s.NeverConnected) : s.Reachable :=
  Relation.ReflTransGen.mono (fun _ _ hstep => hstep.1) _ _ h

theorem NeverConnected.not_hasSocket (h : s.NeverConnected) : ¬ s.HasSocket := by
  induction h with
  | refl =>
    rintro ⟨a, ha, -⟩
    cases ha
  | tail hrun hstep ih =>
    intro hsocket
    have hstaged := Reachable.isStaged (NeverConnected.reachable hrun)
    rcases (hstep.1.hasSocket hstaged).2 hsocket with hsocket | hconnected
    · exact ih hsocket
    · exact hstep.2 hconnected

/-! ### The calls of a connection that has ended -/

/-- The calls of an `EndPhase` are taken out and, once told, completed. -/
def Settled (r : Race) : EndPhase → Prop
  | .entered => True
  | .draining k => r.Drained ∧ ∃ p, r.parties[k]? = some p ∧ p.deed = .drain
  | .told | .returned => r.Drained ∧ ∃ p ∈ r.parties, p.deed = .drain ∧ p.held = []

theorem Settled.step {r r' : Race} {phase : EndPhase} (h : Settled r phase) (hstep : r.Step r') :
    Settled r' phase := by
  have hended (hended : r.Drained ∧ ∃ p ∈ r.parties, p.deed = .drain ∧ p.held = []) :
      r'.Drained ∧ ∃ p ∈ r'.parties, p.deed = .drain ∧ p.held = [] := by
    obtain ⟨hdrained, p, hmem, hdeed, hheld⟩ := hended
    obtain ⟨k, hp⟩ := List.mem_iff_getElem?.mp hmem
    obtain ⟨p', hp', hdeed', hheld', -⟩ := hstep.keeps_party hp
    rw [hheld] at hheld'
    exact ⟨hdrained.step hstep, p', List.mem_of_getElem? hp', hdeed'.trans hdeed,
      List.eq_nil_of_subset_nil hheld'⟩
  cases phase with
  | entered => trivial
  | draining k =>
    obtain ⟨hdrained, p, hp, hdeed⟩ := h
    obtain ⟨p', hp', hdeed', -⟩ := hstep.keeps_party hp
    exact ⟨hdrained.step hstep, p', hp', hdeed'.trans hdeed⟩
  | told => exact hended h
  | returned => exact hended h

theorem endings_attempt (s : Course) :
    s.attempt.endings = s.endings ∧ s.attempt.race = s.race := by
  unfold attempt
  rcases s.life.claim with ⟨e | _, l⟩
  · exact ⟨rfl, rfl⟩
  · exact ⟨rfl, rfl⟩

def HasSettled (s : Course) : Prop := ∀ e ∈ s.endings, Settled s.race e.phase

theorem HasSettled.step (h : s.HasSettled) (hstaged : s.IsStaged) (hstep : s.Step s') :
    s'.HasSettled := by
  cases hstep with
  | attempt =>
    obtain ⟨hendings, hrace⟩ := s.endings_attempt
    unfold HasSettled
    rw [hendings, hrace]
    exact h
  | giveUp heq => exact fun e he => (h e he).step (.take .drain)
  | @finish a ha reason hmay =>
    unfold Course.finish
    rcases s.life.finish reason with ⟨_ | reason', l⟩
    · exact h
    · intro e he
      rcases List.mem_append.mp he with he | he
      · exact h e he
      · rw [List.mem_singleton.mp he]
        trivial
  -- The party that drains the table is the one that the ending waits for.
  | drain heq =>
    obtain ⟨rfl, rfl, -⟩ := hstaged.ending_eq heq
    intro e he
    rw [List.mem_singleton.mp he]
    exact ⟨s.race.drained_take_drain, _, List.getElem?_concat_length, rfl⟩
  | @notify before after reason k p heq hp hheld =>
    obtain ⟨rfl, rfl, -⟩ := hstaged.ending_eq heq
    obtain ⟨hdrained, p', hp', hdeed⟩ := h ⟨reason, .draining k⟩ (heq ▸ List.mem_cons_self)
    intro e he
    rw [List.mem_singleton.mp he]
    obtain rfl : p' = p := Option.some.inj (hp'.symm.trans hp)
    exact ⟨hdrained, p', List.mem_of_getElem? hp, hdeed, hheld⟩
  | @returns before after reason heq =>
    obtain ⟨rfl, rfl, -⟩ := hstaged.ending_eq heq
    intro e he
    rw [List.mem_singleton.mp he]
    exact h ⟨reason, .told⟩ (heq ▸ List.mem_cons_self)
  | calls hrace => exact fun e he => (h e he).step hrace
  | abandon | establish | track | close | fail | set => exact h

theorem Reachable.hasSettled (h : s.Reachable) : s.HasSettled := by
  induction h with
  | refl => exact fun e he => (List.not_mem_nil he).elim
  | tail hrun hstep ih => exact ih.step (Reachable.isStaged hrun) hstep

/-! ### Closing -/

theorem closes_attempt (s : Course) : s.attempt.closes = s.closes := by
  unfold attempt
  rcases s.life.claim with ⟨e | _, l⟩
  · rfl
  · rfl

theorem closes_finish (s : Course) (reason : DisconnectReason) :
    (s.finish reason).closes = s.closes := by
  unfold Course.finish
  rcases s.life.finish reason with ⟨_ | reason, l⟩
  · rfl
  · rfl

theorem isOk_close (l : Lifecycle) (h : l.close.1.isOk = true) :
    l.state.isOver = false ∧ l.close.2.state.isOver = true := by
  unfold Lifecycle.close at h ⊢
  split at h
  case h_5 hstate =>
    rw [hstate]
    exact ⟨rfl, rfl⟩
  all_goals cases h

/-- At most one `close` succeeded, and none before the end began. -/
def ClosedOnce (s : Course) : Prop := s.closes.countP Except.isOk ≤ s.life.state.isOver.toNat

theorem ClosedOnce.step (h : s.ClosedOnce) (hstaged : s.IsStaged) (hstep : s.Step s') :
    s'.ClosedOnce := by
  have hover : s.life.state.isOver.toNat ≤ s'.life.state.isOver.toNat := by
    have hleads := (hstep.leads hstaged).isOver
    cases hstate : s.life.state.isOver with
    | false => exact Nat.zero_le _
    | true => rw [hleads hstate]
  have hkept (hcloses : s'.closes = s.closes) : s'.ClosedOnce := by
    unfold ClosedOnce
    rw [hcloses]
    exact Nat.le_trans h hover
  cases hstep with
  | close =>
    show (s.closes ++ [s.life.close.1]).countP Except.isOk ≤ s.life.close.2.state.isOver.toNat
    rw [List.countP_append, List.countP_singleton]
    unfold ClosedOnce at h
    by_cases hok : s.life.close.1.isOk = true
    · obtain ⟨hbefore, hafter⟩ := isOk_close s.life hok
      rw [hbefore] at h
      rw [if_pos hok, hafter]
      exact Nat.succ_le_succ h
    · rw [if_neg hok]
      exact Nat.le_trans h hover
  | attempt => exact hkept s.closes_attempt
  | finish ha hmay => exact hkept (s.closes_finish _)
  | abandon | giveUp | establish | track | fail | drain | notify | returns | calls | set =>
    exact hkept rfl

theorem Reachable.closedOnce (h : s.Reachable) : s.ClosedOnce := by
  induction h with
  | refl => exact Nat.le_refl 0
  | tail hrun hstep ih => exact ih.step (Reachable.isStaged hrun) hstep

/-! ### Without interruption -/

theorem run_calls (s : Course) {race : Race} (hrun : Relation.ReflTransGen Race.Step s.race race) :
    Relation.ReflTransGen Step s { s with race } :=
  hrun.lift (fun race => { s with race }) fun _ _ hstep => .calls hstep

theorem life_close (c : Connection) :
    c.close.1 = c.life.close.1 ∧ c.close.2.life = c.life.close.2 := by
  unfold Connection.close
  rcases c.life.close with ⟨e | _, l⟩
  · exact ⟨rfl, rfl⟩
  · exact ⟨rfl, rfl⟩

theorem life_fail (c : Connection) (reason : DisconnectReason) :
    (c.fail reason).life = c.life.fail reason := by
  unfold Connection.fail Lifecycle.fail
  cases c.life.state with
  | connecting | closed => rfl
  | connected | closing => rfl

theorem exists_run_abandon (s : Course) {c : Connection} (hlife : c.life = s.life)
    (hcalls : c.calls = s.race.calls) {before after : List Attempt}
    (hattempts : s.attempts = before ++ .opening :: after) :
    ∃ s', Relation.ReflTransGen Step s s' ∧ s'.life = c.abandon.life ∧
      s'.race.calls = c.abandon.calls ∧ s'.attempts = before ++ .failed :: after := by
  obtain ⟨race, completed, hrun, -, hrace, -⟩ := Race.exists_run_completeEach Race.Step.complete
    s.race.calls.table.entries (s.race.take .drain) [] rfl
  have habandon : Step s _ := .abandon hattempts
  have hdrained := (Relation.ReflTransGen.single habandon).tail (.giveUp rfl)
  refine ⟨_, hdrained.trans (run_calls _ hrun), ?_, ?_, rfl⟩
  · rw [show c.abandon.life = c.life.abandon from rfl, hlife]
  · show race.calls = c.calls.drain.2
    rw [hrace, hcalls, Calls.drain_eq_act]
    rfl

theorem exists_run_finish (s : Course) {c : Connection} (hlife : c.life = s.life)
    (hcalls : c.calls = s.race.calls) {a : Attempt} (ha : a ∈ s.attempts)
    {reason : DisconnectReason} (hmay : a.mayEnd reason) :
    ∃ s' told, Relation.ReflTransGen Step s s' ∧ s'.life = (c.finish reason).life ∧
      s'.race.calls = (c.finish reason).calls ∧ s'.notified = s.notified ++ told ∧
      (c.finish reason).events = c.events ++ told.map .disconnected := by
  have hfinish : Step s (s.finish reason) := .finish ha hmay
  unfold Course.finish at hfinish
  unfold Connection.finish
  rw [hlife]
  rcases hend : s.life.finish reason with ⟨_ | reason', l⟩
  · exact ⟨s, [], .refl, hlife.symm, hcalls.symm, (List.append_nil _).symm,
      (List.append_nil _).symm⟩
  · rw [hend] at hfinish
    obtain ⟨race, completed, hrun, hparties, hrace, -⟩ := Race.exists_run_completeEach
      Race.Step.complete s.race.calls.table.entries (s.race.take .drain) [] rfl
    have hdrained := (Relation.ReflTransGen.single hfinish).tail (.drain rfl)
    have hcompleted := hdrained.trans (run_calls _ hrun)
    have hlast : race.parties[s.race.parties.length]? = some ⟨.drain, [], completed⟩ := by
      rw [hparties]
      exact List.getElem?_concat_length
    refine ⟨_, [reason'], (hcompleted.tail (.notify rfl hlast rfl)).tail (.returns rfl), rfl, ?_,
      rfl, rfl⟩
    show race.calls = c.calls.drain.2
    rw [hrace, hcalls, Calls.drain_eq_act]
    rfl

/-! ### The whole course -/

/-- What holds of a connection at every moment of its course. -/
structure IsOrderly (s : Course) : Prop where
  /-- The state only moves forward, and a closed connection stays closed. -/
  forward : ∀ s', Relation.ReflTransGen Step s s' → s.life.state.Leads s'.life.state ∧
    (s.life.state = .closed → s'.life.state = .closed)
  /-- At most one attempt claims the connection. -/
  single : s.attempts.length ≤ 1
  unknown : s.life.state = .connecting ∨ s.life.state = .connected → s.life.reason = none
  known : s.life.state = .closing → s.life.reason ≠ none
  lasting : ∀ reason, s.life.reason = some reason → ∀ s', Relation.ReflTransGen Step s s' →
    s'.life.reason = some reason
  reasoned : s.life.state = .connected → ∀ s', Relation.ReflTransGen Step s s' →
    s'.life.state = .closed → s'.life.reason ≠ none
  /-- Without a socket there is no reason, and the application is not notified. -/
  unconnected : s.NeverConnected → s.life.reason = none ∧ s.notified = []
  /-- The application is notified once, of the recorded reason, after the connection was closed and
  its calls completed. -/
  told : s.notified ≠ [] → s.life.state = .closed ∧
    (∃ reason, s.notified = [reason] ∧ s.life.reason = some reason) ∧
    s.race.Drained ∧ ∃ p ∈ s.race.parties, p.deed = .drain ∧ p.held = []
  /-- At most one `finish` closes the connection, and it returns after the notification. -/
  ended : s.endings.length ≤ 1 ∧
    ∀ e ∈ s.endings, e.phase = .returned → s.notified = [e.reason]
  closes : s.closes.countP Except.isOk ≤ 1
  early : s.NeverConnected → s.life.close = (.error .notConnected, s.life)
  /-- A connected connection can be closed, and none that is past it. -/
  late : s.life.state = .connected → (s.life.close).1 = .ok () ∧
    ∀ s', Relation.ReflTransGen Step s s' → s'.life.state ≠ .connected →
      s'.life.close = (.error (.invalidArgument "connection already closing"), s'.life)

theorem close_of_socket {l : Lifecycle} {reason : DisconnectReason}
    (hstate : l.state = .closing ∨ l.state = .closed) (hreason : l.reason = some reason) :
    l.close = (.error (.invalidArgument "connection already closing"), l) := by
  unfold Lifecycle.close
  rcases hstate with hstate | hstate
  · rw [hstate, hreason]
  · rw [hstate, hreason]

theorem close_of_noSocket {l : Lifecycle} (hstate : l.state = .connecting ∨ l.state = .closed)
    (hreason : l.reason = none) : l.close = (.error .notConnected, l) := by
  unfold Lifecycle.close
  rcases hstate with hstate | hstate
  · rw [hstate, hreason]
  · rw [hstate, hreason]

theorem over_of_connected (h : s.Reachable) (hconnected : s.life.state = .connected)
    (hrun : Relation.ReflTransGen Step s s') (hstate : s'.life.state ≠ .connected) :
    (s'.life.state = .closing ∨ s'.life.state = .closed) ∧
      ∃ reason, s'.life.reason = some reason := by
  have hstaged := h.isStaged
  have hsocket : s.HasSocket := by
    rcases hstaged.socket_cases with ⟨-, hstate | hstate, -⟩ | ⟨hsocket, -⟩
    · rw [hconnected] at hstate
      cases hstate
    · rw [hconnected] at hstate
      cases hstate
    · exact hsocket
  rcases (hstaged.run hrun).socket_cases with ⟨hnone, -⟩ | ⟨-, ⟨hstill, -⟩ | hover⟩
  · obtain ⟨a, ha, hs⟩ := hsocket.run hstaged hrun
    exact absurd hs (hnone a ha)
  · exact absurd hstill hstate
  · exact hover

theorem NeverConnected.unconnected (h : s.NeverConnected) :
    (s.life.state = .connecting ∨ s.life.state = .closed) ∧ s.life.reason = none ∧
      s.notified = [] := by
  rcases h.reachable.isStaged.socket_cases with ⟨-, hrest⟩ | ⟨hsocket, -⟩
  · exact hrest
  · exact absurd hsocket h.not_hasSocket

/-- **A connection goes one way.**  However attempts to get a socket, the shutdown of the set,
closing, failures and endings come between each other, the state moves ahead, the reason is found
once, and the application is told once or, without a socket, never. -/
theorem orderly_of_reachable (h : s.Reachable) : s.IsOrderly where
  forward := by
    intro s' hrun
    have hleads := leads_of_run hrun h.isStaged
    refine ⟨hleads, fun hclosed => ?_⟩
    rw [hclosed] at hleads
    exact hleads.of_closed
  single := h.isStaged.attempts_length
  unknown := h.isStaged.reason_of_state.1
  known := h.isStaged.reason_of_state.2
  lasting := fun reason hreason s' hrun => reason_of_run hrun hreason
  reasoned := by
    intro hconnected s' hrun hclosed hnone
    obtain ⟨-, reason, hreason⟩ := over_of_connected h hconnected hrun (by rw [hclosed]; decide)
    rw [hnone] at hreason
    cases hreason
  unconnected := fun hnever => hnever.unconnected.2
  told := by
    intro hnotified
    obtain ⟨hclosed, e, hendings, hnotice, hns, hreason⟩ := h.isStaged.of_notified hnotified
    have hsettled := h.hasSettled e (hendings ▸ List.mem_singleton_self e)
    refine ⟨hclosed, ⟨e.reason, hns, hreason⟩, ?_⟩
    -- Only an ending that has told the application has a notice.
    rcases e with ⟨reason, _ | _ | _ | _⟩
    · exact absurd rfl hnotice
    · exact absurd rfl hnotice
    · exact hsettled
    · exact hsettled
  ended := by
    refine ⟨h.isStaged.endings_length, ?_⟩
    intro e he hreturned
    obtain ⟨hns, -⟩ := h.isStaged.of_ending he
    rw [hns]
    rcases e with ⟨reason, phase⟩
    subst hreturned
    rfl
  closes := Nat.le_trans h.closedOnce (Bool.toNat_le _)
  early := by
    intro hnever
    obtain ⟨hstate, hreason, -⟩ := hnever.unconnected
    exact close_of_noSocket hstate hreason
  late := by
    intro hconnected
    refine ⟨?_, ?_⟩
    · unfold Lifecycle.close
      rw [hconnected]
    · intro s' hrun hstate
      obtain ⟨hover, reason, hreason⟩ := over_of_connected h hconnected hrun hstate
      exact close_of_socket hover hreason

/-- The connection is closed with a call in flight, and fails while it is closing. -/
theorem orderly_of_reachable_closed :
    ∃ s : Course, s.Reachable ∧ s.attempts = [.served] ∧ s.notified = [.user] ∧
      s.closes = [.ok (), .error (.invalidArgument "connection already closing")] ∧
      s.race.outcome? 0 = some (.error .disconnected) ∧ s.IsOrderly := by
  let call : Entry := ⟨1, 3, 0⟩
  let race : Race := {
    calls := { table := { next := 2, entries := [call] }, slots := [.waiting] }
    registered := [call] }
  let connected : Course := {
    life := ⟨.connected, true, none⟩, race, registry := { live := [0] }, attempts := [.served] }
  have hclaim : Step {} { life := ⟨.connecting, true, none⟩, attempts := [.opening] } := .attempt
  have hconnected : Reachable connected :=
    (((Relation.ReflTransGen.single hclaim).tail (@Step.establish _ [] [] rfl)).tail
      (@Step.track _ [] [] rfl 0)).tail (.calls (.register_of_isFree 16 3 rfl (by decide)))
  let closing : Course := connected.close.close
  have hclosing : Reachable closing := (hconnected.tail .close).tail .close
  let closed : Course := { closing with life := closing.life.fail .closed }.finish .closed
  have hclosed : Reachable closed :=
    (hclosing.tail (.fail .closed)).tail (.finish (List.mem_singleton_self _) (.inl rfl))
  have hdrained := hclosed.tail (@Step.drain _ [] [] _ rfl)
  have hcompleted := hdrained.tail
    (.calls (@Race.Step.complete _ [] [] ⟨.drain, [call], []⟩ call rfl List.mem_cons_self))
  have hreachable : Reachable _ :=
    (hcompleted.tail (@Step.notify _ [] [] _ 0 _ rfl rfl rfl)).tail (@Step.returns _ [] [] _ rfl)
  exact ⟨_, hreachable, rfl, rfl, rfl, rfl, orderly_of_reachable hreachable⟩

end Course

end CallWire
