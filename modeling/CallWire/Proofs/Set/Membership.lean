import CallWire.Proofs.Connection.Forward

/-!
# CallWire.Proofs.Set.Membership — a connection and the set that takes it in

A connection that has got its socket is shown to its set, which takes it in or turns it away.  Only
then can it end: by the task that serves it, or by whoever was turned away.
-/

namespace CallWire

/-- `track` has returned for this attempt. -/
def Attempt.isDecided : Attempt → Bool
  | opening | abandoned | failed | established => false
  | served | turnedAway => true

theorem Attempt.mayEnd.isDecided {a : Attempt} {reason : DisconnectReason} (h : a.mayEnd reason) :
    a.isDecided = true := by
  rcases h with rfl | ⟨rfl, -⟩
  · rfl
  · rfl

theorem Stage.state_ne_closed {l : Lifecycle} {a : Attempt} {as : List Attempt}
    {ns : List DisconnectReason} (h : Stage l as [] ns) (ha : a ∈ as)
    (hsocket : a.hasSocket? = some true) : l.state ≠ .closed := by
  cases h with
  | gaveUp ha' =>
    rw [List.mem_singleton.mp ha, ha'] at hsocket
    cases hsocket
  | fresh | opening | connected | closing => exact nofun

theorem Lifecycle.finish_of_ne_closed {l : Lifecycle} (h : l.state ≠ .closed)
    (reason : DisconnectReason) : l.finish reason =
      (some (l.reason.getD reason), { l with state := .closed }.because reason) := by
  unfold finish
  rcases hstate : l.state with _ | _ | _ | _
  · rfl
  · rfl
  · rfl
  · exact absurd hstate h

theorem Lifecycle.reason_because_cases (l : Lifecycle) (reason : DisconnectReason) :
    (l.because reason).reason = l.reason ∨ (l.because reason).reason = some reason := by
  unfold because
  rcases l.reason with _ | r
  · exact .inr rfl
  · exact .inl rfl

theorem Lifecycle.reason_close_cases (l : Lifecycle) :
    l.close.2.reason = l.reason ∨ l.close.2.reason = some .user := by
  unfold close
  split
  case h_5 => exact reason_because_cases _ .user
  all_goals exact .inl rfl

theorem Lifecycle.isOver_close {l : Lifecycle} (h : l.state ≠ .connecting) :
    l.close.2.state.isOver = true := by
  unfold close
  split
  case h_1 hstate => exact absurd hstate h
  case h_5 => rfl
  case h_2 hstate _ => rw [hstate]; rfl
  case h_3 hstate => rw [hstate]; rfl
  case h_4 hstate _ => rw [hstate]; rfl

namespace Course

variable {c c' : Course}

/-- The connection was tracked, and a task serves it. -/
def IsServed (c : Course) : Prop := .served ∈ c.attempts

/-- The set was shut down when the connection was to be tracked. -/
def IsTurnedAway (c : Course) : Prop := .turnedAway ∈ c.attempts

/-- A connection ends only after `track` has returned. -/
def EndsDecided (c : Course) : Prop := c.endings ≠ [] → ∃ a ∈ c.attempts, a.isDecided = true

theorem attempts_finish (c : Course) (reason : DisconnectReason) :
    (c.finish reason).attempts = c.attempts := by
  unfold finish
  rcases c.life.finish reason with ⟨_ | _, l⟩
  · rfl
  · rfl

theorem mem_attempts_attempt {x : Attempt} (hx : x.isDecided = true) :
    x ∈ c.attempt.attempts ↔ x ∈ c.attempts := by
  have hne : x ≠ .opening := by
    rintro rfl
    cases hx
  unfold attempt
  rcases c.life.claim with ⟨e | _, l⟩
  · rfl
  · simp [hne]

theorem mem_of_replace {before after : List Attempt} {a b x : Attempt}
    (h : c.attempts = before ++ a :: after) (ha : a.isDecided = false) (hx : x.isDecided = true)
    (hmem : x ∈ c.attempts) : x ∈ before ++ b :: after := by
  rw [h] at hmem
  rcases List.mem_append.mp hmem with hmem | hmem
  · exact List.mem_append_left _ hmem
  · rcases List.mem_cons.mp hmem with rfl | hmem
    · rw [ha] at hx
      cases hx
    · exact List.mem_append_right _ (List.mem_cons_of_mem _ hmem)

theorem Step.decided (hstep : c.Step c') {x : Attempt} (hx : x.isDecided = true)
    (hmem : x ∈ c.attempts) : x ∈ c'.attempts := by
  cases hstep with
  | attempt => exact (mem_attempts_attempt hx).mpr hmem
  | abandon heq => exact mem_of_replace heq rfl hx hmem
  | giveUp heq => exact mem_of_replace heq rfl hx hmem
  | establish heq => exact mem_of_replace heq rfl hx hmem
  | track heq id => exact mem_of_replace heq rfl hx hmem
  | finish ha hmay =>
    rw [attempts_finish]
    exact hmem
  | close | fail | drain | notify | returns | calls | set => exact hmem

theorem EndsDecided.endings_eq_nil (h : c.EndsDecided) (hstaged : c.IsStaged)
    {before after : List Attempt} {a : Attempt} (heq : c.attempts = before ++ a :: after)
    (ha : a.isDecided = false) : c.endings = [] := by
  obtain ⟨rfl, rfl, -⟩ := hstaged.attempt_eq heq
  by_contra hne
  obtain ⟨x, hx, hdecided⟩ := h hne
  rw [heq] at hx
  rw [List.mem_singleton.mp hx, ha] at hdecided
  cases hdecided

theorem EndsDecided.step (h : c.EndsDecided) (hstep : c.Step c') : c'.EndsDecided := by
  have hkept (hne : c.endings ≠ []) : ∃ a ∈ c'.attempts, a.isDecided = true := by
    obtain ⟨x, hx, hdecided⟩ := h hne
    exact ⟨x, hstep.decided hdecided hx, hdecided⟩
  have hsome {before after : List Ending} {e : Ending} (heq : c.endings = before ++ e :: after) :
      c.endings ≠ [] :=
    heq ▸ List.append_ne_nil_of_right_ne_nil _ nofun
  intro hne
  cases hstep with
  | @finish a ha reason hmay =>
    rw [attempts_finish]
    exact ⟨a, ha, hmay.isDecided⟩
  | attempt =>
    rw [c.endings_attempt.1] at hne
    exact hkept hne
  | drain heq => exact hkept (hsome heq)
  | notify heq hp hheld => exact hkept (hsome heq)
  | returns heq => exact hkept (hsome heq)
  | abandon | giveUp | establish | track | close | fail | calls | set => exact hkept hne

theorem Step.endings_of_decided (hstep : c.Step c') (h : c.EndsDecided) (hstaged : c.IsStaged)
    {x : Attempt} (hx : x.isDecided = true) (hbefore : x ∉ c.attempts) (hafter : x ∈ c'.attempts) :
    c'.endings = [] := by
  cases hstep with
  | track heq id => exact h.endings_eq_nil hstaged heq rfl
  | abandon heq => exact h.endings_eq_nil hstaged heq rfl
  | giveUp heq => exact h.endings_eq_nil hstaged heq rfl
  | establish heq => exact h.endings_eq_nil hstaged heq rfl
  | attempt => exact absurd ((mem_attempts_attempt hx).mp hafter) hbefore
  | finish ha hmay =>
    rw [attempts_finish] at hafter
    exact absurd hafter hbefore
  | close | fail | drain | notify | returns | calls | set => exact absurd hafter hbefore

theorem IsStaged.finish_eq (h : c.IsStaged) {a : Attempt} (ha : a ∈ c.attempts)
    (hsocket : a.hasSocket? = some true) (hnone : c.endings = []) (reason : DisconnectReason) :
    c.finish reason = { c with
      life := { c.life with state := .closed }.because reason
      endings := [⟨c.life.reason.getD reason, .entered⟩] } := by
  unfold IsStaged at h
  rw [hnone] at h
  unfold finish
  rw [Lifecycle.finish_of_ne_closed (h.state_ne_closed ha hsocket), hnone]
  rfl

theorem IsStaged.isOver_close (h : c.IsStaged) (hserved : c.IsServed) :
    c.close.life.state.isOver = true := by
  refine Lifecycle.isOver_close fun hconnecting => ?_
  rcases Stage.socket_cases h with ⟨hnone, -⟩ | ⟨-, ⟨hstate, -⟩ | ⟨hstate | hstate, -⟩⟩
  · exact hnone _ hserved rfl
  · rw [hconnecting] at hstate
    cases hstate
  · rw [hconnecting] at hstate
    cases hstate
  · rw [hconnecting] at hstate
    cases hstate

/-! ### Whoever ends a connection returns -/

/-- Somebody has run `finish` to its end on the connection. -/
def HasReturned (c : Course) : Prop := ∃ e ∈ c.endings, e.phase = .returned

/-- A step that leaves the registry alone: it neither tracks the connection nor untracks it.  Before
the connection is tracked, it does not make it fail. -/
structure Apart (c c' : Course) : Prop where
  step : c.Step c'
  registry : c'.registry = c.registry
  decided : ∀ a ∈ c'.attempts, a.isDecided = true → a ∈ c.attempts
  returned : c'.HasReturned → c.HasReturned
  reason : c.IsServed ∨ c'.life.reason = c.life.reason ∨ c'.life.reason = some .user

theorem not_hasReturned_of_nil (h : c.endings = []) : ¬ c.HasReturned := by
  rintro ⟨e, he, -⟩
  rw [h] at he
  cases he

theorem not_hasReturned_of_singleton {e : Ending} (h : c.endings = [e]) (he : e.phase ≠ .returned) :
    ¬ c.HasReturned := by
  rintro ⟨x, hx, hphase⟩
  rw [h] at hx
  rw [List.mem_singleton.mp hx] at hphase
  exact he hphase

theorem HasReturned.step (h : c.HasReturned) (hstaged : c.IsStaged) (hstep : c.Step c') :
    c'.HasReturned := by
  have hnot {before after : List Ending} {e : Ending} (heq : c.endings = before ++ e :: after)
      (he : e.phase ≠ .returned) : False := by
    obtain ⟨rfl, rfl, -⟩ := hstaged.ending_eq heq
    exact not_hasReturned_of_singleton heq he h
  cases hstep with
  | attempt =>
    unfold HasReturned
    rw [c.endings_attempt.1]
    exact h
  | @finish a ha reason hmay =>
    obtain ⟨e, he, hphase⟩ := h
    refine ⟨e, ?_, hphase⟩
    unfold Course.finish
    rcases c.life.finish reason with ⟨_ | reason', l⟩
    · exact he
    · exact List.mem_append_left _ he
  | drain heq => exact (hnot heq nofun).elim
  | notify heq => exact (hnot heq nofun).elim
  | returns heq => exact (hnot heq nofun).elim
  | abandon | giveUp | establish | track | close | fail | calls | set => exact h

theorem HasReturned.run (h : c.HasReturned) (hstaged : c.IsStaged)
    (hrun : Relation.ReflTransGen Step c c') : c'.HasReturned := by
  induction hrun with
  | refl => exact h
  | tail hrun hstep ih => exact ih.step (hstaged.run hrun) hstep

theorem decided_of_run (hrun : Relation.ReflTransGen Step c c') {a : Attempt}
    (ha : a.isDecided = true) (hmem : a ∈ c.attempts) : a ∈ c'.attempts := by
  induction hrun with
  | refl => exact hmem
  | tail _ hstep ih => exact hstep.decided ha ih

theorem Reachable.endsDecided (h : c.Reachable) : c.EndsDecided := by
  induction h with
  | refl => exact fun hne => absurd rfl hne
  | tail _ hstep ih => exact ih.step hstep

theorem IsStaged.not_isServed (h : c.IsStaged) (hturned : c.IsTurnedAway) : ¬ c.IsServed := by
  intro hserved
  obtain ⟨before, after, heq⟩ := List.append_of_mem hturned
  obtain ⟨rfl, rfl, -⟩ := h.attempt_eq heq
  unfold IsServed at hserved
  rw [heq] at hserved
  cases List.mem_singleton.mp hserved

theorem IsStaged.of_hasReturned (h : c.IsStaged) (hreturned : c.HasReturned) :
    c.life.state = .closed ∧ ∃ reason, c.life.reason = some reason ∧ c.notified = [reason] := by
  obtain ⟨⟨reason, phase⟩, he, hphase⟩ := hreturned
  obtain ⟨hnotified, hclosed, hreason⟩ := Stage.of_ending h he
  obtain rfl : phase = .returned := hphase
  exact ⟨hclosed, reason, hreason, hnotified⟩

/-! ### The end of a connection that was turned away -/

theorem apart_of_endings (hstep : c.Step c') {e : Ending} (hendings : c'.endings = [e])
    (he : e.phase ≠ .returned) (hregistry : c'.registry = c.registry)
    (hattempts : c'.attempts = c.attempts)
    (hreason : c'.life.reason = c.life.reason ∨ c'.life.reason = some .user) : c.Apart c' where
  step := hstep
  registry := hregistry
  decided := fun _ ha _ => hattempts ▸ ha
  returned := fun h => absurd h (not_hasReturned_of_singleton hendings he)
  reason := .inr hreason

theorem exists_run_of_draining (h : c.Reachable) {reason : DisconnectReason} {k : Nat}
    (hendings : c.endings = [⟨reason, .draining k⟩]) :
    ∃ c', Relation.ReflTransGen Apart c c' ∧ c'.endings = [⟨reason, .told⟩] := by
  obtain ⟨-, p, hp, -⟩ :=
    h.hasSettled ⟨reason, .draining k⟩ (hendings ▸ List.mem_singleton_self _)
  obtain ⟨race, p', hrun, hp', hheld⟩ := c.race.exists_run_complete_held hp
  have hcalls : Relation.ReflTransGen Apart c { c with race } :=
    hrun.lift (fun race => { c with race }) fun _ _ hstep =>
      apart_of_endings (.calls hstep) hendings nofun rfl rfl (.inl rfl)
  have hnotify : Step { c with race } _ := @Step.notify _ [] [] reason k p' hendings hp' hheld
  exact ⟨_, hcalls.tail (apart_of_endings hnotify rfl nofun rfl rfl (.inl rfl)), rfl⟩

theorem exists_run_of_entered (h : c.Reachable) {reason : DisconnectReason}
    (hendings : c.endings = [⟨reason, .entered⟩]) :
    ∃ c', Relation.ReflTransGen Apart c c' ∧ c'.endings = [⟨reason, .told⟩] := by
  have hdrain : Step c _ := @Step.drain _ [] [] reason hendings
  obtain ⟨c', hrun, htold⟩ := exists_run_of_draining (h.tail hdrain) rfl
  exact ⟨c', .head (apart_of_endings hdrain rfl nofun rfl rfl (.inl rfl)) hrun, htold⟩

/-- Whoever was turned away can run `finish` up to the notification. -/
theorem exists_run_told (h : c.Reachable) (hturned : c.IsTurnedAway) (hnot : ¬ c.HasReturned) :
    ∃ c' reason, Relation.ReflTransGen Apart c c' ∧ c'.endings = [⟨reason, .told⟩] := by
  have hlength := h.isStaged.endings_length
  match hendings : c.endings, hlength with
  | [], _ =>
    have hfinish : Step c (c.finish .user) := .finish hturned (.inr ⟨rfl, rfl⟩)
    have heq := h.isStaged.finish_eq hturned rfl hendings .user
    have hreachable := h.tail hfinish
    have hreason : (c.finish .user).life.reason = c.life.reason ∨
        (c.finish .user).life.reason = some .user := by
      rw [heq]
      exact Lifecycle.reason_because_cases _ .user
    have hentered : (c.finish .user).endings = [⟨c.life.reason.getD .user, .entered⟩] := by
      rw [heq]
    have hregistry : (c.finish .user).registry = c.registry := by
      rw [heq]
    obtain ⟨c', hrun, htold⟩ := exists_run_of_entered hreachable hentered
    exact ⟨c', _, .head (apart_of_endings hfinish hentered nofun hregistry
      (c.attempts_finish .user) hreason) hrun, htold⟩
  | [⟨reason, .entered⟩], _ =>
    obtain ⟨c', hrun, htold⟩ := exists_run_of_entered h hendings
    exact ⟨c', reason, hrun, htold⟩
  | [⟨reason, .draining k⟩], _ =>
    obtain ⟨c', hrun, htold⟩ := exists_run_of_draining h hendings
    exact ⟨c', reason, hrun, htold⟩
  | [⟨reason, .told⟩], _ => exact ⟨c, reason, .refl, hendings⟩
  | [⟨reason, .returned⟩], _ =>
    exact absurd ⟨⟨reason, .returned⟩, hendings ▸ List.mem_singleton_self _, rfl⟩ hnot

end Course

theorem getElem?_set_of_some {l : List Course} {i : Nat} {c : Course} (h : l[i]? = some c)
    (c' : Course) (j : Nat) : (l.set i c')[j]? = if i = j then some c' else l[j]? := by
  obtain ⟨hi, -⟩ := List.getElem?_eq_some_iff.mp h
  rw [List.getElem?_set]
  by_cases hj : i = j
  · rw [if_pos hj, if_pos hj, if_pos (hj ▸ hi)]
  · rw [if_neg hj, if_neg hj]

theorem getElem?_of_append_new {l : List Course} {i : Nat} {c : Course}
    (h : (l ++ [({} : Course)])[i]? = some c) (hserved : c.IsServed) : l[i]? = some c := by
  by_cases hi : i < l.length
  · rwa [List.getElem?_append_left hi] at h
  · have hmem := List.mem_of_getElem?
      ((List.getElem?_append_right (Nat.le_of_not_lt hi)).symm.trans h)
    rw [List.mem_singleton.mp hmem] at hserved
    cases hserved

end CallWire
