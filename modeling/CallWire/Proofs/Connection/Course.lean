import CallWire.Proofs.Connection.Ending
import CallWire.Set.Registry

/-!
# CallWire.Proofs.Connection.Course — a connection from its first attempt to its end

Several threads may try to get a socket for a connection, close it, and see it fail, while its task
carries out the end.  The state is one critical section of each.  What every step preserves is that
state, claim, reason, attempts and endings are in one of six constellations; and those can only
follow each other in one order.
-/

namespace CallWire

/-! ### The states in their order -/

/-- The next state in the order of `ConnectionState`. -/
inductive ConnectionState.Next : ConnectionState → ConnectionState → Prop
  | connected : Next .connecting .connected
  | closing : Next .connected .closing
  | closed : Next .closing .closed
  | unconnected : Next .connecting .closed

def ConnectionState.Leads : ConnectionState → ConnectionState → Prop :=
  Relation.ReflTransGen Next

def ConnectionState.isOver : ConnectionState → Bool
  | .connecting | .connected => false
  | .closing | .closed => true

theorem ConnectionState.Leads.isOver {a b : ConnectionState} (h : a.Leads b)
    (ha : a.isOver = true) : b.isOver = true := by
  induction h with
  | refl => exact ha
  | tail _ hnext ih =>
    cases hnext with
    | connected => cases ih
    | closing => cases ih
    | closed => rfl
    | unconnected => rfl

theorem ConnectionState.Leads.of_closed {b : ConnectionState} (h : Leads .closed b) :
    b = .closed := by
  induction h with
  | refl => rfl
  | tail _ hnext ih =>
    rw [ih] at hnext
    cases hnext

/-! ### Critical sections -/

/-- How far a call of `bind` or `connect` that claimed the connection has come. -/
inductive Attempt
  | opening
  /-- No socket was obtained, and the connection was closed. -/
  | abandoned
  /-- Its pending calls were failed, too. -/
  | failed
  /-- A socket was obtained, and the connection is connected. -/
  | established
  /-- The set tracks the connection, and a task serves it. -/
  | served
  /-- The set was shut down and did not track the connection. -/
  | turnedAway
  deriving DecidableEq

namespace Attempt

def hasSocket? : Attempt → Option Bool
  | opening => none
  | abandoned | failed => some false
  | established | served | turnedAway => some true

/-- `finish` may be called with this reason: with any by the task that serves the connection, and
with `user` by the one that was turned away. -/
def mayEnd (a : Attempt) (reason : DisconnectReason) : Prop :=
  a = .served ∨ a = .turnedAway ∧ reason = .user

theorem mayEnd.hasSocket? {a : Attempt} {reason : DisconnectReason} (h : a.mayEnd reason) :
    a.hasSocket? = some true := by
  rcases h with rfl | ⟨rfl, -⟩
  · rfl
  · rfl

end Attempt

/-- What is left of `finish` after it has closed the connection. -/
inductive EndPhase
  | entered
  /-- This party took the calls out of the table and completes them. -/
  | draining (party : Nat)
  /-- The application was notified. -/
  | told
  | returned

/-- A call of `finish` that closed the connection, with the reason that it recorded. -/
structure Ending where
  reason : DisconnectReason
  phase : EndPhase

/-- The notification that is due at this phase. -/
def Ending.notice : Ending → List DisconnectReason
  | ⟨reason, .told⟩ | ⟨reason, .returned⟩ => [reason]
  | ⟨_, .entered⟩ | ⟨_, .draining _⟩ => []

/-- A connection with the attempts to connect it and the calls that close or finish it. -/
structure Course where
  life : Lifecycle := {}
  race : Race := {}
  registry : Registry := {}
  /-- Attempts that claimed the connection. -/
  attempts : List Attempt := []
  /-- Calls of `finish` that closed the connection. -/
  endings : List Ending := []
  /-- The notifications, oldest first. -/
  notified : List DisconnectReason := []
  /-- The results of `Connection.close`, oldest first. -/
  closes : List (Except RpcError Unit) := []

namespace Course

/-- `Lifecycle.claim`, which begins an attempt unless it is refused. -/
def attempt (s : Course) : Course :=
  match s.life.claim with
  | (.ok (), life) => { s with life, attempts := s.attempts ++ [.opening] }
  | (.error _, life) => { s with life }

def close (s : Course) : Course :=
  { s with life := s.life.close.2, closes := s.closes ++ [s.life.close.1] }

/-- The first section of `Connection.finish`, which has no effect on a closed connection. -/
def finish (s : Course) (reason : DisconnectReason) : Course :=
  match s.life.finish reason with
  | (none, _) => s
  | (some reason, life) => { s with life, endings := s.endings ++ [⟨reason, .entered⟩] }

/-- `Registry.track` for a connection that has its socket. -/
def admission (s : Course) (id : Nat) : Attempt :=
  if (s.registry.track id).1 then .served else .turnedAway

theorem hasSocket?_admission (s : Course) (id : Nat) :
    (s.admission id).hasSocket? = some true := by
  unfold admission
  split
  · rfl
  · rfl

/-- One critical section of one thread. -/
inductive Step (s : Course) : Course → Prop
  | attempt : Step s s.attempt
  | abandon {before after : List Attempt} (h : s.attempts = before ++ .opening :: after) :
      Step s { s with life := s.life.abandon, attempts := before ++ .abandoned :: after }
  | giveUp {before after : List Attempt} (h : s.attempts = before ++ .abandoned :: after) :
      Step s { s with race := s.race.take .drain, attempts := before ++ .failed :: after }
  | establish {before after : List Attempt} (h : s.attempts = before ++ .opening :: after) :
      Step s { s with life := s.life.establish, attempts := before ++ .established :: after }
  | track {before after : List Attempt} (h : s.attempts = before ++ .established :: after)
      (id : Nat) :
      Step s { s with
        registry := (s.registry.track id).2, attempts := before ++ s.admission id :: after }
  | close : Step s s.close
  | fail (reason : DisconnectReason) : Step s { s with life := s.life.fail reason }
  | finish {a : Attempt} (ha : a ∈ s.attempts) {reason : DisconnectReason}
      (hmay : a.mayEnd reason) : Step s (s.finish reason)
  | drain {before after : List Ending} {reason : DisconnectReason}
      (h : s.endings = before ++ ⟨reason, .entered⟩ :: after) :
      Step s { s with
        race := s.race.take .drain
        endings := before ++ ⟨reason, .draining s.race.parties.length⟩ :: after }
  | notify {before after : List Ending} {reason : DisconnectReason} {k : Nat} {p : Party}
      (h : s.endings = before ++ ⟨reason, .draining k⟩ :: after)
      (hp : s.race.parties[k]? = some p) (hheld : p.held = []) :
      Step s { s with
        notified := s.notified ++ [reason]
        endings := before ++ ⟨reason, .told⟩ :: after }
  | returns {before after : List Ending} {reason : DisconnectReason}
      (h : s.endings = before ++ ⟨reason, .told⟩ :: after) :
      Step s { s with endings := before ++ ⟨reason, .returned⟩ :: after }
  | calls {race : Race} (h : s.race.Step race) : Step s { s with race }
  | set {registry : Registry} (h : s.registry.isShutDown = true → registry.isShutDown = true) :
      Step s { s with registry }

def Reachable (s : Course) : Prop := Relation.ReflTransGen Step {} s

/-- The runs in which no attempt obtains a socket. -/
def NeverConnected (s : Course) : Prop :=
  Relation.ReflTransGen (fun s s' => Step s s' ∧ s'.life.state ≠ .connected) {} s

end Course

/-! ### The six stages -/

inductive Stage : Lifecycle → List Attempt → List Ending → List DisconnectReason → Prop
  | fresh : Stage {} [] [] []
  | opening : Stage ⟨.connecting, true, none⟩ [.opening] [] []
  | gaveUp {a : Attempt} (ha : a.hasSocket? = some false) : Stage ⟨.closed, true, none⟩ [a] [] []
  | connected {a : Attempt} (ha : a.hasSocket? = some true) :
      Stage ⟨.connected, true, none⟩ [a] [] []
  | closing {a : Attempt} (ha : a.hasSocket? = some true) (reason : DisconnectReason) :
      Stage ⟨.closing, true, some reason⟩ [a] [] []
  | closed {a : Attempt} (ha : a.hasSocket? = some true) (e : Ending) :
      Stage ⟨.closed, true, some e.reason⟩ [a] [e] e.notice

namespace Stage

variable {l : Lifecycle} {a b : Attempt} {as : List Attempt} {es : List Ending}
  {ns : List DisconnectReason} {reason : DisconnectReason}

theorem attempts_length (h : Stage l as es ns) : as.length ≤ 1 := by
  cases h with
  | fresh => exact Nat.zero_le 1
  | opening | gaveUp | connected | closing | closed => exact Nat.le_refl 1

theorem endings_length (h : Stage l as es ns) : es.length ≤ 1 := by
  cases h with
  | fresh | opening | gaveUp | connected | closing => exact Nat.zero_le 1
  | closed => exact Nat.le_refl 1

theorem claim (h : Stage l as es ns) :
    (∃ e, l.claim = (.error e, l)) ∨
      ∃ l', l.claim = (.ok (), l') ∧ Stage l' (as ++ [.opening]) es ns := by
  cases h with
  | fresh => exact .inr ⟨_, rfl, .opening⟩
  | opening | gaveUp | connected | closing | closed => exact .inl ⟨_, rfl⟩

theorem of_opening (h : Stage l [.opening] es ns) :
    l = ⟨.connecting, true, none⟩ ∧ es = [] ∧ ns = [] := by
  cases h with
  | opening => exact ⟨rfl, rfl, rfl⟩
  | gaveUp ha => cases ha
  | connected ha => cases ha
  | closing ha => cases ha
  | closed ha => cases ha

theorem congr (h : Stage l [a] es ns) (hb : b.hasSocket? = a.hasSocket?) : Stage l [b] es ns := by
  cases h with
  | opening =>
    cases b with
    | opening => exact .opening
    | _ => cases hb
  | gaveUp ha => exact .gaveUp (hb.trans ha)
  | connected ha => exact .connected (hb.trans ha)
  | closing ha reason => exact .closing (hb.trans ha) reason
  | closed ha e => exact .closed (hb.trans ha) e

theorem socket_cases (h : Stage l as es ns) :
    ((∀ a ∈ as, a.hasSocket? ≠ some true) ∧ (l.state = .connecting ∨ l.state = .closed) ∧
        l.reason = none ∧ ns = []) ∨
      ((∃ a ∈ as, a.hasSocket? = some true) ∧ (l.state = .connected ∧ l.reason = none ∨
        (l.state = .closing ∨ l.state = .closed) ∧ ∃ reason, l.reason = some reason)) := by
  cases h with
  | fresh => exact .inl ⟨fun a ha => (List.not_mem_nil ha).elim, .inl rfl, rfl, rfl⟩
  | opening => exact .inl ⟨by decide, .inl rfl, rfl, rfl⟩
  | gaveUp ha => exact .inl ⟨by simp [ha], .inr rfl, rfl, rfl⟩
  | connected ha => exact .inr ⟨⟨_, List.mem_singleton_self _, ha⟩, .inl ⟨rfl, rfl⟩⟩
  | closing ha reason =>
    exact .inr ⟨⟨_, List.mem_singleton_self _, ha⟩, .inr ⟨.inl rfl, reason, rfl⟩⟩
  | closed ha e => exact .inr ⟨⟨_, List.mem_singleton_self _, ha⟩, .inr ⟨.inr rfl, _, rfl⟩⟩

theorem reason_of_state (h : Stage l as es ns) :
    (l.state = .connecting ∨ l.state = .connected → l.reason = none) ∧
      (l.state = .closing → l.reason ≠ none) := by
  cases h with
  | fresh | opening | gaveUp | connected => exact ⟨fun _ => rfl, nofun⟩
  | closing | closed =>
    refine ⟨?_, fun _ => nofun⟩
    rintro (hstate | hstate)
    · cases hstate
    · cases hstate

/-- The application is notified once, of the reason recorded. -/
theorem of_notified (h : Stage l as es ns) (hns : ns ≠ []) :
    l.state = .closed ∧
      ∃ e, es = [e] ∧ e.notice ≠ [] ∧ ns = [e.reason] ∧ l.reason = some e.reason := by
  cases h with
  | closed ha e =>
    refine ⟨rfl, e, rfl, hns, ?_, rfl⟩
    rcases e with ⟨reason, _ | _ | _ | _⟩
    · exact absurd rfl hns
    · exact absurd rfl hns
    · rfl
    · rfl
  | fresh | opening | gaveUp | connected | closing => exact absurd rfl hns

theorem of_ending {e : Ending} (h : Stage l as es ns) (he : e ∈ es) :
    ns = e.notice ∧ l.state = .closed ∧ l.reason = some e.reason := by
  cases h with
  | closed ha e' =>
    rw [List.mem_singleton.mp he]
    exact ⟨rfl, rfl, rfl⟩
  | fresh | opening | gaveUp | connected | closing => exact (List.not_mem_nil he).elim

theorem close (h : Stage l as es ns) : Stage l.close.2 as es ns := by
  cases h with
  | fresh => exact .fresh
  | opening => exact .opening
  | gaveUp ha => exact .gaveUp ha
  | connected ha => exact .closing ha _
  | closing ha reason => exact .closing ha reason
  | closed ha e => exact .closed ha e

theorem fail (h : Stage l as es ns) (reason : DisconnectReason) :
    Stage (l.fail reason) as es ns := by
  cases h with
  | fresh => exact .fresh
  | opening => exact .opening
  | gaveUp ha => exact .gaveUp ha
  | connected ha => exact .closing ha _
  | closing ha reason => exact .closing ha reason
  | closed ha e => exact .closed ha e

theorem finish (h : Stage l as es ns) (ha : a ∈ as) (hsocket : a.hasSocket? = some true) :
    l.finish reason = (none, l) ∨ ∃ reason' l', l.finish reason = (some reason', l') ∧
      Stage l' as (es ++ [⟨reason', .entered⟩]) ns := by
  cases h with
  | fresh => cases ha
  | opening =>
    rw [List.mem_singleton.mp ha] at hsocket
    cases hsocket
  | gaveUp ha' =>
    rw [List.mem_singleton.mp ha, ha'] at hsocket
    cases hsocket
  | connected ha' => exact .inr ⟨_, _, rfl, .closed ha' ⟨_, .entered⟩⟩
  | closing ha' reason' => exact .inr ⟨_, _, rfl, .closed ha' ⟨_, .entered⟩⟩
  | closed => exact .inl rfl

theorem advance {phase : EndPhase} (h : Stage l as [⟨reason, phase⟩] ns) (phase' : EndPhase) :
    ns = Ending.notice ⟨reason, phase⟩ ∧
      Stage l as [⟨reason, phase'⟩] (Ending.notice ⟨reason, phase'⟩) := by
  cases h with
  | closed ha => exact ⟨rfl, .closed ha ⟨reason, phase'⟩⟩

end Stage

namespace Course

variable {s s' : Course}

def IsStaged (s : Course) : Prop := Stage s.life s.attempts s.endings s.notified

theorem eq_nil_of_length_le {α : Type} {before after : List α} {a : α}
    (h : (before ++ a :: after).length ≤ 1) : before = [] ∧ after = [] := by
  rw [List.length_append, List.length_cons] at h
  exact ⟨List.eq_nil_of_length_eq_zero (by omega), List.eq_nil_of_length_eq_zero (by omega)⟩

theorem IsStaged.attempt_eq (h : s.IsStaged) {before after : List Attempt} {a : Attempt}
    (heq : s.attempts = before ++ a :: after) :
    before = [] ∧ after = [] ∧ Stage s.life [a] s.endings s.notified := by
  have hlength := h.attempts_length
  unfold IsStaged at h
  rw [heq] at h hlength
  obtain ⟨rfl, rfl⟩ := eq_nil_of_length_le hlength
  exact ⟨rfl, rfl, h⟩

theorem IsStaged.ending_eq (h : s.IsStaged) {before after : List Ending} {e : Ending}
    (heq : s.endings = before ++ e :: after) :
    before = [] ∧ after = [] ∧ Stage s.life s.attempts [e] s.notified := by
  have hlength := h.endings_length
  unfold IsStaged at h
  rw [heq] at h hlength
  obtain ⟨rfl, rfl⟩ := eq_nil_of_length_le hlength
  exact ⟨rfl, rfl, h⟩

theorem IsStaged.step (h : s.IsStaged) (hstep : s.Step s') : s'.IsStaged := by
  -- The stage tells which attempt and which ending there is, and with that which sections can run.
  cases hstep with
  | attempt =>
    unfold attempt
    rcases h.claim with ⟨e, heq⟩ | ⟨l', heq, hstage⟩
    · rw [heq]
      exact h
    · rw [heq]
      exact hstage
  | abandon heq =>
    obtain ⟨rfl, rfl, hstage⟩ := h.attempt_eq heq
    obtain ⟨hlife, hendings, hnotified⟩ := hstage.of_opening
    unfold IsStaged
    rw [hlife, hendings, hnotified]
    exact .gaveUp rfl
  | giveUp heq =>
    obtain ⟨rfl, rfl, hstage⟩ := h.attempt_eq heq
    exact hstage.congr rfl
  | establish heq =>
    obtain ⟨rfl, rfl, hstage⟩ := h.attempt_eq heq
    obtain ⟨hlife, hendings, hnotified⟩ := hstage.of_opening
    unfold IsStaged
    rw [hlife, hendings, hnotified]
    exact .connected rfl
  | track heq id =>
    obtain ⟨rfl, rfl, hstage⟩ := h.attempt_eq heq
    exact hstage.congr (s.hasSocket?_admission id)
  | close => exact Stage.close h
  | fail reason => exact Stage.fail h reason
  | @finish a ha reason hmay =>
    unfold finish
    rcases Stage.finish h ha hmay.hasSocket? with heq | ⟨reason', l', heq, hstage⟩
    · rw [heq]
      exact h
    · rw [heq]
      exact hstage
  | drain heq =>
    obtain ⟨rfl, rfl, hstage⟩ := h.ending_eq heq
    obtain ⟨hnotified, hnext⟩ := hstage.advance (.draining s.race.parties.length)
    unfold IsStaged
    rw [hnotified]
    exact hnext
  | notify heq =>
    obtain ⟨rfl, rfl, hstage⟩ := h.ending_eq heq
    obtain ⟨hnotified, hnext⟩ := hstage.advance .told
    unfold IsStaged
    rw [hnotified]
    exact hnext
  | returns heq =>
    obtain ⟨rfl, rfl, hstage⟩ := h.ending_eq heq
    obtain ⟨hnotified, hnext⟩ := hstage.advance .returned
    unfold IsStaged
    rw [hnotified]
    exact hnext
  | calls hrace => exact h
  | set hset => exact h

theorem IsStaged.run (h : s.IsStaged) (hrun : Relation.ReflTransGen Step s s') : s'.IsStaged := by
  induction hrun with
  | refl => exact h
  | tail _ hstep ih => exact ih.step hstep

theorem isStaged_new : IsStaged {} := Stage.fresh

theorem Reachable.isStaged (h : s.Reachable) : s.IsStaged := isStaged_new.run h

end Course

end CallWire
