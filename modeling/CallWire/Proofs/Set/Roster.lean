import CallWire.Proofs.Set.Membership
import CallWire.Set.Basic

/-!
# CallWire.Proofs.Set.Roster — the list of a set, and its shutdown

Connections come to a set with their sockets, and leave its list when their end returns, while
others shut the set down.  Whether it is shut down is asked in the same critical section in which a
connection is listed, and told in the one in which the list is read.  So every connection is listed
before the first shutdown and closed by it, or is turned away and ends at once.
-/

namespace CallWire

/-! ### The list -/

namespace Registry

variable {r : Registry}

theorem track_of_isShutDown (h : r.isShutDown = true) (i : Nat) : r.track i = (false, r) := by
  unfold track
  rw [if_pos h]

theorem track_of_not_isShutDown (h : r.isShutDown = false) (i : Nat) :
    r.track i = (true, { r with live := r.live ++ [i] }) := by
  unfold track
  rw [if_neg (by rw [h]; exact nofun)]

theorem isShutDown_track (r : Registry) (i : Nat) : (r.track i).2.isShutDown = r.isShutDown := by
  cases h : r.isShutDown with
  | true => rw [track_of_isShutDown h, h]
  | false => rw [track_of_not_isShutDown h, h]

theorem mem_live_track {i j : Nat} :
    j ∈ (r.track i).2.live ↔ j ∈ r.live ∨ r.isShutDown = false ∧ j = i := by
  cases h : r.isShutDown with
  | true =>
    rw [track_of_isShutDown h]
    exact (or_iff_left nofun).symm
  | false =>
    rw [track_of_not_isShutDown h]
    show j ∈ r.live ++ [i] ↔ _
    rw [List.mem_append, List.mem_singleton]
    exact or_congr_right (iff_and_self.mpr fun _ => rfl)

theorem nodup_live_track {i : Nat} (hnodup : r.live.Nodup) (hnew : i ∉ r.live) :
    (r.track i).2.live.Nodup := by
  cases h : r.isShutDown with
  | true =>
    rw [track_of_isShutDown h]
    exact hnodup
  | false =>
    rw [track_of_not_isShutDown h]
    exact hnodup.append (List.nodup_singleton i) (List.disjoint_singleton.mpr hnew)

theorem mem_live_untrack {i j : Nat} : j ∈ (r.untrack i).live ↔ j ∈ r.live ∧ j ≠ i := by
  unfold untrack
  rw [List.mem_filter, bne_iff_ne]

end Registry

namespace ConnectionSet

variable {s : ConnectionSet}

theorem shutDown_of_isShutDown (h : s.registry.isShutDown = true) : s.shutDown = s := by
  unfold shutDown Registry.shutDown
  rw [if_pos h]

theorem connections_modify {i : Nat} {c : Connection} (hc : s.connections[i]? = some c)
    (f : Connection → Connection) : (s.modify i f).connections[i]? = some (f c) := by
  show (s.connections.modify i f)[i]? = some (f c)
  rw [List.getElem?_modify_eq, hc]
  rfl

theorem adopt_of_isShutDown (h : s.registry.isShutDown = true) {i : Nat} {c : Connection}
    (hc : s.connections[i]? = some c) (hlife : c.life = ⟨.connecting, true, none⟩)
    (hasPeerAddress : Bool) :
    (s.adopt i hasPeerAddress).1 = .error (.invalidArgument "connection set is shut down") ∧
      i ∉ (s.adopt i hasPeerAddress).2.registry.live ∧
      ∃ c', (s.adopt i hasPeerAddress).2.connections[i]? = some c' ∧
        c'.life = ⟨.closed, true, some .user⟩ ∧ c'.events = c.events ++ [.disconnected .user] := by
  let c' := (c.establish hasPeerAddress).evict
  have hclosed : c'.life = ⟨.closed, true, some .user⟩ := by
    show ((c.establish hasPeerAddress).finish .user).life = _
    unfold Connection.finish Connection.establish
    rw [hlife]
    rfl
  have hevents : c'.events = c.events ++ [.disconnected .user] := by
    show ((c.establish hasPeerAddress).finish .user).events = _
    unfold Connection.finish Connection.establish
    rw [hlife]
    rfl
  have hadopt : s.adopt i hasPeerAddress = (.error DispatchPool.stoppedError,
      (s.modify i (·.establish hasPeerAddress)).evict i) := by
    have htrack : (s.modify i (·.establish hasPeerAddress)).registry.track i =
        (false, s.registry) := Registry.track_of_isShutDown h i
    unfold adopt
    dsimp only
    rw [htrack]
  have hmodified := connections_modify
    (connections_modify hc (·.establish hasPeerAddress)) Connection.evict
  have hreap : (s.modify i (·.establish hasPeerAddress)).evict i =
      { (s.modify i (·.establish hasPeerAddress)).modify i Connection.evict with
        registry := s.registry.untrack i, pool := s.pool.finish i } := by
    unfold evict reap
    rw [hmodified]
    exact if_pos (congrArg Lifecycle.state hclosed)
  rw [hadopt, hreap]
  exact ⟨rfl, fun hmem => (Registry.mem_live_untrack.mp hmem).2 rfl, c', hmodified, hclosed,
    hevents⟩

end ConnectionSet

namespace Course

variable {c c' : Course}

theorem admission_of_isShutDown (h : c.registry.isShutDown = true) (i : Nat) :
    c.admission i = .turnedAway := by
  unfold admission
  rw [Registry.track_of_isShutDown h]
  rfl

theorem admission_of_not_isShutDown (h : c.registry.isShutDown = false) (i : Nat) :
    c.admission i = .served := by
  unfold admission
  rw [Registry.track_of_not_isShutDown h]
  rfl

/-- The connection after `track`, which listed it or not. -/
def shown (c : Course) (registry : Registry) (i : Nat) (before after : List Attempt) : Course :=
  { c with
    registry := (registry.track i).2
    attempts := before ++ Course.admission { c with registry } i :: after }

/-- The connection was tracked, and `finish` has not returned for it. -/
def IsListed (c : Course) : Prop := c.IsServed ∧ ¬ c.HasReturned

/-- The result of binding the connection: an error if it was turned away, which is closed then. -/
def IsAnswered (c : Course) (answer : Except RpcError Unit) : Prop :=
  c.IsServed ∧ answer = .ok () ∨
    c.IsTurnedAway ∧ c.HasReturned ∧ answer = .error DispatchPool.stoppedError

theorem IsAnswered.run {answer : Except RpcError Unit} (h : c.IsAnswered answer)
    (hstaged : c.IsStaged) (hrun : Relation.ReflTransGen Step c c') : c'.IsAnswered answer := by
  rcases h with ⟨hserved, hanswer⟩ | ⟨hturned, hreturned, hanswer⟩
  · exact .inl ⟨decided_of_run hrun rfl hserved, hanswer⟩
  · exact .inr ⟨decided_of_run hrun rfl hturned, hreturned.run hstaged hrun, hanswer⟩

end Course

/-- A set with its connections, and how far it was shut down. -/
structure Roster where
  registry : Registry := {}
  courses : List Course := []
  /-- The results of binding connections. -/
  answers : List (Nat × Except RpcError Unit) := []
  /-- The live connections at the first shutdown. -/
  snapshot : Option (List Nat) := none
  /-- Those of them that are still to be closed. -/
  toClose : List Nat := []
  closed : List Nat := []

namespace Roster

/-- `track`: the connection is listed or turned away. -/
def track (s : Roster) (i : Nat) (c : Course) (before after : List Attempt) : Roster :=
  { s with
    registry := (s.registry.track i).2
    courses := s.courses.set i (c.shown s.registry i before after) }

/-- `untrack` at the end of `finish`. -/
def untrack (s : Roster) (i : Nat) (c : Course) (before after : List Ending)
    (reason : DisconnectReason) : Roster :=
  { s with
    registry := s.registry.untrack i
    courses := s.courses.set i { c with endings := before ++ ⟨reason, .returned⟩ :: after } }

/-- `shutDown`: only the first finds connections to close. -/
def shutDown (s : Roster) : Roster :=
  match s.registry.shutDown with
  | (none, _) => s
  | (some live, registry) => { s with registry, snapshot := some live, toClose := live }

/-- The first shutdown closes a connection. -/
def close (s : Roster) (i : Nat) (c : Course) : Roster :=
  { s with
    courses := s.courses.set i c.close
    toClose := s.toClose.erase i
    closed := s.closed ++ [i] }

/-- One critical section of one thread: a connection is tracked or untracked, the set is shut down,
a connection of the snapshot is closed, or something happens that leaves the registry alone. -/
inductive Step (s : Roster) : Roster → Prop
  | create : Step s { s with courses := s.courses ++ [{}] }
  | apart {i : Nat} {c c' : Course} (hc : s.courses[i]? = some c) (h : c.Apart c') :
      Step s { s with courses := s.courses.set i c' }
  | track {i : Nat} {c : Course} {before after : List Attempt} (hc : s.courses[i]? = some c)
      (h : c.attempts = before ++ .established :: after) : Step s (s.track i c before after)
  | untrack {i : Nat} {c : Course} {before after : List Ending} {reason : DisconnectReason}
      (hc : s.courses[i]? = some c) (h : c.endings = before ++ ⟨reason, .told⟩ :: after) :
      Step s (s.untrack i c before after reason)
  | answer {i : Nat} {c : Course} {answer : Except RpcError Unit} (hc : s.courses[i]? = some c)
      (h : c.IsAnswered answer) (hnew : i ∉ s.answers.map Prod.fst) :
      Step s { s with answers := s.answers ++ [(i, answer)] }
  | shutDown : Step s s.shutDown
  | close {i : Nat} {c : Course} (hc : s.courses[i]? = some c) (h : i ∈ s.toClose) :
      Step s (s.close i c)

def Reachable (s : Roster) : Prop := Relation.ReflTransGen Step {} s

def Has (s : Roster) (i : Nat) (P : Course → Prop) : Prop := ∃ c, s.courses[i]? = some c ∧ P c

variable {s s' : Roster} {i : Nat} {c c' : Course}

theorem shutDown_of_isShutDown (h : s.registry.isShutDown = true) : s.shutDown = s := by
  unfold shutDown Registry.shutDown
  rw [if_pos h]

theorem shutDown_of_not_isShutDown (h : s.registry.isShutDown = false) :
    s.shutDown = { s with
      registry := { s.registry with isShutDown := true }
      snapshot := some s.registry.live
      toClose := s.registry.live } := by
  unfold shutDown Registry.shutDown
  rw [if_neg (by rw [h]; exact nofun)]

theorem shutDown_keeps (s : Roster) : s.shutDown.courses = s.courses ∧
    s.shutDown.answers = s.answers ∧ s.shutDown.closed = s.closed := by
  unfold shutDown
  rcases s.registry.shutDown with ⟨_ | live, registry⟩
  · exact ⟨rfl, rfl, rfl⟩
  · exact ⟨rfl, rfl, rfl⟩

/-! ### What is known of each connection -/

/-- The invariant of one connection. -/
structure Fits (isShutDown : Bool) (c : Course) : Prop where
  reachable : c.Reachable
  aware : c.registry.isShutDown = true → isShutDown = true
  turned : c.IsTurnedAway → isShutDown = true
  reason : c.IsServed ∨ c.life.reason = none ∨ c.life.reason = some .user

theorem Fits.mono {b b' : Bool} (h : Fits b c) (hb : b = true → b' = true) : Fits b' c :=
  ⟨h.reachable, hb ∘ h.aware, hb ∘ h.turned, h.reason⟩

theorem fits_new (b : Bool) : Fits b {} where
  reachable := .refl
  aware := nofun
  turned := fun h => (List.not_mem_nil h).elim
  reason := .inr (.inl rfl)

theorem Fits.apart {b : Bool} (h : Fits b c) (hapart : c.Apart c') : Fits b c' where
  reachable := h.reachable.tail hapart.step
  aware := fun hshut => h.aware (hapart.registry ▸ hshut)
  turned := fun hturned => h.turned (hapart.decided _ hturned rfl)
  reason := by
    have hkept (hserved : c.IsServed) : c'.IsServed := hapart.step.decided rfl hserved
    rcases hapart.reason with hserved | hsame | huser
    · exact .inl (hkept hserved)
    · rw [hsame]
      exact h.reason.imp_left hkept
    · exact .inr (.inr huser)

/-- `track` is two steps of the connection: it reads the registry, and is answered. -/
theorem Fits.run_shown (h : Fits s.registry.isShutDown c) {before after : List Attempt}
    (heq : c.attempts = before ++ .established :: after) (i : Nat) :
    Relation.ReflTransGen Course.Step c (c.shown s.registry i before after) := by
  have hset : c.Step { c with registry := s.registry } := .set h.aware
  have htrack : Course.Step { c with registry := s.registry }
      (c.shown s.registry i before after) :=
    @Course.Step.track { c with registry := s.registry } before after heq i
  exact (Relation.ReflTransGen.single hset).tail htrack

theorem Fits.shown (h : Fits s.registry.isShutDown c) {before after : List Attempt}
    (heq : c.attempts = before ++ .established :: after) (i : Nat) :
    Fits s.registry.isShutDown (c.shown s.registry i before after) where
  reachable := h.reachable.trans (h.run_shown heq i)
  aware := fun hshut => (s.registry.isShutDown_track i).symm.trans hshut
  turned := by
    intro hturned
    by_contra hopen
    obtain ⟨rfl, rfl, -⟩ := h.reachable.isStaged.attempt_eq heq
    unfold Course.IsTurnedAway Course.shown at hturned
    rw [Course.admission_of_not_isShutDown (Bool.eq_false_of_not_eq_true hopen)] at hturned
    cases List.mem_singleton.mp hturned
  reason := h.reason.imp_left fun hserved => Course.mem_of_replace heq rfl rfl hserved

theorem Fits.isListed_shown (h : Fits s.registry.isShutDown c) {before after : List Attempt}
    (heq : c.attempts = before ++ .established :: after) (i : Nat) :
    (c.shown s.registry i before after).IsListed ↔ s.registry.isShutDown = false := by
  have hnone := h.reachable.endsDecided.endings_eq_nil h.reachable.isStaged heq rfl
  obtain ⟨rfl, rfl, -⟩ := h.reachable.isStaged.attempt_eq heq
  unfold Course.IsListed Course.IsServed Course.shown
  cases hshut : s.registry.isShutDown with
  | true =>
    rw [Course.admission_of_isShutDown hshut]
    refine ⟨fun hlisted => ?_, nofun⟩
    cases List.mem_singleton.mp hlisted.1
  | false =>
    rw [Course.admission_of_not_isShutDown hshut]
    exact ⟨fun _ => rfl, fun _ => ⟨List.mem_singleton_self _, Course.not_hasReturned_of_nil hnone⟩⟩

theorem Fits.untrack {b : Bool} (h : Fits b c) {before after : List Ending}
    {reason : DisconnectReason} (heq : c.endings = before ++ ⟨reason, .told⟩ :: after) :
    Fits b { c with endings := before ++ ⟨reason, .returned⟩ :: after } :=
  ⟨h.reachable.tail (.returns heq), h.aware, h.turned, h.reason⟩

theorem Fits.close {b : Bool} (h : Fits b c) : Fits b c.close where
  reachable := h.reachable.tail .close
  aware := h.aware
  turned := h.turned
  reason := by
    refine h.reason.imp_right fun hreason => ?_
    rcases c.life.reason_close_cases with hsame | huser
    · exact hreason.imp (hsame.trans ·) (hsame.trans ·)
    · exact .inr huser

/-! ### What each step keeps -/

theorem Step.goes_on (hstep : s.Step s') (h : ∀ c ∈ s.courses, Fits s.registry.isShutDown c)
    (hc : s.courses[i]? = some c) :
    ∃ c', s'.courses[i]? = some c' ∧ Relation.ReflTransGen Course.Step c c' := by
  have hset {j : Nat} {x x' : Course} (hx : s.courses[j]? = some x)
      (hrun : Relation.ReflTransGen Course.Step x x') :
      ∃ c', (s.courses.set j x')[i]? = some c' ∧ Relation.ReflTransGen Course.Step c c' := by
    rw [getElem?_set_of_some hx]
    by_cases hj : j = i
    · subst hj
      obtain rfl : x = c := Option.some.inj (hx.symm.trans hc)
      exact ⟨x', if_pos rfl, hrun⟩
    · exact ⟨c, (if_neg hj).trans hc, .refl⟩
  cases hstep with
  | create =>
    obtain ⟨hi, -⟩ := List.getElem?_eq_some_iff.mp hc
    exact ⟨c, (List.getElem?_append_left hi).trans hc, .refl⟩
  | apart hx hapart => exact hset hx (.single hapart.step)
  | track hx heq => exact hset hx ((h _ (List.mem_of_getElem? hx)).run_shown heq _)
  | untrack hx heq => exact hset hx (.single (.returns heq))
  | answer hx hanswer hnew => exact ⟨c, hc, .refl⟩
  | shutDown => exact ⟨c, s.shutDown_keeps.1 ▸ hc, .refl⟩
  | close hx hmem => exact hset hx (.single .close)

theorem Has.get {P : Course → Prop} (h : s.Has i P) (hc : s.courses[i]? = some c) : P c := by
  obtain ⟨x, hx, hholds⟩ := h
  exact Option.some.inj (hx.symm.trans hc) ▸ hholds

theorem Has.step {P : Course → Prop} (h : s.Has i P) (hstep : s.Step s')
    (hfits : ∀ c ∈ s.courses, Fits s.registry.isShutDown c)
    (hP : ∀ {c c'}, Course.Reachable c → Relation.ReflTransGen Course.Step c c' → P c → P c') :
    s'.Has i P := by
  obtain ⟨c, hc, hholds⟩ := h
  obtain ⟨c', hc', hrun⟩ := hstep.goes_on hfits hc
  exact ⟨c', hc', hP (hfits c (List.mem_of_getElem? hc)).reachable hrun hholds⟩

theorem isShutDown_shutDown (s : Roster) : s.shutDown.registry.isShutDown = true := by
  cases hshut : s.registry.isShutDown with
  | true => rw [shutDown_of_isShutDown hshut, hshut]
  | false => rw [shutDown_of_not_isShutDown hshut]

theorem Step.registry (hstep : s.Step s') (h : s.registry.isShutDown = true) :
    s'.registry.isShutDown = true ∧ s'.registry.live.Sublist s.registry.live := by
  cases hstep with
  | @track i c before after hc heq =>
    show (s.registry.track i).2.isShutDown = true ∧ (s.registry.track i).2.live.Sublist _
    rw [Registry.track_of_isShutDown h]
    exact ⟨h, .refl _⟩
  | untrack hc heq => exact ⟨h, List.filter_sublist⟩
  | shutDown =>
    rw [shutDown_of_isShutDown h]
    exact ⟨h, .refl _⟩
  | create | apart | answer | close => exact ⟨h, .refl _⟩

theorem registry_run (hrun : Relation.ReflTransGen Step s s') (h : s.registry.isShutDown = true) :
    s'.registry.isShutDown = true ∧ s'.registry.live.Sublist s.registry.live := by
  induction hrun with
  | refl => exact ⟨h, .refl _⟩
  | tail _ hstep ih =>
    obtain ⟨hshut, hlive⟩ := hstep.registry ih.1
    exact ⟨hshut, hlive.trans ih.2⟩

/-! ### What holds at all times -/

/-- The registry lists the connections that `IsListed` holds of. -/
structure Inv (s : Roster) : Prop where
  fits : ∀ c ∈ s.courses, Fits s.registry.isShutDown c
  nodup : s.registry.live.Nodup
  listed : ∀ i, i ∈ s.registry.live ↔ s.Has i Course.IsListed
  fresh : s.registry.isShutDown = false → s.closed = [] ∧ s.toClose = []
  toClose : ∀ i ∈ s.toClose, s.Has i Course.IsServed
  closed : ∀ i ∈ s.closed, s.Has i fun c => c.life.state.isOver = true
  answers : ∀ i answer, (i, answer) ∈ s.answers → s.Has i (·.IsAnswered answer)

theorem Inv.course (h : s.Inv) (hc : s.courses[i]? = some c) : Fits s.registry.isShutDown c :=
  h.fits c (List.mem_of_getElem? hc)

theorem fits_set {b b' : Bool} (h : ∀ c ∈ s.courses, Fits b c) (hb : b = true → b' = true)
    (hc' : Fits b' c') : ∀ c ∈ s.courses.set i c', Fits b' c := by
  intro x hx
  rcases List.mem_or_eq_of_mem_set hx with hx | rfl
  · exact (h x hx).mono hb
  · exact hc'

theorem Step.fits (hstep : s.Step s') (h : ∀ c ∈ s.courses, Fits s.registry.isShutDown c) :
    ∀ c ∈ s'.courses, Fits s'.registry.isShutDown c := by
  cases hstep with
  | create =>
    intro c hc
    rcases List.mem_append.mp hc with hc | hc
    · exact h c hc
    · rw [List.mem_singleton.mp hc]
      exact fits_new _
  | apart hc hapart => exact fits_set h id ((h _ (List.mem_of_getElem? hc)).apart hapart)
  | @track i c before after hc heq =>
    show ∀ x ∈ s.courses.set i _, Fits (s.registry.track i).2.isShutDown x
    rw [Registry.isShutDown_track]
    exact fits_set h id ((h c (List.mem_of_getElem? hc)).shown heq i)
  | untrack hc heq => exact fits_set h id ((h _ (List.mem_of_getElem? hc)).untrack heq)
  | answer hc hanswer hnew => exact h
  | shutDown =>
    cases hshut : s.registry.isShutDown with
    | true =>
      rw [shutDown_of_isShutDown hshut]
      exact h
    | false =>
      rw [shutDown_of_not_isShutDown hshut]
      exact fun c hc => (h c hc).mono fun _ => rfl
  | close hc hmem => exact fits_set h id (h _ (List.mem_of_getElem? hc)).close

theorem Inv.listed_set (h : s.Inv) (hc : s.courses[i]? = some c)
    (hcourses : s'.courses = s.courses.set i c')
    (hothers : ∀ j, j ≠ i → (j ∈ s'.registry.live ↔ j ∈ s.registry.live))
    (hself : i ∈ s'.registry.live ↔ c'.IsListed) (j : Nat) :
    j ∈ s'.registry.live ↔ s'.Has j Course.IsListed := by
  unfold Has
  rw [hcourses, getElem?_set_of_some hc]
  by_cases hj : i = j
  · subst hj
    rw [if_pos rfl, hself]
    exact ⟨fun hlisted => ⟨c', rfl, hlisted⟩, fun ⟨x, hx, hlisted⟩ => Option.some.inj hx ▸ hlisted⟩
  · rw [if_neg hj, hothers j (Ne.symm hj)]
    exact h.listed j

theorem Inv.mem_live (h : s.Inv) (hc : s.courses[i]? = some c) :
    i ∈ s.registry.live ↔ c.IsListed := by
  rw [h.listed]
  exact ⟨fun hlisted => hlisted.get hc, fun hlisted => ⟨c, hc, hlisted⟩⟩

theorem isListed_apart (hstaged : c.IsStaged) (h : c.Apart c') : c'.IsListed ↔ c.IsListed := by
  have hserved : c'.IsServed ↔ c.IsServed :=
    ⟨fun hmem => h.decided _ hmem rfl, fun hmem => h.step.decided rfl hmem⟩
  have hreturned : c'.HasReturned ↔ c.HasReturned :=
    ⟨h.returned, fun hbefore => hbefore.step hstaged h.step⟩
  unfold Course.IsListed
  rw [hserved, hreturned]

theorem Inv.track (h : s.Inv) (hc : s.courses[i]? = some c) {before after : List Attempt}
    (heq : c.attempts = before ++ .established :: after) :
    (s.track i c before after).registry.live.Nodup ∧
      ∀ j, j ∈ (s.track i c before after).registry.live ↔
        (s.track i c before after).Has j Course.IsListed := by
  have hshown := (h.course hc).isListed_shown heq i
  have hnew : i ∉ s.registry.live := by
    intro hmem
    obtain ⟨rfl, rfl, -⟩ := (h.course hc).reachable.isStaged.attempt_eq heq
    have hserved := ((h.mem_live hc).mp hmem).1
    unfold Course.IsServed at hserved
    rw [heq] at hserved
    cases List.mem_singleton.mp hserved
  refine ⟨Registry.nodup_live_track h.nodup hnew, h.listed_set hc rfl ?_ ?_⟩
  · intro j hj
    exact Registry.mem_live_track.trans (or_iff_left fun hself => hj hself.2)
  · refine Registry.mem_live_track.trans ?_
    rw [hshown, or_iff_right hnew]
    exact and_iff_left rfl

theorem Inv.untrack (h : s.Inv) (hc : s.courses[i]? = some c) {before after : List Ending}
    {reason : DisconnectReason} :
    (s.untrack i c before after reason).registry.live.Nodup ∧
      ∀ j, j ∈ (s.untrack i c before after reason).registry.live ↔
        (s.untrack i c before after reason).Has j Course.IsListed := by
  refine ⟨h.nodup.filter _, h.listed_set hc rfl ?_ ?_⟩
  · intro j hj
    exact Registry.mem_live_untrack.trans (and_iff_left hj)
  · refine ⟨fun hmem => absurd rfl (Registry.mem_live_untrack.mp hmem).2, fun hlisted => ?_⟩
    exact absurd ⟨⟨reason, .returned⟩, List.mem_append_right _ List.mem_cons_self, rfl⟩ hlisted.2

theorem Inv.list_step (h : s.Inv) (hstep : s.Step s') : s'.registry.live.Nodup ∧
    ∀ j, j ∈ s'.registry.live ↔ s'.Has j Course.IsListed := by
  cases hstep with
  | create =>
    refine ⟨h.nodup, fun j => ?_⟩
    rw [h.listed]
    constructor
    · rintro ⟨c, hc, hlisted⟩
      obtain ⟨hj, -⟩ := List.getElem?_eq_some_iff.mp hc
      exact ⟨c, (List.getElem?_append_left hj).trans hc, hlisted⟩
    · rintro ⟨c, hc, hlisted⟩
      exact ⟨c, getElem?_of_append_new hc hlisted.1, hlisted⟩
  | apart hc hapart =>
    refine ⟨h.nodup, h.listed_set hc rfl (fun _ _ => Iff.rfl) ?_⟩
    exact (h.mem_live hc).trans
      (isListed_apart (h.course hc).reachable.isStaged hapart).symm
  | track hc heq => exact h.track hc heq
  | untrack hc heq => exact h.untrack hc
  | answer hc hanswer hnew => exact ⟨h.nodup, h.listed⟩
  | shutDown =>
    cases hshut : s.registry.isShutDown with
    | true =>
      rw [shutDown_of_isShutDown hshut]
      exact ⟨h.nodup, h.listed⟩
    | false =>
      rw [shutDown_of_not_isShutDown hshut]
      exact ⟨h.nodup, h.listed⟩
  | close hc hmem =>
    have hself := h.mem_live hc
    exact ⟨h.nodup, h.listed_set hc rfl (fun _ _ => Iff.rfl) hself⟩

theorem Inv.fresh_step (h : s.Inv) (hstep : s.Step s') (hopen : s'.registry.isShutDown = false) :
    s'.closed = [] ∧ s'.toClose = [] := by
  cases hstep with
  | track hc heq => exact h.fresh ((s.registry.isShutDown_track _).symm.trans hopen)
  | shutDown =>
    rw [isShutDown_shutDown] at hopen
    cases hopen
  | close hc hmem =>
    rw [(h.fresh hopen).2] at hmem
    cases hmem
  | create | apart | untrack | answer => exact h.fresh hopen

theorem Inv.toClose_step (h : s.Inv) (hstep : s.Step s') :
    ∀ i ∈ s'.toClose, s'.Has i Course.IsServed := by
  intro i hmem
  have hbefore : s.Has i Course.IsServed := by
    cases hstep with
    | shutDown =>
      cases hshut : s.registry.isShutDown with
      | true =>
        rw [shutDown_of_isShutDown hshut] at hmem
        exact h.toClose i hmem
      | false =>
        rw [shutDown_of_not_isShutDown hshut] at hmem
        obtain ⟨c, hc, hlisted⟩ := (h.listed i).mp hmem
        exact ⟨c, hc, hlisted.1⟩
    | close hc hmem' => exact h.toClose i (List.mem_of_mem_erase hmem)
    | create | apart | track | untrack | answer => exact h.toClose i hmem
  exact hbefore.step hstep h.fits fun _ hrun => Course.decided_of_run hrun rfl

theorem Inv.closed_step (h : s.Inv) (hstep : s.Step s') :
    ∀ i ∈ s'.closed, s'.Has i fun c => c.life.state.isOver = true := by
  intro i hmem
  have hkept (hbefore : i ∈ s.closed) : s'.Has i fun c => c.life.state.isOver = true :=
    (h.closed i hbefore).step hstep h.fits fun hreachable hrun =>
      (Course.leads_of_run hrun hreachable.isStaged).isOver
  cases hstep with
  | shutDown => exact hkept (s.shutDown_keeps.2.2 ▸ hmem)
  | @close j c hc hmem' =>
    rcases List.mem_append.mp hmem with hbefore | hnew
    · exact hkept hbefore
    · obtain rfl : i = j := List.mem_singleton.mp hnew
      have hserved := (h.toClose i hmem').get hc
      obtain ⟨hi, -⟩ := List.getElem?_eq_some_iff.mp hc
      exact ⟨c.close, List.getElem?_set_self hi,
        (h.course hc).reachable.isStaged.isOver_close hserved⟩
  | create | apart | track | untrack | answer => exact hkept hmem

theorem Inv.answers_step (h : s.Inv) (hstep : s.Step s') :
    ∀ i answer, (i, answer) ∈ s'.answers → s'.Has i (·.IsAnswered answer) := by
  intro i answer hmem
  have hbefore : s.Has i (·.IsAnswered answer) := by
    cases hstep with
    | shutDown => exact h.answers i answer (s.shutDown_keeps.2.1 ▸ hmem)
    | answer hc hanswer hnew =>
      rcases List.mem_append.mp hmem with hbefore | heq
      · exact h.answers i answer hbefore
      · cases List.mem_singleton.mp heq
        exact ⟨_, hc, hanswer⟩
    | create | apart | track | untrack | close => exact h.answers i answer hmem
  exact hbefore.step hstep h.fits fun hreachable hrun hanswer =>
    hanswer.run hreachable.isStaged hrun

theorem Inv.step (h : s.Inv) (hstep : s.Step s') : s'.Inv where
  fits := hstep.fits h.fits
  nodup := (h.list_step hstep).1
  listed := (h.list_step hstep).2
  fresh := h.fresh_step hstep
  toClose := h.toClose_step hstep
  closed := h.closed_step hstep
  answers := h.answers_step hstep

theorem Inv.run (h : s.Inv) (hrun : Relation.ReflTransGen Step s s') : s'.Inv := by
  induction hrun with
  | refl => exact h
  | tail _ hstep ih => exact ih.step hstep

theorem Reachable.inv (h : s.Reachable) : s.Inv := by
  have hnew : Inv {} := {
    fits := fun c hc => (List.not_mem_nil hc).elim
    nodup := List.nodup_nil
    listed := fun i => ⟨fun hmem => (List.not_mem_nil hmem).elim, fun ⟨c, hc, _⟩ => by cases hc⟩
    fresh := fun _ => ⟨rfl, rfl⟩
    toClose := fun i hmem => (List.not_mem_nil hmem).elim
    closed := fun i hmem => (List.not_mem_nil hmem).elim
    answers := fun i answer hmem => (List.not_mem_nil hmem).elim }
  exact hnew.run h

theorem Has.run {P : Course → Prop} (h : s.Has i P) (hinv : s.Inv)
    (hrun : Relation.ReflTransGen Step s s')
    (hP : ∀ {c c'}, Course.Reachable c → Relation.ReflTransGen Course.Step c c' → P c → P c') :
    s'.Has i P := by
  induction hrun with
  | refl => exact h
  | tail hrun hstep ih => exact ih.step hstep (hinv.run hrun).fits hP

/-! ### After the first shutdown -/

/-- What holds after the first shutdown, which happened in `s`. -/
structure Shuts (s s' : Roster) : Prop where
  snapshot : s'.snapshot = some s.registry.live
  perm : s.registry.live.Perm (s'.closed ++ s'.toClose)
  served : ∀ i, s'.Has i Course.IsServed → s.Has i Course.IsServed

theorem Step.served (hstep : s.Step s') (h : s.registry.isShutDown = true)
    (hserved : s'.Has i Course.IsServed) : s.Has i Course.IsServed := by
  have hset {j : Nat} {x x' : Course} (hx : s.courses[j]? = some x)
      (hback : x'.IsServed → x.IsServed)
      (hafter : ∃ c, (s.courses.set j x')[i]? = some c ∧ c.IsServed) :
      s.Has i Course.IsServed := by
    obtain ⟨c, hc, hserved⟩ := hafter
    rw [getElem?_set_of_some hx] at hc
    by_cases hj : j = i
    · rw [if_pos hj] at hc
      cases hc
      exact ⟨x, hj ▸ hx, hback hserved⟩
    · rw [if_neg hj] at hc
      exact ⟨c, hc, hserved⟩
  -- After the shutdown `track` refuses, so nothing new is taken in.
  cases hstep with
  | create =>
    obtain ⟨c, hc, hserved⟩ := hserved
    exact ⟨c, getElem?_of_append_new hc hserved, hserved⟩
  | apart hx hapart => exact hset hx (fun hmem => hapart.decided _ hmem rfl) hserved
  | @track j x before after hx heq =>
    refine hset hx (fun hmem => ?_) hserved
    unfold Course.IsServed Course.shown at hmem
    rw [Course.admission_of_isShutDown h] at hmem
    unfold Course.IsServed
    rw [heq]
    rcases List.mem_append.mp hmem with hmem | hmem
    · exact List.mem_append_left _ hmem
    · rcases List.mem_cons.mp hmem with hturned | hmem
      · cases hturned
      · exact List.mem_append_right _ (List.mem_cons_of_mem _ hmem)
  | untrack hx heq =>
    refine hset hx ?_ hserved
    exact id
  | answer hx hanswer hnew => exact hserved
  | shutDown =>
    rw [shutDown_of_isShutDown h] at hserved
    exact hserved
  | close hx hmem =>
    refine hset hx ?_ hserved
    exact id

theorem Shuts.step {s₀ : Roster} (h : Shuts s₀ s) (hstep : s.Step s')
    (hshut : s.registry.isShutDown = true) : Shuts s₀ s' := by
  have hserved (i : Nat) (hafter : s'.Has i Course.IsServed) : s₀.Has i Course.IsServed :=
    h.served i (hstep.served hshut hafter)
  cases hstep with
  | shutDown =>
    rw [shutDown_of_isShutDown hshut]
    exact h
  | close hc hmem =>
    refine ⟨h.snapshot, h.perm.trans ?_, hserved⟩
    show (s.closed ++ s.toClose).Perm (s.closed ++ [_] ++ s.toClose.erase _)
    rw [List.append_assoc]
    exact (List.perm_cons_erase hmem).append_left s.closed
  | create | apart | track | untrack | answer => exact ⟨h.snapshot, h.perm, hserved⟩

theorem Inv.shuts (h : s.Inv) (hopen : s.registry.isShutDown = false)
    (hrun : Relation.ReflTransGen Step s.shutDown s') : Shuts s s' := by
  induction hrun with
  | refl =>
    rw [shutDown_of_not_isShutDown hopen]
    refine ⟨rfl, ?_, fun _ hserved => hserved⟩
    rw [(h.fresh hopen).1]
    exact List.Perm.refl _
  | tail hrun hstep ih =>
    exact ih.step hstep (registry_run hrun s.isShutDown_shutDown).1

/-! ### Connections that are turned away -/

theorem run_apart (hc : s.courses[i]? = some c) (hrun : Relation.ReflTransGen Course.Apart c c') :
    Relation.ReflTransGen Step s { s with courses := s.courses.set i c' } := by
  obtain ⟨hi, hget⟩ := List.getElem?_eq_some_iff.mp hc
  induction hrun with
  | refl => rw [← hget, List.set_getElem_self]
  | @tail x x' _ hapart ih =>
    have hstep : Step { s with courses := s.courses.set i x } { s with
        courses := (s.courses.set i x).set i x' } := .apart (List.getElem?_set_self hi) hapart
    rw [List.set_set] at hstep
    exact ih.tail hstep

theorem Inv.exists_run_answer (h : s.Inv) (hc : s.courses[i]? = some c)
    (hturned : c.IsTurnedAway) (hreturned : c.HasReturned) :
    ∃ s', Relation.ReflTransGen Step s s' ∧
      (i, .error DispatchPool.stoppedError) ∈ s'.answers := by
  by_cases hanswered : i ∈ s.answers.map Prod.fst
  · obtain ⟨⟨j, answer⟩, hmem, rfl⟩ := List.mem_map.mp hanswered
    have hnot := (h.course hc).reachable.isStaged.not_isServed hturned
    rcases (h.answers j answer hmem).get hc with ⟨hserved, -⟩ | ⟨-, -, rfl⟩
    · exact absurd hserved hnot
    · exact ⟨s, .refl, hmem⟩
  · exact ⟨_, .single (.answer hc (.inr ⟨hturned, hreturned, rfl⟩) hanswered),
      List.mem_append_right _ (List.mem_singleton_self _)⟩

/-- Whoever was turned away can run `finish` to its end and return the error. -/
theorem Inv.exists_run_refuse (h : s.Inv) (hc : s.courses[i]? = some c)
    (hturned : c.IsTurnedAway) :
    ∃ s', Relation.ReflTransGen Step s s' ∧
      (i, .error DispatchPool.stoppedError) ∈ s'.answers := by
  by_cases hreturned : c.HasReturned
  · exact h.exists_run_answer hc hturned hreturned
  · have hreachable := (h.course hc).reachable
    obtain ⟨c', reason, hrun, htold⟩ := Course.exists_run_told hreachable hturned hreturned
    obtain ⟨hi, -⟩ := List.getElem?_eq_some_iff.mp hc
    let s₁ : Roster := { s with courses := s.courses.set i c' }
    have hc₁ : s₁.courses[i]? = some c' := List.getElem?_set_self hi
    have hstep : s₁.Step (s₁.untrack i c' [] [] reason) := .untrack hc₁ htold
    have hturned' : c'.IsTurnedAway :=
      Course.decided_of_run
        (Relation.ReflTransGen.mono (fun _ _ hapart => hapart.step) _ _ hrun) rfl hturned
    have hended := (run_apart hc hrun).tail hstep
    obtain ⟨s', hanswer, hmem⟩ := (h.run hended).exists_run_answer
      (List.getElem?_set_self (List.getElem?_eq_some_iff.mp hc₁).1) hturned'
      ⟨⟨reason, .returned⟩, List.mem_singleton_self _, rfl⟩
    exact ⟨s', hended.trans hanswer, hmem⟩

theorem Fits.of_turnedAway {b : Bool} (h : Fits b c) (hturned : c.IsTurnedAway) :
    (c.life.reason = none ∨ c.life.reason = some .user) ∧
      (c.notified = [] ∨ c.notified = [.user]) := by
  have hreason := h.reason.resolve_left (h.reachable.isStaged.not_isServed hturned)
  refine ⟨hreason, ?_⟩
  by_cases hnone : c.notified = []
  · exact .inl hnone
  · obtain ⟨-, e, -, -, hnotified, hsome⟩ := Stage.of_notified h.reachable.isStaged hnone
    refine .inr ?_
    rw [hsome] at hreason
    rcases hreason with hreason | hreason
    · cases hreason
    · rw [hnotified, Option.some.inj hreason]

theorem Fits.of_hasReturned {b : Bool} (h : Fits b c) (hturned : c.IsTurnedAway)
    (hreturned : c.HasReturned) :
    c.life.state = .closed ∧ c.life.reason = some .user ∧ c.notified = [.user] := by
  obtain ⟨hclosed, reason, hreason, hnotified⟩ :=
    h.reachable.isStaged.of_hasReturned hreturned
  obtain ⟨hcases, -⟩ := h.of_turnedAway hturned
  rw [hreason] at hcases
  rcases hcases with hcases | hcases
  · cases hcases
  · obtain rfl := Option.some.inj hcases
    exact ⟨hclosed, hreason, hnotified⟩

/-! ### Every connection is closed or turned away -/

/-- The guarantees of the registry, from now on. -/
structure KeepsTrack (s : Roster) : Prop where
  /-- The connections that were tracked and whose `finish` has not returned are listed once. -/
  listed : s.registry.live.Nodup ∧ ∀ i, i ∈ s.registry.live ↔ s.Has i Course.IsListed
  /-- None is listed once its `finish` has returned. -/
  ended : ∀ i, s.Has i Course.HasReturned → ∀ s', Relation.ReflTransGen Step s s' →
    i ∉ s'.registry.live
  /-- The first shutdown is to close all that are listed, and all others that were ever tracked have
  ended. -/
  first : s.registry.isShutDown = false → ∀ s', Relation.ReflTransGen Step s.shutDown s' →
    s'.snapshot = some s.registry.live ∧ s.registry.live.Perm (s'.closed ++ s'.toClose) ∧
      ∀ i, s'.Has i Course.IsServed →
        i ∈ s.registry.live ∨ s.Has i fun c => c.IsServed ∧ c.HasReturned
  /-- What is to be closed can be closed next, -/
  closes : ∀ i ∈ s.toClose, ∃ s', s.Step s' ∧ s'.closed = s.closed ++ [i]
  /-- and is closing or closed then. -/
  closed : ∀ i ∈ s.closed, s.Has i fun c => c.life.state.isOver = true
  /-- From the first shutdown on nothing is listed any more, and no other has an effect. -/
  shut : s.registry.isShutDown = true → ∀ s', Relation.ReflTransGen Step s s' →
    s'.shutDown = s' ∧ s'.registry.live.Sublist s.registry.live ∧
      ∀ i, s'.registry.track i = (false, s'.registry)
  /-- A connection is turned away only then; it is never listed, and its reason is `user`. -/
  turnedAway : ∀ i c, s.courses[i]? = some c → c.IsTurnedAway → s.registry.isShutDown = true ∧
    (∀ s', Relation.ReflTransGen Step s s' → i ∉ s'.registry.live) ∧
    (c.life.reason = none ∨ c.life.reason = some .user) ∧
    (c.notified = [] ∨ c.notified = [.user])
  /-- Binding a connection returns whether it was tracked; if not, only when the connection is
  closed and the application was notified once, -/
  answered : ∀ i answer, (i, answer) ∈ s.answers → s.Has i fun c =>
    c.IsServed ∧ answer = .ok () ∨
      c.IsTurnedAway ∧ answer = .error (.invalidArgument "connection set is shut down") ∧
        c.life.state = .closed ∧ c.life.reason = some .user ∧ c.notified = [.user]
  /-- and it can always return. -/
  returns : ∀ i, s.Has i Course.IsTurnedAway → ∃ s', Relation.ReflTransGen Step s s' ∧
    (i, .error (.invalidArgument "connection set is shut down")) ∈ s'.answers

theorem Inv.not_mem_live (h : s.Inv) (hturned : s.Has i Course.IsTurnedAway) :
    i ∉ s.registry.live := by
  obtain ⟨c, hc, hturned⟩ := hturned
  rw [h.mem_live hc]
  exact fun hlisted => (h.course hc).reachable.isStaged.not_isServed
    hturned hlisted.1

/-- **Every connection is closed or turned away.**  In every interleaving of connections that are
tracked and end, and of shutdowns, the registry is exact, the first shutdown closes all that are
listed, and a connection that comes later is turned away, with an error once it has ended. -/
theorem keeps_track (h : s.Reachable) : s.KeepsTrack where
  listed := ⟨h.inv.nodup, h.inv.listed⟩
  ended := by
    intro i hreturned s' hrun hmem
    obtain ⟨c, hc, hreturned'⟩ := hreturned.run h.inv hrun fun hreachable hcourse hbefore =>
      hbefore.run hreachable.isStaged hcourse
    exact (((h.inv.run hrun).mem_live hc).mp hmem).2 hreturned'
  first := by
    intro hopen s' hrun
    have hshuts := h.inv.shuts hopen hrun
    refine ⟨hshuts.snapshot, hshuts.perm, fun i hserved => ?_⟩
    obtain ⟨c, hc, hserved⟩ := hshuts.served i hserved
    -- A connection that was served is still listed, unless its end has returned.
    by_cases hreturned : c.HasReturned
    · exact .inr ⟨c, hc, hserved, hreturned⟩
    · exact .inl ((h.inv.mem_live hc).mpr ⟨hserved, hreturned⟩)
  closes := by
    intro i hmem
    obtain ⟨c, hc, -⟩ := h.inv.toClose i hmem
    exact ⟨_, .close hc hmem, rfl⟩
  closed := h.inv.closed
  shut := by
    intro hshut s' hrun
    obtain ⟨hshut', hlive⟩ := registry_run hrun hshut
    exact ⟨shutDown_of_isShutDown hshut', hlive, Registry.track_of_isShutDown hshut'⟩
  turnedAway := by
    intro i c hc hturned
    have hfits := h.inv.course hc
    refine ⟨hfits.turned hturned, fun s' hrun => ?_, hfits.of_turnedAway hturned⟩
    have hlater : s'.Has i Course.IsTurnedAway :=
      Has.run ⟨c, hc, hturned⟩ h.inv hrun fun _ hcourse => Course.decided_of_run hcourse rfl
    exact (h.inv.run hrun).not_mem_live hlater
  answered := by
    intro i answer hmem
    obtain ⟨c, hc, hserved | ⟨hturned, hreturned, hanswer⟩⟩ := h.inv.answers i answer hmem
    · exact ⟨c, hc, .inl hserved⟩
    · have hfits := h.inv.course hc
      exact ⟨c, hc, .inr ⟨hturned, hanswer, hfits.of_hasReturned hturned hreturned⟩⟩
  returns := fun _ ⟨_, hc, hturned⟩ => h.inv.exists_run_refuse hc hturned

/-- One connection is listed and closed by the shutdown, the next one is turned away. -/
theorem keeps_track_late :
    ∃ s : Roster, s.Reachable ∧ s.registry = ⟨[0], true⟩ ∧ s.snapshot = some [0] ∧
      s.closed = [0] ∧ s.courses.map (fun c => c.life.state) = [.closing, .closed] ∧
      s.courses.map (fun c => c.notified) = [[], [.user]] ∧
      s.answers = [(1, .error (.invalidArgument "connection set is shut down"))] ∧
      s.KeepsTrack := by
  let opening : Course := { life := ⟨.connecting, true, none⟩, attempts := [.opening] }
  let established : Course := { life := ⟨.connected, true, none⟩, attempts := [.established] }
  have hlast (s : Roster) (c c' : Course) (hapart : c.Apart c') :
      Step { s with courses := s.courses ++ [c] } { s with courses := s.courses ++ [c'] } := by
    have hset : (s.courses ++ [c]).set s.courses.length c' = s.courses ++ [c'] := by simp
    have hstep : Step { s with courses := s.courses ++ [c] } { s with
        courses := (s.courses ++ [c]).set s.courses.length c' } :=
      .apart List.getElem?_concat_length hapart
    rwa [hset] at hstep
  have hconnect (s : Roster) :
      Relation.ReflTransGen Step s { s with courses := s.courses ++ [established] } := by
    have hcreate : Step s { s with courses := s.courses ++ [{}] } := .create
    have hnone {c : Course} (hc : c.endings = []) : c.HasReturned → ({} : Course).HasReturned :=
      fun h => absurd h (Course.not_hasReturned_of_nil hc)
    have hopen : Course.Apart {} opening :=
      ⟨.attempt, rfl, by decide, hnone rfl, .inr (.inl rfl)⟩
    have hestablish : opening.Apart established :=
      ⟨@Course.Step.establish opening [] [] rfl, rfl, by decide, hnone rfl, .inr (.inl rfl)⟩
    exact ((Relation.ReflTransGen.single hcreate).tail (hlast s {} opening hopen)).tail
      (hlast s opening established hestablish)
  let v₁ : Roster := { courses := [established] }
  let v₂ : Roster := v₁.track 0 established [] []
  let v₃ : Roster := v₂.shutDown
  let v₄ : Roster := v₃.close 0 (established.shown v₁.registry 0 [] [])
  have h₁ : v₁.Reachable := hconnect {}
  have h₂ : Step v₁ v₂ := @Step.track v₁ 0 established [] [] rfl rfl
  have h₃ : Step v₂ v₃ := .shutDown
  have h₄ : Step v₃ v₄ := .close rfl List.mem_cons_self
  have hclosed : v₄.Reachable := ((h₁.tail h₂).tail h₃).tail h₄
  -- The second connection has its socket when the set is shut down already.
  let v₅ : Roster := { v₄ with courses := v₄.courses ++ [established] }
  let v₆ : Roster := v₅.track 1 established [] []
  have h₆ : v₆.Reachable :=
    (hclosed.trans (hconnect v₄)).tail (@Step.track v₅ 1 established [] [] rfl rfl)
  let late : Course := established.shown v₅.registry 1 [] []
  let ending : Course := late.finish .user
  let draining : Course := { ending with
    race := ending.race.take .drain, endings := [⟨.user, .draining 0⟩] }
  let told : Course := { draining with notified := [.user], endings := [⟨.user, .told⟩] }
  have hfinish : late.Apart ending := Course.apart_of_endings
    (.finish (List.mem_singleton_self _) (.inr ⟨rfl, rfl⟩)) rfl nofun rfl rfl (.inr rfl)
  have hdrain : ending.Apart draining :=
    Course.apart_of_endings (@Course.Step.drain ending [] [] .user rfl) rfl nofun rfl rfl (.inl rfl)
  have hnotify : draining.Apart told := Course.apart_of_endings
    (@Course.Step.notify draining [] [] .user 0 _ rfl rfl rfl) rfl nofun rfl rfl (.inl rfl)
  let v₇ : Roster := { v₆ with courses := v₆.courses.set 1 told }
  have h₇ : Relation.ReflTransGen Step v₆ v₇ :=
    run_apart rfl (((Relation.ReflTransGen.single hfinish).tail hdrain).tail hnotify)
  have h₈ : Step v₇ (v₇.untrack 1 told [] [] .user) := .untrack rfl rfl
  have hrefused : Course.IsAnswered { told with endings := [⟨.user, .returned⟩] }
      (.error DispatchPool.stoppedError) :=
    .inr ⟨List.mem_singleton_self _, ⟨⟨.user, .returned⟩, List.mem_singleton_self _, rfl⟩, rfl⟩
  have h₉ := @Step.answer (v₇.untrack 1 told [] [] .user) 1 _ _ rfl hrefused nofun
  have hanswered : Reachable _ := ((h₆.trans h₇).tail h₈).tail h₉
  exact ⟨_, hanswered, rfl, rfl, rfl, rfl, rfl, rfl, keeps_track hanswered⟩

end Roster

end CallWire
