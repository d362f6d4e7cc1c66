import CallWire.Proofs.Pending.Places
import Mathlib.Algebra.BigOperators.Group.List.Basic
import Mathlib.Algebra.GroupWithZero.Nat

/-!
# CallWire.Proofs.Pending.Outcomes — every call has one outcome

Because a call is in one place, whoever took it out of the table is the only one to complete it,
and its outcome is the one that was left by them: what a cancellation answers, what the end of the
connection counts, and what the waiter gets, are read off from that.
-/

namespace CallWire

theorem Connection.replyOutcome_ne (error : RpcError)
    (hmalformed : ∀ text, error ≠ .malformedFrame text)
    (hremote : ∀ status, error ≠ .remote status) (e : Entry) (reply : Frame) :
    (replyOutcome e reply).1 ≠ .error error := by
  intro heq
  unfold replyOutcome at heq
  by_cases hcommand : e.command ≠ reply.header.command
  · rw [if_pos hcommand] at heq
    cases heq
    exact hmalformed _ rfl
  · rw [if_neg hcommand] at heq
    by_cases hkind : reply.header.kind = .errorReply
    · rw [if_pos hkind] at heq
      unfold Frame.statusCode at heq
      by_cases hlength : reply.payload.length = 4
      · rw [if_pos hlength] at heq
        cases heq
        exact hremote _ rfl
      · rw [if_neg hlength] at heq
        cases heq
        exact hmalformed _ rfl
    · rw [if_neg hkind] at heq
      cases heq

namespace Deed

variable {e : Entry} {d : Deed}

theorem outcome_eq_cancelled_iff :
    d.outcome e = .error .cancelled ↔ ∃ n, d = .cancel n := by
  cases d with
  | deliver reply =>
    refine ⟨fun h => absurd h (Connection.replyOutcome_ne .cancelled nofun nofun e reply), ?_⟩
    rintro ⟨n, heq⟩
    cases heq
  | cancel n => exact ⟨fun _ => ⟨n, rfl⟩, fun _ => rfl⟩
  | drain => exact ⟨nofun, nofun⟩

theorem outcome_eq_disconnected_iff :
    d.outcome e = .error .disconnected ↔ d.number? = none := by
  cases d with
  | deliver reply =>
    exact ⟨fun h => absurd h (Connection.replyOutcome_ne .disconnected nofun nofun e reply), nofun⟩
  | cancel n => exact ⟨nofun, nofun⟩
  | drain => exact ⟨fun _ => rfl, fun _ => rfl⟩

theorem outcome_ne_timeout (d : Deed) (e : Entry) (milliseconds : Nat) :
    d.outcome e ≠ .error (.timeout milliseconds) := by
  cases d with
  | deliver reply => exact Connection.replyOutcome_ne (.timeout milliseconds) nofun nofun e reply
  | cancel n => exact nofun
  | drain => exact nofun

end Deed

namespace Party

/-- What a cancellation returns: whether it completed a call before anyone else. -/
def succeeded (p : Party) : Bool := p.completed.any Prod.snd

/-- The party completed this slot with this outcome, before anyone else did. -/
def Resolves (p : Party) (i : Nat) (outcome : Outcome) : Prop :=
  ∃ e, (e, true) ∈ p.completed ∧ e.slot = i ∧ p.deed.outcome e = outcome

end Party

namespace Race

variable {r : Race}

/-- The number of calls that were completed with `disconnected`. -/
def disconnected (r : Race) : Nat :=
  (List.range r.calls.slots.length).countP fun i => r.outcome? i = some (.error .disconnected)

/-- Every call is completed at most once, by the party that removed it from the table. -/
structure ResolvesOnce (r : Race) : Prop where
  /-- Every call has a slot of its own. -/
  slots : (r.registered.map Entry.slot).Nodup
  /-- No call is removed twice, be it by one party or by two. -/
  once : (r.parties.flatMap fun p => p.taken.map Entry.slot).Nodup
  /-- What is removed are registered calls, with their slots. -/
  own : ∀ p ∈ r.parties, p.taken ⊆ r.registered
  /-- The slot of a call that is held waits until its holder completes it, which can be the next
  step. -/
  held : ∀ p ∈ r.parties, ∀ e ∈ p.held, r.outcome? e.slot = none ∧
    ∃ r', r.Step r' ∧ r'.outcome? e.slot = some (p.deed.outcome e)
  /-- Whoever completed a call was the first to, and with its outcome. -/
  completed : ∀ p ∈ r.parties, ∀ c ∈ p.completed,
    c.2 = true ∧ r.outcome? c.1.slot = some (p.deed.outcome c.1)
  /-- Every outcome is that of a party that removed the call. -/
  resolved : ∀ i o, r.outcome? i = some o → ∃ p ∈ r.parties, p.Resolves i o
  /-- A cancellation returns whether it completed the call. -/
  cancelled : ∀ p ∈ r.parties, ∀ n, p.deed = .cancel n → p.held = [] →
    (p.succeeded ↔ ∃ e ∈ p.taken, e.sequence = n ∧ r.outcome? e.slot = some (.error .cancelled))
  /-- A call that ended as cancelled was completed by a cancellation that returned true. -/
  cancels : ∀ i, r.outcome? i = some (.error .cancelled) → ∃ p ∈ r.parties, ∃ n,
    p.deed = .cancel n ∧ p.held = [] ∧ p.succeeded ∧ ∃ e ∈ p.taken, e.slot = i ∧ e.sequence = n
  /-- The drains count the calls that ended as disconnected. -/
  drained : ((r.parties.filter fun p => p.deed.number? = none).map Party.count).sum = r.disconnected
  /-- What a wait returned is the outcome of the party that removed the call. -/
  got : ∀ i o, (i, o) ∈ r.got → ∃ p ∈ r.parties, p.Resolves i o

theorem Inv.resolved (h : r.Inv) {i : Nat} {o : Outcome} (hi : r.outcome? i = some o) :
    ∃ p ∈ r.parties, p.Resolves i o := by
  have hnot : r.calls.slot i ≠ .waiting := by
    intro hwaiting
    unfold outcome? at hi
    rw [hwaiting] at hi
    cases hi
  have hlt : i < r.calls.slots.length := by
    by_contra hle
    exact hnot (Calls.slot_of_length_le (Nat.le_of_not_lt hle))
  have hmem : i ∈ r.registered.map Entry.slot := by
    rw [h.slots]
    exact List.mem_range.mpr hlt
  obtain ⟨e, he, rfl⟩ := List.mem_map.mp hmem
  have hdone : e ∈ r.done := by
    have hplace := h.perm.mem_iff.mp he
    have hwaiting := h.waiting e
    simp only [List.mem_append] at hplace hwaiting
    tauto
  obtain ⟨p, hp, hpdone⟩ := List.mem_flatMap.mp hdone
  obtain ⟨c, hc, rfl⟩ := List.mem_map.mp hpdone
  obtain ⟨hfirst, houtcome⟩ := h.settled p hp c hc
  rw [hi] at houtcome
  refine ⟨p, hp, c.1, ?_, rfl, (Option.some.inj houtcome).symm⟩
  rw [← hfirst]
  exact hc

theorem Inv.own (h : r.Inv) {p : Party} (hp : p ∈ r.parties) : p.taken ⊆ r.registered := by
  intro e he
  refine h.perm.mem_iff.mpr ?_
  simp only [List.mem_append]
  rcases List.mem_append.mp he with he | he
  · exact .inr (.inl (List.mem_flatMap.mpr ⟨p, hp, he⟩))
  · exact .inr (.inr (.inl (List.mem_flatMap.mpr ⟨p, hp, he⟩)))

theorem Inv.once (h : r.Inv) : (r.parties.flatMap fun p => p.taken.map Entry.slot).Nodup := by
  have htaken : (r.held ++ r.done).Perm (r.parties.flatMap Party.taken) :=
    List.flatMap_append_perm _ _ _
  have hslots := h.slots_nodup
  rw [← List.append_assoc r.held, List.map_append, List.nodup_append, List.map_append,
    List.nodup_append] at hslots
  rw [← List.map_flatMap]
  exact ((htaken.map Entry.slot).nodup_iff).mp hslots.2.1.1

theorem Inv.outcome?_held (h : r.Inv) {p : Party} (hp : p ∈ r.parties) {e : Entry}
    (he : e ∈ p.held) : r.outcome? e.slot = none := by
  unfold outcome?
  rw [(h.slot_of_held (List.mem_flatMap.mpr ⟨p, hp, he⟩)).2]

theorem Inv.outcome?_taken (h : r.Inv) {p : Party} (hp : p ∈ r.parties) (hheld : p.held = [])
    {e : Entry} (he : e ∈ p.taken) :
    (e, true) ∈ p.completed ∧ r.outcome? e.slot = some (p.deed.outcome e) := by
  have hdone : e ∈ p.done := by
    unfold Party.taken at he
    rwa [hheld] at he
  obtain ⟨c, hc, rfl⟩ := List.mem_map.mp hdone
  obtain ⟨hfirst, houtcome⟩ := h.settled p hp c hc
  exact ⟨hfirst ▸ hc, houtcome⟩

theorem Inv.cancelled (h : r.Inv) {p : Party} (hp : p ∈ r.parties) {n : UInt32}
    (hdeed : p.deed = .cancel n) (hheld : p.held = []) : p.succeeded ↔
      ∃ e ∈ p.taken, e.sequence = n ∧ r.outcome? e.slot = some (.error .cancelled) := by
  have hnumber : p.deed.number? = some n := by rw [hdeed]; rfl
  unfold Party.succeeded
  rw [List.any_eq_true]
  refine ⟨?_, ?_⟩
  · rintro ⟨c, hc, -⟩
    have htaken : c.1 ∈ p.taken := List.mem_append_right _ (List.mem_map_of_mem hc)
    refine ⟨c.1, htaken, (h.single p hp n hnumber).2 c.1 htaken, ?_⟩
    rw [(h.settled p hp c hc).2, hdeed]
    rfl
  · rintro ⟨e, he, -⟩
    exact ⟨(e, true), (h.outcome?_taken hp hheld he).1, rfl⟩

theorem Inv.cancels (h : r.Inv) {i : Nat} (hi : r.outcome? i = some (.error .cancelled)) :
    ∃ p ∈ r.parties, ∃ n, p.deed = .cancel n ∧ p.held = [] ∧ p.succeeded ∧
      ∃ e ∈ p.taken, e.slot = i ∧ e.sequence = n := by
  obtain ⟨p, hp, e, he, hslot, houtcome⟩ := h.resolved hi
  obtain ⟨n, hdeed⟩ := Deed.outcome_eq_cancelled_iff.mp houtcome
  have hnumber : p.deed.number? = some n := by rw [hdeed]; rfl
  obtain ⟨hlength, hsequence⟩ := h.single p hp n hnumber
  have hdone : e ∈ p.done := List.mem_map_of_mem he
  have htaken : e ∈ p.taken := List.mem_append_right _ hdone
  -- It was the only call that was taken out, so none is left in hand.
  have hheld : p.held = [] := by
    have hpos := List.length_pos_of_mem hdone
    unfold Party.taken at hlength
    rw [List.length_append] at hlength
    exact List.eq_nil_of_length_eq_zero (by omega)
  have hsucceeded : p.succeeded := List.any_eq_true.mpr ⟨_, he, rfl⟩
  exact ⟨p, hp, n, hdeed, hheld, hsucceeded, e, htaken, hslot, hsequence e htaken⟩

theorem Inv.countP_done (h : r.Inv) {p : Party} (hp : p ∈ r.parties) :
    (p.done.countP fun e => r.outcome? e.slot = some (.error .disconnected)) =
      if p.deed.number? = none then p.count else 0 := by
  unfold Party.done Party.count
  rw [List.countP_map]
  by_cases hdeed : p.deed.number? = none
  · rw [if_pos hdeed]
    refine List.countP_congr fun c hc => ?_
    obtain ⟨hfirst, houtcome⟩ := h.settled p hp c hc
    have hlost := Deed.outcome_eq_disconnected_iff (e := c.1).mpr hdeed
    simp [houtcome, hlost, hfirst]
  · rw [if_neg hdeed, List.countP_eq_zero]
    intro c hc
    obtain ⟨-, houtcome⟩ := h.settled p hp c hc
    have hkept : p.deed.outcome c.1 ≠ .error .disconnected := fun heq =>
      hdeed (Deed.outcome_eq_disconnected_iff.mp heq)
    simp [houtcome, hkept]

theorem Inv.drained (h : r.Inv) :
    ((r.parties.filter fun p => p.deed.number? = none).map Party.count).sum = r.disconnected := by
  have hcalls : r.disconnected =
      r.registered.countP fun e => r.outcome? e.slot = some (.error .disconnected) := by
    unfold disconnected
    rw [← h.slots, List.countP_map]
    rfl
  have hnone : ∀ es, es ⊆ r.calls.table.entries ++ (r.held ++ r.forgotten) →
      (es.countP fun e => r.outcome? e.slot = some (.error .disconnected)) = 0 := by
    intro es hsub
    rw [List.countP_eq_zero]
    intro e he
    unfold outcome?
    simp [h.waiting e (hsub he)]
  have hdone : (r.done.countP fun e => r.outcome? e.slot = some (.error .disconnected)) =
      (r.parties.map fun p => if p.deed.number? = none then p.count else 0).sum := by
    unfold done
    rw [List.countP_flatMap]
    exact congrArg List.sum (List.map_congr_left fun p hp => h.countP_done hp)
  rw [hcalls, h.perm.countP_eq]
  simp only [List.countP_append]
  rw [hnone r.calls.table.entries (by simp), hnone r.held (by simp), hnone r.forgotten (by simp),
    hdone, List.sum_map_ite]
  simp

/-- **Every call is resolved at most once and by exactly one party**, in every interleaving of
registrations, replies, cancellations, drains and waits. -/
theorem resolves_once (h : r.Reachable) : r.ResolvesOnce where
  slots := by rw [h.inv.slots]; exact List.nodup_range
  once := h.inv.once
  own := fun _ hp => h.inv.own hp
  held := by
    intro p hp e he
    obtain ⟨before, after, heq⟩ := List.append_of_mem hp
    exact ⟨h.inv.outcome?_held hp he, _, .complete heq he, h.inv.outcome?_complete heq he⟩
  completed := h.inv.settled
  resolved := fun _ _ hi => h.inv.resolved hi
  cancelled := fun _ hp _ hdeed hheld => h.inv.cancelled hp hdeed hheld
  cancels := fun _ hi => h.inv.cancels hi
  drained := h.inv.drained
  got := fun i o hmem => h.inv.resolved (h.inv.got i o hmem)

/-- The table is drained between the two critical sections of a cancellation. -/
theorem resolves_once_interleaved :
    ∃ r : Race, r.Reachable ∧ r.got = [(0, .error .cancelled)] ∧
      r.outcome? 1 = some (.error .disconnected) ∧ r.ResolvesOnce := by
  let first : Entry := ⟨1, 3, 0⟩
  let second : Entry := ⟨2, 4, 1⟩
  let r₁ : Race := {
    calls := { table := { next := 2, entries := [first] }, slots := [.waiting] }
    registered := [first] }
  let r₂ : Race := {
    calls := { table := { next := 3, entries := [second, first] }, slots := [.waiting, .waiting] }
    registered := [first, second] }
  have h₁ : Step {} r₁ := by
    have hstep := Step.register (r := {}) 16 3 fun _ => ⟨1, by decide⟩
    rw [register_eq_of_isFree 3 rfl (by decide)] at hstep
    exact hstep
  have h₂ : Step r₁ r₂ := by
    have hstep := Step.register (r := r₁) 16 4 fun _ => ⟨2, by decide⟩
    rw [register_eq_of_isFree 4 rfl (by decide)] at hstep
    exact hstep
  let r₃ := (r₂.take (.cancel 1)).take .drain
  have h₃ : Relation.ReflTransGen Step r₂ r₃ := .tail (.single (.take _)) (.take _)
  let canceller : Party := ⟨.cancel 1, [first], []⟩
  let r₄ := r₃.complete [canceller] ⟨.drain, [second], []⟩ [] second
  have h₄ : Step r₃ r₄ := .complete rfl List.mem_cons_self
  let drainer : Party := ⟨.drain, [], [(second, true)]⟩
  let r₅ := r₄.complete [] canceller [drainer] first
  have h₅ : Step r₄ r₅ := .complete rfl List.mem_cons_self
  let r₆ := r₅.wait 0 (.error .cancelled)
  have h₆ : Step r₅ r₆ := .wait (fun _ hmem => (List.not_mem_nil hmem).elim) rfl
  have hrun : r₆.Reachable :=
    ((((Relation.ReflTransGen.single h₁).tail h₂).trans h₃).tail h₄ |>.tail h₅).tail h₆
  exact ⟨r₆, hrun, rfl, rfl, resolves_once hrun⟩

end Race

end CallWire
