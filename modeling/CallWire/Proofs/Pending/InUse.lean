import CallWire.Proofs.Pending.Places

/-!
# CallWire.Proofs.Pending.InUse — the numbers that a table has in use

A number is in use as long as a call in flight has it, or it is remembered as that of a cancelled
call.  The counter comes round, so that a number given out is not new because it is greater than
all before: it is new because the search passed over those in use, and because every operation
keeps the two kinds of use apart.
-/

namespace CallWire

namespace PendingTable

variable {t : PendingTable} {n : UInt32}

/-- No number is both in flight and remembered as cancelled. -/
def Separate (t : PendingTable) : Prop := ∀ e ∈ t.entries, e.sequence ∉ t.cancelled

theorem Separate.without (h : t.Separate) (n : UInt32) : (t.without n).Separate :=
  fun e he => h e (t.without_subset n he)

theorem Separate.forget (h : t.Separate) (n : UInt32) : (t.forget n).Separate := by
  unfold PendingTable.forget
  rcases t.remove_cases n with ⟨e, -, -, heq⟩ | ⟨-, heq⟩
  · rw [heq]
    exact h.without n
  · rw [heq]
    exact h

theorem Separate.take (h : t.Separate) (d : Deed) : (d.take t).2.Separate := by
  cases d with
  | deliver reply =>
    rw [Deed.take_deliver]
    rcases t.resolve_cases reply.header.sequence with ⟨e, -, -, heq⟩ | ⟨-, -, heq⟩ | ⟨-, -, heq⟩
    · rw [heq]
      exact h.without _
    · rw [heq]
      exact fun e he hmem => h e he (List.mem_filter.mp hmem).1
    · rw [heq]
      exact h
  | cancel n =>
    rw [Deed.take_cancel]
    rcases t.cancel_cases n with ⟨e, -, -, kept, hkept, heq⟩ | ⟨-, heq⟩
    · rw [heq]
      intro e' he' hmem
      rcases List.mem_cons.mp hmem with hn | hmem
      · exact lacks_without e' he' hn
      · have hremembered := (List.mem_filter.mp hmem).1
        rcases hkept with rfl | ⟨-, rfl⟩
        · exact h.without n e' he' hremembered
        · cases hremembered
    · rw [heq]
      exact h
  | drain => exact fun e he => (List.not_mem_nil he).elim

theorem refusal?_eq_none_iff {limit : Nat} :
    t.refusal? limit = none ↔ t.isClosed = false ∧ t.size < limit := by
  unfold refusal?
  by_cases hclosed : t.isClosed = true
  · simp [hclosed]
  · by_cases hfull : t.size ≥ limit
    · simp [hclosed, hfull]
    · simp [hclosed, Nat.lt_of_not_le hfull]

end PendingTable

namespace Calls

theorem used_of_not_ends {c : Calls} {op : Operation} (h : ¬ c.Ends op) :
    UInt32.size ≤ c.table.used.length ∧
      (op = .nextSequence ∨ ∃ limit command, op = .register limit command ∧
        c.table.isClosed = false ∧ c.table.size < limit) := by
  have hused (hnone : ¬ ∃ n, c.table.isFree n) : UInt32.size ≤ c.table.used.length :=
    Nat.le_of_not_lt fun hfew => hnone (PendingTable.exists_isFree hfew)
  cases op with
  | register limit command =>
    obtain ⟨hrefusal, hnone⟩ := Classical.not_imp.mp h
    exact ⟨hused hnone, .inr ⟨limit, command, rfl, PendingTable.refusal?_eq_none_iff.mp hrefusal⟩⟩
  | nextSequence => exact ⟨hused h, .inl rfl⟩
  | _ => exact absurd trivial h

theorem isFree_of_number? {c : Calls} {op : Operation} {n : UInt32} (hends : c.Ends op)
    (h : (c.perform op).1.number? = some n) : c.table.isFree n := by
  cases op with
  | register limit command =>
    unfold perform at h
    rcases c.register_cases limit command with ⟨e, -, heq⟩ | ⟨hrefusal, heq⟩
    · simp only [heq] at h
      cases h
    · simp only [heq] at h
      cases h
      exact PendingTable.isFree_allocate (hends hrefusal)
  | nextSequence =>
    cases h
    exact PendingTable.isFree_allocate hends
  | _ => cases h

end Calls

namespace Race

variable {r r' : Race}

theorem separate_step (h : r.calls.table.Separate) (hstep : r.Step r') :
    r'.calls.table.Separate := by
  cases hstep with
  | register limit command hends =>
    rcases r.register_cases limit command with ⟨-, heq⟩ | ⟨hrefusal, e, rfl, heq⟩
    · rw [heq]
      exact h
    · have hfree := PendingTable.isFree_iff_lacks.mp (PendingTable.isFree_allocate (hends hrefusal))
      rw [heq]
      intro e he
      rcases List.mem_cons.mp he with rfl | he
      · exact hfree.2
      · exact h e he
  | number hends => exact h
  | take d => exact h.take d
  | complete hp he => exact h
  | forget n => exact h.forget n
  | wait hnew hpoll => exact h

theorem Reachable.separate (h : r.Reachable) : r.calls.table.Separate := by
  induction h with
  | refl => exact fun e he => (List.not_mem_nil he).elim
  | tail _ hstep ih => exact separate_step ih hstep

/-- The representation invariant of the table. -/
structure IsSound (r : Race) : Prop where
  /-- No number is both in flight and remembered as cancelled. -/
  separate : ∀ e ∈ r.calls.table.entries, e.sequence ∉ r.calls.table.cancelled
  /-- No two calls in flight have the same number. -/
  distinct : (r.calls.table.entries.map Entry.sequence).Nodup
  /-- A call in flight was registered with this number, command and slot. -/
  own : r.calls.table.entries ⊆ r.registered
  /-- Every call was registered with a slot of its own. -/
  slots : r.registered.map Entry.slot = List.range r.calls.slots.length
  /-- A number that is given out is not in use. -/
  fresh : ∀ op, r.calls.Ends op → ∀ n, (r.calls.perform op).1.number? = some n →
    (∀ e ∈ r.calls.table.entries, e.sequence ≠ n) ∧ n ∉ r.calls.table.cancelled
  /-- `register` succeeds exactly if the table is open and has fewer calls than the limit, -/
  admits : ∀ limit command, r.calls.Ends (.register limit command) →
    ((∃ answer, (r.calls.register limit command).1 = .ok answer) ↔
      r.calls.table.isClosed = false ∧ r.calls.table.size < limit)
  /-- and adds the call with its command and a new slot. -/
  registers : ∀ limit command n i, r.calls.Ends (.register limit command) →
    (r.calls.register limit command).1 = .ok (n, i) → i = r.calls.slots.length ∧
    (r.register limit command).calls.table.entries = ⟨n, command, i⟩ :: r.calls.table.entries ∧
    (r.register limit command).registered = r.registered ++ [⟨n, command, i⟩]
  /-- A `register` that fails changes nothing, the counter included. -/
  refuses : ∀ limit command e, (r.calls.register limit command).1 = .error e →
    (r.calls.register limit command).2 = r.calls
  /-- Only an allocation can run for ever, and only with all numbers in use. -/
  ends : ∀ op, ¬ r.calls.Ends op →
    UInt32.size ≤ r.calls.table.used.length ∧
      (op = .nextSequence ∨ ∃ limit command, op = .register limit command ∧
        r.calls.table.isClosed = false ∧ r.calls.table.size < limit)

theorem IsSound.fresh_nextSequence (h : r.IsSound)
    (hfew : r.calls.table.used.length < UInt32.size) :
    (∀ e ∈ r.calls.table.entries, e.sequence ≠ r.calls.nextSequence.1) ∧
      r.calls.nextSequence.1 ∉ r.calls.table.cancelled :=
  h.fresh .nextSequence (by_contra fun hends => Nat.not_le_of_lt hfew (h.ends _ hends).1) _ rfl

/-- **The table is sound after every run** of `register` with any limits, `nextSequence`, `resolve`,
`forget`, `cancel` and `drain`, however often the counter has wrapped: no number is in use twice,
none in use is given out, and each call in flight is one that was registered as it is. -/
theorem sound_of_reachable (h : r.Reachable) : r.IsSound where
  separate := h.separate
  distinct := h.inv.numbers
  own := fun _ he => h.inv.perm.mem_iff.mpr (List.mem_append_left _ he)
  slots := h.inv.slots
  fresh := fun _ hends _ hn => PendingTable.isFree_iff_lacks.mp (Calls.isFree_of_number? hends hn)
  admits := by
    intro limit command _
    rw [← PendingTable.refusal?_eq_none_iff]
    rcases r.calls.register_cases limit command with ⟨e, hrefusal, heq⟩ | ⟨hrefusal, heq⟩
    · simp [heq, hrefusal]
    · simp [heq, hrefusal]
  registers := by
    intro limit command n i _ hok
    unfold Race.register
    rcases r.calls.register_cases limit command with ⟨e, -, heq⟩ | ⟨-, heq⟩
    · rw [heq] at hok
      cases hok
    · rw [heq] at hok ⊢
      cases hok
      exact ⟨rfl, rfl, rfl⟩
  refuses := by
    intro limit command e herror
    rcases r.calls.register_cases limit command with ⟨e', -, heq⟩ | ⟨-, heq⟩
    · rw [heq]
    · rw [heq] at herror
      cases herror
  ends := fun _ => Calls.used_of_not_ends

theorem exists_run_numbers (r : Race) (k : Nat)
    (hfree : ∀ j < k, r.calls.table.isFree (r.calls.table.next + .ofNat j)) :
    Relation.ReflTransGen Step r { r with
      calls := { r.calls with
        table := { r.calls.table with next := r.calls.table.next + .ofNat k } }
      oneWays := r.oneWays + k } := by
  induction k with
  | zero =>
    have hnext : r.calls.table.next + .ofNat 0 = r.calls.table.next := UInt32.add_zero _
    rw [hnext]
    exact .refl
  | succ k ih =>
    let r' : Race := { r with
      calls := { r.calls with
        table := { r.calls.table with next := r.calls.table.next + .ofNat k } }
      oneWays := r.oneWays + k }
    have hnext : r'.calls.table.isFree r'.calls.table.next := hfree k (Nat.lt_succ_self k)
    have hnumber : r'.number = { r with
        calls := { r.calls with
          table := { r.calls.table with next := r.calls.table.next + .ofNat (k + 1) } }
        oneWays := r.oneWays + (k + 1) } := by
      unfold number Calls.nextSequence
      rw [PendingTable.allocate_eq_of_isFree hnext, UInt32.ofNat_add k 1, ← UInt32.add_assoc]
      rfl
    rw [← hnumber]
    exact (ih fun j hj => hfree j (Nat.lt_succ_of_lt hj)).tail (.number ⟨_, hnext⟩)

/-- The counter gets to any number not above those in use, if it has passed these. -/
theorem exists_run_round (r : Race) {n : UInt32}
    (hused : ∀ m ∈ r.calls.table.used, n.toNat ≤ m.toNat ∧ m.toNat < r.calls.table.next.toNat) :
    ∃ k, Relation.ReflTransGen Step r { r with
      calls := { r.calls with table := { r.calls.table with next := n } }
      oneWays := r.oneWays + k } := by
  have hround : r.calls.table.next + .ofNat (n - r.calls.table.next).toNat = n := by
    rw [UInt32.ofNat_toNat, UInt32.add_comm]
    exact UInt32.sub_add_cancel n _
  have hsteps := UInt32.toNat_sub n r.calls.table.next
  have hrun := exists_run_numbers r (n - r.calls.table.next).toNat fun j hj =>
    PendingTable.isFree_add_ofNat hused (by rw [UInt32.size]; omega)
  rw [hround] at hrun
  exact ⟨_, hrun⟩

/-- The counter has wrapped to a call in flight, and a cancelled call is behind it. -/
theorem sound_of_reachable_around :
    ∃ r : Race, r.Reachable ∧ r.calls.table.next = 1 ∧ r.calls.table.entries = [⟨1, 3, 0⟩] ∧
      r.calls.table.cancelled = [2] ∧ r.IsSound ∧
      r.calls.nextSequence.1 ≠ 1 ∧ r.calls.nextSequence.1 ≠ 2 := by
  let first : Entry := ⟨1, 3, 0⟩
  let second : Entry := ⟨2, 4, 1⟩
  let r₁ : Race := {
    calls := { table := { next := 2, entries := [first] }, slots := [.waiting] }
    registered := [first] }
  let r₂ : Race := {
    calls := { table := { next := 3, entries := [second, first] }, slots := [.waiting, .waiting] }
    registered := [first, second] }
  have h₁ : Step {} r₁ := .register_of_isFree 16 3 rfl (by decide)
  have h₂ : Step r₁ r₂ := .register_of_isFree 16 4 rfl (by decide)
  obtain ⟨k, hround⟩ := exists_run_round (n := 1) (r₂.take (.cancel 2))
    (List.forall_mem_cons.mpr ⟨by decide, List.forall_mem_singleton.mpr (by decide)⟩)
  have hreachable := (((Relation.ReflTransGen.single h₁).tail h₂).tail (.take _)).trans hround
  have hsound := sound_of_reachable hreachable
  have hfew : (r₂.take (.cancel 2)).calls.table.used.length < UInt32.size := by decide
  obtain ⟨hflight, hremembered⟩ := hsound.fresh_nextSequence hfew
  refine ⟨_, hreachable, rfl, rfl, rfl, hsound, ?_, ?_⟩
  · exact (hflight first (List.mem_singleton_self first)).symm
  · exact fun heq => hremembered (List.mem_singleton.mpr heq)

end Race

end CallWire
