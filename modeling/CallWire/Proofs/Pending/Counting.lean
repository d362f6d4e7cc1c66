import CallWire.Proofs.Pending.Places

/-!
# CallWire.Proofs.Pending.Counting — before the counter has come round

As long as fewer numbers were given out than there are, they were given out one after the other, so
that no two calls have had the same.
-/

namespace CallWire

namespace PendingTable

variable {t : PendingTable} {d : Deed}

theorem take_rest (h : d ≠ .drain) :
    (d.take t).2.next = t.next ∧ (d.take t).2.isClosed = t.isClosed ∧
      ∀ n ∈ (d.take t).2.cancelled, n ∈ t.cancelled ∨ ∃ e ∈ t.entries, e.sequence = n := by
  cases d with
  | deliver reply =>
    rw [Deed.take_deliver]
    rcases t.resolve_cases reply.header.sequence with ⟨e, -, -, heq⟩ | ⟨-, -, heq⟩ | ⟨-, -, heq⟩
    · rw [heq]
      exact ⟨rfl, rfl, fun n hn => .inl hn⟩
    · rw [heq]
      exact ⟨rfl, rfl, fun n hn => .inl (List.mem_filter.mp hn).1⟩
    · rw [heq]
      exact ⟨rfl, rfl, fun n hn => .inl hn⟩
  | cancel n =>
    rw [Deed.take_cancel]
    rcases t.cancel_cases n with ⟨e, he, hn, kept, hkept, heq⟩ | ⟨-, heq⟩
    · rw [heq]
      refine ⟨rfl, rfl, ?_⟩
      intro m hm
      rcases List.mem_cons.mp hm with rfl | hm
      · exact .inr ⟨e, he, hn⟩
      · have hmem := (List.mem_filter.mp hm).1
        rcases hkept with rfl | ⟨-, rfl⟩
        · exact .inl hmem
        · cases hmem
    · rw [heq]
      exact ⟨rfl, rfl, fun m hm => .inl hm⟩
  | drain => exact absurd rfl h

end PendingTable

namespace Race

variable {r : Race}

/-- Before the counter wraps: the numbers given out are those below it, each to one call at most. -/
structure Numbered (r : Race) : Prop where
  next : r.calls.table.next = .ofNat (r.allocated + 1)
  le : ∀ e ∈ r.registered, e.sequence.toNat ≤ r.allocated
  memory : ∀ n ∈ r.calls.table.cancelled, n.toNat ≤ r.allocated
  distinct : (r.registered.map Entry.sequence).Nodup

theorem numbered_new : Numbered {} where
  next := rfl
  le := fun _ he => (List.not_mem_nil he).elim
  memory := fun _ hn => (List.not_mem_nil hn).elim
  distinct := List.nodup_nil

theorem Inv.entries_subset (h : r.Inv) : r.calls.table.entries ⊆ r.registered :=
  fun _ he => h.perm.mem_iff.mpr (List.mem_append_left _ he)

theorem Inv.forgotten_subset (h : r.Inv) : r.forgotten ⊆ r.registered := fun _ he =>
  h.perm.mem_iff.mpr (List.mem_append_right _ (List.mem_append_right _
    (List.mem_append_right _ he)))

theorem Numbered.isFree (h : r.Numbered) (hinv : r.Inv) (hfew : r.allocated + 1 < UInt32.size) :
    r.calls.table.next.toNat = r.allocated + 1 ∧ r.calls.table.isFree r.calls.table.next := by
  have hnext : r.calls.table.next.toNat = r.allocated + 1 := by
    rw [h.next]
    exact UInt32.toNat_ofNat_of_lt hfew
  refine ⟨hnext, PendingTable.isFree_iff_lacks.mpr ⟨?_, ?_⟩⟩
  · intro e he heq
    have hle := h.le e (hinv.entries_subset he)
    rw [heq, hnext] at hle
    omega
  · intro hmem
    have hle := h.memory _ hmem
    rw [hnext] at hle
    omega

theorem Numbered.register (h : r.Numbered) (hinv : r.Inv) {limit : Nat} {command : UInt32}
    (hfew : (r.register limit command).allocated < UInt32.size) :
    r.calls.Ends (.register limit command) ∧ (r.register limit command).Numbered := by
  rcases r.register_cases limit command with ⟨hrefusal, heq⟩ | ⟨hrefusal, e, -, heq⟩
  · rw [heq]
    exact ⟨fun hnone => absurd hnone hrefusal, h⟩
  · have hallocated : (r.register limit command).allocated = r.allocated + 1 := by
      rw [heq]
      show (r.registered ++ [e]).length + r.oneWays = r.registered.length + r.oneWays + 1
      rw [List.length_append, List.length_singleton]
      omega
    rw [hallocated] at hfew
    obtain ⟨hnext, hfree⟩ := h.isFree hinv hfew
    refine ⟨fun _ => ⟨_, hfree⟩, ?_⟩
    have hregister := register_eq_of_isFree command hrefusal hfree
    constructor
    case next =>
      rw [hallocated, hregister]
      show r.calls.table.next + 1 = _
      rw [h.next]
      exact (UInt32.ofNat_add (r.allocated + 1) 1).symm
    case le =>
      rw [hallocated, hregister]
      intro e' he'
      rcases List.mem_append.mp he' with he' | he'
      · exact Nat.le_succ_of_le (h.le e' he')
      · rw [List.mem_singleton.mp he']
        exact Nat.le_of_eq hnext
    case memory =>
      rw [hallocated, hregister]
      exact fun n hn => Nat.le_succ_of_le (h.memory n hn)
    case distinct =>
      rw [hregister]
      show ((r.registered ++ [_]).map Entry.sequence).Nodup
      rw [List.map_append, List.map_singleton, List.nodup_append]
      refine ⟨h.distinct, List.nodup_singleton _, ?_⟩
      intro n hn m hm heq
      obtain ⟨e', he', rfl⟩ := List.mem_map.mp hn
      have hle := h.le e' he'
      rw [heq, List.mem_singleton.mp hm, hnext] at hle
      omega

theorem Numbered.number (h : r.Numbered) (hinv : r.Inv) (hfew : r.number.allocated < UInt32.size) :
    r.calls.Ends .nextSequence ∧ r.number.Numbered := by
  obtain ⟨-, hfree⟩ := h.isFree hinv hfew
  refine ⟨⟨_, hfree⟩, ?_⟩
  have htable : r.number.calls.table = { r.calls.table with next := r.calls.table.next + 1 } := by
    show r.calls.table.allocate.2 = _
    rw [PendingTable.allocate_eq_of_isFree hfree]
  constructor
  case next =>
    rw [htable, h.next]
    exact (UInt32.ofNat_add (r.allocated + 1) 1).symm
  case le => exact fun e he => Nat.le_succ_of_le (h.le e he)
  case memory =>
    rw [htable]
    exact fun n hn => Nat.le_succ_of_le (h.memory n hn)
  case distinct => exact h.distinct

theorem Numbered.take (h : r.Numbered) (hinv : r.Inv) (d : Deed) : (r.take d).Numbered := by
  by_cases hdrain : d = .drain
  · subst hdrain
    exact ⟨h.next, h.le, fun n hn => (List.not_mem_nil hn).elim, h.distinct⟩
  · obtain ⟨hnext, -, hmemory⟩ := PendingTable.take_rest (t := r.calls.table) hdrain
    refine ⟨hnext.trans h.next, h.le, ?_, h.distinct⟩
    intro n hn
    rcases hmemory n hn with hn | ⟨e, he, rfl⟩
    · exact h.memory n hn
    · exact h.le e (hinv.entries_subset he)

theorem Numbered.complete (h : r.Numbered) (before : List Party) (p : Party) (after : List Party)
    (e : Entry) : (r.complete before p after e).Numbered where
  next := h.next
  le := h.le
  memory := h.memory
  distinct := h.distinct

theorem Numbered.forget (h : r.Numbered) (n : UInt32) : (r.forget n).Numbered := by
  have htable : (r.calls.table.forget n).next = r.calls.table.next ∧
      (r.calls.table.forget n).cancelled = r.calls.table.cancelled := by
    unfold PendingTable.forget
    rcases r.calls.table.remove_cases n with ⟨e, -, -, heq⟩ | ⟨-, heq⟩
    · rw [heq]
      exact ⟨rfl, rfl⟩
    · rw [heq]
      exact ⟨rfl, rfl⟩
  constructor
  case next => exact htable.1.trans h.next
  case le => exact h.le
  case memory =>
    intro m hm
    exact h.memory m (htable.2 ▸ hm)
  case distinct => exact h.distinct

theorem Numbered.wait (h : r.Numbered) (i : Nat) (o : Outcome) : (r.wait i o).Numbered where
  next := h.next
  le := h.le
  memory := h.memory
  distinct := h.distinct

theorem allocated_le_register (r : Race) (limit : Nat) (command : UInt32) :
    r.allocated ≤ (r.register limit command).allocated := by
  rcases r.register_cases limit command with ⟨-, heq⟩ | ⟨-, e, -, heq⟩
  · rw [heq]
  · rw [heq]
    show _ ≤ (r.registered ++ [e]).length + r.oneWays
    rw [List.length_append]
    exact Nat.add_le_add_right (Nat.le_add_right _ _) _

theorem Numbered.step {r' : Race} (h : r.Numbered) (hinv : r.Inv)
    (hfew : r'.allocated < UInt32.size) (hstep : r.Step r') : r'.Numbered := by
  cases hstep with
  | register limit command hends => exact (h.register hinv hfew).2
  | number hends => exact (h.number hinv hfew).2
  | take deed => exact h.take hinv deed
  | complete hp he => exact h.complete _ _ _ _
  | forget n => exact h.forget n
  | wait hnew hpoll => exact h.wait _ _

theorem Step.allocated_le {r' : Race} (hstep : r.Step r') : r.allocated ≤ r'.allocated := by
  cases hstep with
  | register limit command hends => exact r.allocated_le_register limit command
  | number hends => exact Nat.le_succ r.allocated
  | take deed => exact Nat.le_refl _
  | complete hp he => exact Nat.le_refl _
  | forget n => exact Nat.le_refl _
  | wait hnew hpoll => exact Nat.le_refl _

theorem Reachable.numbered (h : r.Reachable) (hfew : r.allocated < UInt32.size) : r.Numbered := by
  induction h with
  | refl => exact numbered_new
  | tail hrun hstep ih =>
    have hinv : Inv _ := Reachable.inv hrun
    exact (ih (Nat.lt_of_le_of_lt hstep.allocated_le hfew)).step hinv hfew hstep

end Race

end CallWire
