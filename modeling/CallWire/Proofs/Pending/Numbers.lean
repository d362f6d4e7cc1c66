import CallWire.Pending.Calls
import Mathlib.Data.Finset.Card
import Mathlib.Data.Finset.Range

/-!
# CallWire.Proofs.Pending.Numbers — the number of a call finds the call again

As long as fewer numbers are in use than there are, the search for a free one ends at one.  A call
registered under a free number is what that number resolves to, and resolving it leaves the other
calls as they were.
-/

namespace CallWire

namespace PendingTable

variable {t : PendingTable} {n : UInt32}

/-! ### Free numbers -/

/-- The numbers in flight, and those remembered as cancelled. -/
def used (t : PendingTable) : List UInt32 := t.entries.map (·.sequence) ++ t.cancelled

theorem isFree_iff : t.isFree n ↔ n ∉ t.used := by
  unfold isFree find? used
  rw [Bool.and_eq_true, Option.isNone_iff_eq_none, List.find?_eq_none]
  simp [not_or]

theorem exists_isFree (h : t.used.length < UInt32.size) : ∃ n, t.isFree n := by
  have hcard : (t.used.map UInt32.toNat).toFinset.card < (Finset.range UInt32.size).card := by
    rw [Finset.card_range]
    refine Nat.lt_of_le_of_lt (List.toFinset_card_le _) ?_
    rw [List.length_map]
    exact h
  obtain ⟨k, hk, hunused⟩ := Finset.exists_mem_notMem_of_card_lt_card hcard
  rw [Finset.mem_range] at hk
  rw [List.mem_toFinset, List.mem_map] at hunused
  refine ⟨UInt32.ofNat k, isFree_iff.mpr fun hmem => hunused ⟨_, hmem, ?_⟩⟩
  exact UInt32.toNat_ofNat_of_lt hk

/-- With all numbers in use between two bounds, those from the upper bound on are free, round to the
lower one. -/
theorem isFree_add_ofNat {lower j : Nat} {start : UInt32}
    (hused : ∀ n ∈ t.used, lower ≤ n.toNat ∧ n.toNat < start.toNat)
    (hj : j < UInt32.size - start.toNat + lower) : t.isFree (start + .ofNat j) := by
  refine isFree_iff.mpr fun hmem => ?_
  obtain ⟨hlower, hupper⟩ := hused _ hmem
  have hsum : (start + .ofNat j).toNat = (start.toNat + j % UInt32.size) % UInt32.size := by
    rw [UInt32.toNat_add, UInt32.toNat_ofNat', UInt32.size]
  have hstart : start.toNat < UInt32.size := start.toNat_lt
  rw [UInt32.size] at hsum hstart hj
  omega

theorem exists_search_eq_some {tries k : Nat} {start : UInt32} (hk : k < tries)
    (h : t.isFree (start + UInt32.ofNat k)) :
    ∃ n, t.search tries start = some n ∧ t.isFree n := by
  induction tries generalizing start k with
  | zero => cases hk
  | succ tries ih =>
    unfold search
    by_cases hs : t.isFree start
    · exact ⟨start, if_pos hs, hs⟩
    · rw [if_neg hs]
      cases k with
      | zero =>
        rw [show start + UInt32.ofNat 0 = start from UInt32.add_zero start] at h
        exact absurd h hs
      | succ k =>
        refine ih (Nat.lt_of_succ_lt_succ hk) ?_
        have hnext : start + 1 + UInt32.ofNat k = start + UInt32.ofNat (k + 1) := by
          rw [UInt32.add_assoc, UInt32.ofNat_add, UInt32.add_comm 1]
          rfl
        rw [hnext]
        exact h

theorem isFree_allocate (h : ∃ n, t.isFree n) : t.isFree t.allocate.1 := by
  obtain ⟨n, hn⟩ := h
  have hstart : t.next + UInt32.ofNat (n - t.next).toNat = n := by
    rw [UInt32.ofNat_toNat, UInt32.add_comm]
    exact UInt32.sub_add_cancel n t.next
  rw [← hstart] at hn
  obtain ⟨m, hm, hfree⟩ := exists_search_eq_some (n - t.next).toNat_lt hn
  have halloc : t.allocate.1 = m := by
    show (t.search sequenceCount t.next).getD t.next = m
    rw [show t.search sequenceCount t.next = some m from hm]
    rfl
  rw [halloc]
  exact hfree

theorem isFree_allocate_snd : t.allocate.2.isFree n = t.isFree n := rfl

/-! ### Registering and resolving -/

theorem register_eq_ok {limit slot : Nat} (command : UInt32) (ho : t.isClosed = false)
    (hl : t.size < limit) :
    t.register limit command slot = (.ok t.allocate.1,
      { t.allocate.2 with entries := ⟨t.allocate.1, command, slot⟩ :: t.entries }) := by
  have hrefusal : t.refusal? limit = none := by
    unfold refusal?
    rw [if_neg (by simp [ho]), if_neg (Nat.not_le.mpr hl)]
  unfold register
  rw [hrefusal]
  rfl

theorem remove_cons {command : UInt32} {slot : Nat} (hn : t.isFree n) :
    { t with entries := ⟨n, command, slot⟩ :: t.entries }.remove n =
      (some ⟨n, command, slot⟩, t) := by
  have hothers : ∀ e ∈ t.entries, e.sequence ≠ n := by
    intro e he heq
    refine isFree_iff.mp hn ?_
    rw [← heq]
    exact List.mem_append_left _ (List.mem_map_of_mem he)
  have hkept : t.entries.filter (·.sequence != n) = t.entries :=
    List.filter_eq_self.mpr fun e he => bne_iff_ne.mpr (hothers e he)
  unfold remove find?
  simp [hkept]

theorem resolve_cons {command : UInt32} {slot : Nat} (hn : t.isFree n) :
    { t with entries := ⟨n, command, slot⟩ :: t.entries }.resolve n =
      (.pending ⟨n, command, slot⟩, t) := by
  unfold resolve
  rw [remove_cons hn]

end PendingTable

namespace Calls

variable {c : Calls}

theorem register_eq_ok {limit : Nat} (command : UInt32) (ho : c.table.isClosed = false)
    (hl : c.pending < limit) :
    c.register limit command = (.ok (c.table.allocate.1, c.slots.length),
      { table := { c.table.allocate.2 with
          entries := ⟨c.table.allocate.1, command, c.slots.length⟩ :: c.table.entries }
        slots := c.slots ++ [.waiting] }) := by
  unfold register
  rw [PendingTable.register_eq_ok command ho hl]
  rfl

theorem poll_complete {i : Nat} (hi : i < c.slots.length) (hw : c.slot i = .waiting)
    (outcome : Outcome) :
    ((c.complete i outcome).2.poll i).1 = some outcome ∧
      ((c.complete i outcome).2.poll i).2.table = c.table := by
  have hcomplete : (c.complete i outcome).2 =
      { c with slots := c.slots.set i (.resolved outcome) } := by
    unfold complete
    rw [hw]
    rfl
  have hslot : (c.complete i outcome).2.slot i = .resolved outcome := by
    rw [hcomplete]
    unfold slot
    rw [List.getD_eq_getElem?_getD, List.getElem?_set_self hi]
    rfl
  unfold poll
  rw [hslot, hcomplete]
  exact ⟨rfl, rfl⟩

end Calls

end CallWire
