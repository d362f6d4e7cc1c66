import CallWire.Proofs.Pending.Operations
import Mathlib.Data.Nat.Find

/-!
# CallWire.Proofs.Pending.Allocation — the next free number is found soon

The search for a free number passes over those in use, and there is an end to these: the calls in
flight are limited as they are registered, and the cancelled ones as more of them are cancelled.
The limits hold together, whatever else happens to the table, because no other operation puts a
number to use.  So among the numbers from the counter on, one more than are in use, one is free.
-/

namespace CallWire

namespace PendingTable

variable {t t' : PendingTable} {M k : Nat} {n start : UInt32}

/-! ### The search -/

/-- The number `k` steps from `start` is free, and none before it is. -/
def IsFirstFree (t : PendingTable) (start : UInt32) (k : Nat) : Prop :=
  t.isFree (start + .ofNat k) ∧ ∀ j < k, ¬ t.isFree (start + .ofNat j)

theorem add_one_add_ofNat (start : UInt32) (k : Nat) :
    start + 1 + .ofNat k = start + .ofNat (k + 1) := by
  rw [UInt32.add_assoc, UInt32.ofNat_add, UInt32.add_comm 1]
  rfl

theorem IsFirstFree.search_eq (h : t.IsFirstFree start k) (tries : Nat) :
    t.search tries start = if k < tries then some (start + .ofNat k) else none := by
  have hstart : start + .ofNat 0 = start := UInt32.add_zero start
  induction tries generalizing start k with
  | zero => rfl
  | succ tries ih =>
    unfold search
    cases k with
    | zero =>
      rw [if_pos (Nat.succ_pos tries), hstart]
      exact if_pos (hstart ▸ h.1)
    | succ k =>
      have hused : ¬ t.isFree start := hstart ▸ h.2 0 (Nat.succ_pos k)
      have hnext : t.IsFirstFree (start + 1) k := by
        unfold IsFirstFree
        simp only [add_one_add_ofNat]
        exact ⟨h.1, fun j hj => h.2 (j + 1) (Nat.succ_lt_succ hj)⟩
      rw [if_neg hused, ih hnext (UInt32.add_zero _), add_one_add_ofNat]
      simp only [Nat.succ_lt_succ_iff]

/-- Of the numbers from `start` on, one more than are in use, one is free.  They are distinct, as
long as there are no more of them than numbers. -/
theorem exists_isFirstFree (h : t.used.length < UInt32.size) (start : UInt32) :
    ∃ k ≤ t.used.length, t.IsFirstFree start k := by
  let tried : Finset UInt32 :=
    (Finset.range (t.used.length + 1)).image fun k => start + .ofNat k
  have hinjective : Set.InjOn (fun k => start + UInt32.ofNat k)
      (Finset.range (t.used.length + 1)) := by
    intro i hi j hj heq
    have hi' : i < UInt32.size := Nat.lt_of_lt_of_le (Finset.mem_range.mp hi) h
    have hj' : j < UInt32.size := Nat.lt_of_lt_of_le (Finset.mem_range.mp hj) h
    have hsame := congrArg UInt32.toNat ((UInt32.add_right_inj start).mp heq)
    rwa [UInt32.toNat_ofNat_of_lt' hi', UInt32.toNat_ofNat_of_lt' hj'] at hsame
  have hcard : t.used.toFinset.card < tried.card := by
    rw [Finset.card_image_of_injOn hinjective, Finset.card_range]
    exact Nat.lt_succ_of_le (List.toFinset_card_le _)
  obtain ⟨n, hn, hunused⟩ := Finset.exists_mem_notMem_of_card_lt_card hcard
  obtain ⟨k, hk, rfl⟩ := Finset.mem_image.mp hn
  have hfree : t.isFree (start + .ofNat k) :=
    isFree_iff.mpr fun hmem => hunused (List.mem_toFinset.mpr hmem)
  -- The first free number is no further from `start` than this one.
  have hex : ∃ k, t.isFree (start + .ofNat k) := ⟨k, hfree⟩
  have hle : Nat.find hex ≤ k := Nat.find_min' hex hfree
  exact ⟨Nat.find hex, hle.trans (Nat.le_of_lt_succ (Finset.mem_range.mp hk)),
    Nat.find_spec hex, fun j hj => Nat.find_min hex hj⟩

theorem IsFirstFree.allocate (h : t.IsFirstFree t.next k) (hk : k < UInt32.size) :
    t.allocate = (t.next + .ofNat k, { t with next := t.next + .ofNat k + 1 }) := by
  have hsearch : t.search sequenceCount t.next = some (t.next + .ofNat k) :=
    (h.search_eq sequenceCount).trans (if_pos hk)
  unfold PendingTable.allocate
  rw [hsearch]
  rfl

/-! ### How many numbers are in use -/

theorem length_used (t : PendingTable) : t.used.length = t.size + t.cancelled.length := by
  unfold used size
  rw [List.length_append, List.length_map]

/-- At most `M` calls are in flight, at most `M + 1024` numbers are remembered, and no number is in
use twice. -/
structure IsWithin (M : Nat) (t : PendingTable) : Prop where
  size_le : t.size ≤ M
  cancelled_le : t.cancelled.length ≤ M + cancelledSlack
  distinct : t.used.Nodup

theorem IsWithin.length_used_le (h : t.IsWithin M) : t.used.length ≤ 2 * M + cancelledSlack := by
  have hsize := h.size_le
  have hcancelled := h.cancelled_le
  rw [length_used]
  omega

theorem IsWithin.of_sublist (h : t.IsWithin M) (hentries : t'.entries.Sublist t.entries)
    (hcancelled : t'.cancelled.Sublist t.cancelled) : t'.IsWithin M where
  size_le := hentries.length_le.trans h.size_le
  cancelled_le := hcancelled.length_le.trans h.cancelled_le
  distinct := h.distinct.sublist ((hentries.map _).append hcancelled)

theorem IsWithin.without (h : t.IsWithin M) (n : UInt32) : (t.without n).IsWithin M :=
  h.of_sublist List.filter_sublist (List.Sublist.refl _)

theorem IsWithin.remove (h : t.IsWithin M) (n : UInt32) : (t.remove n).2.IsWithin M := by
  rcases t.remove_cases n with ⟨e, -, -, heq⟩ | ⟨-, heq⟩
  · rw [heq]
    exact h.without n
  · rw [heq]
    exact h

theorem IsWithin.resolve (h : t.IsWithin M) (n : UInt32) : (t.resolve n).2.IsWithin M := by
  rcases t.resolve_cases n with ⟨e, -, -, heq⟩ | ⟨-, -, heq⟩ | ⟨-, -, heq⟩
  · rw [heq]
    exact h.without n
  · rw [heq]
    exact h.of_sublist (List.Sublist.refl _) List.filter_sublist
  · rw [heq]
    exact h

theorem size_without_lt {e : Entry} (he : e ∈ t.entries) (hn : e.sequence = n) :
    (t.without n).size < t.size :=
  List.length_filter_lt_length_iff_exists.mpr ⟨e, he, by simpa using hn⟩

/-- `cancel` forgets the remembered numbers if they are more than the slack beyond the calls left,
which are one fewer than before. -/
theorem IsWithin.cancel (h : t.IsWithin M) (n : UInt32) : (t.cancel n).2.IsWithin M := by
  rcases t.remove_cases n with ⟨e, he, hn, hremove⟩ | ⟨-, hremove⟩
  · have hroom : (t.without n).size < M := Nat.lt_of_lt_of_le (size_without_lt he hn) h.size_le
    obtain ⟨kept, hsub, hlength, hcancel⟩ : ∃ kept : List UInt32, kept.Sublist t.cancelled ∧
        kept.length ≤ (t.without n).size + cancelledSlack ∧
        t.cancel n = (some e, { t.without n with cancelled := n :: kept.filter (· != n) }) := by
      refine ⟨if t.cancelled.length > (t.without n).size + cancelledSlack then []
        else t.cancelled, ?_, ?_, ?_⟩
      · split_ifs
        · exact List.nil_sublist _
        · exact List.Sublist.refl _
      · split_ifs with hfull
        · exact Nat.zero_le _
        · exact Nat.le_of_not_lt hfull
      · unfold PendingTable.cancel
        rw [hremove]
        rfl
    rw [hcancel]
    have hfilter : (kept.filter (· != n)).Sublist kept := List.filter_sublist
    constructor
    · exact hroom.le
    · show (n :: kept.filter (· != n)).length ≤ M + cancelledSlack
      have hle := hfilter.length_le
      rw [List.length_cons]
      omega
    · show (((t.without n).entries.map Entry.sequence) ++ n :: kept.filter (· != n)).Nodup
      rw [List.nodup_middle, List.nodup_cons, List.mem_append]
      constructor
      · rintro (hmem | hmem)
        · obtain ⟨e', he', heq⟩ := List.mem_map.mp hmem
          exact lacks_without e' he' heq
        · simpa using (List.mem_filter.mp hmem).2
      · exact (h.without n).distinct.sublist ((List.Sublist.refl _).append (hfilter.trans hsub))
  · unfold PendingTable.cancel
    rw [hremove]
    exact h

theorem IsWithin.register (h : t.IsWithin M) (hM : 2 * M + cancelledSlack < UInt32.size)
    (command : UInt32) (slot : Nat) : (t.register M command slot).2.IsWithin M := by
  have hfew : t.used.length < UInt32.size := Nat.lt_of_le_of_lt h.length_used_le hM
  cases hrefusal : t.refusal? M with
  | some e =>
    rw [register_eq_error command hrefusal]
    exact h
  | none =>
    have hroom : t.size < M := by
      unfold refusal? at hrefusal
      split_ifs at hrefusal with hclosed hfull
      exact Nat.lt_of_not_le hfull
    have hfree := isFree_allocate (exists_isFree hfew)
    rw [register_eq_ok_of_refusal? command hrefusal]
    exact ⟨hroom, h.cancelled_le, List.nodup_cons.mpr ⟨isFree_iff.mp hfree, h.distinct⟩⟩

end PendingTable

namespace Calls

open PendingTable

variable {c : Calls} {M : Nat} {ops : List Operation}

/-! ### Runs -/

def performAll (c : Calls) (ops : List Operation) : Calls :=
  ops.foldl (fun c op => (c.perform op).2) c

theorem perform_register (c : Calls) (limit : Nat) (command : UInt32) :
    (c.perform (.register limit command)).2 = (c.register limit command).2 := by
  simp only [perform]
  rcases c.register limit command with ⟨_ | ⟨n, slot⟩, c'⟩
  · rfl
  · rfl

theorem table_register (c : Calls) (limit : Nat) (command : UInt32) :
    (c.register limit command).2.table = (c.table.register limit command c.slots.length).2 := by
  unfold register
  rcases c.table.register limit command c.slots.length with ⟨_ | n, t⟩
  · rfl
  · rfl

theorem isWithin_perform (h : c.table.IsWithin M) (hM : 2 * M + cancelledSlack < UInt32.size)
    {op : Operation} (hlimit : ∀ limit command, op = .register limit command → limit = M) :
    (c.perform op).2.table.IsWithin M := by
  cases op with
  | register limit command =>
    obtain rfl := hlimit limit command rfl
    rw [perform_register, table_register]
    exact h.register hM command c.slots.length
  | nextSequence => exact h.of_sublist (List.Sublist.refl _) (List.Sublist.refl _)
  | resolve n => exact h.resolve n
  | forget n => exact h.remove n
  | cancel n =>
    show (c.cancel n).2.table.IsWithin M
    rw [table_cancel]
    exact h.cancel n
  | drain =>
    show c.drain.2.table.IsWithin M
    rw [table_drain]
    exact h.of_sublist (List.nil_sublist _) (List.nil_sublist _)

theorem isWithin_performAll (h : c.table.IsWithin M) (hM : 2 * M + cancelledSlack < UInt32.size)
    (hlimit : ∀ limit command, .register limit command ∈ ops → limit = M) :
    (c.performAll ops).table.IsWithin M := by
  induction ops generalizing c with
  | nil => exact h
  | cons op ops ih =>
    refine ih (isWithin_perform h hM fun limit command heq => ?_) fun limit command hmem => ?_
    · exact hlimit limit command (heq ▸ List.mem_cons_self)
    · exact hlimit limit command (List.mem_cons_of_mem _ hmem)

theorem performAll_nextSequence (c : Calls) (k : Nat)
    (hfree : ∀ j < k, c.table.isFree (c.table.next + .ofNat j)) :
    c.performAll (List.replicate k .nextSequence) =
      { c with table := { c.table with next := c.table.next + .ofNat k } } := by
  induction k with
  | zero =>
    have hnext : c.table.next + .ofNat 0 = c.table.next := UInt32.add_zero _
    rw [hnext]
    rfl
  | succ k ih =>
    have hlast : (perform { c with
          table := { c.table with next := c.table.next + .ofNat k } } .nextSequence).2 =
        { c with table := { c.table with next := c.table.next + .ofNat (k + 1) } } := by
      show (Calls.nextSequence _).2 = _
      unfold Calls.nextSequence
      rw [allocate_eq_of_isFree (hfree k (Nat.lt_succ_self k)), UInt32.ofNat_add k 1,
        ← UInt32.add_assoc]
      rfl
    unfold performAll at ih ⊢
    rw [List.replicate_succ', List.foldl_append, ih fun j hj => hfree j (Nat.lt_succ_of_lt hj)]
    exact hlast

/-! ### Main statement -/

/-- **The next number is found before long.**  Wherever the counter starts, and whatever is done to
the table as long as all calls are registered under one limit `M` that is far enough below the
number of all numbers: no more than `M` calls are in flight, no more than 1024 beyond that are
remembered as cancelled, and no number is in use twice.  So the search comes to the first free
number at or behind the counter, round the end of the numbers if need be, and tries one number more
than are in use at most.  This number is allocated, and the counter moves just past it. -/
theorem allocation_finds_next_free (M : Nat) (hM : 2 * M + 1024 < UInt32.size) (start : UInt32)
    (ops : List Operation)
    (hlimit : ∀ limit command, .register limit command ∈ ops → limit = M) :
    let t := (performAll { table := { next := start } } ops).table
    t.size ≤ M ∧ t.cancelled.length ≤ M + 1024 ∧ t.used.Nodup ∧
      ∃ k ≤ t.size + t.cancelled.length,
        (t.isFree (t.next + .ofNat k) ∧ ∀ j < k, ¬ t.isFree (t.next + .ofNat j)) ∧
        (∀ tries, t.search tries t.next =
          if k < tries then some (t.next + .ofNat k) else none) ∧
        t.allocate = (t.next + .ofNat k, { t with next := t.next + .ofNat k + 1 }) := by
  intro t
  have hnew : IsWithin M { next := start } := ⟨Nat.zero_le M, Nat.zero_le _, List.nodup_nil⟩
  have hwithin : t.IsWithin M := isWithin_performAll hnew hM hlimit
  have hfew : t.used.length < UInt32.size := Nat.lt_of_le_of_lt hwithin.length_used_le hM
  obtain ⟨k, hk, hfirst⟩ := exists_isFirstFree hfew t.next
  refine ⟨hwithin.size_le, hwithin.cancelled_le, hwithin.distinct, k, ?_, hfirst,
    hfirst.search_eq, hfirst.allocate (Nat.lt_of_le_of_lt hk hfew)⟩
  rw [← length_used]
  exact hk

/-- With a call in flight under 7 and a cancelled one under 8, the counter goes round and comes to 7
again: the search passes over both, and 9 is next. -/
theorem allocation_finds_next_free_round :
    let ops : List Operation := [.register 2 3, .register 2 4, .cancel 8] ++
      List.replicate (UInt32.size - 2) .nextSequence
    let t := (performAll { table := { next := 7 } } ops).table
    t.entries = [⟨7, 3, 0⟩] ∧ t.cancelled = [8] ∧ t.next = 7 ∧
      t.search 2 t.next = none ∧ t.search 3 t.next = some 9 ∧
      t.allocate = (9, { t with next := 10 }) := by
  intro ops t
  let c : Calls := performAll { table := { next := 7 } } [.register 2 3, .register 2 4, .cancel 8]
  have hc : c.table = { next := 9, entries := [⟨7, 3, 0⟩], cancelled := [8] } := by decide +kernel
  have hused : ∀ n ∈ c.table.used, 7 ≤ n.toNat ∧ n.toNat < c.table.next.toNat := by
    rw [hc]
    exact List.forall_mem_cons.mpr ⟨by decide, List.forall_mem_singleton.mpr (by decide)⟩
  have hround : t = { next := 7, entries := [⟨7, 3, 0⟩], cancelled := [8] } := by
    have hsplit : t = (c.performAll (List.replicate (UInt32.size - 2) .nextSequence)).table :=
      congrArg Calls.table List.foldl_append
    have hfar (j : Nat) (hj : j < UInt32.size - 2) : c.table.isFree (c.table.next + .ofNat j) := by
      refine isFree_add_ofNat hused ?_
      rw [hc]
      exact hj
    rw [hsplit, performAll_nextSequence c _ hfar, hc]
    rfl
  have hlimit : ∀ limit command, Operation.register limit command ∈ ops → limit = 2 := by
    intro limit command hmem
    rcases List.mem_append.mp hmem with hmem | hmem
    · simp only [List.mem_cons, Operation.register.injEq, reduceCtorEq, List.not_mem_nil,
        or_false] at hmem
      rcases hmem with ⟨rfl, -⟩ | ⟨rfl, -⟩
      · rfl
      · rfl
    · cases List.eq_of_mem_replicate hmem
  have hfinds := allocation_finds_next_free 2 (by decide) 7 ops hlimit
  dsimp only at hfinds
  rw [show (performAll { table := { next := 7 } } ops).table = _ from hround] at hfinds
  obtain ⟨-, -, -, k, hk, ⟨hfree, -⟩, hsearch, hallocate⟩ := hfinds
  rw [hround]
  obtain rfl | rfl | rfl : k = 0 ∨ k = 1 ∨ k = 2 := by
    have hle : k ≤ 2 := hk
    omega
  · exact absurd hfree (by decide)
  · exact absurd hfree (by decide)
  exact ⟨rfl, rfl, rfl, hsearch 2, hsearch 3, hallocate⟩

end Calls

end CallWire
