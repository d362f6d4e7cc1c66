import CallWire.Proofs.Pending.Operations

/-!
# CallWire.Proofs.Pending.LateReply — the reply to a cancelled call

The number of a cancelled call is remembered, so that it is not given to another call and its late
reply is known for what it is.  The memory is bounded: to cancel a call clears it once it holds
too many numbers.  Until then the late reply is recognised; afterwards it is taken for that of
another call as soon as the counter has come round.
-/

namespace CallWire

namespace PendingTable

variable {t : PendingTable} {s n : UInt32}

/-- The number is remembered as cancelled, and no call in flight has it. -/
structure Remembers (t : PendingTable) (s : UInt32) : Prop where
  cancelled : s ∈ t.cancelled
  lacks : t.Lacks s

theorem Remembers.resolve_self (h : t.Remembers s) : (t.resolve s).1 = .cancelled := by
  rcases t.resolve_cases s with ⟨e, he, hn, -⟩ | ⟨-, -, heq⟩ | ⟨-, hc, -⟩
  · exact absurd hn (h.lacks e he)
  · rw [heq]
  · exact absurd h.cancelled hc

theorem remembers_cancel {e : Entry} (h : (t.cancel s).1 = some e) :
    (t.cancel s).2.Remembers s := by
  rcases t.cancel_cases s with ⟨e', -, -, kept, -, heq⟩ | ⟨-, heq⟩
  · rw [heq]
    exact ⟨List.mem_cons_self, lacks_without⟩
  · rw [heq] at h
    cases h

theorem Remembers.allocate_ne (h : t.Remembers s) (hfree : ∃ n, t.isFree n) :
    t.allocate.1 ≠ s := by
  intro heq
  have hs := isFree_allocate hfree
  rw [heq] at hs
  exact (isFree_iff_lacks.mp hs).2 h.cancelled

theorem Remembers.without (h : t.Remembers s) : (t.without n).Remembers s :=
  ⟨h.cancelled, h.lacks.of_subset (t.without_subset n)⟩

theorem Remembers.forget (h : t.Remembers s) : (t.forget n).Remembers s := by
  unfold PendingTable.forget
  rcases t.remove_cases n with ⟨e, -, -, heq⟩ | ⟨-, heq⟩
  · rw [heq]
    exact h.without
  · rw [heq]
    exact h

theorem Remembers.resolve (h : t.Remembers s) (hn : n ≠ s) : (t.resolve n).2.Remembers s := by
  rcases t.resolve_cases n with ⟨e, -, -, heq⟩ | ⟨-, -, heq⟩ | ⟨-, -, heq⟩
  · rw [heq]
    exact h.without
  · rw [heq]
    exact ⟨List.mem_filter.mpr ⟨h.cancelled, bne_iff_ne.mpr hn.symm⟩, h.lacks⟩
  · rw [heq]
    exact h

theorem Remembers.cancel (h : t.Remembers s) (hkept : ¬ t.Clears n) :
    (t.cancel n).2.Remembers s := by
  rcases t.cancel_cases n with ⟨e, he, hn, kept, hmemory, heq⟩ | ⟨-, heq⟩
  · rw [heq]
    refine ⟨?_, h.without.lacks⟩
    rcases hmemory with rfl | ⟨hclears, -⟩
    · have hne : s ≠ n := fun hs => h.lacks e he (hn.trans hs.symm)
      exact List.mem_cons_of_mem n (List.mem_filter.mpr ⟨h.cancelled, bne_iff_ne.mpr hne⟩)
    · exact absurd hclears hkept
  · rw [heq]
    exact h

end PendingTable

namespace Calls

variable {c c' : Calls} {s : UInt32} {op : Operation} {answers : List Answer}

/-! ### While the number is remembered -/

/-- The operation is a cancellation that forgets the numbers remembered before. -/
def ClearsMemory (c : Calls) (op : Operation) : Prop := ∃ n, op = .cancel n ∧ c.table.Clears n

theorem perform_remembers (h : c.table.Remembers s) (hends : c.Ends op) (hdrain : op ≠ .drain)
    (hresolve : op ≠ .resolve s) (hclears : ¬ c.ClearsMemory op) :
    (c.perform op).2.table.Remembers s ∧ (c.perform op).1.number? ≠ some s := by
  cases op with
  | register limit command =>
    rcases c.register_cases limit command with ⟨e, -, heq⟩ | ⟨hrefusal, heq⟩
    · have hperform : c.perform (.register limit command) = (.refused e, c) := by
        simp only [perform, heq]
      rw [hperform]
      exact ⟨h, fun hnone => by cases hnone⟩
    · have hne := h.allocate_ne (hends hrefusal)
      simp only [perform, heq]
      refine ⟨⟨h.cancelled, ?_⟩, fun hsome => hne (Option.some.inj hsome)⟩
      intro e he
      rcases List.mem_cons.mp he with rfl | he
      · exact hne
      · exact h.lacks e he
  | nextSequence =>
    have hne := h.allocate_ne hends
    exact ⟨⟨h.cancelled, h.lacks⟩, fun hsome => hne (Option.some.inj hsome)⟩
  | resolve n =>
    have hn : n ≠ s := fun heq => hresolve (heq ▸ rfl)
    exact ⟨h.resolve hn, fun hnone => by cases hnone⟩
  | forget n => exact ⟨h.forget, fun hnone => by cases hnone⟩
  | cancel n =>
    have hkept : ¬ c.table.Clears n := fun hn => hclears ⟨n, rfl, hn⟩
    refine ⟨?_, fun hnone => by cases hnone⟩
    show (c.cancel n).2.table.Remembers s
    rw [table_cancel]
    exact h.cancel hkept
  | drain => exact absurd rfl hdrain

theorem run_remembers
    (hrun : Run (fun c op => op ≠ .drain ∧ op ≠ .resolve s ∧ ¬ c.ClearsMemory op) c answers c')
    (h : c.table.Remembers s) :
    c'.table.Remembers s ∧ ∀ a ∈ answers, a.number? ≠ some s := by
  induction hrun with
  | nil => exact ⟨h, fun a ha => by cases ha⟩
  | cons op hallowed hends _ ih =>
    obtain ⟨hdrain, hresolve, hclears⟩ := hallowed
    obtain ⟨hnext, hanswer⟩ := perform_remembers h hends hdrain hresolve hclears
    obtain ⟨hlast, hanswers⟩ := ih hnext
    refine ⟨hlast, ?_⟩
    intro a ha
    rcases List.mem_cons.mp ha with rfl | ha
    · exact hanswer
    · exact hanswers a ha

/-! ### After the memory was cleared -/

theorem perform_lacks (h : c.table.Lacks s) (hanswer : (c.perform op).1.number? ≠ some s) :
    (c.perform op).2.table.Lacks s := by
  cases op with
  | register limit command =>
    rcases c.register_cases limit command with ⟨e, -, heq⟩ | ⟨-, heq⟩
    · simp only [perform, heq]
      exact h
    · simp only [perform, heq] at hanswer ⊢
      intro e he
      rcases List.mem_cons.mp he with rfl | he
      · exact fun hn => hanswer (congrArg some hn)
      · exact h e he
  | nextSequence => exact h
  | resolve n => exact h.of_subset (c.table.entries_resolve_subset n)
  | forget n => exact h.of_subset (c.table.entries_remove_subset n)
  | cancel n =>
    show (c.cancel n).2.table.Lacks s
    rw [table_cancel]
    exact h.of_subset (c.table.entries_cancel_subset n)
  | drain =>
    show (c.drain).2.table.Lacks s
    rw [table_drain]
    exact h.of_subset (List.nil_subset _)

theorem run_lacks {allowed : Calls → Operation → Prop} (hrun : Run allowed c answers c')
    (h : c.table.Lacks s) (hanswers : ∀ a ∈ answers, a.number? ≠ some s) : c'.table.Lacks s := by
  induction hrun with
  | nil => exact h
  | cons op _ _ _ ih =>
    have hnext := perform_lacks h (hanswers _ List.mem_cons_self)
    exact ih hnext fun a ha => hanswers a (List.mem_cons_of_mem _ ha)

/-! ### The late reply -/

theorem remembers_of_cancel (h : (c.cancel s).1 = true) : (c.cancel s).2.table.Remembers s := by
  rw [table_cancel]
  rcases hcancel : c.table.cancel s with ⟨_ | e, t⟩
  · unfold cancel at h
    rw [hcancel] at h
    cases h
  · have hsome : (c.table.cancel s).1 = some e := by rw [hcancel]
    have hremembers := PendingTable.remembers_cancel hsome
    rw [hcancel] at hremembers
    exact hremembers

/-- **A late reply is recognised while its call is remembered.**  After a `cancel` that returned
true, and until the number is resolved or the remembered numbers are forgotten, no operation gives
the number out, and it resolves to `cancelled`.  If they were forgotten, it does not resolve to a
call in flight unless it was given out again. -/
theorem late_reply_recognised (h : (c.cancel s).1 = true) :
    (∀ answers c',
      Run (fun c op => op ≠ .drain ∧ op ≠ .resolve s ∧ ¬ c.ClearsMemory op) (c.cancel s).2 answers c' →
        (∀ a ∈ answers, a.number? ≠ some s) ∧ (c'.resolve s).1 = .cancelled) ∧
    (∀ answers c', Run (fun _ op => op ≠ .drain ∧ op ≠ .resolve s) (c.cancel s).2 answers c' →
      (∀ a ∈ answers, a.number? ≠ some s) →
        (c'.resolve s).1 = .cancelled ∨ (c'.resolve s).1 = .unknown) := by
  have hremembers := remembers_of_cancel h
  refine ⟨?_, ?_⟩
  · intro answers c' hrun
    obtain ⟨hlast, hanswers⟩ := run_remembers hrun hremembers
    exact ⟨hanswers, hlast.resolve_self⟩
  · intro answers c' hrun hanswers
    have hlacks := run_lacks hrun hremembers.lacks hanswers
    show (c'.table.resolve s).1 = _ ∨ (c'.table.resolve s).1 = _
    rcases c'.table.resolve_cases s with ⟨e, he, hn, -⟩ | ⟨-, -, heq⟩ | ⟨-, -, heq⟩
    · exact absurd hn (hlacks e he)
    · rw [heq]
      exact .inl rfl
    · rw [heq]
      exact .inr rfl

/-- The counter has wrapped to the number of a cancelled call, and another number is given out. -/
theorem late_reply_recognised_around :
    let c : Calls := { table := { next := 1, entries := [⟨1, 3, 0⟩] }, slots := [.waiting] }
    (c.cancel 1).1 = true ∧ ∃ n c',
      Run (fun c op => op ≠ .drain ∧ op ≠ .resolve 1 ∧ ¬ c.ClearsMemory op) (c.cancel 1).2
          [.numbered n] c' ∧
        n ≠ 1 ∧ (c'.resolve 1).1 = .cancelled := by
  intro c
  have hcancel : (c.cancel 1).1 = true := rfl
  have hends : (c.cancel 1).2.Ends .nextSequence := ⟨2, by decide⟩
  have hclears : ¬ (c.cancel 1).2.ClearsMemory .nextSequence := fun ⟨_, heq, _⟩ => by cases heq
  have hrun : Run (fun c op => op ≠ .drain ∧ op ≠ .resolve 1 ∧ ¬ c.ClearsMemory op)
      (c.cancel 1).2 [.numbered (c.cancel 1).2.table.allocate.1] _ :=
    .cons .nextSequence ⟨nofun, nofun, hclears⟩ hends (.nil _)
  obtain ⟨hanswers, hresolve⟩ := (late_reply_recognised hcancel).1 _ _ hrun
  refine ⟨hcancel, _, _, hrun, ?_, hresolve⟩
  intro heq
  exact hanswers _ List.mem_cons_self (congrArg some heq)

/-! ### The memory cleared, and the counter come round -/

section Wrapped

variable {allowed : Calls → Operation → Prop}

theorem exists_run_numbers (hallowed : ∀ c, allowed c .nextSequence) (k : Nat) (c : Calls)
    (hfree : ∀ j < k, c.table.isFree (c.table.next + .ofNat j)) :
    ∃ answers c', Run allowed c answers c' ∧
      c'.table = { c.table with next := c.table.next + .ofNat k } := by
  induction k generalizing c with
  | zero => exact ⟨[], c, .nil c, by rw [show UInt32.ofNat 0 = 0 from rfl, UInt32.add_zero]⟩
  | succ k ih =>
    have hnext : c.table.isFree c.table.next := by
      have hzero := hfree 0 (Nat.succ_pos k)
      rwa [show UInt32.ofNat 0 = 0 from rfl, UInt32.add_zero] at hzero
    have htable : (c.perform .nextSequence).2.table = { c.table with next := c.table.next + 1 } := by
      show c.table.allocate.2 = _
      rw [PendingTable.allocate_eq_of_isFree hnext]
    have hshift (j : Nat) : c.table.next + 1 + UInt32.ofNat j = c.table.next + .ofNat (j + 1) := by
      rw [UInt32.add_assoc, UInt32.ofNat_add, UInt32.add_comm 1]
      rfl
    obtain ⟨answers, c', hrun, hc'⟩ := ih (c.perform .nextSequence).2 (by
      intro j hj
      rw [htable]
      show c.table.isFree (c.table.next + 1 + .ofNat j) = true
      rw [hshift]
      exact hfree (j + 1) (Nat.succ_lt_succ hj))
    refine ⟨_, c', .cons .nextSequence (hallowed c) ⟨_, hnext⟩ hrun, ?_⟩
    rw [hc', htable]
    show PendingTable.mk (c.table.next + 1 + .ofNat k) _ _ _ = _
    rw [hshift]

theorem register_empty (hentries : c.table.entries = []) (hopen : c.table.isClosed = false)
    (hfree : c.table.isFree c.table.next) (command : UInt32) :
    c.Ends (.register 16 command) ∧ c.perform (.register 16 command) =
      (.registered c.table.next c.slots.length,
        { table := { c.table with
            next := c.table.next + 1
            entries := [⟨c.table.next, command, c.slots.length⟩] }
          slots := c.slots ++ [.waiting] }) := by
  have hrefusal : c.table.refusal? 16 = none := by
    unfold PendingTable.refusal? PendingTable.size
    rw [hopen, hentries]
    rfl
  refine ⟨fun _ => ⟨_, hfree⟩, ?_⟩
  rcases c.register_cases 16 command with ⟨e, he, -⟩ | ⟨-, heq⟩
  · rw [hrefusal] at he
    cases he
  · unfold perform
    simp only [heq, PendingTable.allocate_eq_of_isFree hfree, hentries]

theorem cancel_single {t : PendingTable} {e : Entry} {n : UInt32} (hentries : t.entries = [e])
    (he : e.sequence = n) (hn : n ∉ t.cancelled) :
    (t.cancel n).2 = { t with
      entries := []
      cancelled := n ::
        if t.cancelled.length > PendingTable.cancelledSlack then [] else t.cancelled } := by
  have hremove : t.remove n = (some e, { t with entries := [] }) := by
    simp [PendingTable.remove, PendingTable.find?, hentries, he]
  have hkept : t.cancelled.filter (· != n) = t.cancelled := by
    rw [List.filter_eq_self]
    intro m hm
    exact bne_iff_ne.mpr fun heq => hn (heq ▸ hm)
  unfold PendingTable.cancel
  rw [hremove]
  by_cases hfull : t.cancelled.length > PendingTable.cancelledSlack
  · simp [PendingTable.size, hfull]
  · simp [PendingTable.size, hfull, hkept]

/-- A call that is registered and cancelled at once leaves its number among those remembered, which
are forgotten before if they are too many. -/
theorem exists_run_cancelled (hregister : ∀ c, allowed c (.register 16 3))
    (hcancel : ∀ c n, allowed c (.cancel n)) (hentries : c.table.entries = [])
    (hopen : c.table.isClosed = false) (hfree : c.table.isFree c.table.next) :
    ∃ answers c', Run allowed c answers c' ∧
      c'.table = {
        next := c.table.next + 1
        cancelled := c.table.next ::
          if c.table.cancelled.length > PendingTable.cancelledSlack then [] else c.table.cancelled } := by
  obtain ⟨hends, hperform⟩ := register_empty hentries hopen hfree 3
  have hunused : c.table.next ∉ c.table.cancelled := (PendingTable.isFree_iff_lacks.mp hfree).2
  refine ⟨_, _, .cons _ (hregister c) hends (.cons (.cancel c.table.next) (hcancel _ _) trivial
    (.nil _)), ?_⟩
  let t : PendingTable := { c.table with
    next := c.table.next + 1
    entries := [⟨c.table.next, 3, c.slots.length⟩] }
  have hsingle : (t.cancel c.table.next).2 = _ := cancel_single rfl rfl hunused
  rw [hperform]
  show (Calls.cancel _ _).2.table = _
  rw [table_cancel, hsingle, hopen]

/-- The numbers up to `k` were given to calls that were cancelled. -/
structure HasCancelled (c : Calls) (k : Nat) : Prop where
  next : c.table.next = .ofNat (k + 1)
  entries : c.table.entries = []
  isOpen : c.table.isClosed = false
  length : c.table.cancelled.length = k
  le : ∀ n ∈ c.table.cancelled, n.toNat ≤ k

theorem HasCancelled.isFree {k : Nat} (h : HasCancelled c k) (hk : k + 1 < UInt32.size) :
    c.table.isFree c.table.next := by
  rw [PendingTable.isFree_iff_lacks]
  refine ⟨?_, ?_⟩
  · intro e he
    rw [h.entries] at he
    cases he
  · intro hmem
    have hle := h.le _ hmem
    have hnext : (UInt32.ofNat (k + 1)).toNat = k + 1 := UInt32.toNat_ofNat_of_lt hk
    rw [h.next, hnext] at hle
    omega

theorem HasCancelled.exists_run_succ {k : Nat} (h : HasCancelled c k)
    (hk : k ≤ PendingTable.cancelledSlack) (hregister : ∀ c, allowed c (.register 16 3))
    (hcancel : ∀ c n, allowed c (.cancel n)) :
    ∃ answers c', Run allowed c answers c' ∧ HasCancelled c' (k + 1) := by
  have hsize : k + 1 < UInt32.size := by
    have hslack : PendingTable.cancelledSlack + 1 < UInt32.size := by decide
    omega
  obtain ⟨answers, c', hrun, hc'⟩ :=
    exists_run_cancelled hregister hcancel h.entries h.isOpen (h.isFree hsize)
  rw [if_neg (by rw [h.length]; omega)] at hc'
  refine ⟨answers, c', hrun, ?_⟩
  constructor
  case next =>
    rw [hc', h.next]
    exact (UInt32.ofNat_add (k + 1) 1).symm
  case entries => rw [hc']
  case isOpen => rw [hc']
  case length =>
    rw [hc']
    exact congrArg (· + 1) h.length
  case le =>
    rw [hc']
    intro n hn
    rcases List.mem_cons.mp hn with rfl | hn
    · rw [h.next]
      exact Nat.le_of_eq (UInt32.toNat_ofNat_of_lt hsize)
    · exact Nat.le_succ_of_le (h.le n hn)

theorem exists_run_hasCancelled (hregister : ∀ c, allowed c (.register 16 3))
    (hcancel : ∀ c n, allowed c (.cancel n)) {k m : Nat} (hkm : k ≤ m)
    (hm : m ≤ PendingTable.cancelledSlack + 1) (h : HasCancelled c k) :
    ∃ answers c', Run allowed c answers c' ∧ HasCancelled c' m := by
  induction hkm with
  | refl => exact ⟨[], c, .nil c, h⟩
  | step _ ih =>
    obtain ⟨answers, c', hrun, hc'⟩ := ih (by omega)
    obtain ⟨more, c'', hmore, hc''⟩ :=
      hc'.exists_run_succ (by omega) hregister hcancel
    exact ⟨_, c'', hrun.append hmore, hc''⟩

/-- The counter gets from behind the last cancelled call to the number of the first, because every
number on the way is free. -/
theorem exists_run_around (hallowed : ∀ c, allowed c .nextSequence)
    (htable : c.table = { next := 1027, cancelled := [1026] }) :
    ∃ answers c', Run allowed c answers c' ∧ c'.table = { next := 1, cancelled := [1026] } := by
  have hfree : ∀ j < UInt32.size - 1026, c.table.isFree (c.table.next + .ofNat j) := by
    intro j hj
    have hused : ∀ n ∈ c.table.used, 1026 ≤ n.toNat ∧ n.toNat < c.table.next.toNat := by
      rw [htable]
      exact List.forall_mem_singleton.mpr (by decide)
    have hnext : c.table.next.toNat = 1027 := by
      rw [htable]
      rfl
    exact PendingTable.isFree_add_ofNat hused (by omega)
  obtain ⟨answers, c', hrun, hc'⟩ := exists_run_numbers hallowed _ c hfree
  refine ⟨answers, c', hrun, ?_⟩
  rw [hc', htable]
  rfl

/-- **A late reply can reach a newer call.**  The first call is cancelled, and so are enough others
for its number to be forgotten.  When the counter has wrapped, a newer call is registered with it,
and it resolves to that one. -/
theorem late_reply_reaches_newer_call :
    ∃ c, Run (fun _ op => op ≠ .drain) {} [.registered 1 0] c ∧ (c.cancel 1).1 = true ∧
      ∃ answers c' slot, Run (fun _ op => op ≠ .drain ∧ op ≠ .resolve 1) (c.cancel 1).2 answers c' ∧
        .registered 1 slot ∈ answers ∧ (c'.resolve 1).1 = .pending ⟨1, 4, slot⟩ := by
  let allowed : Calls → Operation → Prop := fun _ op => op ≠ .drain ∧ op ≠ .resolve 1
  have hregister : ∀ command c, allowed c (.register 16 command) := fun _ _ => ⟨nofun, nofun⟩
  have hcancel : ∀ c n, allowed c (.cancel n) := fun _ _ => ⟨nofun, nofun⟩
  have hnumber : ∀ c, allowed c .nextSequence := fun _ => ⟨nofun, nofun⟩
  obtain ⟨hends, hperform⟩ := register_empty (c := {}) rfl rfl (by decide) 3
  let c : Calls := { table := { next := 2, entries := [⟨1, 3, 0⟩] }, slots := [.waiting] }
  have hfirst : Run (fun _ op => op ≠ .drain) {} [.registered 1 0] c := by
    refine .single ?_ hends hperform
    exact nofun
  have hmemory : HasCancelled (c.cancel 1).2 1 := by
    constructor
    · rfl
    · rfl
    · rfl
    · rfl
    · intro n hn
      rw [show (c.cancel 1).2.table.cancelled = [1] from rfl] at hn
      rw [List.mem_singleton.mp hn]
      exact Nat.le_refl 1
  -- The memory holds 1025 numbers before it is cleared.
  obtain ⟨as₁, c₁, hrun₁, hfull⟩ :=
    exists_run_hasCancelled (hregister 3) hcancel (show 1 ≤ 1025 by omega) (Nat.le_refl _) hmemory
  obtain ⟨as₂, c₂, hrun₂, hc₂⟩ := exists_run_cancelled (hregister 3) hcancel hfull.entries
    hfull.isOpen (hfull.isFree (by decide))
  rw [hfull.next, if_pos (by rw [hfull.length]; decide)] at hc₂
  obtain ⟨as₃, c₃, hrun₃, hc₃⟩ := exists_run_around hnumber hc₂
  obtain ⟨hends₃, hnewer⟩ := register_empty (by rw [hc₃]) (by rw [hc₃])
    (by rw [hc₃]; decide) 4
  have hlast := Run.single (hregister 4 c₃) hends₃ hnewer
  refine ⟨c, hfirst, rfl, _, _, c₃.slots.length,
    hrun₁.append (hrun₂.append (hrun₃.append hlast)), ?_, ?_⟩
  · have hanswer : Answer.registered 1 c₃.slots.length ∈
        [Answer.registered c₃.table.next c₃.slots.length] := by
      rw [hc₃]
      exact List.mem_singleton.mpr rfl
    exact List.mem_append_right _ (List.mem_append_right _ (List.mem_append_right _ hanswer))
  · have hafter : PendingTable.isFree { next := 2, cancelled := [1026] } 1 := by decide
    show (PendingTable.resolve _ 1).1 = _
    rw [hc₃]
    exact congrArg Prod.fst (PendingTable.resolve_cons hafter)

end Wrapped

end Calls

end CallWire
