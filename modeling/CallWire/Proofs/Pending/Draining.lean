import CallWire.Proofs.Pending.Counting
import CallWire.Proofs.Pending.Outcomes

/-!
# CallWire.Proofs.Pending.Draining — the end of a table

Who drains a table takes all calls in flight out of it, and nothing gets in again.  Because the slot
of a call is waiting for as long as the call is in the table, each of them comes to be resolved by
the drain, and by nothing else; so that the calls it has taken out, those it has resolved and those
it counts are the same.  What had an outcome before keeps it.
-/

namespace CallWire

/-- The calls as they are after any run: no two in flight have the same number or slot, and the slot
of each is waiting. -/
structure Calls.IsTidy (c : Calls) : Prop where
  numbers : (c.table.entries.map Entry.sequence).Nodup
  slots : (c.table.entries.map Entry.slot).Nodup
  waiting : ∀ e ∈ c.table.entries, e.slot < c.slots.length ∧ c.slot e.slot = .waiting

namespace Calls

variable {c : Calls}

theorem completeAll_of_waiting {entries : List Entry} (outcome : Outcome)
    (hslots : (entries.map Entry.slot).Nodup)
    (hwaiting : ∀ e ∈ entries, e.slot < c.slots.length ∧ c.slot e.slot = .waiting) :
    (c.completeAll outcome entries).1 = entries.length ∧
      (∀ e ∈ entries, (c.completeAll outcome entries).2.slot e.slot = .resolved outcome) ∧
      ∀ i, (∀ e ∈ entries, e.slot ≠ i) →
        (c.completeAll outcome entries).2.slot i = c.slot i := by
  induction entries generalizing c with
  | nil => exact ⟨rfl, fun e he => (List.not_mem_nil he).elim, fun i _ => rfl⟩
  | cons e entries ih =>
    rw [List.map_cons, List.nodup_cons] at hslots
    obtain ⟨hnew, hslots⟩ := hslots
    -- The slots differ, so completing the first leaves the others waiting.
    have hothers : ∀ e' ∈ entries, e'.slot ≠ e.slot := by
      intro e' he' heq
      exact hnew (heq ▸ List.mem_map_of_mem he')
    obtain ⟨hlt, hfirst⟩ := hwaiting e List.mem_cons_self
    obtain ⟨htrue, hself⟩ := slot_complete_self hlt hfirst outcome
    have hlength : (c.complete e.slot outcome).2.slots.length = c.slots.length := List.length_set
    have hrest : ∀ e' ∈ entries, e'.slot < (c.complete e.slot outcome).2.slots.length ∧
        (c.complete e.slot outcome).2.slot e'.slot = .waiting := by
      intro e' he'
      obtain ⟨hlt', hwaiting'⟩ := hwaiting e' (List.mem_cons_of_mem _ he')
      rw [hlength, slot_complete_ne (hothers e' he')]
      exact ⟨hlt', hwaiting'⟩
    obtain ⟨hcount, hresolved, hkept⟩ := ih hslots hrest
    refine ⟨?_, ?_, ?_⟩
    · show ((c.complete e.slot outcome).2.completeAll outcome entries).1 +
        (c.complete e.slot outcome).1.toNat = entries.length + 1
      rw [hcount, htrue]
      rfl
    · intro e' he'
      rcases List.mem_cons.mp he' with rfl | he'
      · exact (hkept e'.slot hothers).trans hself
      · exact hresolved e' he'
    · intro i hi
      have hne : i ≠ e.slot := (hi e List.mem_cons_self).symm
      exact (hkept i fun e' he' => hi e' (List.mem_cons_of_mem _ he')).trans
        (slot_complete_ne hne outcome)

theorem IsTidy.drain (h : c.IsTidy) :
    c.drain.1 = c.pending ∧
      (∀ e ∈ c.table.entries, c.drain.2.slot e.slot = .resolved (.error .disconnected)) ∧
      ∀ i, c.slot i ≠ .waiting → c.drain.2.slot i = c.slot i := by
  obtain ⟨hcount, hresolved, hkept⟩ := completeAll_of_waiting
    (c := { c with table := c.table.drain.2 }) (.error .disconnected) h.slots h.waiting
  refine ⟨hcount, hresolved, fun i hi => hkept i ?_⟩
  rintro e he rfl
  exact hi (h.waiting e he).2

/-- The table registers nothing, and finds nothing. -/
structure RefusesAll (c : Calls) : Prop where
  register : ∀ limit command, c.register limit command = (.error .disconnected, c)
  resolve : ∀ n, c.resolve n = (.unknown, c)
  cancel : ∀ n, c.cancel n = (false, c)
  drain : c.drain = (0, c)

theorem refusesAll (hclosed : c.table.isClosed = true) (hentries : c.table.entries = [])
    (hcancelled : c.table.cancelled = []) : c.RefusesAll where
  register := by
    intro limit command
    have hrefusal : c.table.refusal? limit = some .disconnected := if_pos hclosed
    rcases c.register_cases limit command with ⟨e, he, heq⟩ | ⟨hnone, -⟩
    · rw [heq, ← Option.some.inj (hrefusal.symm.trans he)]
    · rw [hrefusal] at hnone
      cases hnone
  resolve := by
    intro n
    unfold Calls.resolve
    rcases c.table.resolve_cases n with ⟨e, he, -⟩ | ⟨-, hn, -⟩ | ⟨-, -, heq⟩
    · rw [hentries] at he
      cases he
    · rw [hcancelled] at hn
      cases hn
    · rw [heq]
  cancel := by
    intro n
    unfold Calls.cancel
    rcases c.table.cancel_cases n with ⟨e, he, -⟩ | ⟨-, heq⟩
    · rw [hentries] at he
      cases he
    · rw [heq]
  drain := by
    have htable : c.table.drain = ([], c.table) := by
      unfold PendingTable.drain
      rw [hentries, ← hcancelled, ← hclosed, ← hentries]
    unfold Calls.drain
    rw [htable]
    rfl

end Calls

namespace Race

variable {r r' : Race}

theorem Inv.isTidy (h : r.Inv) : r.calls.IsTidy where
  numbers := h.numbers
  slots := by
    have hslots := h.slots_nodup
    rw [List.map_append] at hslots
    exact (List.nodup_append.mp hslots).1
  waiting := by
    intro e he
    exact ⟨h.slot_lt (h.entries_subset he), h.waiting e (List.mem_append_left _ he)⟩

theorem Inv.run (h : r.Inv) (hrun : Relation.ReflTransGen Step r r') : r'.Inv := by
  induction hrun with
  | refl => exact h
  | tail _ hstep ih => exact ih.step hstep

/-! ### An outcome stays -/

theorem Step.keeps_outcome (hstep : r.Step r') (h : r.Inv) {i : Nat} {o : Outcome}
    (ho : r.outcome? i = some o) : r'.outcome? i = some o := by
  cases hstep with
  | register limit command hends =>
    rcases r.register_cases limit command with ⟨-, heq⟩ | ⟨-, e, -, heq⟩
    · rw [heq]
      exact ho
    · have hslot : (r.register limit command).calls.slot i = r.calls.slot i := by
        rw [heq]
        exact Calls.slot_append_waiting i
      have hgot : (r.register limit command).got = r.got := by rw [heq]
      exact (outcome?_congr hslot hgot).trans ho
  | number hends => exact ho
  | take d => exact ho
  | @complete before after p e hp he =>
    have hparty : p ∈ r.parties := by
      rw [hp]
      exact List.mem_append_right _ List.mem_cons_self
    have hne : i ≠ e.slot := by
      rintro rfl
      rw [h.outcome?_held hparty he] at ho
      cases ho
    exact (outcome?_complete_ne hne).trans ho
  | forget n => exact ho
  | wait hnew hpoll => exact ((h.outcome?_wait hnew hpoll).2 i).trans ho

theorem Inv.keeps_outcome (h : r.Inv) (hrun : Relation.ReflTransGen Step r r') {i : Nat}
    {o : Outcome} (ho : r.outcome? i = some o) : r'.outcome? i = some o := by
  induction hrun with
  | refl => exact ho
  | tail hrun hstep ih => exact hstep.keeps_outcome (h.run hrun) ih

theorem Inv.count_eq (h : r.Inv) {p : Party} (hp : p ∈ r.parties) : p.count = p.done.length := by
  unfold Party.count Party.done
  rw [List.length_map, List.countP_eq_length]
  exact fun c hc => (h.settled p hp c hc).1

/-! ### The table once it was drained -/

def Drained (r : Race) : Prop := r.calls.table.isClosed = true ∧ r.calls.table.entries = []

theorem Drained.register (h : r.Drained) (limit : Nat) (command : UInt32) :
    r.register limit command = r := by
  rcases r.register_cases limit command with ⟨-, heq⟩ | ⟨hrefusal, -⟩
  · exact heq
  · unfold PendingTable.refusal? at hrefusal
    rw [if_pos h.1] at hrefusal
    cases hrefusal

theorem drained_take_drain (r : Race) : (r.take .drain).Drained := ⟨rfl, rfl⟩

theorem Drained.step (h : r.Drained) (hstep : r.Step r') : r'.Drained := by
  cases hstep with
  | register limit command hends =>
    rw [h.register]
    exact h
  | number hends => exact h
  | take d =>
    by_cases hd : d = .drain
    · subst hd
      exact r.drained_take_drain
    · have hsublist := r.calls.table.entries_take_sublist d
      rw [h.2] at hsublist
      exact ⟨(PendingTable.take_rest hd).2.1.trans h.1, List.eq_nil_of_sublist_nil hsublist⟩
  | complete hp he => exact h
  | forget n =>
    show (r.calls.table.remove n).2.isClosed = true ∧ (r.calls.table.remove n).2.entries = []
    rcases r.calls.table.remove_cases n with ⟨e, he, -⟩ | ⟨-, heq⟩
    · rw [h.2] at he
      cases he
    · rw [heq]
      exact h
  | wait hnew hpoll => exact h

def Emptied (r : Race) : Prop := r.Drained ∧ r.calls.table.cancelled = []

theorem emptied_take_drain (r : Race) : (r.take .drain).Emptied := ⟨r.drained_take_drain, rfl⟩

theorem Emptied.step (h : r.Emptied) (hstep : r.Step r') : r'.Emptied := by
  refine ⟨h.1.step hstep, ?_⟩
  cases hstep with
  | register limit command hends =>
    rw [h.1.register]
    exact h.2
  | number hends => exact h.2
  | take d =>
    by_cases hd : d = .drain
    · subst hd
      exact r.emptied_take_drain.2
    · refine List.eq_nil_iff_forall_not_mem.mpr fun n hn => ?_
      rcases (PendingTable.take_rest hd).2.2 n hn with hn | ⟨e, he, -⟩
      · rw [h.2] at hn
        cases hn
      · rw [h.1.2] at he
        cases he
  | complete hp he => exact h.2
  | forget n =>
    show (r.calls.table.remove n).2.cancelled = []
    rcases r.calls.table.remove_cases n with ⟨e, he, -⟩ | ⟨-, heq⟩
    · rw [h.1.2] at he
      cases he
    · rw [heq]
      exact h.2
  | wait hnew hpoll => exact h.2

theorem Emptied.run (h : r.Emptied) (hrun : Relation.ReflTransGen Step r r') : r'.Emptied := by
  induction hrun with
  | refl => exact h
  | tail _ hstep ih => exact ih.step hstep

theorem Emptied.take_eq_nil (h : r.Emptied) (d : Deed) : (d.take r.calls.table).1 = [] := by
  rcases r.calls.table.take_cases d with ⟨e, he, -⟩ | ⟨hnone, -⟩ | ⟨-, heq⟩
  · rw [h.1.2] at he
    cases he
  · exact hnone
  · rw [heq]
    exact h.1.2

/-! ### Draining -/

/-- What `drain` does to these calls, from now on. -/
structure DrainsForGood (r : Race) : Prop where
  /-- If nothing else happens meanwhile, every call in flight is resolved, as many are counted as
  were in flight, and what has an outcome keeps it. -/
  alone : r.calls.drain.1 = r.calls.pending ∧
    (∀ e ∈ r.calls.table.entries,
      r.calls.drain.2.slot e.slot = .resolved (.error .disconnected)) ∧
    (∀ i, r.calls.slot i ≠ .waiting → r.calls.drain.2.slot i = r.calls.slot i) ∧
    ∃ r', Relation.ReflTransGen Step (r.take .drain) r' ∧ r'.calls = r.calls.drain.2
  /-- Whatever happens meanwhile, those who drain have removed what was in flight, and once they
  have completed it they have counted just that. -/
  all : ∀ r', Relation.ReflTransGen Step (r.take .drain) r' →
    ∃ p, r'.parties[r.parties.length]? = some p ∧ p.deed = .drain ∧
      p.taken.Perm r.calls.table.entries ∧ (p.held = [] → p.count = r.calls.pending ∧
        ∀ e ∈ r.calls.table.entries, r'.outcome? e.slot = some (.error .disconnected))
  /-- From then on the table is closed and empty, and refuses everything. -/
  lasting : ∀ r', Relation.ReflTransGen Step (r.take .drain) r' →
    r'.calls.table.isClosed = true ∧ r'.calls.table.entries = [] ∧
      r'.calls.table.cancelled = [] ∧ r'.calls.RefusesAll
  /-- A delivery, a cancellation or a drain that comes later finds nothing. -/
  late : ∀ r', Relation.ReflTransGen Step (r.take .drain) r' →
    ∀ d r'', Relation.ReflTransGen Step (r'.take d) r'' →
      ∃ p, r''.parties[r'.parties.length]? = some p ∧ p.deed = d ∧ p.taken = [] ∧ p.count = 0
  /-- What had an outcome before keeps it. -/
  kept : ∀ r', Relation.ReflTransGen Step (r.take .drain) r' →
    ∀ i o, r.outcome? i = some o → r'.outcome? i = some o

theorem Emptied.late (h : r.Emptied) (d : Deed) (hrun : Relation.ReflTransGen Step (r.take d) r') :
    ∃ p, r'.parties[r.parties.length]? = some p ∧ p.deed = d ∧ p.taken = [] ∧ p.count = 0 := by
  obtain ⟨p, hp, hdeed, htaken⟩ := keeps_taken hrun
  rw [h.take_eq_nil] at htaken
  have hempty := htaken.eq_nil
  have hcompleted : p.completed = [] :=
    List.map_eq_nil_iff.mp (List.append_eq_nil_iff.mp hempty).2
  refine ⟨p, hp, hdeed, hempty, ?_⟩
  unfold Party.count
  rw [hcompleted]
  rfl

theorem exists_run_drain (r : Race) :
    ∃ r', Relation.ReflTransGen Step (r.take .drain) r' ∧ r'.calls = r.calls.drain.2 := by
  obtain ⟨r', completed, hrun, -, hcalls, -⟩ :=
    exists_run_completeEach Step.complete r.calls.table.entries (r.take .drain) [] rfl
  refine ⟨r', hrun, hcalls.trans ?_⟩
  rw [Calls.drain_eq_act]
  rfl

theorem Inv.drains_all (h : r.Inv) (hrun : Relation.ReflTransGen Step (r.take .drain) r') :
    ∃ p, r'.parties[r.parties.length]? = some p ∧ p.deed = .drain ∧
      p.taken.Perm r.calls.table.entries ∧ (p.held = [] → p.count = r.calls.pending ∧
        ∀ e ∈ r.calls.table.entries, r'.outcome? e.slot = some (.error .disconnected)) := by
  obtain ⟨p, hp, hdeed, htaken⟩ := keeps_taken hrun
  have hinv := (h.take .drain).run hrun
  have hparty := List.mem_of_getElem? hp
  refine ⟨p, hp, hdeed, htaken, fun hheld => ⟨?_, ?_⟩⟩
  · have hdone : p.done.length = p.taken.length := by
      unfold Party.taken
      rw [hheld, List.nil_append]
    rw [hinv.count_eq hparty, hdone]
    exact htaken.length_eq
  · intro e he
    have houtcome := (hinv.outcome?_taken hparty hheld (htaken.mem_iff.mpr he)).2
    rw [hdeed] at houtcome
    exact houtcome

/-- **Draining is complete and final.**  From every reachable state, `drain` resolves and counts
exactly the calls in flight, and nothing gets into the table or is found there again. -/
theorem drains_for_good (h : r.Reachable) : r.DrainsForGood where
  alone := by
    obtain ⟨hcount, hresolved, hkept⟩ := h.inv.isTidy.drain
    exact ⟨hcount, hresolved, hkept, r.exists_run_drain⟩
  all := fun _ hrun => h.inv.drains_all hrun
  lasting := by
    intro r' hrun
    obtain ⟨⟨hclosed, hentries⟩, hcancelled⟩ := r.emptied_take_drain.run hrun
    exact ⟨hclosed, hentries, hcancelled, Calls.refusesAll hclosed hentries hcancelled⟩
  late := fun _ hrun d _ hrun' => (r.emptied_take_drain.run hrun).late d hrun'
  kept := fun _ hrun i o ho => (h.inv.take .drain).keeps_outcome hrun ho

/-- Of four calls, one has been replied to and one cancelled before the table is drained. -/
theorem drains_for_good_two :
    ∃ r : Race, r.Reachable ∧ r.calls.table.entries = [⟨4, 8, 3⟩, ⟨3, 7, 2⟩] ∧
      r.calls.table.cancelled = [2] ∧ r.outcome? 0 = some (.ok [9]) ∧ r.calls.drain.1 = 2 ∧
      r.DrainsForGood := by
  let first : Entry := ⟨1, 5, 0⟩
  let second : Entry := ⟨2, 6, 1⟩
  have h₁ : Reachable _ := .single (.register_of_isFree 16 5 rfl (by decide))
  have h₂ : Reachable _ := h₁.tail (.register_of_isFree 16 6 rfl (by decide))
  have h₃ : Reachable _ := h₂.tail (.register_of_isFree 16 7 rfl (by decide))
  have h₄ : Reachable _ := h₃.tail (.register_of_isFree 16 8 rfl (by decide))
  have h₅ : Reachable _ := (h₄.tail (.take (.deliver ⟨.reply 5 1, [9]⟩))).tail
    (@Step.complete _ [] [] ⟨.deliver ⟨.reply 5 1, [9]⟩, [first], []⟩ first rfl
      List.mem_cons_self)
  have h₆ : Reachable _ := h₅.tail (.take (.cancel 2))
  exact ⟨_, h₆, rfl, rfl, rfl, rfl, drains_for_good h₆⟩

end Race

end CallWire
