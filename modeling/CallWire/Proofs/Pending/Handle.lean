import CallWire.Connection.Call
import CallWire.Proofs.Pending.Counting
import CallWire.Proofs.Pending.InUse
import CallWire.Proofs.Pending.Outcomes

/-!
# CallWire.Proofs.Pending.Handle — what is cancelled through the handle of a call

The handle of a call holds its number and nothing else.  What is cancelled through it is whatever
call in flight has that number by then: the call itself or none, until the counter has come round
and the number, once it is no longer in use, has been given to another call.
-/

namespace CallWire

theorem PendingTable.take_cancel_cases (t : PendingTable) (n : UInt32) :
    (∃ e ∈ t.entries, e.sequence = n ∧ ((Deed.cancel n).take t).1 = [e]) ∨
      (t.Lacks n ∧ ((Deed.cancel n).take t).1 = []) := by
  rw [Deed.take_cancel]
  rcases t.cancel_cases n with ⟨e, he, hn, kept, -, heq⟩ | ⟨hlacks, heq⟩
  · rw [heq]
    exact .inl ⟨e, he, hn, rfl⟩
  · rw [heq]
    exact .inr ⟨hlacks, rfl⟩

theorem Connection.cancel_cases (c : Connection) (n : UInt32) :
    (∃ e ∈ c.calls.table.entries, e.sequence = n ∧
        (c.cancel n).2.calls.table.entries = (c.calls.table.without n).entries ∧
        ∀ i, i ≠ e.slot → (c.cancel n).2.calls.slot i = c.calls.slot i) ∨
      (c.calls.table.Lacks n ∧ c.cancel n = (false, c)) := by
  unfold cancel Calls.cancel
  rcases c.calls.table.cancel_cases n with ⟨e, he, hn, kept, -, heq⟩ | ⟨hlacks, heq⟩
  · rw [heq]
    exact .inl ⟨e, he, hn, rfl, fun i hi => Calls.slot_complete_ne hi _⟩
  · rw [heq]
    exact .inr ⟨hlacks, rfl⟩

namespace Race

variable {r r' : Race} {a : Entry}

/-! ### The handle of a call -/

/-- No other call in flight has the number of this one. -/
def IsCurrent (r : Race) (a : Entry) : Prop :=
  ∀ e ∈ r.calls.table.entries, e.sequence = a.sequence → e = a

/-- `cancel` through the handle of this call affects no other. -/
structure CancelsOnly (r : Race) (a : Entry) : Prop where
  /-- Whatever happens meanwhile, it removes and resolves this call or none. -/
  own : ∀ r', Relation.ReflTransGen Step (r.take (.cancel a.sequence)) r' →
    ∃ p, r'.parties[r.parties.length]? = some p ∧ p.deed = .cancel a.sequence ∧
      ∀ e ∈ p.taken, e = a
  /-- Every other call in flight stays there, and its slot waiting. -/
  others : ∀ c : Connection, c.calls = r.calls → ∀ e ∈ r.calls.table.entries, e ≠ a →
    e ∈ (c.cancel a.sequence).2.calls.table.entries ∧
      (c.cancel a.sequence).2.calls.slot e.slot = .waiting
  /-- If the call has an outcome, it returns false and changes nothing. -/
  late : ∀ o, r.outcome? a.slot = some o →
    (∀ r', Relation.ReflTransGen Step (r.take (.cancel a.sequence)) r' →
      ∃ p, r'.parties[r.parties.length]? = some p ∧ p.taken = [] ∧ p.succeeded = false) ∧
    ∀ c : Connection, c.calls = r.calls → c.cancel a.sequence = (false, c)

theorem Reachable.isCurrent (h : r.Reachable) (ha : a ∈ r.registered)
    (hfew : r.allocated < UInt32.size) : r.IsCurrent a := fun _ he hn =>
  List.inj_on_of_nodup_map (h.numbered hfew).distinct (h.inv.entries_subset he) ha hn

theorem Inv.eq_of_slot (h : r.Inv) {e : Entry} (ha : a ∈ r.registered) (he : e ∈ r.registered)
    (hslot : e.slot = a.slot) : e = a := by
  have hslots : (r.registered.map Entry.slot).Nodup := by
    rw [h.slots]
    exact List.nodup_range
  exact List.inj_on_of_nodup_map hslots he ha hslot

theorem IsCurrent.own (h : r.IsCurrent a) :
    ∀ e ∈ ((Deed.cancel a.sequence).take r.calls.table).1, e = a := by
  rcases r.calls.table.take_cancel_cases a.sequence with ⟨e, he, hn, heq⟩ | ⟨-, heq⟩
  · rw [heq]
    intro e' he'
    rw [List.mem_singleton.mp he']
    exact h e he hn
  · rw [heq]
    exact fun e he => (List.not_mem_nil he).elim

theorem IsCurrent.others (h : r.IsCurrent a) (hinv : r.Inv) {c : Connection}
    (hc : c.calls = r.calls) {e : Entry} (he : e ∈ r.calls.table.entries) (hne : e ≠ a) :
    e ∈ (c.cancel a.sequence).2.calls.table.entries ∧
      (c.cancel a.sequence).2.calls.slot e.slot = .waiting := by
  have hwaiting := hinv.waiting e (List.mem_append_left _ he)
  rcases c.cancel_cases a.sequence with ⟨e', he', hn, hentries, hslots⟩ | ⟨-, heq⟩
  · rw [hc] at he' hentries hslots
    obtain rfl := h e' he' hn
    have hslot : e.slot ≠ e'.slot := fun hs =>
      hne (hinv.eq_of_slot (hinv.entries_subset he') (hinv.entries_subset he) hs)
    rw [hentries, hslots _ hslot]
    exact ⟨List.mem_filter.mpr ⟨he, bne_iff_ne.mpr fun hs => hne (h e he hs)⟩, hwaiting⟩
  · rw [heq, hc]
    exact ⟨he, hwaiting⟩

theorem IsCurrent.lacks (h : r.IsCurrent a) (hinv : r.Inv) {o : Outcome}
    (ho : r.outcome? a.slot = some o) : r.calls.table.Lacks a.sequence := by
  intro e he hn
  obtain rfl := h e he hn
  unfold outcome? at ho
  rw [hinv.waiting e (List.mem_append_left _ he)] at ho
  cases ho

theorem take_cancel_of_lacks {n : UInt32} (h : r.calls.table.Lacks n) :
    ((Deed.cancel n).take r.calls.table).1 = [] ∧
      ∀ c : Connection, c.calls = r.calls → c.cancel n = (false, c) := by
  refine ⟨?_, ?_⟩
  · rcases r.calls.table.take_cancel_cases n with ⟨e, he, hn, -⟩ | ⟨-, heq⟩
    · exact absurd hn (h e he)
    · exact heq
  · intro c hc
    rcases c.cancel_cases n with ⟨e, he, hn, -⟩ | ⟨-, heq⟩
    · exact absurd hn (h e (hc ▸ he))
    · exact heq

theorem IsCurrent.cancelsOnly (h : r.IsCurrent a) (hinv : r.Inv) : r.CancelsOnly a where
  own := by
    intro r' hrun
    obtain ⟨p, hp, hdeed, htaken⟩ := keeps_taken hrun
    exact ⟨p, hp, hdeed, fun e he => h.own e (htaken.mem_iff.mp he)⟩
  others := fun c hc e he hne => h.others hinv hc he hne
  late := by
    intro o ho
    obtain ⟨hnone, hcancel⟩ := take_cancel_of_lacks (h.lacks hinv ho)
    refine ⟨?_, hcancel⟩
    intro r' hrun
    obtain ⟨p, hp, -, htaken⟩ := keeps_taken hrun
    rw [hnone] at htaken
    have hempty := htaken.eq_nil
    have hdone : p.completed = [] := List.map_eq_nil_iff.mp (List.append_eq_nil_iff.mp hempty).2
    refine ⟨p, hp, hempty, ?_⟩
    unfold Party.succeeded
    rw [hdone]
    rfl

theorem CancelsOnly.isCurrent (h : r.CancelsOnly a) (hinv : r.Inv) : r.IsCurrent a := by
  intro e he hn
  obtain ⟨p, hp, -, htaken⟩ := h.own _ .refl
  obtain ⟨p', hp', -, htaken'⟩ := keeps_taken (r := r) (d := .cancel a.sequence) .refl
  obtain rfl : p' = p := Option.some.inj (hp'.symm.trans hp)
  refine htaken e (htaken'.mem_iff.mpr ?_)
  rcases r.calls.table.take_cancel_cases a.sequence with ⟨e', he', hn', heq⟩ | ⟨hlacks, -⟩
  · rw [heq, List.inj_on_of_nodup_map hinv.numbers he he' (hn.trans hn'.symm)]
    exact List.mem_singleton_self e'
  · exact absurd hn (hlacks e he)

/-- **`cancel` affects no other call**, exactly as long as no other call in flight has its number;
which none has, in any order of calls, replies and cancellations, until the counter has wrapped. -/
theorem cancels_only (h : r.Reachable) (ha : a ∈ r.registered) :
    (r.CancelsOnly a ↔ r.IsCurrent a) ∧ (r.allocated < UInt32.size → r.CancelsOnly a) :=
  ⟨⟨fun hcancels => hcancels.isCurrent h.inv, fun hcurrent => hcurrent.cancelsOnly h.inv⟩,
    fun hfew => (h.isCurrent ha hfew).cancelsOnly h.inv⟩

def started : Race :=
  { calls := { table := { next := 2, entries := [⟨1, 3, 0⟩] }, slots := [.waiting] }
    registered := [⟨1, 3, 0⟩] }

def replied : Race :=
  (started.take (.deliver ⟨.reply 3 1, [7]⟩)).complete
    [] ⟨.deliver ⟨.reply 3 1, [7]⟩, [⟨1, 3, 0⟩], []⟩ [] ⟨1, 3, 0⟩

theorem reachable_replied : replied.Reachable := by
  have hstarted : Step {} started := .register_of_isFree 16 3 rfl (by decide)
  unfold replied
  exact ((Relation.ReflTransGen.single hstarted).tail (.take _)).tail
    (.complete rfl List.mem_cons_self)

/-- A call is cancelled that has been replied to, with another in flight. -/
theorem cancels_only_late :
    ∃ r : Race, r.Reachable ∧ ⟨1, 3, 0⟩ ∈ r.registered ∧ r.outcome? 0 = some (.ok [7]) ∧
      r.calls.table.entries = [⟨2, 4, 1⟩] ∧ r.allocated < UInt32.size ∧
      r.CancelsOnly ⟨1, 3, 0⟩ := by
  have hreachable := reachable_replied.tail (.register_of_isFree 16 4 rfl (by decide))
  have hfew : 2 < UInt32.size := by decide
  exact ⟨_, hreachable, List.mem_cons_self, rfl, rfl, hfew,
    (cancels_only hreachable List.mem_cons_self).2 hfew⟩

/-- Once the counter has wrapped, the handle of a call that was replied to cancels the newer call
with its number. -/
theorem cancels_newer :
    ∃ r : Race, r.Reachable ∧ r.registered = [⟨1, 3, 0⟩, ⟨1, 4, 1⟩] ∧
      r.outcome? 0 = some (.ok [7]) ∧ r.calls.table.entries = [⟨1, 4, 1⟩] ∧
      (∀ c : Connection, c.calls = r.calls →
        (c.cancel 1).1 = true ∧ (c.cancel 1).2.calls.table.entries = [] ∧
          (c.cancel 1).2.calls.slots = [.resolved (.ok [7]), .resolved (.error .cancelled)]) ∧
      ¬ r.CancelsOnly ⟨1, 3, 0⟩ := by
  obtain ⟨k, hround⟩ := exists_run_round (n := 1) replied nofun
  have hfree : { replied.calls.table with next := 1 }.isFree 1 := by decide
  have hreachable : Reachable _ := (reachable_replied.trans hround).tail
    (.register_of_isFree 16 4 rfl hfree)
  refine ⟨_, hreachable, rfl, rfl, rfl, ?_, ?_⟩
  · intro c hc
    unfold Connection.cancel
    rw [hc]
    exact ⟨rfl, rfl, rfl⟩
  · intro hcancels
    have hcurrent := hcancels.isCurrent hreachable.inv ⟨1, 4, 1⟩ List.mem_cons_self rfl
    cases hcurrent

end Race

end CallWire
