import CallWire.Proofs.Pending.Race

/-!
# CallWire.Proofs.Pending.Places — where a call is, from its registration on

What every step preserves is that a call is in one place: in the table, with the one party that took
it out, or with those that were forgotten.
-/

namespace CallWire

namespace Race

variable {r : Race}

/-- Every registered call is in the table, held, completed or forgotten, and has a slot of its own,
which waits until it is completed. -/
structure Inv (r : Race) : Prop where
  perm : r.registered.Perm (r.calls.table.entries ++ (r.held ++ (r.done ++ r.forgotten)))
  slots : r.registered.map Entry.slot = List.range r.calls.slots.length
  numbers : (r.calls.table.entries.map Entry.sequence).Nodup
  waiting : ∀ e ∈ r.calls.table.entries ++ (r.held ++ r.forgotten), r.calls.slot e.slot = .waiting
  settled : ∀ p ∈ r.parties, ∀ c ∈ p.completed,
    c.2 = true ∧ r.outcome? c.1.slot = some (p.deed.outcome c.1)
  single : ∀ p ∈ r.parties, ∀ n, p.deed.number? = some n →
    p.taken.length ≤ 1 ∧ ∀ e ∈ p.taken, e.sequence = n
  got : ∀ i o, (i, o) ∈ r.got → r.outcome? i = some o
  taken : ∀ i, r.calls.slot i = .taken → ∃ o, (i, o) ∈ r.got

theorem inv_new : Inv {} where
  perm := List.Perm.refl _
  slots := rfl
  numbers := List.nodup_nil
  waiting := fun e he => (List.not_mem_nil he).elim
  settled := fun p hp => (List.not_mem_nil hp).elim
  single := fun p hp => (List.not_mem_nil hp).elim
  got := fun i o h => (List.not_mem_nil h).elim
  taken := fun i h => by cases h

theorem Inv.slot_lt (h : r.Inv) {e : Entry} (he : e ∈ r.registered) :
    e.slot < r.calls.slots.length := by
  have hmem : e.slot ∈ r.registered.map Entry.slot := List.mem_map_of_mem he
  rw [h.slots] at hmem
  exact List.mem_range.mp hmem

theorem Inv.slots_nodup (h : r.Inv) :
    ((r.calls.table.entries ++ (r.held ++ (r.done ++ r.forgotten))).map Entry.slot).Nodup := by
  rw [← (h.perm.map Entry.slot).nodup_iff, h.slots]
  exact List.nodup_range

theorem Inv.outcome?_done (h : r.Inv) {e : Entry} (he : e ∈ r.done) :
    ∃ p ∈ r.parties, e ∈ p.done ∧ r.outcome? e.slot = some (p.deed.outcome e) := by
  obtain ⟨p, hp, hmem⟩ := List.mem_flatMap.mp he
  obtain ⟨c, hc, rfl⟩ := List.mem_map.mp hmem
  exact ⟨p, hp, hmem, (h.settled p hp c hc).2⟩

theorem Inv.register (h : r.Inv) {limit : Nat} {command : UInt32}
    (hends : r.calls.Ends (.register limit command)) : (r.register limit command).Inv := by
  rcases r.register_cases limit command with ⟨-, heq⟩ | ⟨hrefusal, e, he, heq⟩
  · rw [heq]
    exact h
  · have hfree := PendingTable.isFree_iff_lacks.mp (PendingTable.isFree_allocate (hends hrefusal))
    -- Only the table and the row of slots grow: every slot that there was is as before.
    have hslot (i : Nat) : (r.register limit command).calls.slot i = r.calls.slot i := by
      rw [heq]
      exact Calls.slot_append_waiting i
    have hgot : (r.register limit command).got = r.got := by rw [heq]
    have hparties : (r.register limit command).parties = r.parties := by rw [heq]
    constructor
    case perm =>
      rw [heq]
      exact (List.perm_append_singleton e _).trans (h.perm.cons e)
    case slots =>
      rw [heq]
      show (r.registered ++ [e]).map Entry.slot = List.range (r.calls.slots ++ [_]).length
      rw [List.map_append, h.slots, List.length_append, he]
      exact List.range_succ.symm
    case numbers =>
      rw [heq]
      refine List.nodup_cons.mpr ⟨?_, h.numbers⟩
      intro hmem
      obtain ⟨e', he', hn⟩ := List.mem_map.mp hmem
      rw [he] at hn
      exact hfree.1 e' he' hn
    case waiting =>
      intro e' he'
      rw [hslot]
      rw [heq] at he'
      rcases List.mem_cons.mp he' with rfl | he'
      · rw [he]
        exact Calls.slot_of_length_le (Nat.le_refl r.calls.slots.length)
      · exact h.waiting e' he'
    case settled =>
      intro p hp c hc
      rw [hparties] at hp
      rw [outcome?_congr (hslot _) hgot]
      exact h.settled p hp c hc
    case single =>
      rw [hparties]
      exact h.single
    case got =>
      intro i o hmem
      rw [hgot] at hmem
      rw [outcome?_congr (hslot _) hgot]
      exact h.got i o hmem
    case taken =>
      intro i htaken
      rw [hslot] at htaken
      rw [hgot]
      exact h.taken i htaken

theorem Inv.number (h : r.Inv) : r.number.Inv where
  perm := h.perm
  slots := h.slots
  numbers := h.numbers
  waiting := h.waiting
  settled := h.settled
  single := h.single
  got := h.got
  taken := h.taken

theorem Inv.take (h : r.Inv) (d : Deed) : (r.take d).Inv := by
  have htake := PendingTable.entries_perm_take h.numbers d
  have hheld : (r.take d).held = r.held ++ (d.take r.calls.table).1 := by
    show (r.parties ++ [_]).flatMap Party.held = _
    rw [List.flatMap_append, List.flatMap_singleton]
    rfl
  have hdone : (r.take d).done = r.done := by
    show (r.parties ++ [_]).flatMap Party.done = _
    rw [List.flatMap_append, List.flatMap_singleton]
    exact List.append_nil _
  constructor
  case perm =>
    show r.registered.Perm ((d.take r.calls.table).2.entries ++ (_ ++ (_ ++ r.forgotten)))
    -- Entries only change places, so it is enough to count them.
    refine h.perm.trans ?_
    rw [hheld, hdone, List.perm_iff_count]
    intro e
    have hcount := htake.count_eq e
    simp only [List.count_append] at hcount ⊢
    omega
  case slots => exact h.slots
  case numbers => exact h.numbers.sublist ((PendingTable.entries_take_sublist _ d).map _)
  case waiting =>
    intro e he
    have hplaces : e ∈ r.calls.table.entries ++ (r.held ++ r.forgotten) := by
      have he' : e ∈ (d.take r.calls.table).2.entries ++
        (r.held ++ (d.take r.calls.table).1 ++ r.forgotten) := hheld ▸ he
      have hmem := htake.mem_iff (a := e)
      simp only [List.mem_append] at he' hmem ⊢
      rw [hmem]
      tauto
    exact h.waiting e hplaces
  case settled =>
    intro p hp c hc
    rcases List.mem_append.mp hp with hp | hp
    · exact h.settled p hp c hc
    · rw [List.mem_singleton.mp hp] at hc
      cases hc
  case single =>
    intro p hp n hn
    rcases List.mem_append.mp hp with hp | hp
    · exact h.single p hp n hn
    · rw [List.mem_singleton.mp hp] at hn ⊢
      show ((d.take r.calls.table).1 ++ []).length ≤ 1 ∧ ∀ e ∈ (d.take r.calls.table).1 ++ [], _
      rw [List.append_nil]
      exact PendingTable.take_single hn
  case got => exact h.got
  case taken => exact h.taken

theorem Inv.slot_ne (h : r.Inv) {held' : List Entry} {e : Entry} (hheld : r.held.Perm (e :: held')) :
    ∀ e' ∈ r.calls.table.entries ++ (held' ++ (r.done ++ r.forgotten)), e'.slot ≠ e.slot := by
  have hplaces : (r.calls.table.entries ++ (r.held ++ (r.done ++ r.forgotten))).Perm
      (e :: (r.calls.table.entries ++ (held' ++ (r.done ++ r.forgotten)))) :=
    ((hheld.append_right _).append_left _).trans List.perm_middle
  have hnodup := ((hplaces.map Entry.slot).nodup_iff).mp h.slots_nodup
  rw [List.map_cons, List.nodup_cons] at hnodup
  intro e' he' heq
  exact hnodup.1 (heq ▸ List.mem_map_of_mem he')

section Complete

variable {before after : List Party} {p : Party} {e : Entry}

theorem held_perm_complete (hp : r.parties = before ++ p :: after) (he : e ∈ p.held) :
    r.held.Perm (e :: (r.complete before p after e).held) := by
  have hbefore : r.held = before.flatMap Party.held ++ (p.held ++ after.flatMap Party.held) := by
    unfold held
    rw [hp, List.flatMap_append, List.flatMap_cons]
  have hafter : (r.complete before p after e).held =
      before.flatMap Party.held ++ (p.held.erase e ++ after.flatMap Party.held) := by
    show (before ++ _ :: after).flatMap Party.held = _
    rw [List.flatMap_append, List.flatMap_cons]
  rw [hbefore, hafter]
  exact (((List.perm_cons_erase he).append_right _).append_left _).trans List.perm_middle

theorem done_perm_complete (hp : r.parties = before ++ p :: after) :
    (r.complete before p after e).done.Perm (e :: r.done) := by
  have hbefore : r.done = before.flatMap Party.done ++ (p.done ++ after.flatMap Party.done) := by
    unfold done
    rw [hp, List.flatMap_append, List.flatMap_cons]
  have hafter : (r.complete before p after e).done =
      before.flatMap Party.done ++ (e :: (p.done ++ after.flatMap Party.done)) := by
    show (before ++ _ :: after).flatMap Party.done = _
    rw [List.flatMap_append, List.flatMap_cons]
    rfl
  rw [hbefore, hafter]
  exact List.perm_middle

theorem Inv.slot_of_held (h : r.Inv) (he : e ∈ r.held) :
    e.slot < r.calls.slots.length ∧ r.calls.slot e.slot = .waiting := by
  have hregistered : e ∈ r.registered := h.perm.mem_iff.mpr
    (List.mem_append_right _ (List.mem_append_left _ he))
  exact ⟨h.slot_lt hregistered, h.waiting e (List.mem_append_right _ (List.mem_append_left _ he))⟩

theorem Inv.slot_complete (h : r.Inv) (hp : r.parties = before ++ p :: after) (he : e ∈ p.held) :
    (r.calls.complete e.slot (p.deed.outcome e)).1 = true ∧
      (r.complete before p after e).calls.slot e.slot = .resolved (p.deed.outcome e) := by
  have hmem : e ∈ r.held := (held_perm_complete hp he).mem_iff.mpr List.mem_cons_self
  obtain ⟨hlt, hwaiting⟩ := h.slot_of_held hmem
  exact Calls.slot_complete_self hlt hwaiting (p.deed.outcome e)

theorem outcome?_complete_ne {i : Nat} (h : i ≠ e.slot) :
    (r.complete before p after e).outcome? i = r.outcome? i :=
  outcome?_congr (Calls.slot_complete_ne h _) rfl

theorem Inv.outcome?_complete (h : r.Inv) (hp : r.parties = before ++ p :: after)
    (he : e ∈ p.held) :
    (r.complete before p after e).outcome? e.slot = some (p.deed.outcome e) := by
  unfold outcome?
  rw [(h.slot_complete hp he).2]

theorem Inv.complete (h : r.Inv) (hp : r.parties = before ++ p :: after) (he : e ∈ p.held) :
    (r.complete before p after e).Inv := by
  have hheld := held_perm_complete hp he
  have hdone := done_perm_complete (e := e) hp
  have hothers := h.slot_ne hheld
  obtain ⟨hfirst, hslot⟩ := h.slot_complete hp he
  have hparty : p ∈ r.parties := by
    rw [hp]
    exact List.mem_append_right _ List.mem_cons_self
  -- No other entry has the slot of `e`, so what was left in other slots stays there.
  have hold : ∀ q ∈ r.parties, ∀ c ∈ q.completed, c.2 = true ∧
      (r.complete before p after e).outcome? c.1.slot = some (q.deed.outcome c.1) := by
    intro q hq c hc
    have hmem : c.1 ∈ r.done := List.mem_flatMap.mpr ⟨q, hq, List.mem_map_of_mem hc⟩
    have hne : c.1.slot ≠ e.slot := hothers c.1 (by simp only [List.mem_append, hmem, true_or, or_true])
    rw [outcome?_complete_ne hne]
    exact h.settled q hq c hc
  constructor
  case perm =>
    show r.registered.Perm (r.calls.table.entries ++ (_ ++ (_ ++ r.forgotten)))
    refine h.perm.trans ?_
    rw [List.perm_iff_count]
    intro e'
    have hheld' := hheld.count_eq e'
    have hdone' := hdone.count_eq e'
    simp only [List.count_append, List.count_cons] at hheld' hdone' ⊢
    omega
  case slots =>
    show _ = List.range (r.calls.slots.set _ _).length
    rw [List.length_set]
    exact h.slots
  case numbers => exact h.numbers
  case waiting =>
    intro e' he'
    have hne : e'.slot ≠ e.slot := by
      refine hothers e' ?_
      simp only [List.mem_append] at he' ⊢
      tauto
    have hwaiting : e' ∈ r.calls.table.entries ++ (r.held ++ r.forgotten) := by
      have hsub := hheld.mem_iff (a := e')
      simp only [List.mem_append, hsub, List.mem_cons] at he' ⊢
      tauto
    exact (Calls.slot_complete_ne hne _).trans (h.waiting e' hwaiting)
  case settled =>
    intro q hq c hc
    rw [parties_complete, List.mem_append, List.mem_cons] at hq
    rcases hq with hq | rfl | hq
    · exact hold q (hp ▸ List.mem_append_left _ hq) c hc
    · rcases List.mem_cons.mp hc with rfl | hc
      · exact ⟨hfirst, h.outcome?_complete hp he⟩
      · exact hold p hparty c hc
    · exact hold q (hp ▸ List.mem_append_right _ (List.mem_cons_of_mem _ hq)) c hc
  case single =>
    intro q hq n hn
    rw [parties_complete, List.mem_append, List.mem_cons] at hq
    rcases hq with hq | rfl | hq
    · exact h.single q (hp ▸ List.mem_append_left _ hq) n hn
    · obtain ⟨hlength, hnumber⟩ := h.single p hparty n hn
      have htaken : p.taken.Perm (p.held.erase e ++ e :: p.done) :=
        ((List.perm_cons_erase he).append_right _).trans List.perm_middle.symm
      refine ⟨htaken.length_eq ▸ hlength, ?_⟩
      intro e' he'
      exact hnumber e' (htaken.mem_iff.mpr he')
    · exact h.single q (hp ▸ List.mem_append_right _ (List.mem_cons_of_mem _ hq)) n hn
  case got =>
    intro i o hmem
    have houtcome := h.got i o hmem
    by_cases hi : i = e.slot
    -- Nobody has got the outcome of `e` yet, because its slot was waiting.
    · have hwaiting := (h.slot_of_held (hheld.mem_iff.mpr List.mem_cons_self)).2
      unfold outcome? at houtcome
      rw [hi, hwaiting] at houtcome
      cases houtcome
    · rw [outcome?_complete_ne hi]
      exact houtcome
  case taken =>
    intro i htaken
    by_cases hi : i = e.slot
    · rw [hi, hslot] at htaken
      cases htaken
    · exact h.taken i ((Calls.slot_complete_ne hi _).symm.trans htaken)

end Complete

theorem Inv.forget (h : r.Inv) (n : UInt32) : (r.forget n).Inv := by
  have hfind : r.calls.table.entries.Perm
      ((r.calls.table.find? n).toList ++ (r.calls.table.forget n).entries) := by
    unfold PendingTable.forget PendingTable.remove
    rcases hfind : r.calls.table.find? n with _ | e
    · exact List.Perm.refl _
    · obtain ⟨he, rfl⟩ := PendingTable.find?_eq_some hfind
      exact PendingTable.entries_perm_without h.numbers he
  constructor
  case perm =>
    show r.registered.Perm ((r.calls.table.forget n).entries ++ (r.held ++ (r.done ++ (_ ++ _))))
    refine h.perm.trans ?_
    rw [List.perm_iff_count]
    intro e
    have hcount := hfind.count_eq e
    simp only [List.count_append] at hcount ⊢
    omega
  case slots => exact h.slots
  case numbers =>
    show ((r.calls.table.remove n).2.entries.map Entry.sequence).Nodup
    rcases r.calls.table.remove_cases n with ⟨e, -, -, heq⟩ | ⟨-, heq⟩
    · rw [heq]
      exact h.numbers.sublist (List.filter_sublist.map _)
    · rw [heq]
      exact h.numbers
  case waiting =>
    intro e he
    have hplaces : e ∈ r.calls.table.entries ++ (r.held ++ r.forgotten) := by
      have hmem := hfind.mem_iff (a := e)
      have he' : e ∈ (r.calls.table.forget n).entries ++
        (r.held ++ ((r.calls.table.find? n).toList ++ r.forgotten)) := he
      simp only [List.mem_append, hmem] at he' ⊢
      tauto
    exact h.waiting e hplaces
  case settled => exact h.settled
  case single => exact h.single
  case got => exact h.got
  case taken => exact h.taken

theorem Inv.outcome?_wait (h : r.Inv) {i : Nat} {o : Outcome} (hnew : ∀ o, (i, o) ∉ r.got)
    (hpoll : (r.calls.poll i).1 = some o) :
    r.outcome? i = some o ∧ ∀ j, (r.wait i o).outcome? j = r.outcome? j := by
  obtain ⟨hslot | hslot, htaken⟩ := Calls.poll_cases hpoll
  · have houtcome : r.outcome? i = some o := by
      unfold outcome?
      rw [hslot]
    refine ⟨houtcome, ?_⟩
    intro j
    by_cases hj : j = i
    · rw [hj, houtcome]
      unfold outcome?
      rw [show (r.wait i o).calls.slot i = .taken from htaken]
      exact List.lookup_cons_self
    · unfold outcome?
      rw [show (r.wait i o).calls.slot j = r.calls.slot j from Calls.slot_poll_ne hj]
      have hlookup : (r.wait i o).got.lookup j = r.got.lookup j := by
        show List.lookup j ((i, o) :: r.got) = _
        rw [List.lookup_cons, beq_false_of_ne hj]
      rw [hlookup]
  · obtain ⟨o', hmem⟩ := h.taken i hslot
    exact absurd hmem (hnew o')

theorem Inv.poll_eq (h : r.Inv) {i : Nat} (hnew : ∀ o, (i, o) ∉ r.got) :
    (r.calls.poll i).1 = r.outcome? i := by
  unfold Calls.poll outcome?
  rcases hslot : r.calls.slot i with _ | o | _
  · rfl
  · rfl
  · obtain ⟨o, hgot⟩ := h.taken i hslot
    exact absurd hgot (hnew o)

theorem Inv.wait (h : r.Inv) {i : Nat} {o : Outcome} (hnew : ∀ o, (i, o) ∉ r.got)
    (hpoll : (r.calls.poll i).1 = some o) : (r.wait i o).Inv := by
  obtain ⟨houtcome, hkept⟩ := h.outcome?_wait hnew hpoll
  constructor
  case perm => exact h.perm
  case slots =>
    show _ = List.range (r.calls.slots.set _ _).length
    rw [List.length_set]
    exact h.slots
  case numbers => exact h.numbers
  case waiting =>
    intro e he
    have hwaiting := h.waiting e he
    have hne : e.slot ≠ i := by
      rintro rfl
      unfold outcome? at houtcome
      rw [hwaiting] at houtcome
      cases houtcome
    exact (Calls.slot_poll_ne hne).trans hwaiting
  case settled =>
    intro p hp c hc
    rw [hkept]
    exact h.settled p hp c hc
  case single => exact h.single
  case got =>
    intro j o' hmem
    rw [hkept]
    rcases List.mem_cons.mp hmem with heq | hmem
    · cases heq
      exact houtcome
    · exact h.got j o' hmem
  case taken =>
    intro j htaken
    by_cases hj : j = i
    · exact ⟨o, hj ▸ List.mem_cons_self⟩
    · obtain ⟨o', hmem⟩ := h.taken j ((Calls.slot_poll_ne hj).symm.trans htaken)
      exact ⟨o', List.mem_cons_of_mem _ hmem⟩

theorem Inv.step {r' : Race} (h : r.Inv) (hstep : r.Step r') : r'.Inv := by
  cases hstep with
  | register limit command hends => exact h.register hends
  | number hends => exact h.number
  | take deed => exact h.take deed
  | complete hp he => exact h.complete hp he
  | forget n => exact h.forget n
  | wait hnew hpoll => exact h.wait hnew hpoll

theorem Reachable.inv (h : r.Reachable) : r.Inv := by
  induction h with
  | refl => exact inv_new
  | tail _ hstep ih => exact ih.step hstep

/-! ### One party in the course of a run -/

theorem Step.keeps_party {r' : Race} (hstep : r.Step r') {k : Nat} {p : Party}
    (hp : r.parties[k]? = some p) :
    ∃ p', r'.parties[k]? = some p' ∧ p'.deed = p.deed ∧ p'.held ⊆ p.held ∧
      p'.taken.Perm p.taken := by
  have hsame (hparties : r'.parties[k]? = some p) : ∃ p', r'.parties[k]? = some p' ∧
      p'.deed = p.deed ∧ p'.held ⊆ p.held ∧ p'.taken.Perm p.taken :=
    ⟨p, hparties, rfl, List.Subset.refl _, .refl _⟩
  cases hstep with
  | register limit command hends => exact hsame (r.parties_register limit command ▸ hp)
  | number hends => exact hsame hp
  | take d =>
    obtain ⟨hk, -⟩ := List.getElem?_eq_some_iff.mp hp
    exact hsame ((List.getElem?_append_left hk).trans hp)
  | @complete before after q e hq he =>
    rw [hq] at hp
    rw [parties_complete] at hsame ⊢
    rcases Nat.lt_trichotomy k before.length with hk | rfl | hk
    · rw [List.getElem?_append_left hk] at hp
      exact hsame ((List.getElem?_append_left hk).trans hp)
    · rw [List.getElem?_append_right (Nat.le_refl _), Nat.sub_self] at hp ⊢
      cases hp
      refine ⟨_, rfl, rfl, List.erase_subset, ?_⟩
      exact List.perm_middle.trans ((List.perm_cons_erase he).symm.append_right _)
    · obtain ⟨j, rfl⟩ := Nat.exists_eq_add_of_lt hk
      rw [List.getElem?_append_right hk.le, Nat.add_assoc, Nat.add_sub_cancel_left] at hp hsame ⊢
      exact hsame hp
  | forget n => exact hsame hp
  | wait hnew hpoll => exact hsame hp

theorem keeps_party {r' : Race} (hrun : Relation.ReflTransGen Step r r') {k : Nat} {p : Party}
    (hp : r.parties[k]? = some p) :
    ∃ p', r'.parties[k]? = some p' ∧ p'.deed = p.deed ∧ p'.held ⊆ p.held ∧
      p'.taken.Perm p.taken := by
  induction hrun with
  | refl => exact ⟨p, hp, rfl, List.Subset.refl _, .refl _⟩
  | tail _ hstep ih =>
    obtain ⟨p₁, hp₁, hdeed₁, hheld₁, htaken₁⟩ := ih
    obtain ⟨p₂, hp₂, hdeed₂, hheld₂, htaken₂⟩ := hstep.keeps_party hp₁
    exact ⟨p₂, hp₂, hdeed₂.trans hdeed₁, List.Subset.trans hheld₂ hheld₁,
      htaken₂.trans htaken₁⟩

theorem keeps_taken {r' : Race} {d : Deed} (hrun : Relation.ReflTransGen Step (r.take d) r') :
    ∃ p, r'.parties[r.parties.length]? = some p ∧ p.deed = d ∧
      p.taken.Perm (d.take r.calls.table).1 := by
  have hnew : (r.take d).parties[r.parties.length]? = some ⟨d, (d.take r.calls.table).1, []⟩ :=
    List.getElem?_concat_length
  obtain ⟨p, hp, hdeed, -, htaken⟩ := keeps_party hrun hnew
  refine ⟨p, hp, hdeed, htaken.trans ?_⟩
  exact List.Perm.of_eq (List.append_nil _)

end Race

end CallWire
