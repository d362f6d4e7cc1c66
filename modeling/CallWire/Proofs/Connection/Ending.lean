import CallWire.Proofs.Connection.Scene
import CallWire.Proofs.Pending.Draining

/-!
# CallWire.Proofs.Connection.Ending — no caller outlives its connection

A call can be registered before the connection ends, in the midst of it, or too late.  In each case
either its request is refused, and the call is returned to nobody, or the call was in the table
when that was drained, unless a reply or a cancellation took it out first.
-/

namespace CallWire

/-! ### Whoever drained the table -/

namespace Race

variable {r r' : Race}

/-- A step adds no calls to a party and does not change its deed. -/
theorem Step.party (hstep : r.Step r') {p : Party} (hp : p ∈ r'.parties) :
    (∃ q ∈ r.parties, q.deed = p.deed ∧ p.held ⊆ q.held) ∨
      (p.held = (p.deed.take r.calls.table).1 ∧ r' = r.take p.deed) := by
  have hkept (hparties : r'.parties = r.parties) :
      ∃ q ∈ r.parties, q.deed = p.deed ∧ p.held ⊆ q.held :=
    ⟨p, hparties ▸ hp, rfl, List.Subset.refl _⟩
  cases hstep with
  | register limit command hends =>
    refine .inl (hkept ?_)
    rcases r.register_cases limit command with ⟨-, heq⟩ | ⟨-, e, -, heq⟩
    · rw [heq]
    · rw [heq]
  | number hends => exact .inl (hkept rfl)
  | take d =>
    rcases List.mem_append.mp hp with hp | hp
    · exact .inl ⟨p, hp, rfl, List.Subset.refl _⟩
    · rw [List.mem_singleton.mp hp]
      exact .inr ⟨rfl, rfl⟩
  | @complete before after q e hq he =>
    rw [parties_complete, List.mem_append, List.mem_cons] at hp
    rw [hq]
    rcases hp with hp | rfl | hp
    · exact .inl ⟨p, List.mem_append_left _ hp, rfl, List.Subset.refl _⟩
    · exact .inl ⟨q, List.mem_append_right _ List.mem_cons_self, rfl, List.erase_subset⟩
    · exact .inl ⟨p, List.mem_append_right _ (List.mem_cons_of_mem _ hp), rfl, List.Subset.refl _⟩
  | forget n => exact .inl (hkept rfl)
  | wait hnew hpoll => exact .inl (hkept rfl)

/-- A party that drained the table has left it drained. -/
def Sealed (r : Race) : Prop := ∀ p ∈ r.parties, p.deed = .drain → r.Drained

theorem Sealed.step (h : r.Sealed) (hstep : r.Step r') : r'.Sealed := by
  intro p hp hdrain
  rcases hstep.party hp with ⟨q, hq, hdeed, -⟩ | ⟨-, heq⟩
  · exact (h q hq (hdeed.trans hdrain)).step hstep
  · rw [heq, hdrain]
    exact r.drained_take_drain

/-- The table is drained, and the parties that drained it have completed their calls. -/
def Ended (r : Race) : Prop := r.Drained ∧ ∀ p ∈ r.parties, p.deed = .drain → p.held = []

theorem Ended.step (h : r.Ended) (hstep : r.Step r') : r'.Ended := by
  refine ⟨h.1.step hstep, ?_⟩
  intro p hp hdrain
  rcases hstep.party hp with ⟨q, hq, hdeed, hsub⟩ | ⟨hheld, -⟩
  · rw [h.2 q hq (hdeed.trans hdrain)] at hsub
    exact List.eq_nil_of_subset_nil hsub
  · rw [hheld, hdrain]
    exact h.1.2

end Race

namespace Scene

/-- The thread at index `k` has started a call and returned it. -/
def Returned (s : Scene) (k : Nat) (call : PendingCall) : Prop :=
  ∃ st, s.starts[k]? = some st ∧ st.phase = .ended (.ok call)

/-- The connection has ended: its table is drained and the calls taken out of it are completed. -/
def HasEnded (s : Scene) : Prop :=
  (∃ p ∈ s.race.parties, p.deed = .drain) ∧ ∀ p ∈ s.race.parties, p.deed = .drain → p.held = []

/-- A party of the run has completed the call: one that delivered a reply to its number, with the
outcome of this reply, one that cancelled it, or the end of the connection. -/
def IsResolved (s : Scene) (call : PendingCall) : Prop :=
  ∃ p ∈ s.race.parties, (call.entry, true) ∈ p.completed ∧
    ((∃ reply, p.deed = .deliver reply ∧ reply.header.sequence = call.sequence ∧
        s.race.outcome? call.slot = some (Connection.replyOutcome call.entry reply).1) ∨
      (p.deed = .cancel call.sequence ∧ s.race.outcome? call.slot = some (.error .cancelled)) ∨
      (p.deed = .drain ∧ s.race.outcome? call.slot = some (.error .disconnected)))

/-- A delivery or a cancellation has taken the call out of the table and not completed it yet, which
can be the next step. -/
def IsInHand (service : Service) (s : Scene) (call : PendingCall) : Prop :=
  ∃ p ∈ s.race.parties, p.deed ≠ .drain ∧ call.entry ∈ p.held ∧
    s.race.outcome? call.slot = none ∧ ∃ s', Step service s s' ∧ s'.IsResolved call

variable {service : Service} {s s' : Scene}

/-! ### Whose call it is -/

/-- The entries registered by the threads and not forgotten. -/
def entries (s : Scene) : List Entry := s.starts.filterMap fun st => st.phase.entry?

theorem entries_perm {before after : List Start} {st st' : Start}
    (hst : s.starts = before ++ st :: after) (hst' : s'.starts = before ++ st' :: after) :
    ∃ rest, s.entries.Perm (st.phase.entry?.toList ++ rest) ∧
      s'.entries.Perm (st'.phase.entry?.toList ++ rest) := by
  have hperm (st : Start) : ((before ++ st :: after).filterMap fun st => st.phase.entry?).Perm
      (st.phase.entry?.toList ++ (before ++ after).filterMap fun st => st.phase.entry?) := by
    refine (List.perm_middle.filterMap _).trans (List.Perm.of_eq ?_)
    rw [List.filterMap_cons]
    cases st.phase.entry? with
    | none => rfl
    | some e => rfl
  refine ⟨(before ++ after).filterMap fun st => st.phase.entry?, ?_, ?_⟩
  · unfold entries
    rw [hst]
    exact hperm st
  · unfold entries
    rw [hst']
    exact hperm st'

/-- The entries of the threads are those registered in the run, without repetition. -/
structure Owned (s : Scene) : Prop where
  distinct : s.entries.Nodup
  started : ∀ e ∈ s.entries, e ∈ s.race.registered ∧ e ∉ s.race.forgotten

/-- The invariant of runs with distinct numbers. -/
structure Inv (s : Scene) : Prop where
  race : s.race.Inv
  numbered : s.race.Numbered
  sealed : s.race.Sealed
  owned : s.Owned

theorem inv_new (shell : Connection) : Inv { shell } where
  race := Race.inv_new
  numbered := Race.numbered_new
  sealed := fun _ hp => (List.not_mem_nil hp).elim
  owned := ⟨List.nodup_nil, fun _ he => (List.not_mem_nil he).elim⟩

theorem race_close (s : Scene) (reason : DisconnectReason) :
    (s.close reason).race = s.race ∧ (s.close reason).starts = s.starts := by
  unfold close
  rcases s.conn.life.finish reason with ⟨_ | _, life⟩
  · exact ⟨rfl, rfl⟩
  · exact ⟨rfl, rfl⟩

theorem allocated_le (hstep : Step service s s') : s.race.allocated ≤ s'.race.allocated := by
  cases hstep with
  | register hst hphase => exact Race.allocated_le_register _ _ _
  | number => exact Nat.le_succ _
  | close reason => exact Nat.le_of_eq (by rw [(s.race_close reason).1])
  | start h => exact Nat.le_refl _
  | enqueue hst hphase => exact Nat.le_refl _
  | forget hst hphase => exact Nat.le_refl _
  | take hd => exact Nat.le_refl _
  | complete hp he => exact Nat.le_refl _
  | wait hnew hpoll => exact Nat.le_refl _
  | drain h => exact Nat.le_refl _
  | other h => exact Nat.le_refl _

theorem allocated_le_run (hrun : Relation.ReflTransGen (Step service) s s') :
    s.race.allocated ≤ s'.race.allocated := by
  induction hrun with
  | refl => exact Nat.le_refl _
  | tail _ hstep ih => exact Nat.le_trans ih (allocated_le hstep)

theorem Step.race (hstep : Step service s s') (h : s.Inv)
    (hfew : s'.race.allocated < UInt32.size) : s'.race = s.race ∨ s.race.Step s'.race := by
  cases hstep with
  | register hst hphase => exact .inr (.register _ _ (h.numbered.register h.race hfew).1)
  | number => exact .inr (.number (h.numbered.number h.race hfew).1)
  | close reason => exact .inl (s.race_close reason).1
  | start h => exact .inl rfl
  | enqueue hst hphase => exact .inl rfl
  | forget hst hphase => exact .inr (.forget _)
  | take hd => exact .inr (.take _)
  | complete hp he => exact .inr (.complete hp he)
  | wait hnew hpoll => exact .inr (.wait hnew hpoll)
  | drain h => exact .inr (.take .drain)
  | other h => exact .inl rfl

theorem enqueue_cases (s : Scene) (before : List Start) (st : Start) (after : List Start)
    (call : PendingCall) : ∃ shell, shell.life = s.shell.life ∧
      ((s.conn.life.isConnected = true ∧ s.enqueue before st after call =
          { s with shell, starts := before ++ { st with phase := .ended (.ok call) } :: after }) ∨
        ∃ e, s.enqueue before st after call =
          { s with shell, starts := before ++ { st with phase := .refused call e } :: after }) := by
  unfold enqueue Connection.enqueue
  by_cases hconnected : s.conn.life.isConnected = true
  · rw [if_pos hconnected]
    rcases s.conn.outbound.offer _ with ⟨e | ⟨⟩, outbound⟩
    · exact ⟨{ s.conn with outbound }, rfl, .inr ⟨e, rfl⟩⟩
    · exact ⟨{ s.conn with outbound }, rfl, .inl ⟨hconnected, rfl⟩⟩
  · rw [if_neg hconnected]
    exact ⟨s.conn, rfl, .inr ⟨_, rfl⟩⟩

theorem register_cases (service : Service) (s : Scene) (st : Start) :
    (∃ e, s.admission service st = .ended (.error e) ∧
        s.race.register service.config.maxPending st.command = s.race) ∨
      (∃ call, s.admission service st = .registered call ∧
        call.slot = s.race.calls.slots.length ∧
        (s.race.register service.config.maxPending st.command).registered =
          s.race.registered ++ [call.entry] ∧
        (s.race.register service.config.maxPending st.command).forgotten = s.race.forgotten) := by
  unfold admission Race.register
  rcases s.race.calls.register_cases service.config.maxPending st.command with
    ⟨e, -, heq⟩ | ⟨-, heq⟩
  · rw [heq]
    exact .inl ⟨e, rfl, rfl⟩
  · rw [heq]
    exact .inr ⟨_, rfl, rfl, rfl, rfl⟩

theorem Owned.of_perm (h : s.Owned) (hperm : s'.entries.Perm s.entries)
    (hregistered : s'.race.registered = s.race.registered)
    (hforgotten : s'.race.forgotten = s.race.forgotten) : s'.Owned := by
  refine ⟨hperm.nodup_iff.mpr h.distinct, ?_⟩
  intro e he
  rw [hregistered, hforgotten]
  exact h.started e (hperm.mem_iff.mp he)

theorem Owned.register (h : s.Owned) (hinv : s.race.Inv) {before after : List Start} {st : Start}
    (hst : s.starts = before ++ st :: after) (hphase : st.phase = .checked) :
    (s.register service before st after).Owned := by
  have hst' : (s.register service before st after).starts = before ++ _ := rfl
  obtain ⟨rest, hbefore, hafter⟩ := entries_perm hst hst'
  rw [hphase] at hbefore
  rcases s.register_cases service st with
    ⟨e, hadmission, heq⟩ | ⟨call, hadmission, hslot, hregistered, hforgotten⟩
  · rw [hadmission] at hafter
    refine h.of_perm (hafter.trans hbefore.symm) ?_ ?_
    · exact congrArg Race.registered heq
    · exact congrArg Race.forgotten heq
  · rw [hadmission] at hafter
    have hperm : (s.register service before st after).entries.Perm (call.entry :: s.entries) :=
      hafter.trans (hbefore.symm.cons _)
    -- Its slot is new, so it is none of the calls that were registered before.
    have hnew : call.entry ∉ s.race.registered := by
      intro hmem
      have hlt : call.slot < s.race.calls.slots.length := hinv.slot_lt hmem
      omega
    refine ⟨hperm.nodup_iff.mpr (List.nodup_cons.mpr ⟨?_, h.distinct⟩), ?_⟩
    · exact fun hmem => hnew (h.started _ hmem).1
    · intro e he
      show e ∈ (s.race.register _ _).registered ∧ e ∉ (s.race.register _ _).forgotten
      rw [hregistered, hforgotten]
      rcases List.mem_cons.mp (hperm.mem_iff.mp he) with rfl | he
      · exact ⟨List.mem_append_right _ (List.mem_singleton.mpr rfl),
          fun hmem => hnew (hinv.forgotten_subset hmem)⟩
      · exact ⟨List.mem_append_left _ (h.started e he).1, (h.started e he).2⟩

theorem Owned.enqueue (h : s.Owned) {before after : List Start} {st : Start} {call : PendingCall}
    (hst : s.starts = before ++ st :: after) (hphase : st.phase = .registered call) :
    (s.enqueue before st after call).Owned := by
  have hnext : ∃ st', (s.enqueue before st after call).starts = before ++ st' :: after ∧
      st'.phase.entry? = some call.entry ∧ (s.enqueue before st after call).race = s.race := by
    obtain ⟨shell, -, ⟨-, heq⟩ | ⟨e, heq⟩⟩ := s.enqueue_cases before st after call
    · rw [heq]
      exact ⟨_, rfl, rfl, rfl⟩
    · rw [heq]
      exact ⟨_, rfl, rfl, rfl⟩
  obtain ⟨st', hst', hentry, hrace⟩ := hnext
  obtain ⟨rest, hbefore, hafter⟩ := entries_perm hst hst'
  rw [hphase] at hbefore
  rw [hentry] at hafter
  exact h.of_perm (hafter.trans hbefore.symm) (congrArg _ hrace) (congrArg _ hrace)

theorem Owned.forget (h : s.Owned) (hnumbered : s.race.Numbered) {before after : List Start}
    {st : Start} {call : PendingCall} {e : RpcError} (hst : s.starts = before ++ st :: after)
    (hphase : st.phase = .refused call e) : (s.forget before st after call e).Owned := by
  have hst' : (s.forget before st after call e).starts = before ++ _ := rfl
  obtain ⟨rest, hbefore, hafter⟩ := entries_perm hst hst'
  rw [hphase] at hbefore
  have hsplit : s.entries.Perm (call.entry :: (s.forget before st after call e).entries) :=
    hbefore.trans (hafter.symm.cons _)
  have hdistinct := List.nodup_cons.mp (hsplit.nodup_iff.mp h.distinct)
  refine ⟨hdistinct.2, ?_⟩
  intro e' he'
  obtain ⟨hregistered, hforgotten⟩ := h.started e' (hsplit.mem_iff.mpr (List.mem_cons_of_mem _ he'))
  refine ⟨hregistered, ?_⟩
  intro hmem
  rcases List.mem_append.mp hmem with hmem | hmem
  · obtain ⟨-, hsequence⟩ := PendingTable.find?_eq_some (Option.mem_toList.mp hmem)
    have hcall := (h.started call.entry (hsplit.mem_iff.mpr List.mem_cons_self)).1
    have heq : e' = call.entry :=
      List.inj_on_of_nodup_map hnumbered.distinct hregistered hcall hsequence
    exact hdistinct.1 (heq ▸ he')
  · exact hforgotten hmem

theorem Owned.step (hstep : Step service s s') (h : s.Inv) : s'.Owned := by
  cases hstep with
  | start hprepare =>
    refine h.owned.of_perm (List.Perm.of_eq ?_) rfl rfl
    show (s.starts ++ [_]).filterMap (fun st : Start => st.phase.entry?) = _
    rw [List.filterMap_append]
    exact List.append_nil _
  | register hst hphase => exact h.owned.register h.race hst hphase
  | enqueue hst hphase => exact h.owned.enqueue hst hphase
  | forget hst hphase => exact h.owned.forget h.numbered hst hphase
  | close reason =>
    obtain ⟨hrace, hstarts⟩ := s.race_close reason
    refine h.owned.of_perm (List.Perm.of_eq ?_) ?_ ?_
    · unfold entries
      rw [hstarts]
    · rw [hrace]
    · rw [hrace]
  | number => exact h.owned.of_perm (List.Perm.refl _) rfl rfl
  | take hd => exact h.owned.of_perm (List.Perm.refl _) rfl rfl
  | complete hp he => exact h.owned.of_perm (List.Perm.refl _) rfl rfl
  | wait hnew hpoll => exact h.owned.of_perm (List.Perm.refl _) rfl rfl
  | drain hending => exact h.owned.of_perm (List.Perm.refl _) rfl rfl
  | other hclosed => exact h.owned.of_perm (List.Perm.refl _) rfl rfl

theorem Inv.step (h : s.Inv) (hstep : Step service s s') (hfew : s'.race.allocated < UInt32.size) :
    s'.Inv := by
  have howned := Owned.step hstep h
  rcases hstep.race h hfew with heq | hrace
  · exact ⟨heq ▸ h.race, heq ▸ h.numbered, heq ▸ h.sealed, howned⟩
  · exact ⟨h.race.step hrace, h.numbered.step h.race hfew hrace, h.sealed.step hrace, howned⟩

theorem Inv.run (h : s.Inv) (hrun : Relation.ReflTransGen (Step service) s s')
    (hfew : s'.race.allocated < UInt32.size) : s'.Inv := by
  induction hrun with
  | refl => exact h
  | tail _ hstep ih => exact (ih (Nat.lt_of_le_of_lt (allocated_le hstep) hfew)).step hstep hfew

/-! ### Nothing is returned by a closed connection -/

theorem getElem?_of_replace {before after : List Start} {st st' x : Start} {k : Nat}
    (h : (before ++ st :: after)[k]? = some x) (hne : x ≠ st) :
    (before ++ st' :: after)[k]? = some x := by
  by_cases hk : k = before.length
  · rw [hk, List.getElem?_append_right (Nat.le_refl _), Nat.sub_self] at h
    cases h
    exact absurd rfl hne
  · rw [List.getElem?_append] at h ⊢
    by_cases hlt : k < before.length
    · rw [if_pos hlt] at h ⊢
      exact h
    · rw [if_neg hlt] at h ⊢
      obtain ⟨m, hm⟩ : ∃ m, k - before.length = m + 1 := ⟨k - before.length - 1, by omega⟩
      rw [hm] at h ⊢
      exact h

theorem Returned.of_replace {before after : List Start} {st st' : Start} {k : Nat}
    {call : PendingCall} (h : s'.Returned k call) (hst : s.starts = before ++ st :: after)
    (hst' : s'.starts = before ++ st' :: after) (hphase : st'.phase ≠ .ended (.ok call)) :
    s.Returned k call := by
  obtain ⟨x, hx, hreturned⟩ := h
  rw [hst'] at hx
  refine ⟨x, ?_, hreturned⟩
  rw [hst]
  exact getElem?_of_replace hx fun heq => hphase (heq ▸ hreturned)

theorem Step.closed (hstep : Step service s s') (hclosed : s.conn.life.state = .closed) :
    s'.conn.life.state = .closed ∧ ∀ k call, s'.Returned k call → s.Returned k call := by
  cases hstep with
  | start hprepare =>
    refine ⟨hclosed, ?_⟩
    rintro k call ⟨st, hst, hphase⟩
    refine ⟨st, ?_, hphase⟩
    -- A start that has just been added has not returned.
    by_cases hk : k < s.starts.length
    · exact (List.getElem?_append_left hk).symm.trans hst
    · have hnew := (List.getElem?_append_right (Nat.le_of_not_lt hk)).symm.trans hst
      rw [List.mem_singleton.mp (List.mem_of_getElem? hnew)] at hphase
      cases hphase
  | register hst hphase =>
    refine ⟨hclosed, fun k call h => h.of_replace hst rfl ?_⟩
    rcases s.register_cases service _ with ⟨e, hadmission, -⟩ | ⟨call', hadmission, -⟩
    · rw [hadmission]
      exact nofun
    · rw [hadmission]
      exact nofun
  | @enqueue before after st call hst hphase =>
    obtain ⟨shell, hlife, ⟨hconnected, -⟩ | ⟨e, heq⟩⟩ := s.enqueue_cases before st after call
    · unfold Lifecycle.isConnected at hconnected
      rw [hclosed] at hconnected
      cases hconnected
    · rw [heq]
      refine ⟨(congrArg Lifecycle.state hlife).trans hclosed, ?_⟩
      exact fun k call h => h.of_replace hst rfl nofun
  | forget hst hphase => exact ⟨hclosed, fun k call h => h.of_replace hst rfl nofun⟩
  | close reason =>
    have heq : s.close reason = s := by
      unfold Scene.close Lifecycle.finish
      rw [hclosed]
    rw [heq]
    exact ⟨hclosed, fun _ _ h => h⟩
  | number => exact ⟨hclosed, fun _ _ h => h⟩
  | take hd => exact ⟨hclosed, fun _ _ h => h⟩
  | complete hp he => exact ⟨hclosed, fun _ _ h => h⟩
  | wait hnew hpoll => exact ⟨hclosed, fun _ _ h => h⟩
  | drain hending => exact ⟨hclosed, fun _ _ h => h⟩
  | other hopen => exact ⟨hopen hclosed, fun _ _ h => h⟩

theorem closed_run (hrun : Relation.ReflTransGen (Step service) s s')
    (hclosed : s.conn.life.state = .closed) :
    s'.conn.life.state = .closed ∧ ∀ k call, s'.Returned k call → s.Returned k call := by
  induction hrun with
  | refl => exact ⟨hclosed, fun _ _ h => h⟩
  | tail _ hstep ih =>
    obtain ⟨hclosed', hbefore⟩ := ih
    obtain ⟨hclosed'', hback⟩ := hstep.closed hclosed'
    exact ⟨hclosed'', fun k call h => hbefore k call (hback k call h)⟩

/-! ### Every call that was returned is resolved -/

theorem ended_run (hended : s.race.Ended) (h : s.Inv)
    (hrun : Relation.ReflTransGen (Step service) s s')
    (hfew : s'.race.allocated < UInt32.size) : s'.race.Ended := by
  induction hrun with
  | refl => exact hended
  | @tail s₁ s₂ hrun hstep ih =>
    have hfew₁ := Nat.lt_of_le_of_lt (allocated_le hstep) hfew
    rcases hstep.race (h.run hrun hfew₁) hfew with heq | hrace
    · rw [heq]
      exact ih hfew₁
    · exact (ih hfew₁).step hrace

theorem Returned.mem_entries {k : Nat} {call : PendingCall} (h : s.Returned k call) :
    call.entry ∈ s.entries := by
  obtain ⟨st, hst, hphase⟩ := h
  refine List.mem_filterMap.mpr ⟨st, List.mem_of_getElem? hst, ?_⟩
  rw [hphase]
  rfl

theorem isResolved_of_completed (h : s.race.Inv) {call : PendingCall} {p : Party}
    (hp : p ∈ s.race.parties) (hcompleted : (call.entry, true) ∈ p.completed) :
    s.IsResolved call := by
  have houtcome := (h.settled p hp _ hcompleted).2
  have hdone : call.entry ∈ p.taken := List.mem_append_right _ (List.mem_map_of_mem hcompleted)
  have hnumber := fun n hn => (h.single p hp n hn).2 _ hdone
  refine ⟨p, hp, hcompleted, ?_⟩
  cases hdeed : p.deed with
  | deliver reply =>
    rw [hdeed] at houtcome hnumber
    exact .inl ⟨reply, rfl, (hnumber _ rfl).symm, houtcome⟩
  | cancel n =>
    rw [hdeed] at houtcome hnumber
    exact .inr (.inl ⟨congrArg Deed.cancel (hnumber n rfl).symm, houtcome⟩)
  | drain =>
    rw [hdeed] at houtcome
    exact .inr (.inr ⟨rfl, houtcome⟩)

/-- After the end every call that a thread has returned is completed, or in the hands of a delivery
or a cancellation. -/
theorem resolved_or_inHand (service : Service) (h : s.Inv) (hended : s.race.Ended)
    {call : PendingCall} (he : call.entry ∈ s.entries) :
    s.IsResolved call ∨ s.IsInHand service call := by
  obtain ⟨hregistered, hforgotten⟩ := h.owned.started _ he
  have hplace := h.race.perm.mem_iff.mp hregistered
  rw [hended.1.2, List.nil_append, List.mem_append, List.mem_append] at hplace
  -- The table is empty, so a party holds the entry, has completed it, or it was forgotten.
  rcases hplace with hheld | hdone | hforgotten'
  · obtain ⟨p, hp, hmem⟩ := List.mem_flatMap.mp hheld
    have hdeed : p.deed ≠ .drain := by
      intro hdrain
      rw [hended.2 p hp hdrain] at hmem
      cases hmem
    obtain ⟨before, after, heq⟩ := List.append_of_mem hp
    have hinv : (s.race.complete before p after call.entry).Inv := h.race.complete heq hmem
    have hcompleted : (call.entry, true) ∈
        (call.entry, (s.race.calls.complete call.slot (p.deed.outcome call.entry)).1) ::
          p.completed := by
      rw [show (s.race.calls.complete call.slot (p.deed.outcome call.entry)).1 = true from
        (h.race.slot_complete heq hmem).1]
      exact List.mem_cons_self
    have hnext := isResolved_of_completed
      (s := { s with race := s.race.complete before p after call.entry }) hinv
      (List.mem_append_right _ List.mem_cons_self) hcompleted
    exact .inr ⟨p, hp, hdeed, hmem, h.race.outcome?_held hp hmem, _, .complete heq hmem, hnext⟩
  · obtain ⟨p, hp, hmem⟩ := List.mem_flatMap.mp hdone
    obtain ⟨⟨e, first⟩, hcompleted, rfl⟩ := List.mem_map.mp hmem
    obtain rfl := (h.race.settled p hp _ hcompleted).1
    exact .inl (isResolved_of_completed h.race hp hcompleted)
  · exact absurd hforgotten' hforgotten

theorem Reachable.inv (h : s.Reachable service) (hfew : s.race.allocated < UInt32.size) : s.Inv := by
  obtain ⟨shell, hrun⟩ := h
  exact (inv_new shell).run hrun hfew

/-- **No caller outlives its connection.**  Once a connection is closed, no thread returns a call
whose request was not queued before.  Once it has ended, its table is empty for ever, and every call
that a thread has returned or ever returns is resolved, or is in the hands of a reply or a
cancellation that resolves it with its next step. -/
theorem no_caller_outlives (hs : s.Reachable service)
    (hrun : Relation.ReflTransGen (Step service) s s') (hfew : s'.race.allocated < UInt32.size) :
    (s.conn.life.state = .closed → ∀ k call, s'.Returned k call → s.Returned k call) ∧
    (s.HasEnded →
      s'.conn.calls.table.entries = [] ∧
      (∀ k call, s'.Returned k call → s'.IsResolved call ∨ s'.IsInHand service call) ∧
      ((∀ p ∈ s'.race.parties, p.held = []) → ∀ k call, s'.Returned k call → s'.IsResolved call)) := by
  refine ⟨fun hclosed => (closed_run hrun hclosed).2, ?_⟩
  intro ⟨⟨p, hp, hdrain⟩, hheld⟩
  have hinv := hs.inv (Nat.lt_of_le_of_lt (allocated_le_run hrun) hfew)
  have hinv' := hinv.run hrun hfew
  have hended : s.race.Ended := ⟨hinv.sealed p hp hdrain, hheld⟩
  have hended' := ended_run hended hinv hrun hfew
  have hresolved : ∀ k call, s'.Returned k call → s'.IsResolved call ∨ s'.IsInHand service call :=
    fun k call h => resolved_or_inHand service hinv' hended' h.mem_entries
  refine ⟨hended'.1.2, hresolved, ?_⟩
  intro hnone k call h
  rcases hresolved k call h with hresolved | ⟨q, hq, -, hmem, -⟩
  · exact hresolved
  · rw [hnone q hq] at hmem
    cases hmem

/-- While the next number is free, a call that the table admits is registered with it. -/
theorem step_register_of_isFree {before after : List Start} {st : Start} {call : PendingCall}
    (hst : s.starts = before ++ st :: after) (hphase : st.phase = .checked)
    (hrefusal : s.race.calls.table.refusal? service.config.maxPending = none)
    (hfree : s.race.calls.table.isFree s.race.calls.table.next)
    (hcall : call = ⟨st.command, s.race.calls.table.next, s.race.calls.slots.length, st.type⟩) :
    Step service s { s with
      race := { s.race with
        calls := {
          table := { s.race.calls.table with
            next := s.race.calls.table.next + 1
            entries := call.entry :: s.race.calls.table.entries }
          slots := s.race.calls.slots ++ [.waiting] }
        registered := s.race.registered ++ [call.entry] }
      starts := before ++ { st with phase := .registered call } :: after } := by
  have hadmission : s.admission service st = .registered call := by
    unfold admission Calls.register
    rw [PendingTable.register_eq_ok_of_refusal? st.command hrefusal,
      PendingTable.allocate_eq_of_isFree hfree, hcall]
    rfl
  have hstep : Step service s _ := .register hst hphase
  unfold register at hstep
  rw [hadmission, Race.register_eq_of_isFree st.command hrefusal hfree] at hstep
  rw [hcall] at hstep ⊢
  exact hstep

/-- Of two calls, one was queued and the other not when the connection ended. -/
theorem no_caller_outlives_queued :
    ∃ (service : Service) (s s' : Scene) (call : PendingCall), s.Reachable service ∧
      Relation.ReflTransGen (Step service) s s' ∧ s'.race.allocated < UInt32.size ∧
      s.conn.life.state = .closed ∧ s.HasEnded ∧ s'.conn.calls.table.entries = [] ∧
      s'.Returned 0 call ∧ s'.IsResolved call ∧ ∀ call', ¬ s'.Returned 1 call' := by
  let type : PayloadType := ⟨0, "Option<i8>", .option (.int .i8), []⟩
  let v : Value := .present (.int (-1))
  let service : Service := { protocol := { name := "client", sent := [(7, ⟨type, type⟩)] } }
  let shell := (Connection.new service "caller").establish true
  let ready : Start := { command := 7, type, payload := [0, 0, 0, 1, 255, 255, 255, 255] }
  let first : PendingCall := ⟨7, 1, 0, type⟩
  let second : PendingCall := ⟨7, 2, 1, type⟩
  let s₁ : Scene := { shell, starts := [ready, ready] }
  have hstart (starts : List Start) :
      Step service { shell, starts } { shell, starts := starts ++ [ready] } := by
    have hprepare : (Scene.conn { shell, starts }).prepareCall service 7 ⟨type, type⟩ v =
        .ok ready.payload := rfl
    exact .start hprepare
  have h₁ : Relation.ReflTransGen (Step service) { shell } s₁ :=
    .tail (.single (hstart [])) (hstart [ready])
  let s₂ : Scene := { s₁ with
    race := {
      calls := { table := { next := 2, entries := [first.entry] }, slots := [.waiting] }
      registered := [first.entry] }
    starts := [{ ready with phase := .registered first }, ready] }
  have h₂ : Step service s₁ s₂ := by
    have hst : s₁.starts = [] ++ ready :: [ready] := rfl
    exact step_register_of_isFree hst rfl rfl (by decide) rfl
  let s₃ := s₂.enqueue [] { ready with phase := .registered first } [ready] first
  have h₃ : Step service s₂ s₃ := .enqueue rfl rfl
  let s₄ : Scene := { s₃ with
    race := {
      calls := {
        table := { next := 3, entries := [second.entry, first.entry] }
        slots := [.waiting, .waiting] }
      registered := [first.entry, second.entry] }
    starts := [{ ready with phase := .ended (.ok first) }, { ready with phase := .registered second }] }
  have h₄ : Step service s₃ s₄ := by
    have hst : s₃.starts = [{ ready with phase := .ended (.ok first) }] ++ ready :: [] := rfl
    exact step_register_of_isFree hst rfl rfl (by rfl) rfl
  let s₅ := (s₄.close .user).drain
  have h₅ : Relation.ReflTransGen (Step service) s₄ s₅ := .tail (.single (.close .user)) (.drain rfl)
  let r₆ := s₅.race.complete [] ⟨.drain, [second.entry, first.entry], []⟩ [] second.entry
  let s₆ : Scene := { s₅ with race := r₆ }
  have h₆ : Step service s₅ s₆ := .complete rfl List.mem_cons_self
  let r₇ := r₆.complete [] ⟨.drain, [first.entry], [(second.entry, true)]⟩ [] first.entry
  let s₇ : Scene := { s₆ with race := r₇ }
  have h₇ : Step service s₆ s₇ := .complete rfl List.mem_cons_self
  have hreachable : s₇.Reachable service :=
    ⟨shell, (h₁.tail h₂ |>.tail h₃ |>.tail h₄).trans h₅ |>.tail h₆ |>.tail h₇⟩
  -- The second request comes too late.
  let s₈ := s₇.enqueue [{ ready with phase := .ended (.ok first) }]
    { ready with phase := .registered second } [] second
  have h₈ : Step service s₇ s₈ := .enqueue rfl rfl
  let s₉ := s₈.forget [{ ready with phase := .ended (.ok first) }]
    { ready with phase := .refused second .notConnected } [] second .notConnected
  have h₉ : Step service s₈ s₉ := .forget rfl rfl
  have hended : s₇.HasEnded := by
    refine ⟨⟨_, List.mem_cons_self, rfl⟩, ?_⟩
    intro p hp _
    rw [List.mem_singleton.mp hp]
    rfl
  have hfew : s₉.race.allocated < UInt32.size := by decide
  obtain ⟨hback, hend⟩ := no_caller_outlives hreachable (.tail (.single h₈) h₉) hfew
  obtain ⟨hentries, -, hresolved⟩ := hend hended
  have hreturned : s₉.Returned 0 first := ⟨_, rfl, rfl⟩
  refine ⟨service, s₇, s₉, first, hreachable, .tail (.single h₈) h₉, hfew, rfl, hended, hentries,
    hreturned, hresolved ?_ 0 first hreturned, ?_⟩
  · intro p hp
    rw [List.mem_singleton.mp hp]
    rfl
  · intro call' h
    obtain ⟨st, hst, hphase⟩ := hback rfl 1 call' h
    cases hst
    cases hphase

/-- A cancellation has taken the call out of the table and not completed it when the connection has
ended, so the call is not resolved yet. -/
theorem exists_unresolved_of_hasEnded :
    ∃ (service : Service) (s : Scene) (call : PendingCall), s.Reachable service ∧
      s.race.allocated < UInt32.size ∧ s.conn.life.state = .closed ∧ s.HasEnded ∧
      s.Returned 0 call ∧ s.conn.isResolved call = false ∧ ¬ s.IsResolved call := by
  let type : PayloadType := ⟨0, "()", .unit, []⟩
  let service : Service := { protocol := { name := "client", sent := [(7, ⟨type, type⟩)] } }
  let shell := (Connection.new service "caller").establish true
  let ready : Start := { command := 7, type, payload := [] }
  let call : PendingCall := ⟨7, 1, 0, type⟩
  let s₁ : Scene := { shell, starts := [ready] }
  have hprepare : (Scene.conn { shell }).prepareCall service 7 ⟨type, type⟩ .unit = .ok [] := rfl
  have h₁ : Step service { shell } s₁ := .start hprepare
  let s₂ : Scene := { s₁ with
    race := {
      calls := { table := { next := 2, entries := [call.entry] }, slots := [.waiting] }
      registered := [call.entry] }
    starts := [{ ready with phase := .registered call }] }
  have h₂ : Step service s₁ s₂ := by
    have hst : s₁.starts = [] ++ ready :: [] := rfl
    exact step_register_of_isFree hst rfl rfl (by decide) rfl
  let s₃ := s₂.enqueue [] { ready with phase := .registered call } [] call
  have h₃ : Step service s₂ s₃ := .enqueue rfl rfl
  let s₄ : Scene := { s₃ with race := s₃.race.take (.cancel 1) }
  have h₄ : Step service s₃ s₄ := .take nofun
  let s₅ := (s₄.close .user).drain
  have h₅ : Relation.ReflTransGen (Step service) s₄ s₅ := .tail (.single (.close .user)) (.drain rfl)
  have hreachable : s₅.Reachable service :=
    ⟨shell, ((Relation.ReflTransGen.single h₁).tail h₂ |>.tail h₃ |>.tail h₄).trans h₅⟩
  have hended : s₅.HasEnded := by
    refine ⟨⟨_, List.mem_cons_of_mem _ List.mem_cons_self, rfl⟩, ?_⟩
    intro p hp hdrain
    rcases List.mem_cons.mp hp with rfl | hp
    · cases hdrain
    · rw [List.mem_singleton.mp hp]
      rfl
  refine ⟨service, s₅, call, hreachable, by decide, rfl, hended, ⟨_, rfl, rfl⟩, rfl, ?_⟩
  rintro ⟨p, hp, hcompleted, -⟩
  rcases List.mem_cons.mp hp with rfl | hp
  · cases hcompleted
  · rw [List.mem_singleton.mp hp] at hcompleted
    cases hcompleted

end Scene

end CallWire
