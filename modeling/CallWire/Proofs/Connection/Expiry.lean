import CallWire.Proofs.Connection.Correlation
import CallWire.Proofs.Pending.Handle

/-!
# CallWire.Proofs.Connection.Expiry — a wait that expires

Once the time is up, the waiter of a call cancels it.  By then a reply may have taken the call out
of the table, or somebody else who cancels it, or the end of the connection, and may not have left
its outcome yet.  So the wait has timed out only if it was this cancellation that took the call
out.  Otherwise the waiter goes on waiting, for what is left by whoever did.
-/

namespace CallWire

/-- The state of `waitTimeout` or of a dropped call. -/
inductive Watch
  /-- Nobody waits for the call yet. -/
  | idle
  | waiting
  /-- The time is up, and there was no outcome. -/
  | expired
  | cancelling
  /-- The call was not in the table when the waiter came to cancel it. -/
  | overtaken
  | returned (result : Except RpcError Value)
  /-- The call is dropped without an outcome. -/
  | dropping
  | withdrawing
  | dropped

/-- The waiter has not returned. -/
def Watch.isOpen : Watch → Bool
  | returned _ => false
  | _ => true

inductive Watch.Cancels : Watch → Watch → Prop
  | expired : Cancels .expired .cancelling
  | dropping : Cancels .dropping .withdrawing

theorem Watch.Cancels.isOpen {w w' : Watch} (h : w.Cancels w') : w.isOpen = true := by
  cases h with
  | expired => rfl
  | dropping => rfl

theorem Watch.Cancels.eq_expired {w : Watch} (h : w.Cancels .cancelling) : w = .expired := by
  cases h
  rfl

theorem PendingCall.result_ne_timeout {call : PendingCall} {o : Outcome} {milliseconds : Nat}
    (h : o ≠ .error (.timeout milliseconds)) : call.result o ≠ .error (.timeout milliseconds) := by
  rcases o with e | payload
  · intro heq
    cases heq
    exact h rfl
  · intro heq
    have hdecode : (call.type.decode payload).mapError RpcError.codec =
        .error (.timeout milliseconds) := heq
    rcases hvalue : call.type.decode payload with e | v
    · rw [hvalue] at hdecode
      cases hdecode
    · rw [hvalue] at hdecode
      cases hdecode

/-- A connection that several threads use, and the waiter of one call. -/
structure Vigil where
  scene : Scene
  watch : Watch := .idle
  /-- The index of the party as which the waiter cancels the call. -/
  own : Option Nat := none

theorem PendingTable.take_cancel_leaves (t : PendingTable) (n : UInt32) :
    ((Deed.cancel n).take t).2.Lacks n ∧
      (t.Lacks n ∨ n ∈ ((Deed.cancel n).take t).2.cancelled) := by
  rw [Deed.take_cancel]
  rcases t.cancel_cases n with ⟨e, -, -, kept, -, heq⟩ | ⟨hlacks, heq⟩
  · rw [heq]
    exact ⟨lacks_without, .inr List.mem_cons_self⟩
  · rw [heq]
    exact ⟨hlacks, .inl hlacks⟩

theorem Calls.poll_of_none {c : Calls} {i : Nat} (h : (c.poll i).1 = none) : (c.poll i).2 = c := by
  have hslot : (c.slot i).poll.2 = c.slot i := by
    unfold poll at h
    rcases hslot : c.slot i with _ | o | _
    · rfl
    · rw [hslot] at h
      cases h
    · rw [hslot] at h
      cases h
  show { c with slots := c.slots.set i (c.slot i).poll.2 } = c
  rw [hslot]
  unfold slot
  by_cases hi : i < c.slots.length
  · rw [List.getD_eq_getElem?_getD, List.getElem?_eq_getElem hi, Option.getD_some,
      List.set_getElem_self]
  · rw [List.set_eq_of_length_le (Nat.le_of_not_lt hi)]

namespace Race

theorem Inv.isResolved_iff {r : Race} (h : r.Inv) {i : Nat} :
    r.calls.isResolved i = true ↔ ∃ o, r.outcome? i = some o := by
  unfold Calls.isResolved
  rcases hslot : r.calls.slot i with _ | o | _
  · refine ⟨nofun, ?_⟩
    rintro ⟨o, ho⟩
    unfold outcome? at ho
    rw [hslot] at ho
    cases ho
  · refine ⟨fun _ => ⟨o, ?_⟩, fun _ => rfl⟩
    unfold outcome?
    rw [hslot]
  · obtain ⟨o, hgot⟩ := h.taken i hslot
    exact ⟨fun _ => ⟨o, h.got i o hgot⟩, fun _ => rfl⟩

theorem Inv.succeeded_iff {r : Race} (h : r.Inv) {p : Party} (hp : p ∈ r.parties)
    (hheld : p.held = []) : p.succeeded = true ↔ p.taken ≠ [] := by
  unfold Party.succeeded Party.taken Party.done
  rw [hheld, List.nil_append]
  rcases hcompleted : p.completed with _ | ⟨c, rest⟩
  · exact ⟨nofun, fun hne => absurd rfl hne⟩
  · have hfirst := (h.settled p hp c (hcompleted ▸ List.mem_cons_self)).1
    refine ⟨fun _ => nofun, fun _ => ?_⟩
    rw [List.any_cons, hfirst]
    rfl

end Race

namespace Vigil

def race (s : Vigil) : Race := s.scene.race

def IsOwn (s : Vigil) (p : Party) : Prop := ∃ k, s.own = some k ∧ s.race.parties[k]? = some p

/-- The waiter takes the call out of the table to cancel it. -/
def take (s : Vigil) (call : PendingCall) (watch : Watch) : Vigil where
  scene := { s.scene with race := s.race.take (.cancel call.sequence) }
  watch := watch
  own := some s.race.parties.length

/-- The waiter takes the outcome out of the slot. -/
def get (s : Vigil) (call : PendingCall) (o : Outcome) : Vigil :=
  { s with
    scene := { s.scene with race := s.race.wait call.slot o }
    watch := .returned (call.result o) }

/-- A transition of the waiter that leaves the calls unchanged. -/
inductive Move (call : PendingCall) (milliseconds : Nat) (s : Vigil) : Watch → Prop
  | wait (h : s.watch = .idle) : Move call milliseconds s .waiting
  | expire (h : s.watch = .waiting) (hpoll : (s.race.calls.poll call.slot).1 = none) :
      Move call milliseconds s .expired
  | timeOut {p : Party} (h : s.watch = .cancelling) (hp : s.IsOwn p) (hheld : p.held = [])
      (hsucceeded : p.succeeded = true) :
      Move call milliseconds s (.returned (.error (.timeout milliseconds)))
  | yield {p : Party} (h : s.watch = .cancelling) (hp : s.IsOwn p) (hheld : p.held = [])
      (hsucceeded : p.succeeded = false) : Move call milliseconds s .overtaken
  | skip (h : s.watch = .idle) (hresolved : s.race.calls.isResolved call.slot = true) :
      Move call milliseconds s .dropped
  | drop (h : s.watch = .idle) (hresolved : s.race.calls.isResolved call.slot = false) :
      Move call milliseconds s .dropping
  | letGo {p : Party} (h : s.watch = .withdrawing) (hp : s.IsOwn p) (hheld : p.held = []) :
      Move call milliseconds s .dropped

/-- A step of one thread. Nobody but the waiter takes the outcome of its call out of the slot. -/
inductive Step (service : Service) (call : PendingCall) (milliseconds : Nat) (s : Vigil) :
    Vigil → Prop
  | other {scene : Scene} (hstep : Scene.Step service s.scene scene)
      (hown : ∀ o, (call.slot, o) ∈ scene.race.got → (call.slot, o) ∈ s.race.got) :
      Step service call milliseconds s { s with scene }
  | move {watch : Watch} (h : s.Move call milliseconds watch) :
      Step service call milliseconds s { s with watch }
  | take {watch : Watch} (h : s.watch.Cancels watch) :
      Step service call milliseconds s (s.take call watch)
  | get {o : Outcome} (h : s.watch = .waiting ∨ s.watch = .overtaken)
      (hpoll : (s.race.calls.poll call.slot).1 = some o) :
      Step service call milliseconds s (s.get call o)

abbrev Run (service : Service) (call : PendingCall) (milliseconds : Nat) : Vigil → Vigil → Prop :=
  Relation.ReflTransGen (Step service call milliseconds)

/-- The thread that started the call has returned it, and nobody has waited for it. -/
structure Begins (service : Service) (call : PendingCall) (s : Vigil) : Prop where
  reachable : s.scene.Reachable service
  returned : ∃ k, s.scene.Returned k call
  unseen : ∀ o, (call.slot, o) ∉ s.race.got
  idle : s.watch = .idle
  own : s.own = none

/-- The result of the wait for a call that was taken out by a party with this deed. -/
def Brings (call : PendingCall) (d : Deed) (result : Except RpcError Value) : Prop :=
  (∃ reply, d = .deliver reply ∧ reply.header.sequence = call.sequence ∧
      result = call.result (Connection.replyOutcome call.entry reply).1 ∧
      (call.command = reply.header.command →
        (reply.header.kind = .reply → result = (call.type.decode reply.payload).mapError .codec) ∧
        (reply.header.kind = .errorReply → ∀ code, reply.statusCode = .ok code →
          result = .error (.remote (.ofCode code))))) ∨
    (d = .cancel call.sequence ∧ result = .error .cancelled) ∨
    (d = .drain ∧ result = .error .disconnected)

/-- No outcome is lost to an expired wait, and the call does not stay in the table. -/
structure LosesNothing (service : Service) (call : PendingCall) (milliseconds : Nat)
    (s₀ s : Vigil) : Prop where
  /-- The wait times out only if the waiter itself took the call out of the table. -/
  timedOut : ∀ m, s.watch = .returned (.error (.timeout m)) → m = milliseconds ∧
    ∃ s₁, Run service call milliseconds s₀ s₁ ∧ s₁.watch = .expired ∧
      call.entry ∈ s₁.race.calls.table.entries ∧
      call.sequence ∈ (s₁.take call .cancelling).race.calls.table.cancelled ∧
      Run service call milliseconds (s₁.take call .cancelling) s ∧
      ∃ p, s.IsOwn p ∧ p.taken = [call.entry] ∧ p.succeeded = true
  /-- Otherwise it returns the outcome left by the other party that took the call out. -/
  stored : ∀ result, s.watch = .returned result → (∀ m, result ≠ .error (.timeout m)) →
    ∃ p ∈ s.race.parties, ∃ o, p.Resolves call.slot o ∧ result = call.result o ∧
      Brings call p.deed result ∧ ∀ q, s.IsOwn q → q.taken = []
  gone : ∀ result, s.watch = .returned result → s.race.calls.table.Lacks call.sequence
  /-- A waiter that was overtaken finds the outcome, at the latest after the next step of the party
  that holds the call. -/
  awaited : s.watch = .overtaken →
    (∃ o, Step service call milliseconds s (s.get call o)) ∨
      ∃ p ∈ s.race.parties, call.entry ∈ p.held ∧ ∃ s', Step service call milliseconds s s' ∧
        ∃ o, Step service call milliseconds s' (s'.get call o)
  dropped : s.watch = .dropped → s.race.calls.table.Lacks call.sequence ∧
    ((s.own = none ∧ ∃ o, s.race.outcome? call.slot = some o) ∨
      ∃ p, s.IsOwn p ∧ p.deed = .cancel call.sequence ∧ p.held = [] ∧
        ((p.taken = [call.entry] ∧ s.race.outcome? call.slot = some (.error .cancelled)) ∨
          p.taken = []))
  /-- Without interference, dropping a call cancels it, and changes nothing if it has an outcome. -/
  alone : ∀ c : Connection, c.calls = s.race.calls →
    c.drop call = (c.cancel call.sequence).2 ∧ (c.isResolved call = true → c.drop call = c)
  /-- An uninterrupted wait is a run. -/
  waits : ∃ s', Run service call milliseconds s₀ s' ∧
    s'.scene.conn = (s₀.scene.conn.waitUntil call milliseconds).2 ∧
    (((s₀.scene.conn.waitUntil call milliseconds).1 = none ∧ s'.watch = .overtaken) ∨
      ∃ result, (s₀.scene.conn.waitUntil call milliseconds).1 = some result ∧
        s'.watch = .returned result)
  /-- So is an uninterrupted drop. -/
  drops : ∃ s', Run service call milliseconds s₀ s' ∧ s'.scene.conn = s₀.scene.conn.drop call ∧
    s'.watch = .dropped

variable {service : Service} {call : PendingCall} {milliseconds : Nat} {s₀ s s' : Vigil}

/-! ### What every step keeps -/

def Unseen (s : Vigil) (call : PendingCall) : Prop :=
  s.watch.isOpen = true → ∀ o, (call.slot, o) ∉ s.race.got

theorem Move.isOpen {watch : Watch} (h : s.Move call milliseconds watch) :
    s.watch.isOpen = true := by
  cases h with
  | wait h => exact congrArg Watch.isOpen h
  | expire h hpoll => exact congrArg Watch.isOpen h
  | timeOut h hp hheld hsucceeded => exact congrArg Watch.isOpen h
  | yield h hp hheld hsucceeded => exact congrArg Watch.isOpen h
  | skip h hresolved => exact congrArg Watch.isOpen h
  | drop h hresolved => exact congrArg Watch.isOpen h
  | letGo h hp hheld => exact congrArg Watch.isOpen h

theorem isOpen_of_waits (h : s.watch = .waiting ∨ s.watch = .overtaken) :
    s.watch.isOpen = true := by
  rcases h with h | h
  · exact congrArg Watch.isOpen h
  · exact congrArg Watch.isOpen h

theorem Step.unseen (hstep : Step service call milliseconds s s') (h : s.Unseen call) :
    s'.Unseen call := by
  intro hopen o hgot
  cases hstep with
  | other hstep hown => exact h hopen o (hown o hgot)
  | move hmove => exact h hmove.isOpen o hgot
  | take hcancels => exact h hcancels.isOpen o hgot
  | get hwaits hpoll => cases hopen

theorem Step.scene (hstep : Step service call milliseconds s s') (h : s.Unseen call) :
    s'.scene = s.scene ∨ Scene.Step service s.scene s'.scene := by
  cases hstep with
  | other hstep hown => exact .inr hstep
  | move hmove => exact .inl rfl
  | take hcancels => exact .inr (.take nofun)
  | get hwaits hpoll => exact .inr (.wait (h (isOpen_of_waits hwaits)) hpoll)

theorem Step.allocated_le (hstep : Step service call milliseconds s s') :
    s.race.allocated ≤ s'.race.allocated := by
  cases hstep with
  | other hstep hown => exact Scene.allocated_le hstep
  | move hmove => exact Nat.le_refl _
  | take hcancels => exact Nat.le_refl _
  | get hwaits hpoll => exact Nat.le_refl _

/-! ### The waiter's own cancellation -/

/-- The waiter tried to cancel as party `p`, and `p` tells whether the call was in the table. -/
structure Tried (service : Service) (call : PendingCall) (milliseconds : Nat) (watch : Watch)
    (s₀ s : Vigil) (p : Party) : Prop where
  own : s.IsOwn p
  deed : p.deed = .cancel call.sequence
  gone : s.race.calls.table.Lacks call.sequence
  came : ∃ s₁, Run service call milliseconds s₀ s₁ ∧ s₁.watch.Cancels watch ∧
    Run service call milliseconds (s₁.take call watch) s ∧
      ((call.entry ∈ s₁.race.calls.table.entries ∧
          call.sequence ∈ (s₁.take call watch).race.calls.table.cancelled ∧
          p.taken = [call.entry]) ∨
        p.taken = [])

/-- The waiter did not try to cancel, or did not find the call in the table. -/
def Missed (service : Service) (call : PendingCall) (milliseconds : Nat) (s₀ s : Vigil) : Prop :=
  s.own = none ∨ ∃ p, Tried service call milliseconds .cancelling s₀ s p ∧ p.taken = []

/-- What is known of the wait at each of its states. -/
def Stands (service : Service) (call : PendingCall) (milliseconds : Nat) (s₀ s : Vigil) :
    Watch → Prop
  | .idle | .waiting | .expired | .dropping => s.own = none
  | .cancelling => ∃ p, Tried service call milliseconds .cancelling s₀ s p
  | .overtaken => ∃ p, Tried service call milliseconds .cancelling s₀ s p ∧ p.taken = []
  | .returned result =>
    (∃ p, Tried service call milliseconds .cancelling s₀ s p ∧ p.held = [] ∧
        p.taken = [call.entry] ∧ result = .error (.timeout milliseconds)) ∨
      ∃ o, s.race.outcome? call.slot = some o ∧ result = call.result o ∧
        Missed service call milliseconds s₀ s
  | .withdrawing => ∃ p, Tried service call milliseconds .withdrawing s₀ s p
  | .dropped =>
    (∃ p, Tried service call milliseconds .withdrawing s₀ s p ∧ p.held = []) ∨
      (s.own = none ∧ ∃ o, s.race.outcome? call.slot = some o)

/-- The invariant of a wait in runs with distinct numbers. -/
structure Inv (service : Service) (call : PendingCall) (milliseconds : Nat) (s₀ s : Vigil) :
    Prop where
  run : Run service call milliseconds s₀ s
  scene : s.scene.Inv
  sent : ∃ k request, s.scene.Sent k call request
  unseen : s.Unseen call
  stands : Stands service call milliseconds s₀ s s.watch

theorem IsOwn.unique {p q : Party} (hp : s.IsOwn p) (hq : s.IsOwn q) : q = p := by
  obtain ⟨k, hk, hp⟩ := hp
  obtain ⟨k', hk', hq⟩ := hq
  obtain rfl : k' = k := Option.some.inj (hk'.symm.trans hk)
  exact Option.some.inj (hq.symm.trans hp)

theorem IsOwn.mem {p : Party} (h : s.IsOwn p) : p ∈ s.race.parties := by
  obtain ⟨k, -, hp⟩ := h
  exact List.mem_of_getElem? hp

theorem Inv.registered (h : Inv service call milliseconds s₀ s) :
    call.entry ∈ s.race.registered := by
  obtain ⟨k, request, hsent⟩ := h.sent
  exact (h.scene.owned.started _ hsent.entry_mem).1

theorem Inv.isCurrent (h : Inv service call milliseconds s₀ s) : s.race.IsCurrent call.entry :=
  fun _ he hn =>
    List.inj_on_of_nodup_map h.scene.numbered.distinct (h.scene.race.entries_subset he)
      h.registered hn

theorem Inv.poll_eq (h : Inv service call milliseconds s₀ s) (hopen : s.watch.isOpen = true) :
    (s.race.calls.poll call.slot).1 = s.race.outcome? call.slot :=
  h.scene.race.poll_eq (h.unseen hopen)

theorem Inv.race_step (h : Inv service call milliseconds s₀ s)
    (hstep : Step service call milliseconds s s') (hfew : s'.race.allocated < UInt32.size) :
    s'.race = s.race ∨ s.race.Step s'.race := by
  rcases hstep.scene h.unseen with heq | hscene
  · exact .inl (congrArg Scene.race heq)
  · exact hscene.race h.scene hfew

theorem Inv.race_run (h : Inv service call milliseconds s₀ s)
    (hstep : Step service call milliseconds s s') (hfew : s'.race.allocated < UInt32.size) :
    Relation.ReflTransGen Race.Step s.race s'.race := by
  rcases h.race_step hstep hfew with heq | hrace
  · exact heq ▸ .refl
  · exact .single hrace

theorem Inv.scene_step (h : Inv service call milliseconds s₀ s)
    (hstep : Step service call milliseconds s s') (hfew : s'.race.allocated < UInt32.size) :
    s'.scene.Inv := by
  rcases hstep.scene h.unseen with heq | hscene
  · exact heq ▸ h.scene
  · exact h.scene.step hscene hfew

theorem Inv.sent_step (h : Inv service call milliseconds s₀ s)
    (hstep : Step service call milliseconds s s') :
    ∃ k request, s'.scene.Sent k call request := by
  obtain ⟨k, request, hsent⟩ := h.sent
  rcases hstep.scene h.unseen with heq | hscene
  · exact ⟨k, request, heq ▸ hsent⟩
  · exact ⟨k, request, hsent.step hscene⟩

theorem Inv.lacks_step (h : Inv service call milliseconds s₀ s)
    (hstep : Step service call milliseconds s s') (hfew : s'.race.allocated < UInt32.size)
    (hlacks : s.race.calls.table.Lacks call.sequence) :
    s'.race.calls.table.Lacks call.sequence := by
  rcases h.race_step hstep hfew with heq | hrace
  · rw [heq]
    exact hlacks
  · exact hrace.lacks (h.scene_step hstep hfew).numbered h.registered hlacks

theorem Tried.step {watch : Watch} {p : Party} (ht : Tried service call milliseconds watch s₀ s p)
    (h : Inv service call milliseconds s₀ s) (hstep : Step service call milliseconds s s')
    (hfew : s'.race.allocated < UInt32.size) (hown : s'.own = s.own) :
    ∃ p', Tried service call milliseconds watch s₀ s' p' ∧ p'.held ⊆ p.held ∧
      p'.taken.Perm p.taken := by
  obtain ⟨k, hk, hp⟩ := ht.own
  obtain ⟨p', hp', hdeed, hheld, htaken⟩ := Race.keeps_party (h.race_run hstep hfew) hp
  refine ⟨p', ?_, hheld, htaken⟩
  obtain ⟨s₁, hbefore, hcancels, hsince, hfound⟩ := ht.came
  refine ⟨⟨k, hown.trans hk, hp'⟩, hdeed.trans ht.deed, h.lacks_step hstep hfew ht.gone, s₁,
    hbefore, hcancels, hsince.tail hstep, ?_⟩
  rcases hfound with ⟨hmem, hcancelled, heq⟩ | heq
  · rw [heq] at htaken
    exact .inl ⟨hmem, hcancelled, List.perm_singleton.mp htaken⟩
  · rw [heq] at htaken
    exact .inr htaken.eq_nil

theorem Inv.tries {watch : Watch} (h : Inv service call milliseconds s₀ s)
    (hcancels : s.watch.Cancels watch) :
    ∃ p, Tried service call milliseconds watch s₀ (s.take call watch) p := by
  obtain ⟨hgone, hremembered⟩ := s.race.calls.table.take_cancel_leaves call.sequence
  refine ⟨⟨.cancel call.sequence, ((Deed.cancel call.sequence).take s.race.calls.table).1, []⟩,
    ⟨_, rfl, List.getElem?_concat_length⟩, rfl, hgone, s, h.run, hcancels, .refl, ?_⟩
  show (_ ∧ _ ∧ _ ++ [] = _) ∨ _ ++ [] = _
  rw [List.append_nil]
  rcases s.race.calls.table.take_cancel_cases call.sequence with ⟨e, he, hn, heq⟩ | ⟨-, heq⟩
  · obtain rfl := h.isCurrent e he hn
    refine .inl ⟨he, ?_, heq⟩
    rcases hremembered with hlacks | hcancelled
    · exact absurd rfl (hlacks _ he)
    · exact hcancelled
  · exact .inr heq

theorem Tried.stands {w watch : Watch} {p : Party}
    (ht : Tried service call milliseconds watch s₀ s p) (hcancels : w.Cancels watch) :
    Stands service call milliseconds s₀ s watch := by
  cases hcancels with
  | expired => exact ⟨p, ht⟩
  | dropping => exact ⟨p, ht⟩

theorem Missed.step (hm : Missed service call milliseconds s₀ s)
    (h : Inv service call milliseconds s₀ s) (hstep : Step service call milliseconds s s')
    (hfew : s'.race.allocated < UInt32.size) (hown : s'.own = s.own) :
    Missed service call milliseconds s₀ s' := by
  rcases hm with hnone | ⟨p, ht, htaken⟩
  · exact .inl (hown.trans hnone)
  · obtain ⟨p', ht', -, hperm⟩ := ht.step h hstep hfew hown
    rw [htaken] at hperm
    exact .inr ⟨p', ht', hperm.eq_nil⟩

theorem Missed.taken_eq_nil (hm : Missed service call milliseconds s₀ s) {p : Party}
    (hp : s.IsOwn p) : p.taken = [] := by
  rcases hm with hnone | ⟨q, ht, htaken⟩
  · obtain ⟨k, hk, -⟩ := hp
    rw [hnone] at hk
    cases hk
  · rw [ht.own.unique hp]
    exact htaken

theorem Inv.stands_other (h : Inv service call milliseconds s₀ s)
    (hstep : Step service call milliseconds s s') (hfew : s'.race.allocated < UInt32.size)
    (hown : s'.own = s.own) : Stands service call milliseconds s₀ s' s.watch := by
  have hstands := h.stands
  have hkept {o : Outcome} (ho : s.race.outcome? call.slot = some o) :
      s'.race.outcome? call.slot = some o :=
    h.scene.race.keeps_outcome (h.race_run hstep hfew) ho
  have hheld {p p' : Party} (hsub : p'.held ⊆ p.held) (hnil : p.held = []) : p'.held = [] :=
    List.eq_nil_of_subset_nil (hnil ▸ hsub)
  -- Outcomes stay, and so does what the party of the waiter has taken.
  generalize s.watch = watch at hstands ⊢
  cases watch with
  | idle => exact hown.trans hstands
  | waiting => exact hown.trans hstands
  | expired => exact hown.trans hstands
  | dropping => exact hown.trans hstands
  | cancelling =>
    obtain ⟨p, ht⟩ := hstands
    obtain ⟨p', ht', -, -⟩ := ht.step h hstep hfew hown
    exact ⟨p', ht'⟩
  | overtaken =>
    obtain ⟨p, ht, htaken⟩ := hstands
    obtain ⟨p', ht', -, hperm⟩ := ht.step h hstep hfew hown
    exact ⟨p', ht', (htaken ▸ hperm).eq_nil⟩
  | returned result =>
    rcases hstands with ⟨p, ht, hnil, htaken, hresult⟩ | ⟨o, ho, hresult, hm⟩
    · obtain ⟨p', ht', hsub, hperm⟩ := ht.step h hstep hfew hown
      exact .inl ⟨p', ht', hheld hsub hnil, List.perm_singleton.mp (htaken ▸ hperm), hresult⟩
    · exact .inr ⟨o, hkept ho, hresult, hm.step h hstep hfew hown⟩
  | withdrawing =>
    obtain ⟨p, ht⟩ := hstands
    obtain ⟨p', ht', -, -⟩ := ht.step h hstep hfew hown
    exact ⟨p', ht'⟩
  | dropped =>
    rcases hstands with ⟨p, ht, hnil⟩ | ⟨hnone, o, ho⟩
    · obtain ⟨p', ht', hsub, -⟩ := ht.step h hstep hfew hown
      exact .inl ⟨p', ht', hheld hsub hnil⟩
    · exact .inr ⟨hown.trans hnone, o, hkept ho⟩

theorem Inv.stands_move {watch : Watch} (h : Inv service call milliseconds s₀ s)
    (hmove : s.Move call milliseconds watch) (hfew : s.race.allocated < UInt32.size) :
    Stands service call milliseconds s₀ { s with watch } watch := by
  have hstep : Step service call milliseconds s { s with watch } := .move hmove
  have hstands := h.stands
  cases hmove with
  | wait hwatch =>
    rw [hwatch] at hstands
    exact hstands
  | expire hwatch hpoll =>
    rw [hwatch] at hstands
    exact hstands
  | @timeOut p hwatch hp hheld hsucceeded =>
    rw [hwatch] at hstands
    obtain ⟨q, ht⟩ := hstands
    obtain rfl := ht.own.unique hp
    -- The cancellation was the first to complete something, so it has taken the call.
    have hne := (h.scene.race.succeeded_iff hp.mem hheld).mp hsucceeded
    have htaken : p.taken = [call.entry] := by
      obtain ⟨s₁, -, -, -, ⟨-, -, heq⟩ | heq⟩ := ht.came
      · exact heq
      · exact absurd heq hne
    obtain ⟨p', ht', hsub, hperm⟩ := ht.step h hstep hfew rfl
    exact .inl ⟨p', ht', List.eq_nil_of_subset_nil (hheld ▸ hsub),
      List.perm_singleton.mp (htaken ▸ hperm), rfl⟩
  | @yield p hwatch hp hheld hsucceeded =>
    rw [hwatch] at hstands
    obtain ⟨q, ht⟩ := hstands
    obtain rfl := ht.own.unique hp
    have htaken : p.taken = [] := by
      by_contra hne
      rw [(h.scene.race.succeeded_iff hp.mem hheld).mpr hne] at hsucceeded
      cases hsucceeded
    obtain ⟨p', ht', -, hperm⟩ := ht.step h hstep hfew rfl
    exact ⟨p', ht', (htaken ▸ hperm).eq_nil⟩
  | skip hwatch hresolved =>
    rw [hwatch] at hstands
    exact .inr ⟨hstands, h.scene.race.isResolved_iff.mp hresolved⟩
  | drop hwatch hresolved =>
    rw [hwatch] at hstands
    exact hstands
  | @letGo p hwatch hp hheld =>
    rw [hwatch] at hstands
    obtain ⟨q, ht⟩ := hstands
    obtain rfl := ht.own.unique hp
    obtain ⟨p', ht', hsub, -⟩ := ht.step h hstep hfew rfl
    exact .inl ⟨p', ht', List.eq_nil_of_subset_nil (hheld ▸ hsub)⟩

theorem Inv.stands_get {o : Outcome} (h : Inv service call milliseconds s₀ s)
    (hwaits : s.watch = .waiting ∨ s.watch = .overtaken)
    (hpoll : (s.race.calls.poll call.slot).1 = some o) (hfew : s.race.allocated < UInt32.size) :
    Stands service call milliseconds s₀ (s.get call o) (.returned (call.result o)) := by
  have hopen := isOpen_of_waits hwaits
  have hstep : Step service call milliseconds s (s.get call o) := .get hwaits hpoll
  have ho := (h.poll_eq hopen).symm.trans hpoll
  have hm : Missed service call milliseconds s₀ s := by
    have hstands := h.stands
    rcases hwaits with hwatch | hwatch
    · rw [hwatch] at hstands
      exact .inl hstands
    · rw [hwatch] at hstands
      exact .inr hstands
  exact .inr ⟨o, h.scene.race.keeps_outcome (h.race_run hstep hfew) ho, rfl,
    hm.step h hstep hfew rfl⟩

theorem Inv.step (h : Inv service call milliseconds s₀ s)
    (hstep : Step service call milliseconds s s') (hfew : s'.race.allocated < UInt32.size) :
    Inv service call milliseconds s₀ s' := by
  refine ⟨h.run.tail hstep, h.scene_step hstep hfew, h.sent_step hstep, hstep.unseen h.unseen, ?_⟩
  cases hstep with
  | other hscene hown => exact h.stands_other (.other hscene hown) hfew rfl
  | move hmove => exact h.stands_move hmove hfew
  | take hcancels =>
    obtain ⟨p, ht⟩ := h.tries hcancels
    exact ht.stands hcancels
  | get hwaits hpoll => exact h.stands_get hwaits hpoll hfew

theorem Begins.inv (h : Begins service call s) (milliseconds : Nat)
    (hfew : s.race.allocated < UInt32.size) : Inv service call milliseconds s s := by
  refine ⟨.refl, h.reachable.inv hfew, ?_, fun _ => h.unseen, ?_⟩
  · obtain ⟨k, st, hst, hphase⟩ := h.returned
    exact ⟨k, _, st, hst, hphase, rfl⟩
  · rw [h.idle]
    exact h.own

theorem Begins.run_inv (h : Begins service call s₀) (hrun : Run service call milliseconds s₀ s)
    (hfew : s.race.allocated < UInt32.size) : Inv service call milliseconds s₀ s := by
  induction hrun with
  | refl => exact h.inv milliseconds hfew
  | tail _ hstep ih => exact (ih (Nat.lt_of_le_of_lt hstep.allocated_le hfew)).step hstep hfew

/-! ### What the waiter returns -/

theorem brings_of_taken {d : Deed} (hnumber : ∀ n, d.number? = some n → call.sequence = n) :
    Brings call d (call.result (d.outcome call.entry)) := by
  cases d with
  | deliver reply =>
    refine .inl ⟨reply, rfl, (hnumber _ rfl).symm, rfl, fun hcommand => ⟨?_, ?_⟩⟩
    · intro hkind
      have houtcome : Connection.replyOutcome call.entry reply = (.ok reply.payload, none) :=
        Connection.replyOutcome_reply hcommand hkind
      exact congrArg (fun o => call.result o.1) houtcome
    · intro hkind code hcode
      have houtcome : Connection.replyOutcome call.entry reply =
          (.error (.remote (.ofCode code)), none) :=
        Connection.replyOutcome_errorReply hcommand hkind hcode
      exact congrArg (fun o => call.result o.1) houtcome
  | cancel n =>
    obtain rfl := hnumber n rfl
    exact .inr (.inl ⟨rfl, rfl⟩)
  | drain => exact .inr (.inr ⟨rfl, rfl⟩)

theorem Inv.timedOut (h : Inv service call milliseconds s₀ s) {m : Nat}
    (hwatch : s.watch = .returned (.error (.timeout m))) : m = milliseconds ∧
      ∃ s₁, Run service call milliseconds s₀ s₁ ∧ s₁.watch = .expired ∧
        call.entry ∈ s₁.race.calls.table.entries ∧
        call.sequence ∈ (s₁.take call .cancelling).race.calls.table.cancelled ∧
        Run service call milliseconds (s₁.take call .cancelling) s ∧
        ∃ p, s.IsOwn p ∧ p.taken = [call.entry] ∧ p.succeeded = true := by
  have hstands := h.stands
  rw [hwatch] at hstands
  rcases hstands with ⟨p, ht, hheld, htaken, hresult⟩ | ⟨o, ho, hresult, -⟩
  · obtain ⟨s₁, hbefore, hcancels, hsince, ⟨hmem, hcancelled, -⟩ | hnone⟩ := ht.came
    · have hsucceeded := (h.scene.race.succeeded_iff ht.own.mem hheld).mpr (by rw [htaken]; nofun)
      cases hresult
      exact ⟨rfl, s₁, hbefore, hcancels.eq_expired, hmem, hcancelled, hsince, p, ht.own, htaken,
        hsucceeded⟩
    · rw [htaken] at hnone
      cases hnone
  · obtain ⟨p, -, e, -, -, houtcome⟩ := h.scene.race.resolved ho
    exact absurd hresult.symm (call.result_ne_timeout (houtcome ▸ p.deed.outcome_ne_timeout e m))

theorem Inv.stored (h : Inv service call milliseconds s₀ s) {result : Except RpcError Value}
    (hwatch : s.watch = .returned result) (hne : ∀ m, result ≠ .error (.timeout m)) :
    ∃ p ∈ s.race.parties, ∃ o, p.Resolves call.slot o ∧ result = call.result o ∧
      Brings call p.deed result ∧ ∀ q, s.IsOwn q → q.taken = [] := by
  have hstands := h.stands
  rw [hwatch] at hstands
  rcases hstands with ⟨p, -, -, -, hresult⟩ | ⟨o, ho, hresult, hm⟩
  · exact absurd hresult (hne milliseconds)
  · obtain ⟨p, hp, e, he, hslot, houtcome⟩ := h.scene.race.resolved ho
    have hdone : e ∈ p.taken := List.mem_append_right _ (List.mem_map_of_mem he)
    obtain rfl : e = call.entry :=
      h.scene.race.eq_of_slot h.registered (h.scene.race.own hp hdone) hslot
    refine ⟨p, hp, o, ⟨_, he, hslot, houtcome⟩, hresult, ?_, fun q hq => hm.taken_eq_nil hq⟩
    rw [hresult, ← houtcome]
    exact brings_of_taken fun n hn => (h.scene.race.single p hp n hn).2 _ hdone

theorem Inv.lacks (h : Inv service call milliseconds s₀ s) {o : Outcome}
    (ho : s.race.outcome? call.slot = some o) : s.race.calls.table.Lacks call.sequence :=
  h.isCurrent.lacks h.scene.race ho

theorem Inv.gone (h : Inv service call milliseconds s₀ s) {result : Except RpcError Value}
    (hwatch : s.watch = .returned result) : s.race.calls.table.Lacks call.sequence := by
  have hstands := h.stands
  rw [hwatch] at hstands
  rcases hstands with ⟨p, ht, -, -, -⟩ | ⟨o, ho, -, -⟩
  · exact ht.gone
  · exact h.lacks ho

theorem Inv.can_get (h : Inv service call milliseconds s₀ s) (hwatch : s.watch = .overtaken)
    {o : Outcome} (ho : s.race.outcome? call.slot = some o) :
    Step service call milliseconds s (s.get call o) :=
  .get (.inr hwatch) ((h.poll_eq (isOpen_of_waits (.inr hwatch))).trans ho)

theorem Inv.awaited (h : Inv service call milliseconds s₀ s)
    (hfew : s.race.allocated < UInt32.size) (hwatch : s.watch = .overtaken) :
    (∃ o, Step service call milliseconds s (s.get call o)) ∨
      ∃ p ∈ s.race.parties, call.entry ∈ p.held ∧ ∃ s', Step service call milliseconds s s' ∧
        ∃ o, Step service call milliseconds s' (s'.get call o) := by
  have hstands := h.stands
  rw [hwatch] at hstands
  obtain ⟨q, ht, -⟩ := hstands
  obtain ⟨k, request, hsent⟩ := h.sent
  rcases hsent.place h.scene with ⟨hentry, -⟩ | ⟨p, hp, hheld⟩ | ⟨p, -, -, houtcome⟩
  · exact absurd rfl (ht.gone _ hentry)
  · obtain ⟨before, after, heq⟩ := List.append_of_mem hp
    let scene : Scene := { s.scene with race := s.race.complete before p after call.entry }
    have hstep : Step service call milliseconds s { s with scene } :=
      .other (.complete heq hheld) fun _ hgot => hgot
    have houtcome : scene.race.outcome? call.slot = some (p.deed.outcome call.entry) :=
      h.scene.race.outcome?_complete heq hheld
    exact .inr ⟨p, hp, hheld, _, hstep, _, (h.step hstep hfew).can_get hwatch houtcome⟩
  · exact .inl ⟨_, h.can_get hwatch houtcome⟩

theorem Inv.dropped (h : Inv service call milliseconds s₀ s) (hwatch : s.watch = .dropped) :
    s.race.calls.table.Lacks call.sequence ∧
      ((s.own = none ∧ ∃ o, s.race.outcome? call.slot = some o) ∨
        ∃ p, s.IsOwn p ∧ p.deed = .cancel call.sequence ∧ p.held = [] ∧
          ((p.taken = [call.entry] ∧ s.race.outcome? call.slot = some (.error .cancelled)) ∨
            p.taken = [])) := by
  have hstands := h.stands
  rw [hwatch] at hstands
  rcases hstands with ⟨p, ht, hheld⟩ | ⟨hnone, o, ho⟩
  · refine ⟨ht.gone, .inr ⟨p, ht.own, ht.deed, hheld, ?_⟩⟩
    obtain ⟨s₁, -, -, -, ⟨-, -, htaken⟩ | htaken⟩ := ht.came
    · have hmem : call.entry ∈ p.taken := htaken ▸ List.mem_singleton_self _
      have houtcome := (h.scene.race.outcome?_taken ht.own.mem hheld hmem).2
      rw [ht.deed] at houtcome
      exact .inl ⟨htaken, houtcome⟩
    · exact .inr htaken
  · exact ⟨h.lacks ho, .inl ⟨hnone, o, ho⟩⟩

theorem Inv.alone (h : Inv service call milliseconds s₀ s) {c : Connection}
    (hc : c.calls = s.race.calls) :
    c.drop call = (c.cancel call.sequence).2 ∧ (c.isResolved call = true → c.drop call = c) := by
  unfold Connection.drop
  by_cases hresolved : c.isResolved call = true
  · have hslot : s.race.calls.isResolved call.slot = true := hc ▸ hresolved
    obtain ⟨o, ho⟩ := h.scene.race.isResolved_iff.mp hslot
    have hcancel := (Race.take_cancel_of_lacks (h.lacks ho)).2 c hc
    rw [if_pos hresolved, hcancel]
    exact ⟨rfl, fun _ => rfl⟩
  · rw [if_neg hresolved]
    exact ⟨rfl, fun hcontra => absurd hcontra hresolved⟩

/-! ### Without interruption -/

theorem exists_run_cancel (service : Service) (call : PendingCall) (milliseconds : Nat) (s : Vigil)
    (watch : Watch) :
    ∃ s' p, Run service call milliseconds (s.take call watch) s' ∧ s'.watch = watch ∧
      s'.IsOwn p ∧ p.held = [] ∧ p.succeeded = (s.scene.conn.cancel call.sequence).1 ∧
      s'.scene.conn = (s.scene.conn.cancel call.sequence).2 := by
  unfold Connection.cancel Calls.cancel
  -- Nothing to take is nothing to complete: then the first section is all there is.
  rcases hcancel : s.scene.conn.calls.table.cancel call.sequence with ⟨_ | e, t⟩
  · let p : Party := ⟨.cancel call.sequence, [], []⟩
    have hrace : s.race.take (.cancel call.sequence) = { s.race with
        calls := { s.race.calls with table := t }, parties := s.race.parties ++ [p] } := by
      unfold Race.take
      rw [Deed.take_cancel, show s.race.calls.table.cancel call.sequence = _ from hcancel]
    refine ⟨s.take call watch, p, .refl, rfl, ⟨_, rfl, ?_⟩, rfl, rfl, ?_⟩
    · show (s.race.take (.cancel call.sequence)).parties[s.race.parties.length]? = some p
      rw [hrace]
      exact List.getElem?_concat_length
    · show { s.scene.shell with calls := (s.race.take (.cancel call.sequence)).calls } = _
      rw [hrace]
      rfl
  · let p : Party := ⟨.cancel call.sequence, [e], []⟩
    let r : Race := { s.race with
      calls := { s.race.calls with table := t }, parties := s.race.parties ++ [p] }
    have hrace : s.race.take (.cancel call.sequence) = r := by
      unfold Race.take
      rw [Deed.take_cancel, show s.race.calls.table.cancel call.sequence = _ from hcancel]
    have hscene : (s.take call watch).scene = { s.scene with race := r } := by
      unfold take
      rw [hrace]
    let scene : Scene := { s.scene with race := r.complete s.race.parties p [] e }
    have hcomplete : Scene.Step service (s.take call watch).scene scene := by
      rw [hscene]
      exact .complete rfl List.mem_cons_self
    have hstep : Step service call milliseconds (s.take call watch)
        { s.take call watch with scene } := .other hcomplete fun _ hgot => hgot
    refine ⟨_, _, .single hstep, rfl, ⟨_, rfl, List.getElem?_concat_length⟩,
      List.erase_cons_head e [], ?_, ?_⟩
    · show List.any [(e, _)] Prod.snd = _
      exact Bool.or_false _
    · rfl

theorem exists_run_waitUntil (service : Service) (call : PendingCall) (milliseconds : Nat)
    {s : Vigil} (hidle : s.watch = .idle) :
    ∃ s', Run service call milliseconds s s' ∧
      s'.scene.conn = (s.scene.conn.waitUntil call milliseconds).2 ∧
      (((s.scene.conn.waitUntil call milliseconds).1 = none ∧ s'.watch = .overtaken) ∨
        ∃ result, (s.scene.conn.waitUntil call milliseconds).1 = some result ∧
          s'.watch = .returned result) := by
  let s₁ : Vigil := { s with watch := .waiting }
  have h₁ : Step service call milliseconds s s₁ := .move (.wait hidle)
  unfold Connection.waitUntil Calls.pollOrCancel
  -- There is an outcome at once, or the waiter cancels; if it comes too late, it looks once more.
  rcases hpoll : s.scene.conn.calls.poll call.slot with ⟨_ | o, calls⟩
  · have hnone : (s₁.race.calls.poll call.slot).1 = none := congrArg Prod.fst hpoll
    obtain rfl : s.scene.conn.calls = calls :=
      (Calls.poll_of_none hnone).symm.trans (congrArg Prod.snd hpoll)
    let s₂ : Vigil := { s₁ with watch := .expired }
    have h₂ : Step service call milliseconds s₁ s₂ := .move (.expire rfl hnone)
    have h₃ : Step service call milliseconds s₂ (s₂.take call .cancelling) := .take .expired
    obtain ⟨s₄, p, h₄, hwatch, hp, hheld, hsucceeded, hconn⟩ :=
      exists_run_cancel service call milliseconds s₂ .cancelling
    have hrun : Run service call milliseconds s s₄ := .head h₁ (.head h₂ (.head h₃ h₄))
    have hcalls := congrArg Connection.calls hconn
    unfold Connection.cancel at hsucceeded hconn hcalls
    dsimp only
    rcases hcancel : s.scene.conn.calls.cancel call.sequence with ⟨_ | _, calls⟩
    · rw [show s₂.scene.conn.calls.cancel call.sequence = _ from hcancel] at hsucceeded hconn hcalls
      let s₅ : Vigil := { s₄ with watch := .overtaken }
      have h₅ : Step service call milliseconds s₄ s₅ := .move (.yield hwatch hp hheld hsucceeded)
      obtain rfl : s₄.race.calls = calls := hcalls
      dsimp only
      rcases hagain : s₄.race.calls.poll call.slot with ⟨_ | o, calls⟩
      · have hsame := Calls.poll_of_none (congrArg Prod.fst hagain)
        rw [hagain] at hsame
        obtain rfl : calls = s₄.race.calls := hsame
        exact ⟨s₅, hrun.tail h₅, hconn, .inl ⟨rfl, rfl⟩⟩
      · have h₆ : Step service call milliseconds s₅ (s₅.get call o) :=
          .get (.inr rfl) (congrArg Prod.fst hagain)
        refine ⟨s₅.get call o, hrun.tail h₅ |>.tail h₆, ?_, .inr ⟨_, rfl, rfl⟩⟩
        show { s₄.scene.shell with calls := (s₄.race.calls.poll call.slot).2 } = _
        rw [hagain]
        exact congrArg (fun c : Connection => { c with calls }) hconn
    · rw [show s₂.scene.conn.calls.cancel call.sequence = _ from hcancel] at hsucceeded hconn
      let s₅ : Vigil := { s₄ with watch := .returned (.error (.timeout milliseconds)) }
      have h₅ : Step service call milliseconds s₄ s₅ := .move (.timeOut hwatch hp hheld hsucceeded)
      exact ⟨s₅, hrun.tail h₅, hconn, .inr ⟨_, rfl, rfl⟩⟩
  · have h₂ : Step service call milliseconds s₁ (s₁.get call o) :=
      .get (.inl rfl) (congrArg Prod.fst hpoll)
    refine ⟨s₁.get call o, .tail (.single h₁) h₂, ?_, .inr ⟨_, rfl, rfl⟩⟩
    show { s.scene.shell with calls := (s.scene.conn.calls.poll call.slot).2 } = _
    rw [hpoll]
    rfl

theorem exists_run_drop (service : Service) (call : PendingCall) (milliseconds : Nat)
    {s : Vigil} (hidle : s.watch = .idle) :
    ∃ s', Run service call milliseconds s s' ∧ s'.scene.conn = s.scene.conn.drop call ∧
      s'.watch = .dropped := by
  unfold Connection.drop
  by_cases hresolved : s.scene.conn.isResolved call = true
  · rw [if_pos hresolved]
    exact ⟨{ s with watch := .dropped }, .single (.move (.skip hidle hresolved)), rfl, rfl⟩
  · rw [if_neg hresolved]
    let s₁ : Vigil := { s with watch := .dropping }
    have h₁ : Step service call milliseconds s s₁ :=
      .move (.drop hidle (Bool.not_eq_true _ ▸ hresolved))
    have h₂ : Step service call milliseconds s₁ (s₁.take call .withdrawing) := .take .dropping
    obtain ⟨s₃, p, h₃, hwatch, hp, hheld, -, hconn⟩ :=
      exists_run_cancel service call milliseconds s₁ .withdrawing
    have h₄ : Step service call milliseconds s₃ { s₃ with watch := .dropped } :=
      .move (.letGo hwatch hp hheld)
    exact ⟨_, .head h₁ (.head h₂ (h₃.tail h₄)), hconn, rfl⟩

/-- **A wait that expires loses no outcome**, nor does the call stay in the table.  Whatever else
happens on the connection, as long as the counter does not come round: the wait has timed out just
if it was the waiter's own cancellation that took the call out of the table, and otherwise it
returns what was left by whoever did. -/
theorem expiry_loses_nothing (h : Begins service call s₀)
    (hrun : Run service call milliseconds s₀ s) (hfew : s.race.allocated < UInt32.size) :
    LosesNothing service call milliseconds s₀ s := by
  have hinv := h.run_inv hrun hfew
  exact {
    timedOut := fun _ hwatch => hinv.timedOut hwatch
    stored := fun _ hwatch hne => hinv.stored hwatch hne
    gone := fun _ hwatch => hinv.gone hwatch
    awaited := hinv.awaited hfew
    dropped := hinv.dropped
    alone := fun _ hc => hinv.alone hc
    waits := exists_run_waitUntil service call milliseconds h.idle
    drops := exists_run_drop service call milliseconds h.idle }

/-- The reply has taken the call out of the table when the time is up, and is left in its slot after
the waiter has not found the call there. -/
theorem expiry_loses_nothing_overtaken :
    ∃ (service : Service) (call : PendingCall) (s₀ s₁ s : Vigil),
      Begins service call s₀ ∧ Run service call 20 s₀ s₁ ∧ s₁.watch = .overtaken ∧
      s₁.race.outcome? call.slot = none ∧ Run service call 20 s₁ s ∧
      s.race.allocated < UInt32.size ∧ s.watch = .returned (.ok .absent) ∧
      LosesNothing service call 20 s₀ s₁ ∧ LosesNothing service call 20 s₀ s := by
  let type : PayloadType := ⟨0, "Option<i8>", .option (.int .i8), []⟩
  let v : Value := .present (.int (-1))
  let service : Service := { protocol := { name := "client", sent := [(7, ⟨type, type⟩)] } }
  let shell := (Connection.new service "caller").establish true
  let ready : Start := { command := 7, type, payload := [0, 0, 0, 1, 255, 255, 255, 255] }
  let call : PendingCall := ⟨7, 1, 0, type⟩
  let started : Scene := { shell, starts := [ready] }
  have hstart : Scene.Step service { shell } started := by
    have hprepare : (Scene.conn { shell }).prepareCall service 7 ⟨type, type⟩ v =
        .ok ready.payload := rfl
    exact .start hprepare
  let registered : Scene := { started with
    race := {
      calls := { table := { next := 2, entries := [call.entry] }, slots := [.waiting] }
      registered := [call.entry] }
    starts := [{ ready with phase := .registered call }] }
  have hregister : Scene.Step service started registered := by
    have hst : started.starts = [] ++ ready :: [] := rfl
    exact Scene.step_register_of_isFree hst rfl rfl (by decide) rfl
  let sent := registered.enqueue [] { ready with phase := .registered call } [] call
  have hsend : Scene.Step service registered sent := .enqueue rfl rfl
  let s₀ : Vigil := { scene := sent }
  have hbegins : Begins service call s₀ :=
    ⟨⟨shell, .tail (.tail (.single hstart) hregister) hsend⟩, ⟨0, _, rfl, rfl⟩,
      fun _ hgot => (List.not_mem_nil hgot).elim, rfl, rfl⟩
  -- Nothing has come until the time is up.
  let v₁ : Vigil := { s₀ with watch := .waiting }
  have h₁ : Step service call 20 s₀ v₁ := .move (.wait rfl)
  let v₂ : Vigil := { v₁ with watch := .expired }
  have h₂ : Step service call 20 v₁ v₂ := .move (.expire rfl rfl)
  let reply : Frame := .of (.reply 7 1) [0, 0, 0, 0]
  have hreply : Connection.replyOutcome call.entry reply = (.ok [0, 0, 0, 0], none) :=
    Connection.replyOutcome_reply rfl (Header.kind_reply 7 1)
  let bringer : Party := ⟨.deliver reply, [call.entry], []⟩
  let canceller : Party := ⟨.cancel 1, [], []⟩
  let v₃ : Vigil := { v₂ with
    scene := { sent with
      race := {
        calls := { table := { next := 2 }, slots := [.waiting] }
        parties := [bringer]
        registered := [call.entry] } } }
  have h₃ : Step service call 20 v₂ v₃ := .other (.take (d := .deliver reply) nofun) fun _ h => h
  let v₄ : Vigil := v₃.take call .cancelling
  have h₄ : Step service call 20 v₃ v₄ := .take .expired
  let s₁ : Vigil := { v₄ with watch := .overtaken }
  have h₅ : Step service call 20 v₄ s₁ := .move (.yield (p := canceller) rfl ⟨1, rfl, rfl⟩ rfl rfl)
  have hrun₁ : Run service call 20 s₀ s₁ := .head h₁ (.head h₂ (.head h₃ (.head h₄ (.single h₅))))
  -- Only then is the reply left in the slot.
  let s₂ : Vigil := { s₁ with
    scene := { sent with race := s₁.race.complete [] bringer [canceller] call.entry } }
  have h₆ : Step service call 20 s₁ s₂ := .other (.complete rfl List.mem_cons_self) fun _ h => h
  have hpoll : (s₂.race.calls.poll call.slot).1 = some (.ok [0, 0, 0, 0]) := by
    show some (Connection.replyOutcome call.entry reply).1 = _
    rw [hreply]
  let s := s₂.get call (.ok [0, 0, 0, 0])
  have h₇ : Step service call 20 s₂ s := .get (.inr rfl) hpoll
  have hrun : Run service call 20 s₁ s := .tail (.single h₆) h₇
  have hfew₁ : s₁.race.allocated < UInt32.size := by decide
  have hfew : s.race.allocated < UInt32.size := by decide
  exact ⟨service, call, s₀, s₁, s, hbegins, hrun₁, rfl, rfl, hrun, hfew, rfl,
    expiry_loses_nothing hbegins hrun₁ hfew₁,
    expiry_loses_nothing hbegins (hrun₁.trans hrun) hfew⟩

end Vigil

end CallWire
