import CallWire.Proofs.Pending.Uses
import Mathlib.Logic.Relation

/-!
# CallWire.Proofs.Pending.Handover — a completion used by several threads

Threads call `complete`, `isResolved`, `wait` and `waitTimeout` on one completion.  Each holds the
lock of the slot while it looks at it or changes it; `wait` and `waitTimeout` release the lock while
they sleep, and look again once they are woken or their deadline has passed.  `waitTimeout` adds its
duration to the time of the clock before it takes the lock, and panics if the clock cannot tell the
sum.

Every run is answered as if each operation was performed at once when it ended (`Handover.Inv`), and
every sequence of operations is a run (`exists_run_ops`).
-/

namespace CallWire

/-- A monotonic clock.  Its moments are counted in nanoseconds from the first that it can tell, and
`last` is the last. -/
structure Clock where
  now : Nat
  last : Nat
  le : now ≤ last

/-- The longest duration: 2 ^ 64 - 1 seconds and 999999999 nanoseconds. -/
def Clock.maxDuration : Nat := UInt64.size * 1000000000 - 1

/-- How far a `wait` or `waitTimeout` has come. -/
inductive Waiter.Stage
  /-- It is to take the lock and look at the slot. -/
  | coming
  | asleep
  /-- Its deadline has passed.  It is to take the lock and look at the slot once more. -/
  | late
  /-- It has the lock and is to call `take`. -/
  | taking
  | gone (outcome? : Option Outcome)
  /-- Its deadline is none that the clock can tell. -/
  | panicked
  /-- It has called `take` on a waiting slot. -/
  | crashed

/-- A thread that has called `wait` or `waitTimeout`. -/
structure Waiter where
  begun : Nat
  timeout? : Option Nat := none
  stage : Waiter.Stage := .coming

namespace Waiter

/-- The operation with the outcome that it returns. -/
def use (w : Waiter) (outcome : Outcome) : Completion.Use :=
  match w.timeout? with
  | some timeout => .waitTimeout w.begun timeout (some outcome)
  | none => .wait outcome

def woken (w : Waiter) : Waiter :=
  match w.stage with
  | .asleep => { w with stage := .coming }
  | _ => w

theorem got?_use (w : Waiter) (outcome : Outcome) : (w.use outcome).got? = some outcome := by
  unfold use
  split <;> rfl

theorem makes_use (w : Waiter) {c c' : Completion} {outcome : Outcome}
    (h : c.take = (some outcome, c')) : c.Makes (w.use outcome) c' := by
  have hpoll := (Completion.poll_eq_take (Completion.isResolved_of_take h)).trans h
  unfold use
  cases w.timeout? with
  | some timeout =>
    have hmakes := Completion.Makes.waitTimeout (c := c) w.begun timeout
    rw [hpoll] at hmakes
    exact hmakes
  | none =>
    have hmakes := Completion.Makes.wait (congrArg Prod.fst hpoll)
    rw [hpoll] at hmakes
    exact hmakes

theorem stage_woken (w : Waiter) :
    w.woken.stage ≠ .asleep ∧ (w.woken.stage = w.stage ∨ w.woken.stage = .coming) := by
  unfold woken
  cases hstage : w.stage <;> simp [hstage]

theorem limit_woken (w : Waiter) : w.woken.begun = w.begun ∧ w.woken.timeout? = w.timeout? := by
  unfold woken
  cases w.stage <;> exact ⟨rfl, rfl⟩

/-- A waiter calls `take` only on a slot that is not waiting, sleeps only while it is, has passed
its deadline where it is late, and has panicked exactly if the clock cannot tell it. -/
structure Suits (w : Waiter) (c : Completion) (clock : Clock) : Prop where
  taking : w.stage = .taking → c.isResolved = true
  asleep : w.stage = .asleep → c = .waiting
  sound : w.stage ≠ .crashed
  late : w.stage = .late → ∀ timeout, w.timeout? = some timeout →
    w.begun + timeout ≤ clock.now
  panicked : w.stage = .panicked ↔
    ∃ timeout, w.timeout? = some timeout ∧ clock.last < w.begun + timeout

end Waiter

/-- When a `waitTimeout` may have ended with this answer: it returned if the clock can tell its
deadline, and gave up no earlier than that, and panicked if the clock cannot. -/
def Completion.Use.IsTimed (clock : Clock) : Completion.Use → Prop
  | waitTimeout begun timeout outcome? =>
    begun + timeout ≤ clock.last ∧ (outcome? = none → begun + timeout ≤ clock.now)
  | panicked begun timeout => clock.last < begun + timeout
  | complete _ _ | isResolved _ | wait _ => True

/-- A completion, the threads that wait for it, and the operations that have ended. -/
structure Handover where
  clock : Clock
  slot : Completion := .waiting
  waiters : List Waiter := []
  log : List Completion.Use := []

namespace Handover

open Completion (Op Use History Stands firstLeft? received due)

/-- No waiter has the lock.  The other operations release it before they end. -/
def IsFree (u : Handover) : Prop := ∀ w ∈ u.waiters, w.stage ≠ .taking

/-- `complete`.  The first outcome wakes all waiters that sleep. -/
def complete (u : Handover) (outcome : Outcome) : Handover :=
  let (isFirst, slot) := u.slot.complete outcome
  { u with
    slot
    waiters := if isFirst then u.waiters.map Waiter.woken else u.waiters
    log := u.log ++ [.complete outcome isFirst] }

/-- `waitTimeout`, or `wait` where there is no time limit, is called. -/
def come (u : Handover) (timeout? : Option Nat) : Handover :=
  let w : Waiter := { begun := u.clock.now, timeout? }
  match timeout? with
  | none => { u with waiters := u.waiters ++ [w] }
  | some timeout =>
    if u.clock.now + timeout ≤ u.clock.last then { u with waiters := u.waiters ++ [w] }
    else { u with
      waiters := u.waiters ++ [{ w with stage := .panicked }]
      log := u.log ++ [.panicked u.clock.now timeout] }

/-- Sets the stage of the waiter `w`. -/
def become (u : Handover) (before : List Waiter) (w : Waiter) (after : List Waiter)
    (stage : Waiter.Stage) : Handover :=
  { u with waiters := before ++ { w with stage } :: after }

/-- A waiter looks at the slot, and sleeps if nothing is there. -/
def look (u : Handover) (before : List Waiter) (w : Waiter) (after : List Waiter) : Handover :=
  u.become before w after (if u.slot.isResolved then .taking else .asleep)

/-- A waiter past its deadline looks at the slot, and returns without an outcome if none is
there. -/
def lookAgain (u : Handover) (before : List Waiter) (w : Waiter) (after : List Waiter)
    (timeout : Nat) : Handover :=
  if u.slot.isResolved then u.become before w after .taking
  else { u.become before w after (.gone none) with
    log := u.log ++ [.waitTimeout w.begun timeout none] }

/-- A waiter calls `take`, and returns the outcome. -/
def take (u : Handover) (before : List Waiter) (w : Waiter) (after : List Waiter) : Handover :=
  match u.slot.take with
  | (some outcome, slot) =>
    { u.become before w after (.gone (some outcome)) with slot, log := u.log ++ [w.use outcome] }
  | (none, slot) => { u.become before w after .crashed with slot }

/-- One thing that happens while one thread has the lock, or none.  A waiter may wake up without
being woken. -/
inductive Step (u : Handover) : Handover → Prop
  | complete (outcome : Outcome) (hfree : u.IsFree) : Step u (u.complete outcome)
  | isResolved (hfree : u.IsFree) :
      Step u { u with log := u.log ++ [.isResolved u.slot.isResolved] }
  | come (timeout? : Option Nat) : Step u (u.come timeout?)
  | look {before after : List Waiter} {w : Waiter} (hw : u.waiters = before ++ w :: after)
      (hstage : w.stage = .coming) (hfree : u.IsFree) : Step u (u.look before w after)
  | wake {before after : List Waiter} {w : Waiter} (hw : u.waiters = before ++ w :: after)
      (hstage : w.stage = .asleep) : Step u (u.become before w after .coming)
  | expire {before after : List Waiter} {w : Waiter} {timeout : Nat}
      (hw : u.waiters = before ++ w :: after) (hstage : w.stage = .asleep)
      (hlimit : w.timeout? = some timeout) (hpast : w.begun + timeout ≤ u.clock.now) :
      Step u (u.become before w after .late)
  | lookAgain {before after : List Waiter} {w : Waiter} {timeout : Nat}
      (hw : u.waiters = before ++ w :: after) (hstage : w.stage = .late)
      (hlimit : w.timeout? = some timeout) (hfree : u.IsFree) :
      Step u (u.lookAgain before w after timeout)
  | take {before after : List Waiter} {w : Waiter} (hw : u.waiters = before ++ w :: after)
      (hstage : w.stage = .taking) : Step u (u.take before w after)
  | tick (later : Nat) (h : u.clock.now ≤ later) (hlast : later ≤ u.clock.last) :
      Step u { u with clock := { u.clock with now := later, le := hlast } }

/-- What can have happened since the completion was new, by any clock. -/
def Reachable (u : Handover) : Prop := ∃ clock, Relation.ReflTransGen Step { clock } u

variable {u u' : Handover} {before after : List Waiter} {w w' : Waiter} {outcome : Outcome}
  {timeout : Nat}

theorem mem_become {stage : Waiter.Stage} (hw : u.waiters = before ++ w :: after)
    (h : w' ∈ (u.become before w after stage).waiters) :
    w' = { w with stage } ∨ w' ∈ u.waiters := by
  rw [hw]
  rcases List.mem_append.mp h with h | h
  · exact .inr (List.mem_append_left _ h)
  · rcases List.mem_cons.mp h with h | h
    · exact .inl h
    · exact .inr (List.mem_append_right _ (List.mem_cons_of_mem _ h))

theorem complete_of_waiting (h : u.slot = .waiting) (outcome : Outcome) :
    u.complete outcome = { u with
      slot := .resolved outcome
      waiters := u.waiters.map Waiter.woken
      log := u.log ++ [.complete outcome true] } := by
  unfold complete
  rw [h]
  rfl

theorem complete_of_resolved (h : u.slot.isResolved = true) (outcome : Outcome) :
    u.complete outcome = { u with log := u.log ++ [.complete outcome false] } := by
  obtain ⟨clock, slot, waiters, log⟩ := u
  cases slot with
  | waiting => cases h
  | resolved outcome' => rfl
  | taken => rfl

theorem come_of_le (h : u.clock.now + timeout ≤ u.clock.last) :
    u.come (some timeout) = { u with
      waiters := u.waiters ++ [{ begun := u.clock.now, timeout? := some timeout }] } := if_pos h

theorem come_of_lt (h : u.clock.last < u.clock.now + timeout) :
    u.come (some timeout) = { u with
      waiters := u.waiters ++
        [{ begun := u.clock.now, timeout? := some timeout, stage := .panicked }]
      log := u.log ++ [.panicked u.clock.now timeout] } := if_neg (Nat.not_le_of_lt h)

theorem look_of_waiting (h : u.slot.isResolved = false) :
    u.look before w after = u.become before w after .asleep := by
  unfold look
  rw [h]
  rfl

theorem look_of_resolved (h : u.slot.isResolved = true) :
    u.look before w after = u.become before w after .taking := by
  unfold look
  rw [h]
  rfl

theorem lookAgain_of_waiting (h : u.slot.isResolved = false) :
    u.lookAgain before w after timeout = { u.become before w after (.gone none) with
      log := u.log ++ [.waitTimeout w.begun timeout none] } :=
  if_neg (Bool.not_eq_true _ ▸ h)

theorem lookAgain_of_resolved (h : u.slot.isResolved = true) :
    u.lookAgain before w after timeout = u.become before w after .taking := if_pos h

theorem take_of_take {slot : Completion} (h : u.slot.take = (some outcome, slot)) :
    u.take before w after = { u.become before w after (.gone (some outcome)) with
      slot, log := u.log ++ [w.use outcome] } := by
  unfold take
  rw [h]

/-! ### The invariant -/

/-- The operations that have ended were answered as if performed one after the other. -/
structure Inv (u : Handover) : Prop where
  history : History .waiting u.log u.slot
  suits : ∀ w ∈ u.waiters, w.Suits u.slot u.clock
  timed : ∀ use ∈ u.log, use.IsTimed u.clock

theorem Inv.make (h : u.Inv) {use : Use} {c : Completion} (hmakes : u.slot.Makes use c) :
    History .waiting (u.log ++ [use]) c := h.history.append (.cons hmakes .nil)

theorem Inv.timed_concat (h : u.Inv) {use : Use} (hnew : use.IsTimed u.clock) :
    ∀ use' ∈ u.log ++ [use], use'.IsTimed u.clock := by
  intro use' hmem
  rcases List.mem_append.mp hmem with hmem | hmem
  · exact h.timed use' hmem
  · rw [List.mem_singleton.mp hmem]
    exact hnew

theorem Inv.become (h : u.Inv) {old stage : Waiter.Stage} (hw : u.waiters = before ++ w :: after)
    (hold : w.stage = old) (hbefore : old ≠ .panicked)
    (htaking : stage = .taking → u.slot.isResolved = true)
    (hasleep : stage = .asleep → u.slot = .waiting) (hsound : stage ≠ .crashed)
    (hlate : stage = .late → ∀ timeout, w.timeout? = some timeout →
      w.begun + timeout ≤ u.clock.now)
    (hpanicked : stage ≠ .panicked) : (u.become before w after stage).Inv := by
  refine ⟨h.history, fun w' hw' => ?_, h.timed⟩
  rcases mem_become hw hw' with rfl | hmem
  · have hsuits := h.suits w (hw ▸ List.mem_append_right _ List.mem_cons_self)
    have hawake : w.stage ≠ .panicked := hold ▸ hbefore
    exact ⟨htaking, hasleep, hsound, hlate, iff_of_false hpanicked (mt hsuits.panicked.mpr hawake)⟩
  · exact h.suits w' hmem

theorem Inv.complete (h : u.Inv) (outcome : Outcome) : (u.complete outcome).Inv := by
  have hmakes := h.make (.complete outcome)
  by_cases hslot : u.slot = .waiting
  · rw [complete_of_waiting hslot]
    rw [hslot] at hmakes
    -- The slot is no longer waiting, but then nobody sleeps any more.
    refine ⟨hmakes, fun w hw => ?_, h.timed_concat trivial⟩
    obtain ⟨w, hmem, rfl⟩ := List.mem_map.mp hw
    have hsuits := h.suits w hmem
    obtain ⟨hawake, hstage⟩ := w.stage_woken
    obtain ⟨hbegun, hlimit⟩ := w.limit_woken
    refine ⟨fun _ => rfl, fun hasleep => absurd hasleep hawake, ?_, ?_, ?_⟩
    · rcases hstage with hstage | hstage
      · rw [hstage]
        exact hsuits.sound
      · rw [hstage]
        exact nofun
    · rw [hbegun, hlimit]
      intro hlate
      rcases hstage with hstage | hstage
      · exact hsuits.late (hstage.symm.trans hlate)
      · rw [hstage] at hlate
        cases hlate
    · rw [hbegun, hlimit, ← hsuits.panicked]
      unfold Waiter.woken
      cases hw : w.stage <;> simp [hw]
  · have hresolved := Completion.isResolved_eq_true.mpr hslot
    rw [complete_of_resolved hresolved]
    rw [Completion.complete_of_resolved hresolved] at hmakes
    exact ⟨hmakes, h.suits, h.timed_concat trivial⟩

theorem Inv.come (h : u.Inv) (timeout? : Option Nat) : (u.come timeout?).Inv := by
  have hadd {w : Waiter} (hnew : w.Suits u.slot u.clock) :
      ∀ w' ∈ u.waiters ++ [w], w'.Suits u.slot u.clock := by
    intro w' hw'
    rcases List.mem_append.mp hw' with hw' | hw'
    · exact h.suits w' hw'
    · rw [List.mem_singleton.mp hw']
      exact hnew
  cases timeout? with
  | none => exact ⟨h.history, hadd ⟨nofun, nofun, nofun, nofun, by simp⟩, h.timed⟩
  | some timeout =>
    by_cases htold : u.clock.now + timeout ≤ u.clock.last
    · rw [come_of_le htold]
      exact ⟨h.history, hadd ⟨nofun, nofun, nofun, nofun, by simpa using htold⟩, h.timed⟩
    · have hlt := Nat.lt_of_not_le htold
      rw [come_of_lt hlt]
      exact ⟨h.make (.panicked _ _), hadd ⟨nofun, nofun, nofun, nofun, by simpa using hlt⟩,
        h.timed_concat hlt⟩

theorem Inv.le_last (h : u.Inv) (hw : u.waiters = before ++ w :: after)
    (hstage : w.stage ≠ .panicked) (hlimit : w.timeout? = some timeout) :
    w.begun + timeout ≤ u.clock.last := by
  have hsuits := h.suits w (hw ▸ List.mem_append_right _ List.mem_cons_self)
  exact Nat.le_of_not_lt fun hlt => hstage (hsuits.panicked.mpr ⟨timeout, hlimit, hlt⟩)

theorem Inv.isResolved (h : u.Inv) (hw : u.waiters = before ++ w :: after)
    (hstage : w.stage = .taking) : u.slot.isResolved = true := by
  have hmem : w ∈ u.waiters := hw ▸ List.mem_append_right _ List.mem_cons_self
  exact (h.suits w hmem).taking hstage

theorem Inv.isTimed_use (h : u.Inv) (hw : u.waiters = before ++ w :: after)
    (hstage : w.stage ≠ .panicked) (outcome : Outcome) : (w.use outcome).IsTimed u.clock := by
  unfold Waiter.use
  cases hlimit : w.timeout? with
  | none => trivial
  | some timeout => exact ⟨h.le_last hw hstage hlimit, nofun⟩

theorem Inv.take (h : u.Inv) (hw : u.waiters = before ++ w :: after)
    (hstage : w.stage = .taking) : (u.take before w after).Inv := by
  have hawake : w.stage ≠ .panicked := by
    rw [hstage]
    exact nofun
  have hresolved := h.isResolved hw hstage
  obtain ⟨outcome, htake⟩ := Completion.exists_take hresolved
  have hgone : (u.become before w after (.gone (some outcome))).Inv :=
    h.become hw hstage nofun nofun nofun nofun nofun nofun
  rw [take_of_take htake]
  refine ⟨h.make (w.makes_use htake), fun w' hw' => ?_,
    h.timed_concat (h.isTimed_use hw hawake outcome)⟩
  -- Had a waiter been asleep, there would be nothing to take.
  have hsuits := hgone.suits w' hw'
  refine ⟨fun _ => rfl, fun hasleep => ?_, hsuits.sound, hsuits.late, hsuits.panicked⟩
  exact absurd (hsuits.asleep hasleep) (Completion.isResolved_eq_true.mp hresolved)

theorem Inv.tick (h : u.Inv) {later : Nat} (hle : u.clock.now ≤ later)
    (hlast : later ≤ u.clock.last) :
    Inv { u with clock := { u.clock with now := later, le := hlast } } := by
  refine ⟨h.history, fun w hw => ?_, fun use huse => ?_⟩
  · have hsuits := h.suits w hw
    exact ⟨hsuits.taking, hsuits.asleep, hsuits.sound,
      fun hlate timeout hlimit => Nat.le_trans (hsuits.late hlate timeout hlimit) hle, hsuits.panicked⟩
  · have htimed := h.timed use huse
    cases use with
    | waitTimeout begun timeout outcome? =>
      exact ⟨htimed.1, fun hnone => Nat.le_trans (htimed.2 hnone) hle⟩
    | panicked begun timeout => exact htimed
    | complete | isResolved | wait => trivial

theorem Inv.step (h : u.Inv) (hstep : u.Step u') : u'.Inv := by
  cases hstep with
  | complete outcome hfree => exact h.complete outcome
  | isResolved hfree => exact ⟨h.make .isResolved, h.suits, h.timed_concat trivial⟩
  | come timeout? => exact h.come timeout?
  | look hw hstage hfree =>
    by_cases hresolved : u.slot.isResolved = true
    · rw [look_of_resolved hresolved]
      exact h.become hw hstage nofun (fun _ => hresolved) nofun nofun nofun nofun
    · have hwaiting := Bool.eq_false_iff.mpr hresolved
      rw [look_of_waiting hwaiting]
      exact h.become hw hstage nofun nofun (fun _ => Completion.isResolved_eq_false.mp hwaiting)
        nofun nofun nofun
  | wake hw hstage =>
    exact h.become hw hstage nofun nofun nofun nofun nofun nofun
  | expire hw hstage hlimit hpast =>
    refine h.become hw hstage nofun nofun nofun nofun (fun _ timeout hlimit' => ?_) nofun
    rw [hlimit] at hlimit'
    cases hlimit'
    exact hpast
  -- Here, and only here, a `waitTimeout` gives up.
  | @lookAgain before after w timeout hw hstage hlimit hfree =>
    have hbefore : _ ≠ Waiter.Stage.panicked := fun heq => nomatch hstage.symm.trans heq
    by_cases hresolved : u.slot.isResolved = true
    · rw [lookAgain_of_resolved hresolved]
      exact h.become hw hstage nofun (fun _ => hresolved) nofun nofun nofun nofun
    · have hwaiting := Bool.eq_false_iff.mpr hresolved
      have hlate := (h.suits w (hw ▸ List.mem_append_right _ List.mem_cons_self)).late hstage
      have hgone : (u.become before w after (.gone none)).Inv :=
        h.become hw hstage nofun nofun nofun nofun nofun nofun
      rw [lookAgain_of_waiting hwaiting]
      exact ⟨h.make (Completion.makes_none hwaiting _ _), hgone.suits,
        h.timed_concat ⟨h.le_last hw hbefore hlimit, fun _ => hlate timeout hlimit⟩⟩
  | take hw hstage => exact h.take hw hstage
  | tick later hle hlast => exact h.tick hle hlast

theorem Reachable.inv (h : u.Reachable) : u.Inv := by
  obtain ⟨clock, hrun⟩ := h
  induction hrun with
  | refl =>
    exact ⟨.nil, fun w hw => (List.not_mem_nil hw).elim, fun use huse => (List.not_mem_nil huse).elim⟩
  | tail _ hstep ih => exact ih.step hstep

theorem Inv.stood (h : u.Inv) {uses rest : List Use} {use : Use}
    (hlog : u.log = uses ++ use :: rest) : ∃ c c', Stands uses c ∧ c.Makes use c' := by
  have hhistory := h.history
  rw [hlog] at hhistory
  obtain ⟨c, hbefore, hafter⟩ := hhistory.split
  cases hafter with
  | cons hmakes _ => exact ⟨c, _, hbefore.stands, hmakes⟩

theorem Inv.changes (h : u.Inv) (hstep : u.Step u') (hne : u'.slot ≠ u.slot) :
    (∃ outcome, u.slot = .waiting ∧ u'.slot = .resolved outcome ∧
        u'.log = u.log ++ [.complete outcome true]) ∨
      ∃ outcome use, u.slot = .resolved outcome ∧ u'.slot = .taken ∧
        Use.got? use = some outcome ∧ u'.log = u.log ++ [use] := by
  -- Only `complete` and `take` write the slot.
  cases hstep with
  | complete outcome hfree =>
    by_cases hslot : u.slot = .waiting
    · rw [complete_of_waiting hslot]
      exact .inl ⟨outcome, hslot, rfl, rfl⟩
    · rw [complete_of_resolved (Completion.isResolved_eq_true.mpr hslot)] at hne
      exact absurd rfl hne
  | isResolved hfree => exact absurd rfl hne
  | come timeout? =>
    refine absurd ?_ hne
    unfold Handover.come
    split
    · rfl
    · split <;> rfl
  | look hw hstage hfree => exact absurd rfl hne
  | wake hw hstage => exact absurd rfl hne
  | expire hw hstage hlimit hpast => exact absurd rfl hne
  | tick later hle hlast => exact absurd rfl hne
  | lookAgain hw hstage hlimit hfree =>
    refine absurd ?_ hne
    unfold lookAgain
    split <;> rfl
  | @take before after w hw hstage =>
    have hresolved := h.isResolved hw hstage
    cases hslot : u.slot with
    | waiting =>
      rw [hslot] at hresolved
      cases hresolved
    | resolved outcome =>
      have htake : u.slot.take = (some outcome, .taken) := by rw [hslot]; rfl
      rw [take_of_take htake]
      exact .inr ⟨outcome, w.use outcome, rfl, rfl, w.got?_use outcome, rfl⟩
    | taken =>
      have htake : u.slot.take = (some (.error .alreadyTaken), .taken) := by rw [hslot]; rfl
      rw [take_of_take htake] at hne
      exact absurd hslot.symm hne

/-! ### Every sequence of operations is a run -/

theorem IsFree.concat (h : u.IsFree) (w : Waiter) (hw : w.stage ≠ .taking) {clock : Clock}
    {slot : Completion} {log : List Use} :
    IsFree { clock, slot, waiters := u.waiters ++ [w], log } := by
  intro w' hw'
  rcases List.mem_append.mp hw' with hw' | hw'
  · exact h w' hw'
  · rw [List.mem_singleton.mp hw']
    exact hw

theorem IsFree.complete (h : u.IsFree) (outcome : Outcome) : (u.complete outcome).IsFree := by
  by_cases hslot : u.slot = .waiting
  · rw [complete_of_waiting hslot]
    intro w hw
    obtain ⟨w, hmem, rfl⟩ := List.mem_map.mp hw
    rcases w.stage_woken.2 with hstage | hstage
    · rw [hstage]
      exact h w hmem
    · rw [hstage]
      exact nofun
  · rw [complete_of_resolved (Completion.isResolved_eq_true.mpr hslot)]
    exact h

/-- A run in which one operation is performed. -/
def Performs (u : Handover) (op : Op) (u' : Handover) : Prop :=
  Relation.ReflTransGen Step u u' ∧ u'.IsFree ∧
    ∃ use, use.op = op ∧ u'.log = u.log ++ [use] ∧ u.slot.Makes use u'.slot

theorem op_use (w : Waiter) (outcome : Outcome) :
    (w.use outcome).op = (w.timeout?.elim .wait .waitTimeout : Op) := by
  unfold Waiter.use
  cases w.timeout? <;> rfl

theorem exists_performs_take (hfree : u.IsFree) (hresolved : u.slot.isResolved = true)
    (timeout? : Option Nat) (hcome : u.come timeout? = { u with
      waiters := u.waiters ++ [{ begun := u.clock.now, timeout? }] }) :
    ∃ u', u.Performs (timeout?.elim .wait .waitTimeout) u' := by
  obtain ⟨outcome, htake⟩ := Completion.exists_take hresolved
  let coming : Waiter := { begun := u.clock.now, timeout? }
  let taking : Waiter := { coming with stage := .taking }
  let gone : Waiter := { coming with stage := .gone (some outcome) }
  let u₁ : Handover := { u with waiters := u.waiters ++ [coming] }
  let u₂ : Handover := { u with waiters := u.waiters ++ [taking] }
  let u₃ : Handover := { u with
    slot := .taken, waiters := u.waiters ++ [gone], log := u.log ++ [taking.use outcome] }
  have hcome : u.Step u₁ := by
    have hstep := Step.come (u := u) timeout?
    rw [hcome] at hstep
    exact hstep
  have hlook : u₁.Step u₂ := by
    have hstep := Step.look (u := u₁) (w := coming) rfl rfl (hfree.concat coming nofun)
    rw [look_of_resolved (u := u₁) hresolved] at hstep
    exact hstep
  have htaken : u₂.Step u₃ := by
    have hstep := Step.take (u := u₂) (w := taking) rfl rfl
    rw [take_of_take (u := u₂) htake] at hstep
    exact hstep
  exact ⟨u₃, ((Relation.ReflTransGen.single hcome).tail hlook).tail htaken,
    hfree.concat gone nofun, _, op_use taking outcome, rfl, taking.makes_use htake⟩

theorem exists_performs_giveUp (hfree : u.IsFree) (hwaiting : u.slot.isResolved = false)
    (htold : u.clock.now + timeout ≤ u.clock.last) : ∃ u', u.Performs (.waitTimeout timeout) u' := by
  let coming : Waiter := { begun := u.clock.now, timeout? := some timeout }
  let asleep : Waiter := { coming with stage := .asleep }
  let late : Waiter := { coming with stage := .late }
  let gone : Waiter := { coming with stage := .gone none }
  let deadline : Clock := { u.clock with now := u.clock.now + timeout, le := htold }
  let u₁ : Handover := { u with waiters := u.waiters ++ [coming] }
  let u₂ : Handover := { u with waiters := u.waiters ++ [asleep] }
  let u₃ : Handover := { u with clock := deadline, waiters := u.waiters ++ [asleep] }
  let u₄ : Handover := { u with clock := deadline, waiters := u.waiters ++ [late] }
  let u₅ : Handover := { u with
    clock := deadline, waiters := u.waiters ++ [gone]
    log := u.log ++ [.waitTimeout u.clock.now timeout none] }
  have hcome : u.Step u₁ := by
    have hstep := Step.come (u := u) (some timeout)
    rw [come_of_le htold] at hstep
    exact hstep
  have hlook : u₁.Step u₂ := by
    have hstep := Step.look (u := u₁) (w := coming) rfl rfl (hfree.concat coming nofun)
    rw [look_of_waiting (u := u₁) hwaiting] at hstep
    exact hstep
  have htick : u₂.Step u₃ := Step.tick (u := u₂) _ (Nat.le_add_right _ _) htold
  have hexpire : u₃.Step u₄ := Step.expire (u := u₃) (w := asleep) rfl rfl rfl (Nat.le_refl _)
  have hgone : u₄.Step u₅ := by
    have hstep := Step.lookAgain (u := u₄) (w := late) rfl rfl rfl (hfree.concat late nofun)
    rw [lookAgain_of_waiting (u := u₄) hwaiting] at hstep
    exact hstep
  exact ⟨u₅, ((((Relation.ReflTransGen.single hcome).tail hlook).tail htick).tail hexpire).tail hgone,
    hfree.concat gone nofun, _, rfl, rfl, Completion.makes_none hwaiting _ _⟩

theorem exists_performs_panic (hfree : u.IsFree) (hlt : u.clock.last < u.clock.now + timeout) :
    ∃ u', u.Performs (.waitTimeout timeout) u' := by
  let panicked : Waiter := { begun := u.clock.now, timeout? := some timeout, stage := .panicked }
  have hstep := Step.come (u := u) (some timeout)
  rw [come_of_lt hlt] at hstep
  exact ⟨_, .single hstep, hfree.concat panicked nofun, _, rfl, rfl, .panicked _ _⟩

theorem exists_performs (hfree : u.IsFree) {op : Op} (h : op = .wait → u.slot.isResolved = true) :
    ∃ u', u.Performs op u' := by
  cases op with
  | complete outcome =>
    exact ⟨_, .single (.complete outcome hfree), hfree.complete outcome, _, rfl, rfl,
      .complete outcome⟩
  | isResolved => exact ⟨_, .single (.isResolved hfree), hfree, _, rfl, rfl, .isResolved⟩
  | wait => exact exists_performs_take hfree (h rfl) none rfl
  | waitTimeout timeout =>
    by_cases htold : u.clock.now + timeout ≤ u.clock.last
    · by_cases hresolved : u.slot.isResolved = true
      · exact exists_performs_take hfree hresolved (some timeout) (come_of_le htold)
      · exact exists_performs_giveUp hfree (Bool.eq_false_iff.mpr hresolved) htold
    · exact exists_performs_panic hfree (Nat.lt_of_not_le htold)

/-- Every sequence of operations is a run, if each `wait` in it follows a `complete`. -/
theorem exists_run_ops (hfree : u.IsFree) {ops : List Op}
    (h : ∀ before after, ops = before ++ .wait :: after →
      u.slot.isResolved = true ∨ ∃ outcome, .complete outcome ∈ before) :
    ∃ u' uses, Relation.ReflTransGen Step u u' ∧ u'.IsFree ∧ u'.log = u.log ++ uses ∧
      uses.map Use.op = ops ∧ History u.slot uses u'.slot := by
  induction ops generalizing u with
  | nil => exact ⟨u, [], .refl, hfree, (List.append_nil _).symm, rfl, .nil⟩
  | cons op ops ih =>
    have hfirst : op = .wait → u.slot.isResolved = true := by
      rintro rfl
      rcases h [] ops rfl with hresolved | ⟨outcome, hmem⟩
      · exact hresolved
      · cases hmem
    obtain ⟨u₁, hrun, hfree₁, use, hop, hlog, hmakes⟩ := exists_performs hfree hfirst
    have hrest : ∀ before after, ops = before ++ .wait :: after →
        u₁.slot.isResolved = true ∨ ∃ outcome, .complete outcome ∈ before := by
      intro before after heq
      rcases h (op :: before) after (congrArg (op :: ·) heq) with hresolved | ⟨outcome, hmem⟩
      · exact .inl (hmakes.keeps_resolved hresolved)
      · rcases List.mem_cons.mp hmem with heq' | hmem
        · exact .inl (hmakes.resolves (hop.trans heq'.symm))
        · exact .inr ⟨outcome, hmem⟩
    obtain ⟨u', uses, hrun', hfree', hlog', hops, hhistory⟩ := ih hfree₁ hrest
    refine ⟨u', use :: uses, hrun.trans hrun', hfree', ?_, ?_, .cons hmakes hhistory⟩
    · rw [hlog', hlog, List.append_assoc]
      rfl
    · rw [List.map_cons, hop, hops]

/-! ### One outcome, once -/

/-- One outcome is stored, and returned once. -/
structure DeliversOnce (u : Handover) : Prop where
  /-- The operations were answered as if performed one after the other. -/
  history : History .waiting u.log u.slot
  /-- `complete` returned true the first time and false from then on. -/
  first : ∀ before outcome isFirst after, u.log = before ++ .complete outcome isFirst :: after →
    (isFirst = true ↔ firstLeft? before = none)
  /-- `isResolved` returned false before that and true from then on. -/
  resolved : ∀ before answer after, u.log = before ++ .isResolved answer :: after →
    (answer = true ↔ firstLeft? before ≠ none)
  /-- `wait` returned what it was due, and did not return before there was anything. -/
  waits : ∀ before outcome after, u.log = before ++ .wait outcome :: after →
    due before = some outcome
  /-- `waitTimeout` returned what it was due if the clock can tell its deadline, and nothing only
  once that had passed, -/
  waitsTimeout : ∀ before begun timeout outcome? after,
    u.log = before ++ .waitTimeout begun timeout outcome? :: after →
    outcome? = due before ∧ begun + timeout ≤ u.clock.last ∧
      (outcome? = none → begun + timeout ≤ u.clock.now)
  /-- and panicked if the clock cannot. -/
  panics : ∀ before begun timeout after, u.log = before ++ .panicked begun timeout :: after →
    u.clock.last < begun + timeout
  /-- Nothing changes the slot but the first `complete`, and the wait that returns its outcome. -/
  changes : ∀ u', u.Step u' → u'.slot ≠ u.slot →
    (∃ outcome, u.slot = .waiting ∧ u'.slot = .resolved outcome ∧
        u'.log = u.log ++ [.complete outcome true]) ∨
      ∃ outcome use, u.slot = .resolved outcome ∧ u'.slot = .taken ∧
        Use.got? use = some outcome ∧ u'.log = u.log ++ [use]
  /-- The operations so far tell how the slot stands, and what the waits returned. -/
  stands : Stands u.log u.slot
  /-- `take` is not called on a waiting slot. -/
  unreached : ∀ w ∈ u.waiters,
    w.stage ≠ .crashed ∧ (w.stage = .taking → u.slot.isResolved = true)
  /-- Nobody sleeps after the first `complete`. -/
  awake : ∀ w ∈ u.waiters, w.stage = .asleep → u.slot = .waiting
  /-- Every sequence of operations can follow, if each `wait` in it comes after a `complete`. -/
  sequence : u.IsFree → ∀ ops : List Op,
    (∀ before after, ops = before ++ .wait :: after →
      u.slot.isResolved = true ∨ ∃ outcome, .complete outcome ∈ before) →
    ∃ u' uses, Relation.ReflTransGen Step u u' ∧ u'.IsFree ∧ u'.log = u.log ++ uses ∧
      uses.map Use.op = ops ∧ History u.slot uses u'.slot

/-- **A completion delivers one outcome, once**, however `complete`, `isResolved`, `wait` and
`waitTimeout` are called by several threads; but a `waitTimeout` panics if the clock cannot tell its
deadline, also where there is an outcome. -/
theorem delivers_once (h : u.Reachable) : u.DeliversOnce where
  history := h.inv.history
  first := by
    intro before outcome isFirst after hlog
    obtain ⟨c, c', hstands, hmakes⟩ := h.inv.stood hlog
    cases hmakes
    exact Completion.complete_eq_true_iff.trans hstands.eq_waiting_iff
  resolved := by
    intro before answer after hlog
    obtain ⟨c, c', hstands, hmakes⟩ := h.inv.stood hlog
    cases hmakes
    exact Completion.isResolved_eq_true.trans (not_congr hstands.eq_waiting_iff)
  waits := by
    intro before outcome after hlog
    obtain ⟨c, c', hstands, hmakes⟩ := h.inv.stood hlog
    cases hmakes with
    | wait hpoll => exact hstands.poll_eq.symm.trans hpoll
  waitsTimeout := by
    intro before begun timeout outcome? after hlog
    obtain ⟨c, c', hstands, hmakes⟩ := h.inv.stood hlog
    have htimed := h.inv.timed _ (hlog ▸ List.mem_append_right _ List.mem_cons_self)
    cases hmakes
    exact ⟨hstands.poll_eq, htimed⟩
  panics := by
    intro before begun timeout after hlog
    exact h.inv.timed (.panicked begun timeout)
      (hlog ▸ List.mem_append_right _ List.mem_cons_self)
  changes := fun _ hstep hne => h.inv.changes hstep hne
  stands := h.inv.history.stands
  unreached := fun w hw => ⟨(h.inv.suits w hw).sound, (h.inv.suits w hw).taking⟩
  awake := fun w hw => (h.inv.suits w hw).asleep
  sequence := fun hfree _ hops => exists_run_ops hfree hops

/-- Of two waits one sleeps and the other is past its deadline when the outcome is stored; that one
takes the lock first, and more outcomes come before and after. -/
theorem delivers_once_two :
    ∃ u : Handover, u.Reachable ∧ u.waiters = [⟨3, some 4, .gone (some (.ok [7]))⟩,
        ⟨3, none, .gone (some (.error .alreadyTaken))⟩] ∧
      u.log = [.isResolved false, .complete (.ok [7]) true, .complete (.error .cancelled) false,
        .waitTimeout 3 4 (some (.ok [7])), .complete (.error .disconnected) false,
        .wait (.error .alreadyTaken), .isResolved true] ∧ u.DeliversOnce := by
  let clock : Clock := ⟨3, 100, by decide⟩
  -- Nobody has the lock as long as nobody is to call take.
  have hfree {clock : Clock} {slot : Completion} {first second : Waiter} {log : List Use}
      (hfirst : first.stage ≠ .taking) (hsecond : second.stage ≠ .taking) :
      IsFree { clock, slot, waiters := [first, second], log } :=
    List.forall_mem_cons.mpr ⟨hfirst, List.forall_mem_singleton.mpr hsecond⟩
  have h₁ : Relation.ReflTransGen Step { clock } _ := .single (.come (some 4))
  have h₂ := h₁.tail (.come none)
  have h₃ := h₂.tail (@Step.look _ [] [_] _ rfl rfl (hfree nofun nofun))
  have h₄ := h₃.tail (@Step.look _ [_] [] _ rfl rfl (hfree nofun nofun))
  have h₅ := h₄.tail (.tick 7 (by decide) (by decide))
  have h₆ := h₅.tail (@Step.expire _ [] [_] _ _ rfl rfl rfl (Nat.le_refl 7))
  have h₇ := h₆.tail (.isResolved (hfree nofun nofun))
  have h₈ := h₇.tail (.complete (.ok [7]) (hfree nofun nofun))
  have h₉ := h₈.tail (.complete (.error .cancelled) (hfree nofun nofun))
  have h₁₀ := h₉.tail (@Step.lookAgain _ [] [_] _ _ rfl rfl rfl (hfree nofun nofun))
  have h₁₁ := h₁₀.tail (@Step.take _ [] [_] _ rfl rfl)
  have h₁₂ := h₁₁.tail (.complete (.error .disconnected) (hfree nofun nofun))
  have h₁₃ := h₁₂.tail (@Step.look _ [_] [] _ rfl rfl (hfree nofun nofun))
  have h₁₄ := h₁₃.tail (@Step.take _ [_] [] _ rfl rfl)
  have h₁₅ := h₁₄.tail (.isResolved (hfree nofun nofun))
  exact ⟨_, ⟨clock, h₁₅⟩, rfl, rfl, delivers_once ⟨clock, h₁₅⟩⟩

/-- On a clock of signed 64-bit seconds that stands at zero, a `waitTimeout` of the longest duration
panics although there is an outcome, which is left for the next wait. -/
theorem exists_panics_resolved :
    ∃ (u : Handover) (clock : Clock), clock.now = UInt64.size / 2 * 1000000000 ∧
      clock.last = UInt64.size * 1000000000 - 1 ∧ Relation.ReflTransGen Step { clock } u ∧
      u.log = [.complete (.ok [7]) true, .panicked clock.now Clock.maxDuration] ∧
      due [.complete (.ok [7]) true] = some (.ok [7]) ∧ u.slot = .resolved (.ok [7]) := by
  let clock : Clock := ⟨UInt64.size / 2 * 1000000000, UInt64.size * 1000000000 - 1, by decide⟩
  have hfree : IsFree { clock } := fun w hw => (List.not_mem_nil hw).elim
  have h₁ : Relation.ReflTransGen Step { clock } _ := .single (.complete (.ok [7]) hfree)
  have hpanics : clock.last < clock.now + Clock.maxDuration := by decide
  have h₂ := h₁.tail (.come (some Clock.maxDuration))
  rw [come_of_lt hpanics] at h₂
  exact ⟨_, clock, rfl, rfl, h₂, rfl, rfl, rfl⟩

end Handover

end CallWire
