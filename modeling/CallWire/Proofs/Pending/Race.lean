import CallWire.Connection.Dispatch
import CallWire.Proofs.Pending.Operations
import Mathlib.Data.List.Flatten
import Mathlib.Data.List.Perm.Basic
import Mathlib.Logic.Relation

/-!
# CallWire.Proofs.Pending.Race — replies, cancellations and the end race for the calls

Whoever resolves a call takes it out of the table in one critical section, and leaves its outcome
in its slot in another.  Between the two, all others go on.  What is one operation for its caller
is a run of these steps that nothing interrupts.
-/

namespace CallWire

/-- An operation that removes calls from the table to complete them. -/
inductive Deed
  | deliver (reply : Frame)
  | cancel (sequence : UInt32)
  | drain

namespace Deed

/-- The first critical section: the calls removed, and the table. -/
def take (t : PendingTable) : Deed → List Entry × PendingTable
  | deliver reply =>
    match t.resolve reply.header.sequence with
    | (.pending e, t) => ([e], t)
    | (_, t) => ([], t)
  | cancel n =>
    match t.cancel n with
    | (some e, t) => ([e], t)
    | (none, t) => ([], t)
  | drain => t.drain

theorem take_deliver (t : PendingTable) (reply : Frame) :
    (deliver reply).take t = match t.resolve reply.header.sequence with
      | (.pending e, t) => ([e], t)
      | (_, t) => ([], t) := rfl

theorem take_cancel (t : PendingTable) (n : UInt32) :
    (cancel n).take t = match t.cancel n with
      | (some e, t) => ([e], t)
      | (none, t) => ([], t) := rfl

/-- What a call is completed with. -/
def outcome (e : Entry) : Deed → Outcome
  | deliver reply => (Connection.replyOutcome e reply).1
  | cancel _ => .error .cancelled
  | drain => .error .disconnected

/-- The number of the call; none for a drain, which removes all. -/
def number? : Deed → Option UInt32
  | deliver reply => some reply.header.sequence
  | cancel n => some n
  | drain => none

end Deed

namespace PendingTable

variable {t : PendingTable} {d : Deed}

theorem entries_without {e : Entry} (hnumbers : (t.entries.map Entry.sequence).Nodup)
    (he : e ∈ t.entries) : (t.without e.sequence).entries = t.entries.erase e := by
  show t.entries.filter (·.sequence != e.sequence) = t.entries.erase e
  rw [(List.Nodup.of_map _ hnumbers).erase_eq_filter]
  refine List.filter_congr fun e' he' => ?_
  by_cases heq : e' = e
  · rw [heq, bne_self_eq_false, bne_self_eq_false]
  · have hne : e'.sequence ≠ e.sequence := fun hs =>
      heq (List.inj_on_of_nodup_map hnumbers he' he hs)
    rw [bne_iff_ne.mpr heq, bne_iff_ne.mpr hne]

theorem entries_perm_without {e : Entry} (hnumbers : (t.entries.map Entry.sequence).Nodup)
    (he : e ∈ t.entries) : t.entries.Perm (e :: (t.without e.sequence).entries) := by
  rw [entries_without hnumbers he]
  exact List.perm_cons_erase he

theorem take_cases (t : PendingTable) (d : Deed) :
    (∃ e ∈ t.entries, d.number? = some e.sequence ∧ (d.take t).1 = [e] ∧
        (d.take t).2.entries = (t.without e.sequence).entries) ∨
      ((d.take t).1 = [] ∧ (d.take t).2.entries = t.entries) ∨
      (d.number? = none ∧ d.take t = t.drain) := by
  cases d with
  | deliver reply =>
    rw [Deed.take_deliver]
    rcases t.resolve_cases reply.header.sequence with ⟨e, he, hn, heq⟩ | ⟨-, -, heq⟩ | ⟨-, -, heq⟩
    · rw [heq, ← hn]
      exact .inl ⟨e, he, congrArg some hn.symm, rfl, rfl⟩
    · rw [heq]
      exact .inr (.inl ⟨rfl, rfl⟩)
    · rw [heq]
      exact .inr (.inl ⟨rfl, rfl⟩)
  | cancel n =>
    rw [Deed.take_cancel]
    rcases t.cancel_cases n with ⟨e, he, hn, kept, -, heq⟩ | ⟨-, heq⟩
    · rw [heq, ← hn]
      exact .inl ⟨e, he, rfl, rfl, rfl⟩
    · rw [heq]
      exact .inr (.inl ⟨rfl, rfl⟩)
  | drain => exact .inr (.inr ⟨rfl, rfl⟩)

theorem entries_perm_take (hnumbers : (t.entries.map Entry.sequence).Nodup) (d : Deed) :
    t.entries.Perm ((d.take t).1 ++ (d.take t).2.entries) := by
  rcases t.take_cases d with ⟨e, he, -, htaken, hrest⟩ | ⟨htaken, hrest⟩ | ⟨-, heq⟩
  · rw [htaken, hrest]
    exact entries_perm_without hnumbers he
  · rw [htaken, hrest]
    exact List.Perm.refl _
  · rw [heq]
    exact List.Perm.of_eq (List.append_nil _).symm

theorem entries_take_sublist (t : PendingTable) (d : Deed) :
    (d.take t).2.entries.Sublist t.entries := by
  rcases t.take_cases d with ⟨e, -, -, -, hrest⟩ | ⟨-, hrest⟩ | ⟨-, heq⟩
  · rw [hrest]
    exact List.filter_sublist
  · rw [hrest]
  · rw [heq]
    exact List.nil_sublist _

theorem take_single {n : UInt32} (h : d.number? = some n) :
    (d.take t).1.length ≤ 1 ∧ ∀ e ∈ (d.take t).1, e.sequence = n := by
  rcases t.take_cases d with ⟨e, -, hn, htaken, -⟩ | ⟨htaken, -⟩ | ⟨hn, -⟩
  · rw [htaken]
    refine ⟨Nat.le_refl 1, ?_⟩
    intro e' he'
    rw [List.mem_singleton.mp he']
    exact Option.some.inj (hn.symm.trans h)
  · rw [htaken]
    exact ⟨Nat.zero_le 1, fun e he => (List.not_mem_nil he).elim⟩
  · rw [hn] at h
    cases h

end PendingTable

/-- One call of such an operation. -/
structure Party where
  deed : Deed
  /-- Removed, and not completed yet. -/
  held : List Entry
  /-- Completed, each with whether it was the first completion of its slot. -/
  completed : List (Entry × Bool) := []

namespace Party

def done (p : Party) : List Entry := p.completed.map Prod.fst

def taken (p : Party) : List Entry := p.held ++ p.done

/-- How many of its completions were the first. -/
def count (p : Party) : Nat := p.completed.countP Prod.snd

end Party

/-- The calls of a connection, with their history. -/
structure Race where
  calls : Calls := {}
  parties : List Party := []
  registered : List Entry := []
  forgotten : List Entry := []
  oneWays : Nat := 0
  /-- What the waits returned. -/
  got : List (Nat × Outcome) := []

namespace Race

/-- The outcome in the slot, or the one that was taken from there. -/
def outcome? (r : Race) (i : Nat) : Option Outcome :=
  match r.calls.slot i with
  | .waiting => none
  | .resolved outcome => some outcome
  | .taken => r.got.lookup i

def held (r : Race) : List Entry := r.parties.flatMap Party.held

def done (r : Race) : List Entry := r.parties.flatMap Party.done

def allocated (r : Race) : Nat := r.registered.length + r.oneWays

/-! ### What can happen -/

def register (r : Race) (limit : Nat) (command : UInt32) : Race :=
  match r.calls.register limit command with
  | (.ok (sequence, slot), calls) =>
    { r with calls, registered := r.registered ++ [⟨sequence, command, slot⟩] }
  | (.error _, calls) => { r with calls }

def number (r : Race) : Race := { r with calls := r.calls.nextSequence.2, oneWays := r.oneWays + 1 }

def take (r : Race) (deed : Deed) : Race :=
  let (held, table) := deed.take r.calls.table
  { r with calls := { r.calls with table }, parties := r.parties ++ [{ deed, held }] }

/-- The second critical section for one call: the party between these others completes it. -/
def complete (r : Race) (before : List Party) (p : Party) (after : List Party) (e : Entry) : Race :=
  let (first, calls) := r.calls.complete e.slot (p.deed.outcome e)
  let p := { p with held := p.held.erase e, completed := (e, first) :: p.completed }
  { r with calls, parties := before ++ p :: after }

theorem parties_complete {r : Race} {before after : List Party} {p : Party} {e : Entry} :
    (r.complete before p after e).parties = before ++
      { p with
        held := p.held.erase e
        completed := (e, (r.calls.complete e.slot (p.deed.outcome e)).1) :: p.completed } :: after :=
  rfl

def forget (r : Race) (n : UInt32) : Race :=
  { r with
    calls := r.calls.forget n
    forgotten := (r.calls.table.find? n).toList ++ r.forgotten }

/-- A wait returns the outcome. -/
def wait (r : Race) (i : Nat) (outcome : Outcome) : Race :=
  { r with calls := (r.calls.poll i).2, got := (i, outcome) :: r.got }

/-- One critical section of one thread.  A call has one waiter. -/
inductive Step (r : Race) : Race → Prop
  | register (limit : Nat) (command : UInt32) (hends : r.calls.Ends (.register limit command)) :
      Step r (r.register limit command)
  | number (hends : r.calls.Ends .nextSequence) : Step r r.number
  | take (deed : Deed) : Step r (r.take deed)
  | complete {before after : List Party} {p : Party} {e : Entry}
      (hp : r.parties = before ++ p :: after) (he : e ∈ p.held) :
      Step r (r.complete before p after e)
  | forget (n : UInt32) : Step r (r.forget n)
  | wait {i : Nat} {outcome : Outcome} (hnew : ∀ o, (i, o) ∉ r.got)
      (hpoll : (r.calls.poll i).1 = some outcome) : Step r (r.wait i outcome)

def Reachable (r : Race) : Prop := Relation.ReflTransGen Step {} r

variable {r : Race}

theorem outcome?_congr {r' : Race} {i : Nat} (hslot : r'.calls.slot i = r.calls.slot i)
    (hgot : r'.got = r.got) : r'.outcome? i = r.outcome? i := by
  unfold outcome?
  rw [hslot, hgot]

theorem register_cases (r : Race) (limit : Nat) (command : UInt32) :
    (r.calls.table.refusal? limit ≠ none ∧ r.register limit command = r) ∨
      (r.calls.table.refusal? limit = none ∧ ∃ e : Entry,
        e = ⟨r.calls.table.allocate.1, command, r.calls.slots.length⟩ ∧
          r.register limit command = { r with
            calls := {
              table := { r.calls.table.allocate.2 with entries := e :: r.calls.table.entries }
              slots := r.calls.slots ++ [.waiting] }
            registered := r.registered ++ [e] }) := by
  unfold Race.register
  rcases r.calls.register_cases limit command with ⟨e, hrefusal, heq⟩ | ⟨hrefusal, heq⟩
  · rw [heq, hrefusal]
    exact .inl ⟨nofun, rfl⟩
  · rw [heq]
    exact .inr ⟨hrefusal, _, rfl, rfl⟩

theorem calls_register (r : Race) (limit : Nat) (command : UInt32) :
    (r.register limit command).calls = (r.calls.register limit command).2 := by
  unfold Race.register
  rcases r.calls.register limit command with ⟨_ | _, calls⟩
  · rfl
  · rfl

theorem parties_register (r : Race) (limit : Nat) (command : UInt32) :
    (r.register limit command).parties = r.parties := by
  unfold Race.register
  rcases r.calls.register limit command with ⟨_ | _, calls⟩
  · rfl
  · rfl

theorem register_eq_of_isFree {limit : Nat} (command : UInt32)
    (hrefusal : r.calls.table.refusal? limit = none)
    (hfree : r.calls.table.isFree r.calls.table.next) :
    r.register limit command = { r with
      calls := {
        table := { r.calls.table with
          next := r.calls.table.next + 1
          entries := ⟨r.calls.table.next, command, r.calls.slots.length⟩ :: r.calls.table.entries }
        slots := r.calls.slots ++ [.waiting] }
      registered := r.registered ++ [⟨r.calls.table.next, command, r.calls.slots.length⟩] } := by
  unfold Race.register Calls.register
  rw [PendingTable.register_eq_ok_of_refusal? command hrefusal,
    PendingTable.allocate_eq_of_isFree hfree]
  rfl

theorem Step.register_of_isFree (limit : Nat) (command : UInt32)
    (hrefusal : r.calls.table.refusal? limit = none)
    (hfree : r.calls.table.isFree r.calls.table.next) :
    r.Step { r with
      calls := {
        table := { r.calls.table with
          next := r.calls.table.next + 1
          entries := ⟨r.calls.table.next, command, r.calls.slots.length⟩ :: r.calls.table.entries }
        slots := r.calls.slots ++ [.waiting] }
      registered := r.registered ++ [⟨r.calls.table.next, command, r.calls.slots.length⟩] } := by
  rw [← register_eq_of_isFree command hrefusal hfree]
  exact .register limit command fun _ => ⟨_, hfree⟩

end Race

/-! ### Without interruption -/

namespace Calls

variable {c : Calls}

/-- Completes calls: how many completions were the first. -/
def completeEach (c : Calls) (d : Deed) : List Entry → Nat × Calls
  | [] => (0, c)
  | e :: es =>
    let (first, c) := c.complete e.slot (d.outcome e)
    let (count, c) := c.completeEach d es
    (count + first.toNat, c)

/-- Both critical sections without interruption. -/
def act (c : Calls) (d : Deed) : Nat × Calls :=
  let (es, table) := d.take c.table
  { c with table }.completeEach d es

theorem completeAll_eq_completeEach (c : Calls) (es : List Entry) :
    c.completeAll (.error .disconnected) es = c.completeEach .drain es := by
  induction es generalizing c with
  | nil => rfl
  | cons e es ih =>
    unfold completeAll completeEach
    rw [show Deed.drain.outcome e = .error .disconnected from rfl]
    simp only [ih]

theorem drain_eq_act : c.drain = c.act .drain := completeAll_eq_completeEach _ _

theorem completeEach_singleton (c : Calls) (d : Deed) (e : Entry) :
    c.completeEach d [e] =
      ((c.complete e.slot (d.outcome e)).1.toNat, (c.complete e.slot (d.outcome e)).2) := by
  show (0 + _, _) = _
  rw [Nat.zero_add]
  rfl

theorem cancel_eq_act {n : UInt32} :
    c.cancel n = ((c.act (.cancel n)).1 == 1, (c.act (.cancel n)).2) := by
  unfold cancel act
  rw [Deed.take_cancel]
  rcases c.table.cancel n with ⟨_ | e, t⟩
  · rfl
  · show Calls.complete { c with table := t } e.slot ((Deed.cancel n).outcome e) =
      ((Calls.completeEach { c with table := t } (.cancel n) [e]).1 == 1,
        (Calls.completeEach { c with table := t } (.cancel n) [e]).2)
    rw [completeEach_singleton]
    rcases Calls.complete { c with table := t } e.slot ((Deed.cancel n).outcome e) with
      ⟨_ | _, c'⟩
    · rfl
    · rfl

end Calls

theorem Connection.calls_handleReply (c : Connection) (reply : Frame) :
    (c.handleReply reply).calls = (c.calls.act (.deliver reply)).2 := by
  unfold handleReply Calls.act Calls.resolve
  rw [Deed.take_deliver]
  rcases c.calls.table.resolve reply.header.sequence with ⟨e | _ | _, t⟩
  · dsimp only
    split
    · rfl
    · rfl
  · rfl
  · rfl

namespace Race

variable {r : Race}

theorem exists_run_completeEach {R : Race → Race → Prop} {ps : List Party} {d : Deed}
    (hR : ∀ {r : Race} {p : Party} {e : Entry}, r.parties = ps ++ [p] → e ∈ p.held →
      R r (r.complete ps p [] e))
    (held : List Entry) (r : Race) (completed : List (Entry × Bool))
    (hp : r.parties = ps ++ [⟨d, held, completed⟩]) :
    ∃ r' completed', Relation.ReflTransGen R r r' ∧ r'.parties = ps ++ [⟨d, [], completed'⟩] ∧
      r'.calls = (r.calls.completeEach d held).2 ∧
      completed'.countP Prod.snd = completed.countP Prod.snd + (r.calls.completeEach d held).1 := by
  induction held generalizing r completed with
  | nil => exact ⟨r, completed, .refl, hp, rfl, rfl⟩
  | cons e held ih =>
    let first := (r.calls.complete e.slot (d.outcome e)).1
    have hstep : R r (r.complete ps ⟨d, e :: held, completed⟩ [] e) := hR hp List.mem_cons_self
    have hnext : (r.complete ps ⟨d, e :: held, completed⟩ [] e).parties =
        ps ++ [⟨d, held, (e, first) :: completed⟩] := by
      rw [parties_complete, List.erase_cons_head]
    obtain ⟨r', completed', hrun, hparties, hcalls, hcount⟩ := ih _ _ hnext
    refine ⟨r', completed', .head hstep hrun, hparties, hcalls, ?_⟩
    have hfirst : ∀ b : Bool, (if b = true then 1 else 0) = b.toNat := by decide
    rw [hcount, List.countP_cons, hfirst, Nat.add_assoc, Nat.add_comm first.toNat]
    rfl

/-- `act` is a run, and the count of its party is that of `act`. -/
theorem exists_run_act (r : Race) (d : Deed) :
    ∃ r' p, Relation.ReflTransGen Step r r' ∧ r'.parties = r.parties ++ [p] ∧
      r'.calls = (r.calls.act d).2 ∧ p.deed = d ∧ p.held = [] ∧ p.count = (r.calls.act d).1 := by
  obtain ⟨r', completed, hrun, hparties, hcalls, hcount⟩ :=
    exists_run_completeEach Step.complete (d.take r.calls.table).1 (r.take d) [] rfl
  refine ⟨r', ⟨d, [], completed⟩, .head (.take d) hrun, hparties, hcalls, rfl, rfl, ?_⟩
  exact hcount.trans (Nat.zero_add _)

/-- A party can complete what it holds. -/
theorem exists_run_complete_held {k : Nat} {p : Party} (hp : r.parties[k]? = some p) :
    ∃ r' p', Relation.ReflTransGen Step r r' ∧ r'.parties[k]? = some p' ∧ p'.held = [] := by
  induction hheld : p.held generalizing r p with
  | nil => exact ⟨r, p, .refl, hp, hheld⟩
  | cons e held ih =>
    obtain ⟨hk, hget⟩ := List.getElem?_eq_some_iff.mp hp
    have hparties : r.parties = r.parties.take k ++ p :: r.parties.drop (k + 1) := by
      rw [← hget, List.getElem_cons_drop, List.take_append_drop]
    have hlength : (r.parties.take k).length = k := List.length_take_of_le hk.le
    let p₁ : Party := { p with
      held := p.held.erase e
      completed := (e, (r.calls.complete e.slot (p.deed.outcome e)).1) :: p.completed }
    have hstep : Step r (r.complete (r.parties.take k) p (r.parties.drop (k + 1)) e) :=
      .complete hparties (hheld ▸ List.mem_cons_self)
    have hp₁ : (r.complete (r.parties.take k) p (r.parties.drop (k + 1)) e).parties[k]? =
        some p₁ := by
      rw [parties_complete, List.getElem?_append_right (Nat.le_of_eq hlength), hlength,
        Nat.sub_self]
      rfl
    have hheld₁ : p₁.held = held := by
      show p.held.erase e = held
      rw [hheld, List.erase_cons_head]
    obtain ⟨r', p', hrun, hp', hnone⟩ := ih hp₁ hheld₁
    exact ⟨r', p', .head hstep hrun, hp', hnone⟩

end Race

end CallWire
