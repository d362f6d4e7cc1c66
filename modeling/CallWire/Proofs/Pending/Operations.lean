import CallWire.Proofs.Pending.Numbers

/-!
# CallWire.Proofs.Pending.Operations — what each operation does to a pending table

Every operation that takes a call out of the table goes through `remove`, and every one that puts
a number to use goes through `allocate`.  Here each is opened once, with all that it can come to;
a run is then a list of operations with their answers, each of which comes to an end.
-/

namespace CallWire

namespace PendingTable

variable {t t' : PendingTable} {n : UInt32}

/-! ### Taking a call out -/

def without (t : PendingTable) (n : UInt32) : PendingTable :=
  { t with entries := t.entries.filter (·.sequence != n) }

def Lacks (t : PendingTable) (n : UInt32) : Prop := ∀ e ∈ t.entries, e.sequence ≠ n

theorem lacks_without : (t.without n).Lacks n := by
  intro e he
  exact bne_iff_ne.mp (List.mem_filter.mp he).2

theorem Lacks.of_subset (h : t.Lacks n) (hsub : t'.entries ⊆ t.entries) : t'.Lacks n :=
  fun e he => h e (hsub he)

theorem without_subset (t : PendingTable) (n : UInt32) : (t.without n).entries ⊆ t.entries :=
  List.filter_subset_self _

theorem find?_eq_none (h : t.Lacks n) : t.find? n = none := by
  unfold find?
  rw [List.find?_eq_none]
  intro e he
  simpa using h e he

theorem find?_eq_some {e : Entry} (h : t.find? n = some e) : e ∈ t.entries ∧ e.sequence = n :=
  ⟨List.mem_of_find?_eq_some h, by simpa using List.find?_some h⟩

theorem remove_cases (t : PendingTable) (n : UInt32) :
    (∃ e ∈ t.entries, e.sequence = n ∧ t.remove n = (some e, t.without n)) ∨
      (t.Lacks n ∧ t.remove n = (none, t)) := by
  unfold remove
  rcases hfind : t.find? n with _ | e
  · refine .inr ⟨?_, rfl⟩
    intro e he
    unfold find? at hfind
    simpa using List.find?_eq_none.mp hfind e he
  · obtain ⟨he, hn⟩ := find?_eq_some hfind
    exact .inl ⟨e, he, hn, rfl⟩

theorem resolve_cases (t : PendingTable) (n : UInt32) :
    (∃ e ∈ t.entries, e.sequence = n ∧ t.resolve n = (.pending e, t.without n)) ∨
      (t.Lacks n ∧ n ∈ t.cancelled ∧
        t.resolve n = (.cancelled, { t with cancelled := t.cancelled.filter (· != n) })) ∨
      (t.Lacks n ∧ n ∉ t.cancelled ∧ t.resolve n = (.unknown, t)) := by
  unfold resolve
  rcases t.remove_cases n with ⟨e, he, hn, hremove⟩ | ⟨hlacks, hremove⟩
  · rw [hremove]
    exact .inl ⟨e, he, hn, rfl⟩
  · rw [hremove]
    by_cases hc : n ∈ t.cancelled
    · refine .inr (.inl ⟨hlacks, hc, ?_⟩)
      exact if_pos (List.contains_iff_mem.mpr hc)
    · refine .inr (.inr ⟨hlacks, hc, ?_⟩)
      exact if_neg fun h => hc (List.contains_iff_mem.mp h)

/-- `cancel` of this number forgets those remembered before: they are more than the slack beyond the
calls left in flight. -/
def Clears (t : PendingTable) (n : UInt32) : Prop :=
  ¬ t.Lacks n ∧ t.cancelled.length > (t.without n).size + cancelledSlack

theorem cancel_cases (t : PendingTable) (n : UInt32) :
    (∃ e ∈ t.entries, e.sequence = n ∧ ∃ kept, (kept = t.cancelled ∨ t.Clears n ∧ kept = []) ∧
        t.cancel n = (some e, { t.without n with cancelled := n :: kept.filter (· != n) })) ∨
      (t.Lacks n ∧ t.cancel n = (none, t)) := by
  unfold cancel
  rcases t.remove_cases n with ⟨e, he, hn, hremove⟩ | ⟨hlacks, hremove⟩
  · rw [hremove]
    have hpresent : ¬ t.Lacks n := fun h => h e he hn
    refine .inl ⟨e, he, hn, _, ?_, rfl⟩
    by_cases hfull : t.cancelled.length > (t.without n).size + cancelledSlack
    · exact .inr ⟨⟨hpresent, hfull⟩, if_pos hfull⟩
    · exact .inl (if_neg hfull)
  · rw [hremove]
    exact .inr ⟨hlacks, rfl⟩

theorem entries_remove_subset (t : PendingTable) (n : UInt32) :
    (t.remove n).2.entries ⊆ t.entries := by
  rcases t.remove_cases n with ⟨e, -, -, heq⟩ | ⟨-, heq⟩
  · rw [heq]
    exact t.without_subset n
  · rw [heq]
    exact List.Subset.refl _

theorem entries_resolve_subset (t : PendingTable) (n : UInt32) :
    (t.resolve n).2.entries ⊆ t.entries := by
  rcases t.resolve_cases n with ⟨e, -, -, heq⟩ | ⟨-, -, heq⟩ | ⟨-, -, heq⟩
  · rw [heq]
    exact t.without_subset n
  · rw [heq]
    exact List.Subset.refl _
  · rw [heq]
    exact List.Subset.refl _

theorem entries_cancel_subset (t : PendingTable) (n : UInt32) :
    (t.cancel n).2.entries ⊆ t.entries := by
  rcases t.cancel_cases n with ⟨e, -, -, kept, -, heq⟩ | ⟨-, heq⟩
  · rw [heq]
    exact t.without_subset n
  · rw [heq]
    exact List.Subset.refl _

/-! ### Putting a number to use -/

theorem isFree_iff_lacks : t.isFree n ↔ t.Lacks n ∧ n ∉ t.cancelled := by
  rw [isFree_iff]
  unfold used Lacks
  simp [not_or]

theorem allocate_eq_of_isFree (h : t.isFree t.next) :
    t.allocate = (t.next, { t with next := t.next + 1 }) := by
  have hsearch : t.search sequenceCount t.next = some t.next := by
    rw [show sequenceCount = (UInt32.size - 1) + 1 from rfl]
    exact if_pos h
  unfold allocate
  rw [hsearch]
  rfl

theorem register_eq_error {limit slot : Nat} {e : RpcError} (command : UInt32)
    (h : t.refusal? limit = some e) : t.register limit command slot = (.error e, t) := by
  unfold register
  rw [h]

theorem register_eq_ok_of_refusal? {limit slot : Nat} (command : UInt32)
    (h : t.refusal? limit = none) :
    t.register limit command slot = (.ok t.allocate.1,
      { t.allocate.2 with entries := ⟨t.allocate.1, command, slot⟩ :: t.entries }) := by
  unfold register
  rw [h]
  rfl

end PendingTable

namespace Calls

/-! ### Runs of operations -/

inductive Operation
  | register (limit : Nat) (command : UInt32)
  | nextSequence
  | resolve (sequence : UInt32)
  | forget (sequence : UInt32)
  | cancel (sequence : UInt32)
  | drain
  deriving DecidableEq, Repr

inductive Answer
  | registered (sequence : UInt32) (slot : Nat)
  | refused (e : RpcError)
  | numbered (sequence : UInt32)
  | resolved (resolution : Resolution)
  | forgotten
  | cancelled (wasInFlight : Bool)
  | drained (count : Nat)
  deriving DecidableEq, Repr

def Answer.number? : Answer → Option UInt32
  | registered n _ | numbered n => some n
  | _ => none

def perform (c : Calls) : Operation → Answer × Calls
  | .register limit command =>
    match c.register limit command with
    | (.ok (n, slot), c) => (.registered n slot, c)
    | (.error e, c) => (.refused e, c)
  | .nextSequence => let (n, c) := c.nextSequence; (.numbered n, c)
  | .resolve n => let (resolution, c) := c.resolve n; (.resolved resolution, c)
  | .forget n => (.forgotten, c.forget n)
  | .cancel n => let (wasInFlight, c) := c.cancel n; (.cancelled wasInFlight, c)
  | .drain => let (count, c) := c.drain; (.drained count, c)

/-- The operation terminates.  An allocation does not if all numbers are in use. -/
def Ends (c : Calls) : Operation → Prop
  | .register limit _ => c.table.refusal? limit = none → ∃ n, c.table.isFree n
  | .nextSequence => ∃ n, c.table.isFree n
  | _ => True

/-- A run of operations, each allowed in the state before it, with their answers. -/
inductive Run (allowed : Calls → Operation → Prop) : Calls → List Answer → Calls → Prop
  | nil (c : Calls) : Run allowed c [] c
  | cons {c c' : Calls} {answers : List Answer} (op : Operation) (hallowed : allowed c op)
      (hends : c.Ends op) (hrest : Run allowed (c.perform op).2 answers c') :
      Run allowed c ((c.perform op).1 :: answers) c'

theorem Run.single {allowed : Calls → Operation → Prop} {c c' : Calls} {op : Operation}
    {answer : Answer} (hallowed : allowed c op) (hends : c.Ends op)
    (h : c.perform op = (answer, c')) : Run allowed c [answer] c' := by
  have hstep := Run.cons op hallowed hends (.nil _)
  rw [h] at hstep
  exact hstep

theorem Run.append {allowed : Calls → Operation → Prop} {c c' c'' : Calls}
    {answers answers' : List Answer} (h : Run allowed c answers c')
    (h' : Run allowed c' answers' c'') : Run allowed c (answers ++ answers') c'' := by
  induction h with
  | nil => exact h'
  | cons op hallowed hends _ ih => exact .cons op hallowed hends (ih h')

variable {c : Calls} {n : UInt32}

theorem table_cancel (c : Calls) (n : UInt32) : (c.cancel n).2.table = (c.table.cancel n).2 := by
  unfold cancel
  rcases c.table.cancel n with ⟨_ | e, t⟩
  · rfl
  · rfl

theorem table_completeAll (c : Calls) (outcome : Outcome) (entries : List Entry) :
    (c.completeAll outcome entries).2.table = c.table := by
  induction entries generalizing c with
  | nil => rfl
  | cons e entries ih =>
    show ((c.complete e.slot outcome).2.completeAll outcome entries).2.table = c.table
    rw [ih]
    rfl

theorem table_drain (c : Calls) : c.drain.2.table = c.table.drain.2 := table_completeAll _ _ _

/-! ### Slots -/

theorem slot_of_length_le {i : Nat} (hi : c.slots.length ≤ i) : c.slot i = .waiting := by
  unfold slot
  rw [List.getD_eq_getElem?_getD, List.getElem?_eq_none hi]
  rfl

theorem slot_complete_self {i : Nat} (hi : i < c.slots.length) (hw : c.slot i = .waiting)
    (outcome : Outcome) :
    (c.complete i outcome).1 = true ∧ (c.complete i outcome).2.slot i = .resolved outcome := by
  unfold complete
  rw [hw]
  refine ⟨rfl, ?_⟩
  show (c.slots.set i (.resolved outcome)).getD i .waiting = _
  rw [List.getD_eq_getElem?_getD, List.getElem?_set_self hi]
  rfl

theorem slot_complete_ne {i j : Nat} (h : j ≠ i) (outcome : Outcome) :
    (c.complete i outcome).2.slot j = c.slot j := by
  show (c.slots.set i _).getD j .waiting = c.slots.getD j .waiting
  rw [List.getD_eq_getElem?_getD, List.getElem?_set_ne h.symm, List.getD_eq_getElem?_getD]

theorem slot_poll_ne {i j : Nat} (h : j ≠ i) : (c.poll i).2.slot j = c.slot j := by
  show (c.slots.set i _).getD j .waiting = c.slots.getD j .waiting
  rw [List.getD_eq_getElem?_getD, List.getElem?_set_ne h.symm, List.getD_eq_getElem?_getD]

theorem slot_append_waiting {table : PendingTable} {slots : List Completion} (i : Nat) :
    slot { table, slots := slots ++ [.waiting] } i = slot { table, slots } i := by
  show (slots ++ [Completion.waiting]).getD i .waiting = slots.getD i .waiting
  rw [List.getD_eq_getElem?_getD, List.getD_eq_getElem?_getD, List.getElem?_append]
  by_cases hi : i < slots.length
  · rw [if_pos hi]
  · rw [if_neg hi, List.getElem?_eq_none (Nat.le_of_not_lt hi)]
    cases i - slots.length with
    | zero => rfl
    | succ k => rfl

theorem poll_cases {i : Nat} {outcome : Outcome} (h : (c.poll i).1 = some outcome) :
    (c.slot i = .resolved outcome ∨ c.slot i = .taken) ∧ (c.poll i).2.slot i = .taken := by
  have hi : i < c.slots.length := by
    by_contra hi
    unfold poll at h
    rw [slot_of_length_le (Nat.le_of_not_lt hi)] at h
    cases h
  have hset (s : Completion) : slot { c with slots := c.slots.set i s } i = s := by
    unfold slot
    rw [List.getD_eq_getElem?_getD, List.getElem?_set_self hi]
    rfl
  unfold poll at h ⊢
  rcases hslot : c.slot i with _ | o | _
  · rw [hslot] at h
    cases h
  · rw [hslot] at h
    cases h
    exact ⟨.inl rfl, hset _⟩
  · exact ⟨.inr rfl, hset _⟩

theorem register_cases (limit : Nat) (command : UInt32) :
    (∃ e, c.table.refusal? limit = some e ∧ c.register limit command = (.error e, c)) ∨
      (c.table.refusal? limit = none ∧ c.register limit command =
        (.ok (c.table.allocate.1, c.slots.length),
          { table := { c.table.allocate.2 with
              entries := ⟨c.table.allocate.1, command, c.slots.length⟩ :: c.table.entries }
            slots := c.slots ++ [.waiting] })) := by
  unfold register
  rcases hrefusal : c.table.refusal? limit with _ | e
  · rw [PendingTable.register_eq_ok_of_refusal? command hrefusal]
    exact .inr ⟨rfl, rfl⟩
  · rw [PendingTable.register_eq_error command hrefusal]
    exact .inl ⟨e, rfl, rfl⟩

end Calls

end CallWire
