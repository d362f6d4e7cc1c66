import CallWire.Pending.Completion

/-!
# CallWire.Proofs.Pending.Uses — operations on a completion, one after the other

The answer of an operation depends on the first `complete` before it, and on whether a `wait` or
`waitTimeout` has taken the outcome since.  Both are read off from the operations before it
(`Stands`); further completions, questions and waits that gave up make no difference.
-/

namespace CallWire

namespace Completion

inductive Op
  | complete (outcome : Outcome)
  | isResolved
  | wait
  /-- Durations are in nanoseconds. -/
  | waitTimeout (timeout : Nat)

/-- An operation that has come to its end, with its answer. -/
inductive Use
  | complete (outcome : Outcome) (isFirst : Bool)
  | isResolved (answer : Bool)
  | wait (outcome : Outcome)
  /-- Called at the moment `begun`; `none` if it gave up. -/
  | waitTimeout (begun timeout : Nat) (outcome? : Option Outcome)
  /-- A `waitTimeout` that panicked over its deadline. -/
  | panicked (begun timeout : Nat)

namespace Use

def op : Use → Op
  | complete outcome _ => .complete outcome
  | isResolved _ => .isResolved
  | wait _ => .wait
  | waitTimeout _ timeout _ | panicked _ timeout => .waitTimeout timeout

/-- The outcome that was passed to `complete`. -/
def left? : Use → Option Outcome
  | complete outcome _ => some outcome
  | _ => none

/-- The outcome that was returned by a wait. -/
def got? : Use → Option Outcome
  | wait outcome => some outcome
  | waitTimeout _ _ outcome? => outcome?
  | _ => none

end Use

/-- The completion before and after an operation. -/
inductive Makes (c : Completion) : Use → Completion → Prop
  | complete (outcome : Outcome) :
      Makes c (.complete outcome (c.complete outcome).1) (c.complete outcome).2
  | isResolved : Makes c (.isResolved c.isResolved) c
  | wait {outcome : Outcome} (h : c.poll.1 = some outcome) : Makes c (.wait outcome) c.poll.2
  | waitTimeout (begun timeout : Nat) : Makes c (.waitTimeout begun timeout c.poll.1) c.poll.2
  | panicked (begun timeout : Nat) : Makes c (.panicked begun timeout) c

/-- The completion before and after operations. -/
inductive History : Completion → List Use → Completion → Prop
  | nil {c : Completion} : History c [] c
  | cons {c c₁ c₂ : Completion} {use : Use} {uses : List Use} (hmakes : c.Makes use c₁)
      (hrest : History c₁ uses c₂) : History c (use :: uses) c₂

/-- The outcome of the first `complete`. -/
def firstLeft? (uses : List Use) : Option Outcome := uses.findSome? Use.left?

/-- What the waits returned, in order. -/
def received (uses : List Use) : List Outcome := uses.filterMap Use.got?

/-- What the next wait is to return: nothing before the first `complete`, then the outcome of that,
and an error once it has been returned. -/
def due (uses : List Use) : Option Outcome :=
  match firstLeft? uses, received uses with
  | none, _ => none
  | some outcome, [] => some outcome
  | some _, _ :: _ => some (.error .alreadyTaken)

/-- How a new completion stands after these operations. -/
inductive Stands (uses : List Use) : Completion → Prop
  | waiting (hleft : firstLeft? uses = none) (hgot : received uses = []) : Stands uses .waiting
  | resolved {outcome : Outcome} (hleft : firstLeft? uses = some outcome)
      (hgot : received uses = []) : Stands uses (.resolved outcome)
  | taken {outcome : Outcome} {count : Nat} (hleft : firstLeft? uses = some outcome)
      (hgot : received uses = outcome :: List.replicate count (.error .alreadyTaken)) :
      Stands uses .taken

variable {c c' c₁ c₂ : Completion} {use : Use} {uses uses' before : List Use}
  {outcome : Outcome}

theorem isResolved_eq_false : c.isResolved = false ↔ c = .waiting := by
  cases c with
  | waiting => exact ⟨fun _ => rfl, fun _ => rfl⟩
  | resolved outcome => exact ⟨nofun, nofun⟩
  | taken => exact ⟨nofun, nofun⟩

theorem isResolved_eq_true : c.isResolved = true ↔ c ≠ .waiting := by
  rw [← Bool.not_eq_false, ne_eq, isResolved_eq_false]

theorem complete_eq_true_iff : (c.complete outcome).1 = true ↔ c = .waiting := by
  cases c with
  | waiting => exact ⟨fun _ => rfl, fun _ => rfl⟩
  | resolved outcome => exact ⟨nofun, nofun⟩
  | taken => exact ⟨nofun, nofun⟩

theorem exists_take (h : c.isResolved = true) : ∃ outcome, c.take = (some outcome, .taken) := by
  cases c with
  | waiting => cases h
  | resolved outcome => exact ⟨outcome, rfl⟩
  | taken => exact ⟨.error .alreadyTaken, rfl⟩

theorem poll_eq_take (h : c.isResolved = true) : c.poll = c.take := if_pos h

theorem poll_of_waiting (h : c.isResolved = false) : c.poll = (none, c) := by
  rw [isResolved_eq_false.mp h]
  rfl

theorem isResolved_of_take (h : c.take = (some outcome, c')) : c.isResolved = true := by
  cases c with
  | waiting => cases h
  | resolved outcome => rfl
  | taken => rfl

theorem complete_of_resolved (h : c.isResolved = true) (outcome : Outcome) :
    c.complete outcome = (false, c) := by
  cases c with
  | waiting => cases h
  | resolved outcome' => rfl
  | taken => rfl

theorem makes_none (h : c.isResolved = false) (begun timeout : Nat) :
    c.Makes (.waitTimeout begun timeout none) c := by
  have hmakes := Makes.waitTimeout (c := c) begun timeout
  rw [poll_of_waiting h] at hmakes
  exact hmakes

theorem Makes.keeps_resolved (h : c.Makes use c') (hc : c.isResolved = true) :
    c'.isResolved = true := by
  cases c with
  | waiting => cases hc
  | resolved outcome => cases h <;> rfl
  | taken => cases h <;> rfl

theorem History.append (h : History c uses c₁) (h' : History c₁ uses' c₂) :
    History c (uses ++ uses') c₂ := by
  induction h with
  | nil => exact h'
  | cons hmakes _ ih => exact .cons hmakes (ih h')

theorem History.split (h : History c (uses ++ uses') c₂) :
    ∃ c₁, History c uses c₁ ∧ History c₁ uses' c₂ := by
  induction uses generalizing c with
  | nil => exact ⟨c, .nil, h⟩
  | cons use uses ih =>
    cases h with
    | cons hmakes hrest =>
      obtain ⟨c₁, hbefore, hafter⟩ := ih hrest
      exact ⟨c₁, .cons hmakes hbefore, hafter⟩

theorem Makes.resolves (h : c.Makes use c') (hop : use.op = .complete outcome) :
    c'.isResolved = true := by
  cases h with
  | complete outcome' => cases c <;> rfl
  | isResolved | wait | waitTimeout | panicked => cases hop

/-! ### How the completion stands -/

theorem firstLeft?_concat (uses : List Use) (use : Use) :
    firstLeft? (uses ++ [use]) = (firstLeft? uses).or use.left? := by
  unfold firstLeft?
  rw [List.findSome?_append, List.findSome?_singleton]

theorem received_concat (uses : List Use) (use : Use) :
    received (uses ++ [use]) = received uses ++ use.got?.toList := by
  unfold received
  rw [List.filterMap_append]
  cases h : use.got? <;> simp [h]

theorem Stands.makes (h : Stands uses c) (hmakes : c.Makes use c') :
    Stands (uses ++ [use]) c' := by
  have hleft := firstLeft?_concat uses use
  have hgot := received_concat uses use
  -- In each state of the slot, what the operation leaves there and what it gets.
  cases h with
  | waiting hnone hnil =>
    rw [hnone] at hleft
    rw [hnil] at hgot
    cases hmakes with
    | complete outcome => exact .resolved hleft hgot
    | isResolved => exact .waiting hleft hgot
    | wait hpoll => cases hpoll
    | waitTimeout => exact .waiting hleft hgot
    | panicked => exact .waiting hleft hgot
  | @resolved outcome hsome hnil =>
    rw [hsome] at hleft
    rw [hnil] at hgot
    cases hmakes with
    | complete outcome' => exact .resolved hleft hgot
    | isResolved => exact .resolved hleft hgot
    | wait hpoll =>
      cases hpoll
      exact @Stands.taken _ outcome 0 hleft hgot
    | waitTimeout => exact @Stands.taken _ outcome 0 hleft hgot
    | panicked => exact .resolved hleft hgot
  | @taken outcome count hsome hcons =>
    rw [hsome] at hleft
    rw [hcons] at hgot
    have hmore : outcome :: List.replicate count (.error .alreadyTaken) ++ [.error .alreadyTaken] =
        outcome :: List.replicate (count + 1) (.error .alreadyTaken) := by
      rw [List.replicate_succ', List.cons_append]
    cases hmakes with
    | complete outcome' => exact .taken hleft (hgot.trans (List.append_nil _))
    | isResolved => exact .taken hleft (hgot.trans (List.append_nil _))
    | wait hpoll =>
      cases hpoll
      exact .taken hleft (hgot.trans hmore)
    | waitTimeout => exact .taken hleft (hgot.trans hmore)
    | panicked => exact .taken hleft (hgot.trans (List.append_nil _))

theorem Stands.history (h : Stands before c) (huses : History c uses c') :
    Stands (before ++ uses) c' := by
  induction huses generalizing before with
  | nil =>
    rw [List.append_nil]
    exact h
  | cons hmakes _ ih =>
    have hrest := ih (h.makes hmakes)
    rw [List.append_assoc] at hrest
    exact hrest

theorem History.stands (h : History .waiting uses c) : Stands uses c := by
  have hnew : Stands [] .waiting := .waiting rfl rfl
  exact hnew.history h

theorem Stands.eq_waiting_iff (h : Stands uses c) : c = .waiting ↔ firstLeft? uses = none := by
  cases h with
  | waiting hleft _ => exact ⟨fun _ => hleft, fun _ => rfl⟩
  | resolved hleft _ => exact ⟨nofun, fun hnone => nomatch hleft.symm.trans hnone⟩
  | taken hleft _ => exact ⟨nofun, fun hnone => nomatch hleft.symm.trans hnone⟩

theorem Stands.poll_eq (h : Stands uses c) : c.poll.1 = due uses := by
  unfold due
  cases h with
  | waiting hleft hgot => rw [hleft]; rfl
  | resolved hleft hgot => rw [hleft, hgot]; rfl
  | taken hleft hgot => rw [hleft, hgot]; rfl

end Completion

end CallWire
