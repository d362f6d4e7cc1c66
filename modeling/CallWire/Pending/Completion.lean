import CallWire.RpcError

/-!
# CallWire.Pending.Completion — the slot in which a call's outcome is left

Whoever resolves a call leaves the outcome in its slot; the first to do so wins.  The waiter takes
the outcome out, once.
-/

namespace CallWire

/-- The payload of the reply of a call, or an error. -/
abbrev Outcome := Except RpcError Bytes

/-- The slot of one call. -/
inductive Completion
  | waiting
  | resolved (outcome : Outcome)
  /-- The outcome was returned by a wait. -/
  | taken

def RpcError.alreadyTaken : RpcError := .invalidArgument "call outcome already taken"

namespace Completion

/-- Stores an outcome.  False, and without effect, if one was stored before. -/
def complete (c : Completion) (outcome : Outcome) : Bool × Completion :=
  match c with
  | waiting => (true, resolved outcome)
  | c => (false, c)

def isResolved : Completion → Bool
  | waiting => false
  | resolved _ | taken => true

/-- Takes the outcome from the slot.  It is not called on a waiting slot. -/
def take : Completion → Option Outcome × Completion
  | waiting => (none, taken)
  | resolved outcome => (some outcome, taken)
  | taken => (some (.error .alreadyTaken), taken)

/-- Takes the outcome from the slot; `none` where a wait would block. -/
def poll (c : Completion) : Option Outcome × Completion :=
  if c.isResolved then c.take else (none, c)

@[simp] theorem complete_waiting (o : Outcome) : waiting.complete o = (true, resolved o) := rfl

@[simp] theorem complete_resolved (o o' : Outcome) :
    (resolved o).complete o' = (false, resolved o) := rfl

@[simp] theorem complete_taken (o : Outcome) : taken.complete o = (false, taken) := rfl

@[simp] theorem poll_waiting : waiting.poll = (none, waiting) := rfl

@[simp] theorem poll_resolved (o : Outcome) : (resolved o).poll = (some o, taken) := rfl

@[simp] theorem poll_taken : taken.poll = (some (.error .alreadyTaken), taken) := rfl

end Completion

end CallWire
