import CallWire.Pending.Completion
import CallWire.Pending.Table

/-!
# CallWire.Pending.Calls — the pending table with the slots of its calls

Slots are numbered in the order of their creation and never reused.  An operation that resolves a
call is a change of the table followed by a change of the slot it found there.
-/

namespace CallWire

/-- A pending table and every slot created so far. -/
structure Calls where
  table : PendingTable := {}
  slots : List Completion := []

namespace Calls

def pending (c : Calls) : Nat := c.table.size

def slot (c : Calls) (i : Nat) : Completion := c.slots.getD i .waiting

/-- A completion that belongs to no call. -/
def newSlot (c : Calls) : Nat × Calls :=
  (c.slots.length, { c with slots := c.slots ++ [.waiting] })

/-- Completes a slot.  False if it was completed before. -/
def complete (c : Calls) (i : Nat) (outcome : Outcome) : Bool × Calls :=
  let (first, slot) := (c.slot i).complete outcome
  (first, { c with slots := c.slots.set i slot })

/-- Completes several slots: how many were not completed before. -/
def completeAll (c : Calls) (outcome : Outcome) : List Entry → Nat × Calls
  | [] => (0, c)
  | entry :: entries =>
    let (first, c) := c.complete entry.slot outcome
    let (count, c) := c.completeAll outcome entries
    (count + first.toNat, c)

/-- `wait` where it would return; `none` where it would block. -/
def poll (c : Calls) (i : Nat) : Option Outcome × Calls :=
  let (outcome, slot) := (c.slot i).poll
  (outcome, { c with slots := c.slots.set i slot })

def isResolved (c : Calls) (i : Nat) : Bool := (c.slot i).isResolved

def register (c : Calls) (limit : Nat) (command : UInt32) :
    Except RpcError (UInt32 × Nat) × Calls :=
  match c.table.register limit command c.slots.length with
  | (.error e, table) => (.error e, { c with table })
  | (.ok sequence, table) =>
    let (i, c) := c.newSlot
    (.ok (sequence, i), { c with table })

def nextSequence (c : Calls) : UInt32 × Calls :=
  let (sequence, table) := c.table.allocate
  (sequence, { c with table })

def resolve (c : Calls) (sequence : UInt32) : Resolution × Calls :=
  let (resolution, table) := c.table.resolve sequence
  (resolution, { c with table })

def forget (c : Calls) (sequence : UInt32) : Calls :=
  { c with table := c.table.forget sequence }

/-- Cancels a call.  False if it was not in flight. -/
def cancel (c : Calls) (sequence : UInt32) : Bool × Calls :=
  match c.table.cancel sequence with
  | (none, table) => (false, { c with table })
  | (some entry, table) => { c with table }.complete entry.slot (.error .cancelled)

/-- Completes every call in flight with `disconnected`: how many were not completed before. -/
def drain (c : Calls) : Nat × Calls :=
  let (entries, table) := c.table.drain
  { c with table }.completeAll (.error .disconnected) entries

/-- Resolves a call and completes it with this payload. -/
def deliver (c : Calls) (sequence : UInt32) (payload : Bytes) :
    Resolution × Bool × Calls :=
  match c.resolve sequence with
  | (.pending entry, c) => (.pending entry, c.complete entry.slot (.ok payload))
  | (resolution, c) => (resolution, false, c)

/-- `waitTimeout` at its deadline: a call without an outcome is cancelled. -/
def pollOrCancel (c : Calls) (sequence : UInt32) (i : Nat) (milliseconds : Nat) :
    Option Outcome × Calls :=
  match c.poll i with
  | (some outcome, c) => (some outcome, c)
  | (none, c) =>
    match c.cancel sequence with
    | (true, c) => (some (.error (.timeout milliseconds)), c)
    | (false, c) => c.poll i

/-- Registers and cancels calls, `count` times: the last number. -/
def churn (c : Calls) : (count : Nat) → Option UInt32 → Except RpcError (Option UInt32) × Calls
  | 0, last => (.ok last, c)
  | count + 1, _ =>
    match c.register UInt64.size 0 with
    | (.error e, c) => (.error e, c)
    | (.ok (sequence, _), c) => (c.cancel sequence).2.churn count (some sequence)

/-- Registers calls, `count` times: the last number. -/
def fill (c : Calls) : (count : Nat) → Option UInt32 → Except RpcError (Option UInt32) × Calls
  | 0, last => (.ok last, c)
  | count + 1, _ =>
    match c.register UInt64.size 0 with
    | (.error e, c) => (.error e, c)
    | (.ok (sequence, _), c) => c.fill count (some sequence)

end Calls

end CallWire
