import CallWire.RpcError

/-!
# CallWire.Pending.Table — the calls of a connection that wait for a reply

Requests are numbered by a 32-bit counter that wraps around.  A number in use is passed over: one
of a call in flight, or one of a cancelled call, whose reply may still come and must not be taken
for that of another call.  The operations here only change the table; the outcome of a call that
an operation has removed is left in its slot as a step of its own (`Pending.Calls`).
-/

namespace CallWire

/-- A call in flight. -/
structure Entry where
  sequence : UInt32
  command : UInt32
  slot : Nat
  deriving DecidableEq, Repr

/-- What the sequence number of a reply belongs to. -/
inductive Resolution
  /-- A call in flight, which was removed from the table. -/
  | pending (entry : Entry)
  /-- A call that was cancelled before its reply came. -/
  | cancelled
  | unknown
  deriving DecidableEq, Repr

/-- The calls in flight, and the sequence numbers of cancelled calls whose reply has not come. -/
structure PendingTable where
  /-- The number to try first. -/
  next : UInt32 := 1
  entries : List Entry := []
  cancelled : List UInt32 := []
  /-- Whether the table was drained; nothing can be registered then. -/
  isClosed : Bool := false
  deriving DecidableEq, Repr

namespace PendingTable

def size (t : PendingTable) : Nat := t.entries.length

def find? (t : PendingTable) (sequence : UInt32) : Option Entry :=
  t.entries.find? (·.sequence == sequence)

def isFree (t : PendingTable) (sequence : UInt32) : Bool :=
  (t.find? sequence).isNone && !t.cancelled.contains sequence

/-- The first free number among the `tries` numbers from `start` on, cyclically. -/
def search (t : PendingTable) : (tries : Nat) → (start : UInt32) → Option UInt32
  | 0, _ => none
  | tries + 1, start => if t.isFree start then some start else t.search tries (start + 1)

def sequenceCount : Nat := UInt32.size

/-- Allocates a number and moves the counter past it.  With every number in use the search would not
end, and the number given here means nothing (`Calls.Ends`). -/
def allocate (t : PendingTable) : UInt32 × PendingTable :=
  let sequence := (t.search sequenceCount t.next).getD t.next
  (sequence, { t with next := sequence + 1 })

def refusal? (t : PendingTable) (limit : Nat) : Option RpcError :=
  if t.isClosed then some .disconnected
  else if t.size ≥ limit then
    some (.invalidArgument s!"too many outstanding calls (max {limit})")
  else none

/-- Registers a call.  Where this is refused, nothing changes. -/
def register (t : PendingTable) (limit : Nat) (command : UInt32) (slot : Nat) :
    Except RpcError UInt32 × PendingTable :=
  match t.refusal? limit with
  | some e => (.error e, t)
  | none =>
    let (sequence, t) := t.allocate
    (.ok sequence, { t with entries := ⟨sequence, command, slot⟩ :: t.entries })

def remove (t : PendingTable) (sequence : UInt32) : Option Entry × PendingTable :=
  match t.find? sequence with
  | some entry =>
    (some entry, { t with entries := t.entries.filter (·.sequence != sequence) })
  | none => (none, t)

/-- Removes a call in flight, or forgets a cancelled one, by the number of a reply. -/
def resolve (t : PendingTable) (sequence : UInt32) : Resolution × PendingTable :=
  match t.remove sequence with
  | (some entry, t) => (.pending entry, t)
  | (none, t) =>
    if t.cancelled.contains sequence then
      (.cancelled, { t with cancelled := t.cancelled.filter (· != sequence) })
    else (.unknown, t)

/-- Removes a call whose request was not sent. -/
def forget (t : PendingTable) (sequence : UInt32) : PendingTable := (t.remove sequence).2

def cancelledSlack : Nat := 1024

/-- Removes a call and remembers its number.  If more than `cancelledSlack` numbers beyond the calls
in flight are remembered, these are forgotten first. -/
def cancel (t : PendingTable) (sequence : UInt32) : Option Entry × PendingTable :=
  match t.remove sequence with
  | (none, t) => (none, t)
  | (some entry, t) =>
    let kept := if t.cancelled.length > t.size + cancelledSlack then [] else t.cancelled
    (some entry, { t with cancelled := sequence :: kept.filter (· != sequence) })

/-- Closes the table and removes all calls. -/
def drain (t : PendingTable) : List Entry × PendingTable :=
  (t.entries, { t with entries := [], cancelled := [], isClosed := true })

end PendingTable

end CallWire
