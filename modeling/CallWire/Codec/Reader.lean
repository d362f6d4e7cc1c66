import CallWire.Codec.Error

/-!
# CallWire.Codec.Reader — reading items off the front of a byte string

A reader takes an item from the front of its input and leaves the rest.  A failing reader also
says where it stopped: what it consumed before the failure stays consumed.
-/

namespace CallWire

inductive Reading (α : Type)
  | value (a : α) (rest : Bytes)
  /-- The error, and the bytes not consumed. -/
  | failed (e : CodecError) (rest : Bytes)
  /-- The depth allowed for was exceeded. -/
  | tooDeep
  deriving Repr

def Reader (α : Type) := Bytes → Reading α

namespace Reader

def pure {α : Type} (a : α) : Reader α := fun input => .value a input

def fail {α : Type} (e : CodecError) : Reader α := fun input => .failed e input

def bind {α β : Type} (r : Reader α) (f : α → Reader β) : Reader β := fun input =>
  match r input with
  | .value a rest => f a rest
  | .failed e rest => .failed e rest
  | .tooDeep => .tooDeep

instance : Monad Reader where
  pure := Reader.pure
  bind := Reader.bind

/-- The next `n` bytes.  With fewer left nothing is consumed. -/
def take (n : Nat) : Reader Bytes := fun input =>
  let head := input.take n
  if head.length = n then .value head (input.drop n)
  else .failed (.truncated n input.length) input

def word (width : Nat) : Reader Nat := do
  return Bytes.toNat (← take width)

def times {α : Type} (r : Reader α) : Nat → Reader (List α)
  | 0 => return []
  | n + 1 => do
    let a ← r
    let as ← times r n
    return a :: as

def all {α : Type} : List (Reader α) → Reader (List α)
  | [] => return []
  | r :: rs => do
    let a ← r
    let as ← all rs
    return a :: as

end Reader

end CallWire
