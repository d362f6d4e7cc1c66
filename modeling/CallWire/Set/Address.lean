/-!
# CallWire.Set.Address — socket addresses as text

An address is a host and a decimal number of 16 bits, joined by the last colon of the text.
-/

namespace CallWire

structure Address where
  host : String
  number : Nat
  deriving DecidableEq, Repr

namespace Address

def splitLast (cs : List Char) : Option (List Char × List Char) :=
  let behind := cs.reverse.takeWhile (· != ':')
  if behind.length = cs.length then none
  else some (cs.take (cs.length - behind.length - 1), behind.reverse)

def decimal? (cs : List Char) : Option Nat :=
  if !cs.isEmpty && cs.all Char.isDigit then
    some (cs.foldl (fun n c => 10 * n + (c.toNat - '0'.toNat)) 0)
  else none

def number? (cs : List Char) : Option Nat := do
  let n ← decimal? (match cs with
    | '+' :: digits => digits
    | digits => digits)
  if n < UInt16.size then some n else none

def parse (text : String) : Except String Address :=
  match splitLast text.toList with
  | none => .error "invalid socket address"
  | some (host, digits) =>
    match number? digits with
    | none => .error "invalid port value"
    | some number => .ok ⟨String.ofList host, number⟩

end Address

end CallWire
