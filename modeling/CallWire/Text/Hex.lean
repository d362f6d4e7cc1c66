import CallWire.Bytes

/-!
# CallWire.Text.Hex — bytes as hexadecimal text

Two digits a byte, the high one first.  Digits are written in lower case and read in either.
-/

namespace CallWire.Text

def hexDigit (n : Nat) : Char := if n < 10 then Char.ofNat (48 + n) else Char.ofNat (87 + n)

def hexDigit? (c : Char) : Option Nat :=
  if '0' ≤ c ∧ c ≤ '9' then some (c.toNat - 48)
  else if 'a' ≤ c ∧ c ≤ 'f' then some (c.toNat - 87)
  else if 'A' ≤ c ∧ c ≤ 'F' then some (c.toNat - 55)
  else none

def hex (bs : Bytes) : String :=
  bs.foldl (fun s b => (s.push (hexDigit (b.toNat / 16))).push (hexDigit (b.toNat % 16))) ""

/-- The bytes of the digits, after those in `done`, which are in reverse. -/
def readHex (done : List UInt8) : List Char → Option Bytes
  | [] => some done.reverse
  | [_] => none
  | high :: low :: rest => do
    let h ← hexDigit? high
    let l ← hexDigit? low
    readHex (.ofNat (h * 16 + l) :: done) rest

def ofHex? (s : String) : Option Bytes := readHex [] s.toList

end CallWire.Text
