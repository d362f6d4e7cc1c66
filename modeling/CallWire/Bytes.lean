/-!
# CallWire.Bytes — byte strings, big-endian words and UTF-8 text

Everything that travels is a list of bytes.  Words are written most significant byte first; text
is its UTF-8 form.  The length lemmas here are what the layers above count with.
-/

namespace CallWire

abbrev Bytes := List UInt8

namespace Bytes

/-- The `width` low-order bytes of `n`, big-endian. -/
def ofNat : (width : Nat) → (n : Nat) → Bytes
  | 0, _ => []
  | w + 1, n => ofNat w (n / 256) ++ [UInt8.ofNat n]

/-- The number with these base-256 digits. -/
def toNat (bs : Bytes) : Nat := bs.foldl (fun n b => 256 * n + b.toNat) 0

def ofText (s : String) : Bytes := s.toUTF8.data.toList

def toText? (bs : Bytes) : Option String := String.fromUTF8? ⟨bs.toArray⟩

/-- Chunks of `max size 1` bytes; the last may be shorter. -/
def chunks (size : Nat) (bs : Bytes) : List Bytes :=
  if h : bs = [] then []
  else bs.take (size - 1 + 1) :: chunks size (bs.drop (size - 1 + 1))
termination_by bs.length
decreasing_by
  have := List.length_pos_iff.2 h
  simp
  omega

@[simp] theorem length_ofNat (w n : Nat) : (ofNat w n).length = w := by
  induction w generalizing n with
  | zero => rfl
  | succ w ih => simp [ofNat, ih]

end Bytes

end CallWire
