import CallWire.Bytes

/-!
# CallWire.Codec.IntKind — the integer types of the format

Integers of up to 32 bits travel as one 32-bit word, those of 64 bits as two.  Signed kinds are
sign-extended, so a narrow kind has a value range smaller than its word.
-/

namespace CallWire

inductive IntKind
  | i8 | i16 | i32 | i64 | u8 | u16 | u32 | u64
  deriving DecidableEq, Repr

namespace IntKind

def name : IntKind → String
  | i8 => "i8" | i16 => "i16" | i32 => "i32" | i64 => "i64"
  | u8 => "u8" | u16 => "u16" | u32 => "u32" | u64 => "u64"

def isSigned : IntKind → Bool
  | i8 | i16 | i32 | i64 => true
  | u8 | u16 | u32 | u64 => false

def count : IntKind → Nat
  | i8 | u8 => UInt8.size
  | i16 | u16 => UInt16.size
  | i32 | u32 => UInt32.size
  | i64 | u64 => UInt64.size

def width : IntKind → Nat
  | i64 | u64 => 8
  | i8 | i16 | i32 | u8 | u16 | u32 => 4

/-- The number of values of a wire word of this kind. -/
def wordCount : IntKind → Nat
  | i64 | u64 => UInt64.size
  | i8 | i16 | i32 | u8 | u16 | u32 => UInt32.size

def least (k : IntKind) : Int := if k.isSigned then -(k.count / 2 : Nat) else 0

def greatest (k : IntKind) : Int := k.least + k.count - 1

def Holds (k : IntKind) (n : Int) : Prop := k.least ≤ n ∧ n ≤ k.greatest

instance (k : IntKind) (n : Int) : Decidable (k.Holds n) :=
  inferInstanceAs (Decidable (k.least ≤ n ∧ n ≤ k.greatest))

/-- Two's complement in `width` bytes. -/
def toBytes (k : IntKind) (n : Int) : Bytes :=
  Bytes.ofNat k.width (n % k.wordCount).toNat

/-- The integer of a wire word, sign-extended if the kind is signed. -/
def ofWord (k : IntKind) (word : Nat) : Int :=
  if k.isSigned then Int.bmod word k.wordCount else word

end IntKind

end CallWire
