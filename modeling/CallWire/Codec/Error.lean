import CallWire.Codec.IntKind

/-!
# CallWire.Codec.Error — why a value cannot be written or read

One constructor per cause, and one function with the wording.
-/

namespace CallWire

inductive CodecError
  /-- Raised by the type of the value. -/
  | message (text : String)
  /-- `needed` bytes were required with only `remaining` left. -/
  | truncated (needed remaining : Nat)
  | trailingBytes (count : Nat)
  | invalidBool (word : Nat)
  | invalidDiscriminant (word : Nat)
  | invalidChar (word : Nat)
  | invalidUtf8
  | nonZeroPadding
  | outOfRange (value : Int) (target : IntKind)
  | lengthOverflow (length : Nat)
  | unsupported (what : String)
  deriving DecidableEq, Repr

def hexText (n : Nat) : String := "0x" ++ String.ofList (Nat.toDigits 16 n)

namespace CodecError

def name : CodecError → String
  | message _ => "Message"
  | truncated _ _ => "Truncated"
  | trailingBytes _ => "TrailingBytes"
  | invalidBool _ => "InvalidBool"
  | invalidDiscriminant _ => "InvalidDiscriminant"
  | invalidChar _ => "InvalidChar"
  | invalidUtf8 => "InvalidUtf8"
  | nonZeroPadding => "NonZeroPadding"
  | outOfRange _ _ => "OutOfRange"
  | lengthOverflow _ => "LengthOverflow"
  | unsupported _ => "Unsupported"

def text : CodecError → String
  | message t => t
  | truncated needed remaining =>
    s!"buffer truncated: needed {needed} bytes, {remaining} remaining"
  | trailingBytes count => s!"{count} trailing bytes after value"
  | invalidBool word => s!"invalid boolean value {word}"
  | invalidDiscriminant word => s!"invalid discriminant {word}"
  | invalidChar word => s!"invalid char {hexText word}"
  | invalidUtf8 => "string is not valid UTF-8"
  | nonZeroPadding => "non-zero padding byte"
  | outOfRange value target => s!"value {value} out of range for {target.name}"
  | lengthOverflow length => s!"length {length} does not fit in 32 bits"
  | unsupported what => s!"unsupported: {what}"

end CodecError

end CallWire
