import CallWire.Codec.Schema
import CallWire.Codec.Written

/-!
# CallWire.Codec.Encode — writing a value under its schema

Every scalar takes a whole number of 32-bit words.  Texts and byte strings are preceded by their
length and padded with zero bytes to a word; sequences are preceded by their count, options and
enumerations by a discriminant; records have no framing at all.
-/

namespace CallWire

/-- The number of bytes from length `n` to the next multiple of four. -/
def padding (n : Nat) : Nat := (4 - n % 4) % 4

namespace Written

def word (n : Nat) : Written := .ok (Bytes.ofNat 4 n)

/-- A length as a word, if it fits one. -/
def length (n : Nat) : Written :=
  if n < UInt32.size then word n else .fail (.lengthOverflow n)

/-- A length, the bytes, and the padding. -/
def counted (bs : Bytes) : Written :=
  (length bs.length).andThen (.ok (bs ++ List.replicate (padding bs.length) 0))

/-- The result for a value that does not have the schema's form. -/
def misfit : Written := .fail (.message "value does not fit its schema")

end Written

def CodecError.undefined (name : String) : CodecError := .message s!"no definition of {name}"

def Container.lengthError : Container → CodecError
  | .sequence => .unsupported "sequence without a known length"
  | .map => .unsupported "map without a known length"

def CodecError.wideInt (isSigned : Bool) : CodecError :=
  .message (if isSigned then "i128 is not supported" else "u128 is not supported")

/-- Writes a value with at most `depth` nested calls; references count. -/
@[simp] def Schema.write (defs : Defs) : (depth : Nat) → Schema → Value → Written
  | 0, _, _ => .misfit
  | depth + 1, schema, value =>
    match schema, value with
    | .bool, .bool b => .word b.toNat
    | .int kind, .int n => if kind.Holds n then .ok (kind.toBytes n) else .misfit
    | .wideInt isSigned, .int _ => .fail (.wideInt isSigned)
    | .float32, .float32 bits => .ok (Bytes.ofNat 4 bits.toNat)
    | .float64, .float64 bits => .ok (Bytes.ofNat 8 bits.toNat)
    | .char, .char c => .word c.toNat
    | .string, .string s => .counted (Bytes.ofText s)
    | .bytes, .bytes bs => .counted bs
    | .unit, .unit => .ok []
    | .readable, .unit => .word 0
    | .option _, .absent => .word 0
    | .option inner, .present v => (Written.word 1).andThen (write defs depth inner v)
    | .seq element, .list vs =>
      (Written.length vs.length).andThen (.concat (vs.map (write defs depth element)))
    | .unsized container _, .list _ => .fail container.lengthError
    | .record fields, .list vs =>
      if fields.length = vs.length then .concat (List.zipWith (write defs depth) fields vs)
      else .misfit
    | .enum variants, .variant index body =>
      match variants[index]? with
      | some variant =>
        if index < UInt32.size then (Written.word index).andThen (write defs depth variant body)
        else .misfit
      | none => .misfit
    | .ref name, v =>
      match defs.lookup name with
      | some schema => write defs depth schema v
      | none => .fail (.undefined name)
    | _, _ => .misfit

/-- A depth at which writing this value cannot stop for lack of depth: the value inside an option, a
sequence or an enumeration is less high, and between two of them no node is passed twice. -/
def Schema.writeDepth (defs : Defs) (schema : Schema) (value : Value) : Nat :=
  (value.height + 1) * schema.span defs

/-- What encoding the value appends, up to its first error. -/
def Schema.written (defs : Defs) (schema : Schema) (value : Value) : Written :=
  schema.write defs (schema.writeDepth defs value) value

def Schema.encode (defs : Defs) (schema : Schema) (value : Value) : Except CodecError Bytes :=
  (schema.written defs value).toExcept

end CallWire
