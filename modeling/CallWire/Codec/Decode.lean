import CallWire.Codec.Encode
import CallWire.Codec.Reader

/-!
# CallWire.Codec.Decode — reading a value under its schema

Reading is strict: a truth value is 0 or 1, a narrow integer is in its range, padding is zero,
text is UTF-8, and nothing may follow the value of a whole message.
-/

namespace CallWire

namespace Reader

/-- A length, the bytes, and the padding to a whole word. -/
def counted : Reader Bytes := do
  let length ← word 4
  let bs ← take length
  let pad ← take (padding length)
  if pad.all (· == 0) then return bs else fail .nonZeroPadding

def bool : Reader Bool := do
  match ← word 4 with
  | 0 => return false
  | 1 => return true
  | w => fail (.invalidBool w)

def text : Reader String := do
  match Bytes.toText? (← counted) with
  | some s => return s
  | none => fail .invalidUtf8

def char : Reader Char := do
  let w ← word 4
  if w.isValidChar then return Char.ofNat w else fail (.invalidChar w)

/-- A two's complement word, refused outside the range of `kind`. -/
def int (kind : IntKind) : Reader Int := do
  let n := kind.ofWord (← word kind.width)
  if kind.Holds n then return n else fail (.outOfRange n kind)

def tooDeep {α : Type} : Reader α := fun _ => .tooDeep

end Reader

def CodecError.noVariant (index count : Nat) : CodecError :=
  .message s!"invalid value: integer `{index}`, expected variant index 0 <= i < {count}"

/-- Reads a value with at most `depth` nested calls; references count. -/
@[simp] def Schema.read (defs : Defs) : (depth : Nat) → Schema → Reader Value
  | 0, _ => .tooDeep
  | depth + 1, schema =>
    match schema with
    | .bool => return .bool (← Reader.bool)
    | .int kind => return .int (← Reader.int kind)
    | .wideInt isSigned => .fail (.wideInt isSigned)
    | .float32 => return .float32 (.ofNat (← Reader.word 4))
    | .float64 => return .float64 (.ofNat (← Reader.word 8))
    | .char => return .char (← Reader.char)
    | .string => return .string (← Reader.text)
    | .bytes => return .bytes (← Reader.counted)
    | .unit => return .unit
    | .any => .fail (.unsupported "self-describing deserialization")
    | .ignored => .fail (.unsupported "skipping values of unknown type")
    | .readable => return .list [.bool false, .bool (← Reader.bool)]
    | .option inner => do
      match ← Reader.word 4 with
      | 0 => return .absent
      | 1 => return .present (← read defs depth inner)
      | w => .fail (.invalidDiscriminant w)
    | .seq element | .unsized _ element => do
      let count ← Reader.word 4
      return .list (← Reader.times (read defs depth element) count)
    | .record fields => return .list (← Reader.all (fields.map (read defs depth)))
    | .enum variants => do
      let index ← Reader.word 4
      match variants[index]? with
      | some variant => return .variant index (← read defs depth variant)
      | none => .fail (.noVariant index variants.length)
    | .ref name =>
      match defs.lookup name with
      | some schema => read defs depth schema
      | none => .fail (.undefined name)

/-- A depth at which reading `length` bytes cannot stop for lack of depth: each option, sequence or
enumeration consumes four bytes, and between two of them no node is passed twice. -/
def Schema.readDepth (defs : Defs) (schema : Schema) (length : Nat) : Nat :=
  (length / 4 + 1) * schema.span defs

/-- Reads one value from the front of the input. -/
def Schema.reading (defs : Defs) (schema : Schema) (input : Bytes) : Reading Value :=
  schema.read defs (schema.readDepth defs input.length) input

/-- Trailing bytes are an error. -/
def finished (rest : Bytes) : Except CodecError Unit :=
  if rest.isEmpty then .ok () else .error (.trailingBytes rest.length)

def Schema.decode (defs : Defs) (schema : Schema) (input : Bytes) : Except CodecError Value :=
  match schema.reading defs input with
  | .value v rest => (finished rest).map fun _ => v
  | .failed e _ => .error e
  | .tooDeep => .error (.message "nested too deeply")

end CallWire
