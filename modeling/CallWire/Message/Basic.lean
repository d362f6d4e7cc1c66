import CallWire.Codec.Decode

/-!
# CallWire.Message.Basic — types that travel

A type that travels has a schema, and its elements are turned into values of that schema and
back.  Structures travel as records of their fields.
-/

namespace CallWire

class Message (α : Type) where
  schema : Schema
  toValue : α → Value
  /-- `none` for a value that does not have the schema's form. -/
  ofValue? : Value → Option α

namespace Message

def encode {α : Type} [Message α] (a : α) : Except CodecError Bytes :=
  (schema α).encode [] (toValue a)

def decode {α : Type} [Message α] (input : Bytes) : Except CodecError α := do
  match ofValue? (← (schema α).decode [] input) with
  | some a => return a
  | none => .error (.message "value does not fit its schema")

/-- A type serialized as an integer of this kind. -/
abbrev ofInt {α : Type} (kind : IntKind) (toInt : α → Int) (ofInt : Int → α) : Message α where
  schema := .int kind
  toValue a := .int (toInt a)
  ofValue?
    | .int n => some (ofInt n)
    | _ => none

instance : Message UInt8 := ofInt .u8 (fun n => n.toNat) fun n => .ofNat n.toNat

instance : Message UInt32 := ofInt .u32 (fun n => n.toNat) fun n => .ofNat n.toNat

instance : Message UInt64 := ofInt .u64 (fun n => n.toNat) fun n => .ofNat n.toNat

instance : Message Int16 := ofInt .i16 Int16.toInt Int16.ofInt

instance : Message Int32 := ofInt .i32 Int32.toInt Int32.ofInt

instance : Message Int64 := ofInt .i64 Int64.toInt Int64.ofInt

instance : Message Unit where
  schema := .unit
  toValue _ := .unit
  ofValue?
    | .unit => some ()
    | _ => none

instance : Message Bool where
  schema := .bool
  toValue := .bool
  ofValue?
    | .bool b => some b
    | _ => none

instance : Message String where
  schema := .string
  toValue := .string
  ofValue?
    | .string s => some s
    | _ => none

instance {α : Type} [Message α] : Message (Option α) where
  schema := .option (schema α)
  toValue
    | none => .absent
    | some a => .present (toValue a)
  ofValue?
    | .absent => some none
    | .present v => (ofValue? v).map some
    | _ => none

instance {α : Type} [Message α] : Message (List α) where
  schema := .seq (schema α)
  toValue as := .list (as.map toValue)
  ofValue?
    | .list vs => vs.mapM ofValue?
    | _ => none

instance {α β : Type} [Message α] [Message β] : Message (α × β) where
  schema := .record [schema α, schema β]
  toValue p := .list [toValue p.1, toValue p.2]
  ofValue?
    | .list [a, b] => return (← ofValue? a, ← ofValue? b)
    | _ => none

end Message

end CallWire
