import CallWire.Codec.IntKind

/-!
# CallWire.Codec.Schema — what is written where, and the values that go there

A schema names the wire form of a type; a value is what stands at a place with that schema.  The
format is not self-describing: both sides know the schema.  Several kinds of type share a form.
A unit structure is written as `unit`; tuples, tuple structures and structures as `record`; a
one-field wrapper as its field; an identifier as an `int .u32`; and a map as the sequence of its
entries (`Schema.map`).
-/

namespace CallWire

/-- Containers that can be serialized without a length. -/
inductive Container
  | sequence | map
  deriving DecidableEq, Repr

/-- The serialization calls of a type. -/
inductive Schema
  | bool
  | int (kind : IntKind)
  /-- A 128-bit integer, which the format does not support. -/
  | wideInt (isSigned : Bool)
  | float32
  | float64
  | char
  | string
  /-- A counted byte string. -/
  | bytes
  | unit
  /-- Asks the format for the type, which this format does not know. -/
  | any
  /-- Skips a value of any type, which this format cannot. -/
  | ignored
  /-- Whether the format is human-readable, which is false. -/
  | readable
  | option (inner : Schema)
  | seq (element : Schema)
  /-- A container serialized without a length.  It is deserialized as a sequence. -/
  | unsized (container : Container) (element : Schema)
  | record (fields : List Schema)
  | enum (variants : List Schema)
  | ref (name : String)
  deriving Repr

/-- Floats are represented by their bits. -/
inductive Value
  | bool (b : Bool)
  | int (n : Int)
  | float32 (bits : UInt32)
  | float64 (bits : UInt64)
  | char (c : Char)
  | string (s : String)
  | bytes (bs : Bytes)
  | unit
  | absent
  | present (v : Value)
  /-- The elements of a sequence or the fields of a record. -/
  | list (vs : List Value)
  | variant (index : Nat) (body : Value)
  deriving Repr

/-- Named definitions, for recursive schemas.  The first of a name counts. -/
abbrev Defs := List (String × Schema)

namespace Schema

def entry (key value : Schema) : Schema := record [key, value]

/-- A map is the sequence of its entries. -/
def map (key value : Schema) : Schema := seq (entry key value)

mutual
def size : Schema → Nat
  | option s | seq s | unsized _ s => s.size + 1
  | record ss | enum ss => sizes ss + 1
  | _ => 1

def sizes : List Schema → Nat
  | [] => 0
  | s :: ss => s.size + sizes ss
end

end Schema

namespace Value

mutual
def height : Value → Nat
  | present v | variant _ v => v.height + 1
  | list vs => heights vs + 1
  | _ => 1

def heights : List Value → Nat
  | [] => 0
  | v :: vs => max v.height (heights vs)
end

end Value

namespace Defs

def size : Defs → Nat
  | [] => 0
  | (_, schema) :: defs => schema.size + size defs

end Defs

/-- A bound on the nodes passed, references included, from a node below the schema to the next
option, sequence or enumeration. -/
def Schema.span (defs : Defs) (schema : Schema) : Nat := schema.size + 2 * defs.size + 1

end CallWire
