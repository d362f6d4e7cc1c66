import CallWire.Message.Basic

/-!
# CallWire.Message.Colors — the messages of a colour service

Requests and replies of a small service that counts and mixes colours.  Between them they use
every way of building a message: structures, enumerations with and without fields, lists and
options.
-/

namespace CallWire

structure ColorQuery where
  name : String
  count : UInt32
  tags : List String
  hint : Option Int64
  deriving DecidableEq, Repr

inductive Choice
  | nothing
  | single (n : UInt8)
  | pair (n : Int16) (b : Bool)
  | named (red green : UInt8)
  deriving DecidableEq, Repr

structure CountReply where
  count : UInt32
  deriving DecidableEq, Repr

structure Stats where
  echoes : UInt64
  peer : String
  deriving DecidableEq, Repr

inductive Shade
  | light
  | dark (n : UInt8)
  | mixed (a : Int16) (b : Option String)
  deriving DecidableEq, Repr

structure DoubleBits where
  bits : UInt64
  deriving DecidableEq, Repr

structure Palette where
  id : UInt64
  name : String
  weights : List Int32
  enabled : Bool
  ratio : DoubleBits
  shades : List Shade
  parent : Option UInt32
  deriving DecidableEq, Repr

open Message

instance : Message ColorQuery where
  schema := .record [schema String, schema UInt32, schema (List String), schema (Option Int64)]
  toValue q := .list [toValue q.name, toValue q.count, toValue q.tags, toValue q.hint]
  ofValue?
    | .list [name, count, tags, hint] =>
      return ⟨← ofValue? name, ← ofValue? count, ← ofValue? tags, ← ofValue? hint⟩
    | _ => none

instance : Message Choice where
  schema := .enum [.unit, schema UInt8, .record [schema Int16, schema Bool],
    .record [schema UInt8, schema UInt8]]
  toValue
    | .nothing => .variant 0 .unit
    | .single n => .variant 1 (toValue n)
    | .pair n b => .variant 2 (.list [toValue n, toValue b])
    | .named red green => .variant 3 (.list [toValue red, toValue green])
  ofValue?
    | .variant 0 .unit => some .nothing
    | .variant 1 n => return .single (← ofValue? n)
    | .variant 2 (.list [n, b]) => return .pair (← ofValue? n) (← ofValue? b)
    | .variant 3 (.list [red, green]) => return .named (← ofValue? red) (← ofValue? green)
    | _ => none

instance : Message CountReply where
  schema := .record [schema UInt32]
  toValue r := .list [toValue r.count]
  ofValue?
    | .list [count] => return ⟨← ofValue? count⟩
    | _ => none

instance : Message Stats where
  schema := .record [schema UInt64, schema String]
  toValue s := .list [toValue s.echoes, toValue s.peer]
  ofValue?
    | .list [echoes, peer] => return ⟨← ofValue? echoes, ← ofValue? peer⟩
    | _ => none

instance : Message Shade where
  schema := .enum [.unit, schema UInt8, .record [schema Int16, schema (Option String)]]
  toValue
    | .light => .variant 0 .unit
    | .dark n => .variant 1 (toValue n)
    | .mixed a b => .variant 2 (.list [toValue a, toValue b])
  ofValue?
    | .variant 0 .unit => some .light
    | .variant 1 n => return .dark (← ofValue? n)
    | .variant 2 (.list [a, b]) => return .mixed (← ofValue? a) (← ofValue? b)
    | _ => none

instance : Message DoubleBits where
  schema := .float64
  toValue d := .float64 d.bits
  ofValue?
    | .float64 bits => some ⟨bits⟩
    | _ => none

instance : Message Palette where
  schema := .record [schema UInt64, schema String, schema (List Int32), schema Bool,
    schema DoubleBits, schema (List Shade), schema (Option UInt32)]
  toValue p := .list [toValue p.id, toValue p.name, toValue p.weights, toValue p.enabled,
    toValue p.ratio, toValue p.shades, toValue p.parent]
  ofValue?
    | .list [id, name, weights, enabled, ratio, shades, parent] =>
      return ⟨← ofValue? id, ← ofValue? name, ← ofValue? weights, ← ofValue? enabled,
        ← ofValue? ratio, ← ofValue? shades, ← ofValue? parent⟩
    | _ => none

end CallWire
