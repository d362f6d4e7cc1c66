import CallWire.Message.Basic

/-!
# CallWire.Message.Dictionary — a map from texts to numbers

A dictionary is kept in ascending order of the bytes of its keys, each key once.  It is read from
the entries in any order, where a later entry for a key replaces an earlier one, and always
written in order.
-/

namespace CallWire

/-- A map from strings, in ascending order of the keys' bytes. -/
structure Dictionary where
  entries : List (String × UInt32)
  deriving DecidableEq, Repr

namespace Dictionary

/-- Binds `key`, replacing an earlier binding. -/
def insertEntry (key : String) (value : UInt32) :
    List (String × UInt32) → List (String × UInt32)
  | [] => [(key, value)]
  | (k, v) :: rest =>
    if k = key then (key, value) :: rest
    else if Bytes.ofText key < Bytes.ofText k then (key, value) :: (k, v) :: rest
    else (k, v) :: insertEntry key value rest

def empty : Dictionary := ⟨[]⟩

def insert (d : Dictionary) (key : String) (value : UInt32) : Dictionary :=
  ⟨insertEntry key value d.entries⟩

/-- The last entry for a key counts. -/
def ofList (entries : List (String × UInt32)) : Dictionary :=
  entries.foldl (fun d e => d.insert e.1 e.2) empty

def get? (d : Dictionary) (key : String) : Option UInt32 := d.entries.lookup key

instance : Message Dictionary where
  schema := .map (Message.schema String) (Message.schema UInt32)
  toValue d := Message.toValue d.entries
  ofValue? v := (Message.ofValue? v).map ofList

end Dictionary

end CallWire
