import CallWire.Codec.Error

/-!
# CallWire.Codec.Written — what encoding an item adds to the output

Encoding an item yields the bytes that were written and, if the item could not be completed, why
it stopped.  What was written before the failure stays written.
-/

namespace CallWire

/-- The bytes appended, and the error that stopped it. -/
structure Written where
  bytes : Bytes
  failure : Option CodecError
  deriving DecidableEq, Repr

namespace Written

def ok (bytes : Bytes) : Written := ⟨bytes, none⟩

def fail (e : CodecError) : Written := ⟨[], some e⟩

/-- One item after another.  Nothing is written after an error. -/
def andThen (first next : Written) : Written :=
  match first.failure with
  | some _ => first
  | none => ⟨first.bytes ++ next.bytes, next.failure⟩

def concat (items : List Written) : Written := items.foldr andThen (ok [])

def toExcept (w : Written) : Except CodecError Bytes :=
  match w.failure with
  | some e => .error e
  | none => .ok w.bytes

@[simp] theorem bytes_ok (bs : Bytes) : (ok bs).bytes = bs := rfl

@[simp] theorem failure_ok (bs : Bytes) : (ok bs).failure = none := rfl

@[simp] theorem bytes_fail (e : CodecError) : (fail e).bytes = [] := rfl

@[simp] theorem failure_fail (e : CodecError) : (fail e).failure = some e := rfl

@[simp] theorem concat_nil : concat [] = ok [] := rfl

@[simp] theorem concat_cons (w : Written) (ws : List Written) :
    concat (w :: ws) = w.andThen (concat ws) := rfl

@[simp] theorem ok_andThen (bs : Bytes) (w : Written) :
    (ok bs).andThen w = ⟨bs ++ w.bytes, w.failure⟩ := rfl

@[simp] theorem fail_andThen (e : CodecError) (w : Written) : (fail e).andThen w = fail e := rfl

end Written

end CallWire
