import CallWire.Codec.Decode

/-!
# CallWire.Codec.Stream — several items in one output or input

Items of different schemas are written one after the other into one output, and read one after
the other from one input.  A failing item does not stop the stream.
-/

namespace CallWire

structure ItemWriter where
  output : Bytes := []

namespace ItemWriter

/-- Appends the bytes of an item, up to its first error. -/
def put (defs : Defs) (w : ItemWriter) (schema : Schema) (value : Value) :
    Except CodecError Unit × ItemWriter :=
  let item := schema.written defs value
  (item.toExcept.map fun _ => (), { w with output := w.output ++ item.bytes })

def putAll (defs : Defs) (w : ItemWriter) :
    List (Schema × Value) → List (Except CodecError Unit) × ItemWriter
  | [] => ([], w)
  | (schema, value) :: items =>
    let (result, w) := w.put defs schema value
    let (results, w) := w.putAll defs items
    (result :: results, w)

end ItemWriter

structure ItemReader where
  input : Bytes

namespace ItemReader

/-- Reads an item.  Where it fails, what it consumed stays consumed. -/
def next (defs : Defs) (r : ItemReader) (schema : Schema) :
    Except CodecError Value × ItemReader :=
  match schema.reading defs r.input with
  | .value v rest => (.ok v, ⟨rest⟩)
  | .failed e rest => (.error e, ⟨rest⟩)
  | .tooDeep => (.error (.message "nested too deeply"), r)

def nextAll (defs : Defs) (r : ItemReader) :
    List Schema → List (Except CodecError Value × Nat) × ItemReader
  | [] => ([], r)
  | schema :: schemas =>
    let (result, r) := r.next defs schema
    let (results, last) := r.nextAll defs schemas
    ((result, r.input.length) :: results, last)

def finish (r : ItemReader) : Except CodecError Unit := finished r.input

end ItemReader

end CallWire
