import CallWire.Frame.Basic

/-!
# CallWire.Frame.Decoder — cutting a byte stream into frames

The stream arrives in pieces of any size.  A decoder holds the header of a frame whose payload is
still to come; the bytes not yet consumed wait in a buffer beside it.  A failing decode leaves
both as they were, so it fails the same way for ever.
-/

namespace CallWire

/-- The state of a decoder between two calls. -/
structure FrameDecoder where
  /-- The greatest payload length accepted. -/
  limit : Nat
  /-- A header that was consumed ahead of its payload. -/
  awaiting : Option Header := none
  deriving DecidableEq, Repr

/-- A result, with the decoder and the buffer after it. -/
structure Decoded (α : Type) where
  result : α
  decoder : FrameDecoder
  buffer : Bytes

namespace FrameDecoder

def defaultLimit : Nat := 1048576

def isMidFrame (d : FrameDecoder) : Bool := d.awaiting.isSome

def checkLength (limit length : Nat) : Except RpcError Unit :=
  if length > limit then .error (.frameTooLarge length limit) else .ok ()

def split? (n : Nat) (buffer : Bytes) : Option (Bytes × Bytes) :=
  let head := buffer.take n
  if head.length = n then some (head, buffer.drop n) else none

/-- Takes the payload of this header, once all of it is in the buffer. -/
def payload (d : FrameDecoder) (header : Header) (buffer : Bytes) :
    Decoded (Except RpcError (Option Frame)) :=
  match split? header.payloadLength.toNat buffer with
  | some (payload, rest) => ⟨.ok (some ⟨header, payload⟩), { d with awaiting := none }, rest⟩
  | none => ⟨.ok none, { d with awaiting := some header }, buffer⟩

/-- Parses the header at the front of the buffer and checks its length. -/
def accept (limit : Nat) (buffer : Bytes) : Except RpcError Header := do
  let header ← Header.parse buffer
  checkLength limit header.payloadLength.toNat
  return header

/-- Takes the next frame from the buffer; `none` if more bytes are needed. -/
def decode (d : FrameDecoder) (buffer : Bytes) : Decoded (Except RpcError (Option Frame)) :=
  match d.awaiting with
  | some header => d.payload header buffer
  | none =>
    match split? Header.size buffer with
    | none => ⟨.ok none, d, buffer⟩
    | some (_, rest) =>
      match accept d.limit buffer with
      | .error e => ⟨.error e, d, buffer⟩
      | .ok header => d.payload header rest

/-- `decode` at the end of the stream, where bytes left over are an error. -/
def decodeEnd (d : FrameDecoder) (buffer : Bytes) : Decoded (Except RpcError (Option Frame)) :=
  match d.decode buffer with
  | ⟨.ok none, d, rest⟩ =>
    if rest.isEmpty then ⟨.ok none, d, rest⟩
    else ⟨.error (.io "bytes remaining on stream"), d, rest⟩
  | decoded => decoded

/-- The termination measure of `drain`. -/
def measure (d : FrameDecoder) (buffer : Bytes) : Nat :=
  2 * buffer.length + if d.awaiting.isSome then 1 else 0

theorem length_of_split? {n : Nat} {buffer head rest : Bytes}
    (h : split? n buffer = some (head, rest)) : rest.length + n = buffer.length := by
  simp only [split?] at h
  split at h
  · next hn =>
    simp only [Option.some.injEq, Prod.mk.injEq] at h
    rw [← h.2, List.length_drop]
    rw [List.length_take] at hn
    omega
  · simp at h

theorem payload_measure {d d' : FrameDecoder} {header : Header} {buffer rest : Bytes}
    {frame : Frame} (h : d.payload header buffer = ⟨.ok (some frame), d', rest⟩) :
    d'.measure rest ≤ 2 * buffer.length := by
  simp only [payload] at h
  split at h
  · next hs =>
    have := length_of_split? hs
    simp only [Decoded.mk.injEq] at h
    obtain ⟨-, rfl, rfl⟩ := h
    simp [measure]
    omega
  · simp at h

theorem decode_measure {d d' : FrameDecoder} {buffer rest : Bytes} {frame : Frame}
    (h : d.decode buffer = ⟨.ok (some frame), d', rest⟩) :
    d'.measure rest < d.measure buffer := by
  simp only [decode] at h
  split at h
  · next ha =>
    have := payload_measure h
    simp [measure, ha] at this ⊢
    omega
  · next ha =>
    split at h
    · simp at h
    · next hs =>
      have hl := length_of_split? hs
      split at h
      · simp at h
      · have := payload_measure h
        simp [measure, ha, Header.size] at this hl ⊢
        omega

/-- Calls `decode` until more bytes are needed or it fails. -/
def drain (d : FrameDecoder) (buffer : Bytes) : Decoded (List Frame × Option RpcError) :=
  match h : d.decode buffer with
  | ⟨.ok (some frame), d', rest⟩ =>
    have : d'.measure rest < d.measure buffer := decode_measure h
    let later := drain d' rest
    ⟨(frame :: later.result.1, later.result.2), later.decoder, later.buffer⟩
  | ⟨.ok none, d', rest⟩ => ⟨([], none), d', rest⟩
  | ⟨.error e, d', rest⟩ => ⟨([], some e), d', rest⟩
termination_by d.measure buffer

/-- Appends a frame to the output, unless its payload is above the limit. -/
def encode (limit : Nat) (output : Bytes) (header : Header) (payload : Bytes) :
    Except RpcError Unit × Bytes :=
  match checkLength limit payload.length with
  | .error e => (.error e, output)
  | .ok () => (.ok (), output ++ Frame.image header payload)

end FrameDecoder

end CallWire
