import CallWire.Proofs.Frame.Tail

/-!
# CallWire.Proofs.Frame.Runs — what can be done with a pipe, in any order

An attempt to decode takes a frame, asks for more bytes or refuses a header.  Which of these, and
what becomes of the bytes, is said once here for every decoder that waits for what it can wait for.
A run is a list of operations, with the frames that they take.
-/

namespace CallWire

namespace FrameDecoder

variable {d d' : FrameDecoder} {header : Header} {buffer rest : Bytes} {e : RpcError}

/-! ### What a decoder holds -/

/-- The bytes of the header whose payload is awaited. -/
def pending (d : FrameDecoder) : Bytes :=
  match d.awaiting with
  | some header => header.toBytes
  | none => []

/-- An awaited header is acceptable, and its payload is not empty. -/
def IsSound (d : FrameDecoder) : Prop :=
  ∀ header, d.awaiting = some header →
    1 ≤ header.payloadLength.toNat ∧ header.payloadLength.toNat ≤ d.limit

/-- The buffer does not hold the payload that is awaited, or a header if none is. -/
def IsStarved (d : FrameDecoder) (buffer : Bytes) : Prop :=
  match d.awaiting with
  | some header => buffer.length < header.payloadLength.toNat
  | none => buffer.length < Header.size

theorem isSound_of_awaiting (h : d.awaiting = none) : d.IsSound := by
  intro header hsome
  rw [h] at hsome
  cases hsome

theorem IsStarved.short (h : d.IsStarved buffer) (hd : d.awaiting = none) :
    buffer.length < Header.size := by
  unfold IsStarved at h
  rwa [hd] at h

theorem IsStarved.cut (h : d.IsStarved buffer) (hd : d.awaiting = some header) :
    buffer.length < header.payloadLength.toNat := by
  unfold IsStarved at h
  rwa [hd] at h

theorem IsStarved.length_le (h : d.IsStarved buffer) (hd : d.IsSound) :
    buffer.length ≤ max 12 (d.limit - 1) := by
  rcases hawaiting : d.awaiting with _ | header
  · have hshort := h.short hawaiting
    have hsize : Header.size = 13 := rfl
    omega
  · have hcut := h.cut hawaiting
    have hle := (hd header hawaiting).2
    omega

/-! ### One attempt -/

theorem payload_cases (d : FrameDecoder) (header : Header) (buffer : Bytes) :
    (∃ payload rest, payload.length = header.payloadLength.toNat ∧ payload ++ rest = buffer ∧
        d.payload header buffer =
          ⟨.ok (some ⟨header, payload⟩), { d with awaiting := none }, rest⟩) ∨
      (buffer.length < header.payloadLength.toNat ∧
        d.payload header buffer = ⟨.ok none, { d with awaiting := some header }, buffer⟩) := by
  by_cases hlength : header.payloadLength.toNat ≤ buffer.length
  · refine .inl ⟨_, _, List.length_take_of_le hlength, List.take_append_drop _ _, ?_⟩
    unfold payload
    rw [split?_of_le hlength]
  · refine .inr ⟨Nat.not_le.mp hlength, ?_⟩
    unfold payload
    rw [split?_of_lt (Nat.not_le.mp hlength)]

/-- `decode` fails only between two frames, at a header that is complete and not acceptable, and
changes nothing. -/
theorem decode_eq_error (h : d.decode buffer = ⟨.error e, d', rest⟩) :
    d.awaiting = none ∧ Header.size ≤ buffer.length ∧ accept d.limit buffer = .error e ∧
      d' = d ∧ rest = buffer := by
  cases hawaiting : d.awaiting with
  | some header =>
    rw [decode_awaiting hawaiting] at h
    rcases d.payload_cases header buffer with ⟨_, _, -, -, heq⟩ | ⟨-, heq⟩
    · rw [heq] at h
      cases h
    · rw [heq] at h
      cases h
  | none =>
    by_cases hsize : Header.size ≤ buffer.length
    · have hsplit := split?_of_le hsize
      cases haccept : accept d.limit buffer with
      | error e' =>
        rw [decode_refused hawaiting hsplit haccept] at h
        obtain ⟨he, rfl, rfl⟩ := Decoded.mk.inj h
        obtain rfl := Except.error.inj he
        exact ⟨rfl, hsize, rfl, rfl, rfl⟩
      | ok header =>
        rw [decode_accepted hawaiting hsplit haccept] at h
        rcases d.payload_cases header (buffer.drop Header.size) with ⟨_, _, -, -, heq⟩ | ⟨-, heq⟩
        · rw [heq] at h
          cases h
        · rw [heq] at h
          cases h
    · rw [decode_short hawaiting (split?_of_lt (Nat.not_le.mp hsize))] at h
      cases h

theorem payload_conserves (header : Header) (hle : header.payloadLength.toNat ≤ d.limit)
    (buffer : Bytes) :
    (∃ (frame : Frame) (rest : Bytes),
        d.payload header buffer = ⟨.ok (some frame), { d with awaiting := none }, rest⟩ ∧
        header.toBytes ++ buffer = Frame.image frame.header frame.payload ++ rest) ∨
      ∃ d' : FrameDecoder, d.payload header buffer = ⟨.ok none, d', buffer⟩ ∧
        d'.limit = d.limit ∧ d'.IsSound ∧ d'.IsStarved buffer ∧ d'.pending = header.toBytes := by
  rcases d.payload_cases header buffer with ⟨payload, rest, hlength, hbytes, heq⟩ | ⟨hlt, heq⟩
  · refine .inl ⟨_, _, heq, ?_⟩
    -- The header told the length of the payload already.
    have harrived : Frame.of header payload = ⟨header, payload⟩ :=
      Frame.arrived_eq (f := ⟨header, payload⟩) hlength
    unfold Frame.image
    rw [harrived, ← hbytes]
    exact (List.append_assoc _ _ _).symm
  · refine .inr ⟨_, heq, rfl, ?_, hlt, rfl⟩
    intro awaited hawaited
    obtain rfl := Option.some.inj hawaited
    have hpos : 1 ≤ header.payloadLength.toNat := by omega
    exact ⟨hpos, hle⟩

/-- **The cases of `decode`.**  A frame is taken; or none is, and the decoder waits for more bytes;
or a header is refused, and nothing changes.  No byte is lost. -/
theorem decode_cases (hd : d.IsSound) (buffer : Bytes) :
    (∃ (frame : Frame) (rest : Bytes),
        d.decode buffer = ⟨.ok (some frame), { d with awaiting := none }, rest⟩ ∧
        d.pending ++ buffer = Frame.image frame.header frame.payload ++ rest) ∨
      (∃ (d' : FrameDecoder) (rest : Bytes), d.decode buffer = ⟨.ok none, d', rest⟩ ∧
        d'.limit = d.limit ∧ d'.IsSound ∧ d'.IsStarved rest ∧
        d.pending ++ buffer = d'.pending ++ rest) ∨
      ∃ e, d.decode buffer = ⟨.error e, d, buffer⟩ := by
  cases hawaiting : d.awaiting with
  | some header =>
    rw [decode_awaiting hawaiting]
    have hpending : d.pending = header.toBytes := by
      unfold pending
      rw [hawaiting]
    rw [hpending]
    rcases d.payload_conserves header (hd header hawaiting).2 buffer with
      hframe | ⟨d', heq, hlimit, hsound, hstarved, hbytes⟩
    · exact .inl hframe
    · exact .inr (.inl ⟨d', buffer, heq, hlimit, hsound, hstarved, by rw [hbytes]⟩)
  | none =>
    have hpending : d.pending = [] := by
      unfold pending
      rw [hawaiting]
    rw [hpending, List.nil_append]
    by_cases hsize : Header.size ≤ buffer.length
    · have hsplit := split?_of_le hsize
      cases haccept : accept d.limit buffer with
      | error e => exact .inr (.inr ⟨e, decode_refused hawaiting hsplit haccept⟩)
      | ok header =>
        rw [decode_accepted hawaiting hsplit haccept]
        obtain ⟨hparse, hle⟩ := payloadLength_le_of_accept haccept
        -- The thirteen bytes that were read are those of the header.
        have hbuffer : buffer = header.toBytes ++ buffer.drop Header.size := by
          rw [(Header.toBytes_of_parse hparse).1, List.take_append_drop]
        rcases d.payload_conserves header hle (buffer.drop Header.size) with
          ⟨frame, rest, heq, hbytes⟩ | ⟨d', heq, hlimit, hsound, hstarved, hbytes⟩
        · exact .inl ⟨frame, rest, heq, hbuffer.trans hbytes⟩
        · exact .inr (.inl ⟨d', _, heq, hlimit, hsound, hstarved, by rw [hbytes]; exact hbuffer⟩)
    · have hlt := Nat.not_le.mp hsize
      refine .inr (.inl ⟨d, buffer, decode_short hawaiting (split?_of_lt hlt), rfl, hd, ?_, ?_⟩)
      · unfold IsStarved
        rw [hawaiting]
        exact hlt
      · rw [hpending, List.nil_append]

end FrameDecoder

namespace FramePipe

/-! ### Runs of operations -/

inductive Operation
  | feed (bs : Bytes)
  | decode
  | decodeEnd
  | drain
  | encode (header : Header) (payload : Bytes)
  deriving DecidableEq, Repr

def Operation.bytes : Operation → Bytes
  | feed bs => bs
  | _ => []

def Operation.isEncode : Operation → Bool
  | encode _ _ => true
  | _ => false

def taken : Except RpcError (Option Frame) → List Frame
  | .ok (some frame) => [frame]
  | _ => []

def perform (p : FramePipe) : Operation → List Frame × FramePipe
  | .feed bs => ([], p.feed bs)
  | .decode => (taken p.decode.1, p.decode.2)
  | .decodeEnd => (taken p.decodeEnd.1, p.decodeEnd.2)
  | .drain => (p.drain.1.1, p.drain.2)
  | .encode header payload => ([], (p.encode header payload).2)

def run (p : FramePipe) : List Operation → List Frame × FramePipe
  | [] => ([], p)
  | op :: ops =>
    ((p.perform op).1 ++ ((p.perform op).2.run ops).1, ((p.perform op).2.run ops).2)

def fed (ops : List Operation) : Bytes := ops.flatMap Operation.bytes

@[simp] theorem fed_nil : fed [] = [] := rfl

@[simp] theorem fed_cons (op : Operation) (ops : List Operation) :
    fed (op :: ops) = op.bytes ++ fed ops := rfl

theorem perform_decodeEnd (p : FramePipe) : p.perform .decodeEnd = p.perform .decode := by
  show (taken p.decodeEnd.1, p.decodeEnd.2) = (taken p.decode.1, p.decode.2)
  unfold decodeEnd decode FrameDecoder.decodeEnd
  rcases p.decoder.decode p.inbound with ⟨_ | _ | frame, d, rest⟩
  · rfl
  · cases rest with
    | nil => rfl
    | cons b rest => rfl
  · rfl

end FramePipe

end CallWire
