import CallWire.Proofs.Bytes
import CallWire.Proofs.Frame.Fragmentation

/-!
# CallWire.Proofs.Frame.Image — a frame is taken off the stream as it was put on it

The thirteen bytes of a header say everything in it, and a decoder with room for the payload takes
the frame, and nothing but the frame, off any stream that begins with it.
-/

namespace CallWire

/-! ### Headers -/

namespace Header

variable {h : Header}

@[simp] theorem length_toBytes (h : Header) : h.toBytes.length = size := by
  simp [toBytes, size]

theorem word_ofNat_toNat (n : UInt32) : UInt32.ofNat (Bytes.toNat (Bytes.ofNat 4 n.toNat)) = n := by
  rw [Bytes.toNat_ofNat (by exact n.toNat_lt)]
  exact UInt32.ofNat_toNat

theorem parse_toBytes (hf : flagError? h.flags = none) (rest : Bytes) :
    parse (h.toBytes ++ rest) = .ok h := by
  have htake : (h.toBytes ++ rest).take size = h.toBytes := List.take_left' (length_toBytes h)
  have hflags : h.toBytes.getD 8 0 = h.flags := by simp [toBytes]
  have hcommand : (h.toBytes.drop 0).take 4 = Bytes.ofNat 4 h.command.toNat := by simp [toBytes]
  have hsequence : (h.toBytes.drop 4).take 4 = Bytes.ofNat 4 h.sequence.toNat := by simp [toBytes]
  have hlength : (h.toBytes.drop 9).take 4 = Bytes.ofNat 4 h.payloadLength.toNat := by
    unfold toBytes
    rw [List.drop_left' (by simp), List.take_of_length_le (by simp)]
  unfold parse
  simp only [htake, length_toBytes, lt_irrefl, if_false, hflags, hf, hcommand, hsequence, hlength,
    word_ofNat_toNat]

/-! ### The headers that a connection writes -/

section Written

variable (command sequence : UInt32)

theorem kind_request : (request command sequence).kind = .request := by
  have hreply : Flag.reply.isIn 0 = false := by decide
  have hnoReply : Flag.noReply.isIn 0 = false := by decide
  simp [kind, request, hreply, hnoReply]

theorem kind_oneWay : (oneWay command sequence).kind = .oneWay := by
  have hreply : Flag.reply.isIn Flag.noReply.bit = false := by decide
  have hnoReply : Flag.noReply.isIn Flag.noReply.bit = true := by decide
  simp [kind, oneWay, hreply, hnoReply]

theorem kind_reply : (reply command sequence).kind = .reply := by
  have hreply : Flag.reply.isIn Flag.reply.bit = true := by decide
  have herror : Flag.error.isIn Flag.reply.bit = false := by decide
  simp [kind, reply, hreply, herror]

theorem kind_errorReply : (errorReply command sequence).kind = .errorReply := by
  have hreply : Flag.reply.isIn (Flag.reply.bit ||| Flag.error.bit) = true := by decide
  have herror : Flag.error.isIn (Flag.reply.bit ||| Flag.error.bit) = true := by decide
  simp [kind, errorReply, hreply, herror]

theorem isIn_error_request : Flag.error.isIn (request command sequence).flags = false := by
  show Flag.error.isIn 0 = false
  decide

theorem flagError?_request : flagError? (request command sequence).flags = none := by
  show flagError? 0 = none
  decide

theorem flagError?_oneWay : flagError? (oneWay command sequence).flags = none := by
  show flagError? Flag.noReply.bit = none
  decide

theorem flagError?_reply : flagError? (reply command sequence).flags = none := by
  show flagError? Flag.reply.bit = none
  decide

theorem flagError?_errorReply : flagError? (errorReply command sequence).flags = none := by
  show flagError? (Flag.reply.bit ||| Flag.error.bit) = none
  decide

end Written

end Header

/-! ### Frames -/

theorem FrameDecoder.accept_eq_ok {h : Header} {buffer : Bytes} {limit : Nat}
    (hparse : Header.parse buffer = .ok h) (hl : h.payloadLength.toNat ≤ limit) :
    accept limit buffer = .ok h := by
  have hcheck : checkLength limit h.payloadLength.toNat = .ok () := if_neg (Nat.not_lt.mpr hl)
  unfold accept
  rw [hparse]
  show (do checkLength limit h.payloadLength.toNat; return h : Except RpcError Header) = .ok h
  rw [hcheck]
  rfl

theorem FrameDecoder.accept_eq_error {h : Header} {buffer : Bytes} {limit : Nat}
    (hparse : Header.parse buffer = .ok h) (hl : limit < h.payloadLength.toNat) :
    accept limit buffer = .error (.frameTooLarge h.payloadLength.toNat limit) := by
  have hcheck : checkLength limit h.payloadLength.toNat =
      .error (.frameTooLarge h.payloadLength.toNat limit) := if_pos hl
  unfold accept
  rw [hparse]
  show (do checkLength limit h.payloadLength.toNat; return h : Except RpcError Header) = _
  rw [hcheck]
  rfl

/-- A decoder of this limit accepts the header. -/
structure Header.IsAcceptable (limit : Nat) (h : Header) : Prop where
  flags : flagError? h.flags = none
  length_le : h.payloadLength.toNat ≤ limit

theorem Header.IsAcceptable.accept_toBytes {h : Header} {limit : Nat} (hh : h.IsAcceptable limit)
    (rest : Bytes) : FrameDecoder.accept limit (h.toBytes ++ rest) = .ok h :=
  FrameDecoder.accept_eq_ok (parse_toBytes hh.flags rest) hh.length_le

/-- A decoder of this limit accepts the header, and its length is that of the payload. -/
structure Frame.IsWhole (limit : Nat) (f : Frame) : Prop extends f.header.IsAcceptable limit where
  length_eq : f.payload.length = f.header.payloadLength.toNat

namespace Frame

variable {h : Header} {payload : Bytes} {limit : Nat}

theorem toNat_payloadLength_of (hp : payload.length < UInt32.size) :
    (of h payload).header.payloadLength.toNat = payload.length :=
  UInt32.toNat_ofNat_of_lt hp

theorem statusCode_errorReply (command sequence code : UInt32) :
    (errorReply command sequence code).statusCode = .ok code := by
  have hlength : (errorReply command sequence code).payload.length = 4 := Bytes.length_ofNat 4 _
  unfold statusCode
  rw [if_pos hlength]
  exact congrArg Except.ok (Header.word_ofNat_toNat code)

theorem toBytes_append (f : Frame) (rest : Bytes) :
    f.toBytes ++ rest = f.header.toBytes ++ (f.payload ++ rest) :=
  List.append_assoc _ _ _

theorem decode_toBytes {f : Frame} (h : f.IsWhole limit) (rest : Bytes) :
    (FrameDecoder.mk limit none).decode (f.toBytes ++ rest) =
      ⟨.ok (some f), ⟨limit, none⟩, rest⟩ := by
  have hbytes := f.toBytes_append rest
  have hsplit : FrameDecoder.split? Header.size (f.toBytes ++ rest) =
      some (f.header.toBytes, f.payload ++ rest) := by
    rw [hbytes]
    exact FrameDecoder.split?_append_left (Header.length_toBytes _)
  have haccept : FrameDecoder.accept limit (f.toBytes ++ rest) = .ok f.header := by
    rw [hbytes]
    exact h.toIsAcceptable.accept_toBytes _
  rw [FrameDecoder.decode_accepted (d := ⟨limit, none⟩) rfl hsplit haccept]
  unfold FrameDecoder.payload
  rw [FrameDecoder.split?_append_left h.length_eq]

theorem isWhole_of (hf : Header.flagError? h.flags = none) (hp : payload.length ≤ limit)
    (hl : payload.length < UInt32.size) : (of h payload).IsWhole limit where
  flags := hf
  length_le := (toNat_payloadLength_of hl).trans_le hp
  length_eq := (toNat_payloadLength_of hl).symm

theorem decode_image (hf : Header.flagError? h.flags = none) (hp : payload.length ≤ limit)
    (hl : limit < UInt32.size) (rest : Bytes) :
    (FrameDecoder.mk limit none).decode (image h payload ++ rest) =
      ⟨.ok (some (of h payload)), ⟨limit, none⟩, rest⟩ :=
  decode_toBytes (isWhole_of hf hp (Nat.lt_of_le_of_lt hp hl)) rest

theorem decode_image_too_large (hf : Header.flagError? h.flags = none)
    (hp : limit < payload.length) (hl : payload.length < UInt32.size) (rest : Bytes) :
    (FrameDecoder.mk limit none).decode (image h payload ++ rest) =
      ⟨.error (.frameTooLarge payload.length limit), ⟨limit, none⟩, image h payload ++ rest⟩ := by
  have hlength := toNat_payloadLength_of (h := h) hl
  have himage : image h payload ++ rest = (of h payload).header.toBytes ++ (payload ++ rest) := by
    simp [image, toBytes, of]
  have hsplit : FrameDecoder.split? Header.size (image h payload ++ rest) =
      some ((of h payload).header.toBytes, payload ++ rest) := by
    rw [himage]
    exact FrameDecoder.split?_append_left (Header.length_toBytes _)
  have hrefused : FrameDecoder.accept limit (image h payload ++ rest) =
      .error (.frameTooLarge payload.length limit) := by
    rw [himage, ← hlength]
    refine FrameDecoder.accept_eq_error (Header.parse_toBytes (h := (of h payload).header) hf _) ?_
    rw [hlength]
    exact hp
  exact FrameDecoder.decode_refused (d := ⟨limit, none⟩) rfl hsplit hrefused

end Frame

/-- The bytes of frames in a row. -/
def Frame.stream (frames : List Frame) : Bytes := frames.flatMap fun f => image f.header f.payload

/-- The frame is within the limit, and its flags are accepted. -/
structure Frame.IsSendable (limit : Nat) (f : Frame) : Prop where
  length_le : f.payload.length ≤ limit
  flags : Header.flagError? f.header.flags = none

/-- The frame with the length of its payload in its header. -/
def Frame.arrived (f : Frame) : Frame := of f.header f.payload

theorem Frame.arrived_eq {f : Frame} (h : f.payload.length = f.header.payloadLength.toNat) :
    f.arrived = f := by
  have hheader : f.header.withLength f.payload.length = f.header := by
    unfold Header.withLength
    rw [h, UInt32.ofNat_toNat]
  unfold arrived of
  rw [hheader]

namespace Frame.IsWhole

variable {limit : Nat} {f : Frame} {frames : List Frame}

theorem isSendable (h : f.IsWhole limit) : f.IsSendable limit where
  length_le := h.length_eq.trans_le h.length_le
  flags := h.flags

theorem stream_eq (hf : ∀ f ∈ frames, f.IsWhole limit) :
    stream frames = frames.flatMap toBytes := by
  have himages : ∀ f ∈ frames, image f.header f.payload = f.toBytes := fun f hmem =>
    congrArg toBytes (arrived_eq (hf f hmem).length_eq)
  unfold stream
  rw [List.flatMap_def, List.flatMap_def, List.map_congr_left himages]

end Frame.IsWhole

namespace FrameDecoder

variable {limit : Nat} {frames : List Frame}

theorem drain_flatMap_toBytes {frames : List Frame} (hf : ∀ f ∈ frames, f.IsWhole limit)
    (rest : Bytes) :
    (mk limit none).drain (frames.flatMap Frame.toBytes ++ rest) =
      ((mk limit none).drain rest).behind frames := by
  induction frames with
  | nil => rfl
  | cons f frames ih =>
    have hlater := ih fun g hg => hf g (List.mem_cons_of_mem f hg)
    rw [List.flatMap_cons, List.append_assoc,
      drain_of_frame (Frame.decode_toBytes (hf f List.mem_cons_self) _), hlater]
    rfl

theorem drain_stream_behind (hl : limit < UInt32.size) (hf : ∀ f ∈ frames, f.IsSendable limit)
    (rest : Bytes) :
    (mk limit none).drain (Frame.stream frames ++ rest) =
      ((mk limit none).drain rest).behind (frames.map Frame.arrived) := by
  have hwhole : ∀ f ∈ frames.map Frame.arrived, f.IsWhole limit := by
    intro f hmem
    obtain ⟨g, hg, rfl⟩ := List.mem_map.mp hmem
    have hle := (hf g hg).length_le
    exact Frame.isWhole_of (hf g hg).flags hle (Nat.lt_of_le_of_lt hle hl)
  have hstream : Frame.stream frames = (frames.map Frame.arrived).flatMap Frame.toBytes := by
    rw [List.flatMap_map]
    rfl
  rw [hstream]
  exact drain_flatMap_toBytes hwhole rest

end FrameDecoder

namespace FramePipe

variable {limit : Nat} {frames : List Frame}

theorem drain_stream (hl : limit < UInt32.size) (hf : ∀ f ∈ frames, f.IsSendable limit) :
    (FrameDecoder.mk limit none).drain (Frame.stream frames) =
      ⟨(frames.map Frame.arrived, none), ⟨limit, none⟩, []⟩ := by
  have hdrain := FrameDecoder.drain_stream_behind hl hf []
  have hnone : (FrameDecoder.mk limit none).drain [] = ⟨([], none), ⟨limit, none⟩, []⟩ :=
    FrameDecoder.drain_of_none rfl
  rw [List.append_nil, hnone] at hdrain
  rw [hdrain]
  unfold Decoded.behind
  rw [List.append_nil]

/-- Frames arrive in order, in whatever chunks their bytes arrive, and the pipe is empty again. -/
theorem drainChunks_stream (hl : limit < UInt32.size) (hf : ∀ f ∈ frames, f.IsSendable limit)
    {pieces : List Bytes} (hpieces : pieces.flatten = Frame.stream frames) :
    ((empty limit).drainChunks 0 pieces).1.map (·.2) = frames.map (.ok ·.arrived) ∧
      ((empty limit).drainChunks 0 pieces).2 = empty limit := by
  have hnone : (FrameDecoder.mk limit none).drain [] = ⟨([], none), ⟨limit, none⟩, []⟩ :=
    FrameDecoder.drain_of_none rfl
  have hdrain : (empty limit).decoder.drain ((empty limit).inbound ++ pieces.flatten) =
      ⟨(frames.map Frame.arrived, none), ⟨limit, none⟩, []⟩ := by
    rw [hpieces]
    exact drain_stream hl hf
  obtain ⟨hresults, hlast⟩ := drainChunks_eq_drain (p := empty limit) 0 pieces hnone
  rw [hdrain] at hresults hlast
  refine ⟨?_, hlast rfl⟩
  rw [hresults]
  simp [outcome]

theorem drainChunks_image {h : Header} {payload : Bytes} (hf : Header.flagError? h.flags = none)
    (hp : payload.length ≤ limit) (hl : limit < UInt32.size) {pieces : List Bytes}
    (hpieces : pieces.flatten = Frame.image h payload) :
    ((empty limit).drainChunks 0 pieces).1.map (·.2) = [.ok (Frame.of h payload)] ∧
      ((empty limit).drainChunks 0 pieces).2 = empty limit := by
  have hone : Frame.stream [⟨h, payload⟩] = Frame.image h payload := List.append_nil _
  have hsendable : ∀ f ∈ [Frame.mk h payload], f.IsSendable limit := by
    intro f hmem
    rw [List.mem_singleton.mp hmem]
    exact ⟨hp, hf⟩
  exact drainChunks_stream hl hsendable (hpieces.trans hone.symm)

/-! ### A list of frames from end to end -/

/-- Encodes frames one after the other. -/
def encodeAll (p : FramePipe) : List Frame → List (Except RpcError Unit) × FramePipe
  | [] => ([], p)
  | f :: frames =>
    let (result, p) := p.encode f.header f.payload
    let (results, p) := p.encodeAll frames
    (result :: results, p)

theorem encode_eq_ok {p : FramePipe} {f : Frame} (h : f.payload.length ≤ p.decoder.limit) :
    p.encode f.header f.payload =
      (.ok (), { p with outbound := p.outbound ++ Frame.image f.header f.payload }) := by
  have hcheck : FrameDecoder.checkLength p.decoder.limit f.payload.length = .ok () :=
    if_neg (Nat.not_lt.mpr h)
  unfold encode FrameDecoder.encode
  rw [hcheck]

theorem encodeAll_eq {p : FramePipe} (h : ∀ f ∈ frames, f.payload.length ≤ p.decoder.limit) :
    p.encodeAll frames = (frames.map fun _ => .ok (),
      { p with outbound := p.outbound ++ Frame.stream frames }) := by
  induction frames generalizing p with
  | nil => simp [encodeAll, Frame.stream]
  | cons f frames ih =>
    have hfirst := encode_eq_ok (h f List.mem_cons_self)
    have hrest := ih (p := { p with outbound := p.outbound ++ Frame.image f.header f.payload })
      fun g hg => h g (List.mem_cons_of_mem f hg)
    unfold encodeAll
    simp only [hfirst, hrest]
    simp [Frame.stream]

/-- **No frame is lost, doubled, reordered or altered on its way.**  Frames within the limit are all
sent, one image behind the other.  In whatever pieces these bytes arrive, a decoder of the same
limit takes exactly those frames from them, in order, each with the length of its payload in its
header, and is left between two frames with nothing in its buffer. -/
theorem drainChunks_encodeAll (limit : Nat) (hlimit : limit ≤ UInt32.size - 1)
    (frames : List Frame) (hframes : ∀ f ∈ frames, f.IsSendable limit) :
    ∃ sent : FramePipe,
      (empty limit).encodeAll frames = (frames.map fun _ => .ok (), sent) ∧
      sent.outbound = (frames.map fun f => Frame.image f.header f.payload).flatten ∧
      (∀ pieces : List Bytes, pieces.flatten = sent.outbound →
        ((empty limit).drainChunks 0 pieces).1.map (·.2) = frames.map (.ok ·.arrived) ∧
        ((empty limit).drainChunks 0 pieces).2 = empty limit) ∧
      ∀ f ∈ frames, f.arrived.payload = f.payload ∧
        f.arrived.header = { f.header with payloadLength := f.arrived.header.payloadLength } ∧
        f.arrived.header.payloadLength.toNat = f.payload.length := by
  have hlt : limit < UInt32.size := by
    have hpos : 0 < UInt32.size := by decide
    omega
  refine ⟨_, encodeAll_eq fun f hf => (hframes f hf).length_le, List.flatMap_def, ?_, ?_⟩
  · intro pieces hpieces
    exact drainChunks_stream hlt hframes hpieces
  · intro f hf
    have hlength : f.payload.length < UInt32.size := Nat.lt_of_le_of_lt (hframes f hf).length_le hlt
    exact ⟨rfl, rfl, Frame.toNat_payloadLength_of hlength⟩

/-- A reply and a one-way request without a payload, whose headers tell other lengths, travel byte
by byte. -/
theorem drainChunks_encodeAll_bytewise :
    let frames : List Frame := [⟨⟨7, 1, Flag.reply.bit, 99⟩, [9, 8]⟩, ⟨⟨3, 2, Flag.noReply.bit, 5⟩, []⟩]
    (∀ f ∈ frames, f.IsSendable 4) ∧
      ((empty 4).drainChunks 0 ((Frame.stream frames).map fun b => [b])).1.map (·.2) =
        [.ok ⟨⟨7, 1, Flag.reply.bit, 2⟩, [9, 8]⟩, .ok ⟨⟨3, 2, Flag.noReply.bit, 0⟩, []⟩] := by
  intro frames
  have hframes : ∀ f ∈ frames, f.IsSendable 4 := by
    intro f hf
    rcases List.mem_cons.mp hf with rfl | hf
    · exact ⟨by decide, by decide⟩
    · rw [List.mem_singleton.mp hf]
      exact ⟨by decide, by decide⟩
  obtain ⟨sent, -, hsent, hpieces, -⟩ := drainChunks_encodeAll 4 (by decide) frames hframes
  have hflatten : ((Frame.stream frames).map fun b => [b]).flatten = sent.outbound := by
    rw [hsent, ← List.flatMap_def, ← List.flatMap_def]
    exact List.flatMap_singleton' _
  exact ⟨hframes, (hpieces _ hflatten).1⟩

end FramePipe

end CallWire
