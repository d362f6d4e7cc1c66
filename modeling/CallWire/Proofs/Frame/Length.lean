import CallWire.Proofs.Frame.Headers

/-!
# CallWire.Proofs.Frame.Length — the length that a frame tells

The length of a payload is written in 32 bits, whatever it is, and only the limit is compared with
it.  Up to where 32 bits go the length that is told is that of the payload, so that a decoder of the
same limit takes the frame as it was sent.  The flags are looked at on the way in only: a frame
whose flags do not go together is sent, and refused where it arrives.
-/

namespace CallWire

namespace Frame

theorem drop_image (h : Header) (payload : Bytes) :
    (image h payload).drop Header.size = payload :=
  List.drop_left' (Header.length_toBytes _)

theorem toNat_lengthField (h : Header) (payload : Bytes) :
    Bytes.toNat (((image h payload).drop 9).take 4) = payload.length % UInt32.size := by
  have hnumbers : (Bytes.ofNat 4 h.command.toNat ++ Bytes.ofNat 4 h.sequence.toNat ++
      [h.flags]).length = 9 := by simp
  have himage : image h payload = (Bytes.ofNat 4 h.command.toNat ++
      Bytes.ofNat 4 h.sequence.toNat ++ [h.flags]) ++
        (Bytes.ofNat 4 (UInt32.ofNat payload.length).toNat ++ payload) := List.append_assoc _ _ _
  rw [himage, List.drop_left' hnumbers, List.take_left' (Bytes.length_ofNat 4 _),
    Bytes.toNat_ofNat (by exact (UInt32.ofNat payload.length).toNat_lt)]
  exact UInt32.toNat_ofNat

end Frame

namespace FrameDecoder

variable {limit : Nat} {output written : Bytes} {h : Header} {payload : Bytes}

theorem encode_eq_ok_iff :
    encode limit output h payload = (.ok (), written) ↔
      payload.length ≤ limit ∧ written = output ++ Frame.image h payload := by
  unfold encode checkLength
  by_cases hl : limit < payload.length
  · simp [hl, Nat.not_le.mpr hl]
  · simp [hl, Nat.not_lt.mp hl, eq_comm]

theorem decode_improper (himproper : ¬ Flag.IsProper h.flags) (rest : Bytes) :
    ∃ detail, (mk limit none).decode (h.toBytes ++ rest) =
      ⟨.error (.malformedFrame detail), ⟨limit, none⟩, h.toBytes ++ rest⟩ := by
  obtain ⟨detail, hparse⟩ := Header.parse_improper himproper rest
  have haccept : accept limit (h.toBytes ++ rest) = .error (.malformedFrame detail) := by
    unfold accept
    rw [hparse]
    rfl
  exact ⟨detail, decode_refused (d := ⟨limit, none⟩) rfl
    (split?_append_left (Header.length_toBytes h)) haccept⟩

/-- **A frame tells the length of its payload.**  Let the payload have a length that 32 bits can
tell, under whatever limit.  Then the frame made of it tells this length in its header, and in the
four bytes in front of the payload when it is written.  It is sent exactly if the payload is within
the limit.  If its flags go together, a decoder of the same limit takes from the bytes that were
sent this frame with this payload, and nothing but them; otherwise it refuses them. -/
theorem encode_tells_length (limit : Nat) (output : Bytes) (f : Frame)
    (hlength : f.payload.length < UInt32.size) :
    let sent := Frame.of f.header f.payload
    let image := Frame.image f.header f.payload
    (sent = ⟨{ f.header with payloadLength := sent.header.payloadLength }, f.payload⟩ ∧
      sent.header.payloadLength.toNat = f.payload.length) ∧
    (image.drop 13 = f.payload ∧ Bytes.toNat ((image.drop 9).take 4) = f.payload.length) ∧
    ((∃ written, encode limit output f.header f.payload = (.ok (), written)) ↔
      f.payload.length ≤ limit) ∧
    ∀ written, encode limit output f.header f.payload = (.ok (), written) →
      written = output ++ image ∧ ∀ rest,
        (Flag.IsProper f.header.flags → (mk limit none).decode (image ++ rest) =
          ⟨.ok (some sent), ⟨limit, none⟩, rest⟩) ∧
        (¬ Flag.IsProper f.header.flags → ∃ detail, (mk limit none).decode (image ++ rest) =
          ⟨.error (.malformedFrame detail), ⟨limit, none⟩, image ++ rest⟩) := by
  intro sent image
  refine ⟨⟨rfl, Frame.toNat_payloadLength_of hlength⟩, ⟨Frame.drop_image _ _, ?_⟩, ?_, ?_⟩
  · rw [Frame.toNat_lengthField, Nat.mod_eq_of_lt hlength]
  · simp only [encode_eq_ok_iff, exists_and_left, exists_eq, and_true]
  · intro written hencode
    obtain ⟨hle, hwritten⟩ := encode_eq_ok_iff.mp hencode
    refine ⟨hwritten, fun rest => ⟨fun hproper => ?_, fun himproper => ?_⟩⟩
    · have hflags := Header.flagError?_eq_none_iff.mpr hproper
      exact Frame.decode_toBytes (Frame.isWhole_of hflags hle hlength) rest
    · have himage : image ++ rest = sent.header.toBytes ++ (f.payload ++ rest) :=
        sent.toBytes_append rest
      rw [himage]
      exact decode_improper (h := sent.header) himproper _

/-- Two bytes behind what was sent before, under a header that tells another length. -/
theorem encode_tells_length_pair :
    let f : Frame := ⟨⟨7, 1, Flag.reply.bit, 99⟩, [9, 8]⟩
    f.payload.length < UInt32.size ∧
      (encode 4 [5] f.header f.payload).1 = .ok () ∧
      (mk 4 none).decode ((encode 4 [5] f.header f.payload).2.drop 1) =
        ⟨.ok (some ⟨⟨7, 1, Flag.reply.bit, 2⟩, [9, 8]⟩), ⟨4, none⟩, []⟩ := by
  intro f
  have hlength : f.payload.length < UInt32.size := by decide
  have hproper : Flag.IsProper f.header.flags := by
    unfold Flag.IsProper
    decide
  obtain ⟨-, -, hsent, hwritten⟩ := encode_tells_length 4 [5] f hlength
  obtain ⟨written, hencode⟩ := hsent.mpr (by decide)
  obtain ⟨hbytes, hdecode⟩ := hwritten written hencode
  have htaken := (hdecode []).1 hproper
  rw [List.append_nil] at htaken
  rw [hencode, hbytes]
  exact ⟨hlength, rfl, htaken⟩

/-- A reply that declines to be answered is sent, and refused by a decoder of the same limit; and a
payload of one byte more than 32 bits can tell the length of is sent with a header that tells that
there is none. -/
theorem encode_misleads :
    (∃ written, encode 4 [] ⟨1, 1, Flag.reply.bit ||| Flag.noReply.bit, 0⟩ [] = (.ok (), written) ∧
      (mk 4 none).decode written =
        ⟨.error (.malformedFrame "reply frame carries the no-reply flag"), ⟨4, none⟩, written⟩) ∧
    ∃ (payload : Bytes) (written : Bytes), payload.length = UInt32.size ∧
      encode UInt32.size [] ⟨1, 1, 0, 0⟩ payload = (.ok (), written) ∧
      Bytes.toNat ((written.drop 9).take 4) = 0 := by
  constructor
  · refine ⟨Frame.image ⟨1, 1, Flag.reply.bit ||| Flag.noReply.bit, 0⟩ [],
      encode_eq_ok_iff.mpr ⟨by decide, rfl⟩, ?_⟩
    exact decode_refused (d := ⟨4, none⟩) rfl (split?_of_le (by decide)) (by rfl)
  · have hlength : (List.replicate UInt32.size (0 : UInt8)).length = UInt32.size :=
      List.length_replicate
    refine ⟨List.replicate UInt32.size 0, _, hlength,
      encode_eq_ok_iff.mpr ⟨Nat.le_of_eq hlength, rfl⟩, ?_⟩
    rw [List.nil_append, Frame.toNat_lengthField, hlength, Nat.mod_self]

end FrameDecoder

end CallWire
