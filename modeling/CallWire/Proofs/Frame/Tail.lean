import CallWire.Proofs.Frame.Image

/-!
# CallWire.Proofs.Frame.Tail — what a stream of frames can end in

Behind the frames of a byte stream there is a frame that does not come to its end, or none, or else
a header that is refused, with whatever follows it.  Every byte stream falls apart in this way.
-/

namespace CallWire

namespace Header

variable {h : Header} {bs : Bytes}

theorem ofNat_word (h : bs.length = 4) :
    Bytes.ofNat 4 (UInt32.ofNat (Bytes.toNat bs)).toNat = bs := by
  have hlt := Bytes.toNat_lt bs
  rw [h] at hlt
  have hword : (UInt32.ofNat (Bytes.toNat bs)).toNat = Bytes.toNat bs := Nat.mod_eq_of_lt hlt
  rw [hword, ← h]
  exact Bytes.ofNat_toNat bs

theorem toBytes_of_parse (hparse : parse bs = .ok h) :
    h.toBytes = bs.take size ∧ flagError? h.flags = none := by
  unfold parse at hparse
  dsimp only at hparse
  split at hparse
  · cases hparse
  next hlength =>
  have hsize : (bs.take size).length = 13 :=
    Nat.le_antisymm (List.length_take_le _ _) (Nat.not_lt.mp hlength)
  -- From here on only the first thirteen bytes count.
  generalize bs.take size = head at hparse hsize ⊢
  cases hflags : flagError? (head.getD 8 0) with
  | some e =>
    rw [hflags] at hparse
    cases hparse
  | none =>
    rw [hflags] at hparse
    obtain rfl := (Except.ok.inj hparse).symm
    refine ⟨?_, hflags⟩
    have hword (i : Nat) (hi : i + 4 ≤ 13) : ((head.drop i).take 4).length = 4 := by
      rw [List.length_take, List.length_drop, hsize]
      omega
    have hflag : [head.getD 8 0] = (head.drop 8).take 1 := by
      rw [List.getD_eq_getElem?_getD, List.getElem?_eq_getElem (by omega),
        List.drop_eq_getElem_cons (by omega)]
      rfl
    unfold toBytes
    dsimp only
    rw [ofNat_word (hword 0 (by omega)), ofNat_word (hword 4 (by omega)),
      ofNat_word (hword 9 (by omega)), hflag]
    calc ((head.drop 0).take 4 ++ (head.drop 4).take 4 ++ (head.drop 8).take 1 ++
          (head.drop 9).take 4)
        = (head.drop 0).take (4 + 4 + 1 + 4) := by
          rw [List.take_add, List.take_add, List.take_add, List.drop_drop, List.drop_drop,
            List.drop_drop]
      _ = head := by
          rw [List.drop_zero]
          exact List.take_of_length_le (by omega)

end Header

namespace FrameDecoder

variable {limit : Nat} {header : Header} {buffer : Bytes}

theorem split?_of_le {n : Nat} (h : n ≤ buffer.length) :
    split? n buffer = some (buffer.take n, buffer.drop n) :=
  if_pos (List.length_take_of_le h)

theorem split?_of_lt {n : Nat} (h : buffer.length < n) : split? n buffer = none := by
  refine if_neg fun hlength => ?_
  have hle := List.length_take_le' n buffer
  omega

theorem payloadLength_le_of_accept (h : accept limit buffer = .ok header) :
    Header.parse buffer = .ok header ∧ header.payloadLength.toNat ≤ limit := by
  cases hparse : Header.parse buffer with
  | error e =>
    unfold accept at h
    rw [hparse] at h
    cases h
  | ok parsed =>
    by_cases hl : parsed.payloadLength.toNat ≤ limit
    · obtain rfl := Except.ok.inj ((accept_eq_ok hparse hl).symm.trans h)
      exact ⟨rfl, hl⟩
    · cases (accept_eq_error hparse (Nat.not_le.mp hl)).symm.trans h

theorem drain_of_cut (haccept : accept limit buffer = .ok header)
    (hsize : Header.size ≤ buffer.length)
    (hcut : buffer.length < Header.size + header.payloadLength.toNat) :
    (mk limit none).drain buffer =
      ⟨([], none), ⟨limit, some header⟩, buffer.drop Header.size⟩ := by
  have hless : (buffer.drop Header.size).length < header.payloadLength.toNat := by
    rw [List.length_drop]
    omega
  have hdecode := decode_accepted (d := ⟨limit, none⟩) rfl (split?_of_le hsize) haccept
  unfold payload at hdecode
  rw [split?_of_lt hless] at hdecode
  exact drain_of_none hdecode

end FrameDecoder

namespace Frame

/-- What is left of a stream behind its frames, with the error that decoding it results in. -/
inductive IsTail (limit : Nat) (rest : Bytes) : Option RpcError → Prop
  | short (h : rest.length < Header.size) : IsTail limit rest none
  | cut {header : Header} (haccept : FrameDecoder.accept limit rest = .ok header)
      (h : rest.length < Header.size + header.payloadLength.toNat) : IsTail limit rest none
  | refused {e : RpcError} (hlength : Header.size ≤ rest.length)
      (h : FrameDecoder.accept limit rest = .error e) : IsTail limit rest (some e)

variable {limit : Nat} {rest : Bytes} {error : Option RpcError} {frames : List Frame}

theorem IsTail.drain (h : IsTail limit rest error) :
    ((FrameDecoder.mk limit none).drain rest).result = ([], error) := by
  cases h with
  | short h =>
    rw [FrameDecoder.drain_of_none (FrameDecoder.decode_short rfl (FrameDecoder.split?_of_lt h))]
  | @cut header haccept h =>
    by_cases hshort : rest.length < Header.size
    · rw [FrameDecoder.drain_of_none
        (FrameDecoder.decode_short rfl (FrameDecoder.split?_of_lt hshort))]
    · rw [FrameDecoder.drain_of_cut haccept (Nat.not_lt.mp hshort) h]
  | refused hlength h =>
    have hsplit := FrameDecoder.split?_of_le hlength
    rw [FrameDecoder.drain_of_error (FrameDecoder.decode_refused (d := ⟨limit, none⟩) rfl hsplit h)]

theorem drain_stream_append (hl : limit < UInt32.size) (hf : ∀ f ∈ frames, f.IsSendable limit)
    (h : IsTail limit rest error) :
    ((FrameDecoder.mk limit none).drain (stream frames ++ rest)).result =
      (frames.map arrived, error) := by
  rw [FrameDecoder.drain_stream_behind hl hf rest]
  unfold Decoded.behind
  rw [h.drain, List.append_nil]

theorem exists_toBytes_of_accept {header : Header} {bs : Bytes}
    (haccept : FrameDecoder.accept limit bs = .ok header)
    (h : Header.size + header.payloadLength.toNat ≤ bs.length) :
    ∃ (f : Frame) (rest : Bytes), f.IsWhole limit ∧ bs = f.toBytes ++ rest ∧
      rest.length < bs.length := by
  obtain ⟨hparse, hle⟩ := FrameDecoder.payloadLength_le_of_accept haccept
  obtain ⟨hbytes, hflags⟩ := Header.toBytes_of_parse hparse
  have hlength : ((bs.drop Header.size).take header.payloadLength.toNat).length =
      header.payloadLength.toNat := by
    refine List.length_take_of_le ?_
    rw [List.length_drop]
    omega
  refine ⟨⟨header, (bs.drop Header.size).take header.payloadLength.toNat⟩,
    bs.drop (Header.size + header.payloadLength.toNat), ⟨⟨hflags, hle⟩, hlength⟩, ?_, ?_⟩
  · unfold toBytes
    rw [hbytes, List.append_assoc, ← List.drop_drop, List.take_append_drop, List.take_append_drop]
  · have hsize : 0 < Header.size := by decide
    rw [List.length_drop]
    omega

theorem exists_flatMap_toBytes (limit : Nat) (bs : Bytes) :
    ∃ (frames : List Frame) (rest : Bytes) (error : Option RpcError),
    bs = frames.flatMap toBytes ++ rest ∧ (∀ f ∈ frames, f.IsWhole limit) ∧
      IsTail limit rest error := by
  induction hn : bs.length using Nat.strong_induction_on generalizing bs with
  | _ n ih =>
  by_cases hshort : bs.length < Header.size
  · exact ⟨[], bs, none, rfl, nofun, .short hshort⟩
  cases haccept : FrameDecoder.accept limit bs with
  | error e => exact ⟨[], bs, some e, rfl, nofun, .refused (Nat.not_lt.mp hshort) haccept⟩
  | ok header =>
    by_cases hcut : bs.length < Header.size + header.payloadLength.toNat
    · exact ⟨[], bs, none, rfl, nofun, .cut haccept hcut⟩
    · obtain ⟨f, behind, hwhole, hbs, hless⟩ :=
        exists_toBytes_of_accept haccept (Nat.not_lt.mp hcut)
      obtain ⟨frames, rest, error, hbehind, hf, htail⟩ := ih _ (hn ▸ hless) behind rfl
      refine ⟨f :: frames, rest, error, ?_, ?_, htail⟩
      · rw [hbs, hbehind, List.flatMap_cons, List.append_assoc]
      · intro g hmem
        rcases List.mem_cons.mp hmem with rfl | hmem
        · exact hwhole
        · exact hf g hmem

/-- **Every byte string is one of frames and such a rest.** -/
theorem exists_stream (limit : Nat) (bs : Bytes) : ∃ frames rest error,
    bs = stream frames ++ rest ∧ (∀ f ∈ frames, f.IsSendable limit) ∧ IsTail limit rest error := by
  obtain ⟨frames, rest, error, hbs, hf, htail⟩ := exists_flatMap_toBytes limit bs
  rw [← IsWhole.stream_eq hf] at hbs
  exact ⟨frames, rest, error, hbs, fun f hmem => (hf f hmem).isSendable, htail⟩

end Frame

end CallWire
