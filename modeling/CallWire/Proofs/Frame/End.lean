import CallWire.Proofs.Frame.Conservation

/-!
# CallWire.Proofs.Frame.End — what the end of a stream tells

At the end of a stream frames are taken until there are no more; bytes left over then are an error.
However the stream came in, and whatever was taken on the way, what comes of it depends on its bytes
alone.  So the end can be compared with what a fresh decoder makes of the whole stream: only whole
frames are taken, and what is left is the bytes behind them.  A header is consumed as soon as it is
there, so that a stream that ends right behind a header leaves nothing over.
-/

namespace CallWire

namespace Decoded

/-- A result with the error for bytes left over at the end of the stream. -/
def ended (r : Decoded (List Frame × Option RpcError)) : Decoded (List Frame × Option RpcError) :=
  match r.result.2 with
  | some _ => r
  | none =>
    if r.buffer.isEmpty then r
    else { r with result := (r.result.1, some (.io "bytes remaining on stream")) }

theorem ended_behind (r : Decoded (List Frame × Option RpcError)) (frames : List Frame) :
    (r.behind frames).ended = r.ended.behind frames := by
  unfold behind ended
  rcases r with ⟨⟨taken, _ | e⟩, d, _ | ⟨b, rest⟩⟩
  · rfl
  · rfl
  · rfl
  · rfl

theorem ended_eq_none_iff (r : Decoded (List Frame × Option RpcError)) :
    r.ended.result.2 = none ↔ r.result.2 = none ∧ r.buffer = [] := by
  unfold ended
  rcases r with ⟨⟨taken, _ | e⟩, d, _ | ⟨b, rest⟩⟩
  · simp
  · simp
  · simp
  · simp

end Decoded

namespace FrameDecoder

variable {d d' : FrameDecoder} {buffer rest : Bytes} {frame : Frame} {e : RpcError} {limit : Nat}

/-! ### Until the stream has ended -/

theorem decodeEnd_of_frame (h : d.decodeEnd buffer = ⟨.ok (some frame), d', rest⟩) :
    d.decode buffer = ⟨.ok (some frame), d', rest⟩ := by
  unfold decodeEnd at h
  rcases hdecode : d.decode buffer with ⟨_ | _ | taken, later, _ | ⟨b, left⟩⟩
  all_goals rw [hdecode] at h
  all_goals first | exact h | cases h

/-- Calls `decodeEnd` until there are no more frames or it fails. -/
def drainEnd (d : FrameDecoder) (buffer : Bytes) : Decoded (List Frame × Option RpcError) :=
  match h : d.decodeEnd buffer with
  | ⟨.ok (some frame), d', rest⟩ =>
    have : d'.measure rest < d.measure buffer := decode_measure (decodeEnd_of_frame h)
    (drainEnd d' rest).behind [frame]
  | ⟨.ok none, d', rest⟩ => ⟨([], none), d', rest⟩
  | ⟨.error e, d', rest⟩ => ⟨([], some e), d', rest⟩
termination_by d.measure buffer

theorem drainEnd_of_frame (h : d.decode buffer = ⟨.ok (some frame), d', rest⟩) :
    d.drainEnd buffer = (d'.drainEnd rest).behind [frame] := by
  have hend : d.decodeEnd buffer = ⟨.ok (some frame), d', rest⟩ := by
    unfold decodeEnd
    rw [h]
  rw [drainEnd]
  split
  · next h' =>
    rw [hend] at h'
    cases h'
    rfl
  all_goals
    next h' =>
    rw [hend] at h'
    cases h'

theorem drainEnd_of_none (h : d.decodeEnd buffer = ⟨.ok none, d', rest⟩) :
    d.drainEnd buffer = ⟨([], none), d', rest⟩ := by
  rw [drainEnd]
  split
  all_goals simp_all

theorem drainEnd_of_error (h : d.decodeEnd buffer = ⟨.error e, d', rest⟩) :
    d.drainEnd buffer = ⟨([], some e), d', rest⟩ := by
  rw [drainEnd]
  split
  all_goals simp_all

theorem drainEnd_eq (d : FrameDecoder) (buffer : Bytes) :
    d.drainEnd buffer = (d.drain buffer).ended := by
  induction d, buffer using drain.induct with
  | case1 d buffer frame d' rest h _ ih =>
    rw [drainEnd_of_frame h, ih, drain_of_frame h]
    exact (Decoded.ended_behind (d'.drain rest) [frame]).symm
  | case2 d buffer d' rest h =>
    rw [drain_of_none h]
    -- At the end of the stream, what is left behind the last frame is an error, and nothing left is
    -- none.
    cases rest with
    | nil =>
      have hend : d.decodeEnd buffer = ⟨.ok none, d', []⟩ := by
        unfold decodeEnd
        rw [h]
        rfl
      rw [drainEnd_of_none hend]
      rfl
    | cons b left =>
      have hend : d.decodeEnd buffer =
          ⟨.error (.io "bytes remaining on stream"), d', b :: left⟩ := by
        unfold decodeEnd
        rw [h]
        rfl
      rw [drainEnd_of_error hend]
      rfl
  | case3 d buffer e d' rest h =>
    have hend : d.decodeEnd buffer = ⟨.error e, d', rest⟩ := by
      unfold decodeEnd
      rw [h]
    rw [drain_of_error h, drainEnd_of_error hend]
    rfl

/-! ### What was taken before makes no difference -/

theorem drain_eq_behind_decode (d : FrameDecoder) (buffer more : Bytes) :
    d.drain (buffer ++ more) =
      ((d.decode buffer).decoder.drain ((d.decode buffer).buffer ++ more)).behind
        (FramePipe.taken (d.decode buffer).result) := by
  rcases h : d.decode buffer with ⟨e | _ | frame, d', rest⟩
  · obtain ⟨-, -, -, rfl, rfl⟩ := decode_eq_error h
    rfl
  · have happend : d.decode (buffer ++ more) = d'.decode (rest ++ more) := by
      rw [decode_append, h]
      rfl
    rw [drain_congr happend]
    rfl
  · have happend : d.decode (buffer ++ more) = ⟨.ok (some frame), d', rest ++ more⟩ := by
      rw [decode_append, h]
      rfl
    rw [drain_of_frame happend]
    rfl

theorem drain_eq_behind_drain (d : FrameDecoder) (buffer more : Bytes) :
    d.drain (buffer ++ more) =
      ((d.drain buffer).decoder.drain ((d.drain buffer).buffer ++ more)).behind
        (d.drain buffer).result.1 := by
  induction d, buffer using drain.induct with
  | case1 d buffer frame d' rest h _ ih =>
    have hfirst := drain_eq_behind_decode d buffer more
    rw [h, ih, Decoded.behind_behind] at hfirst
    rw [hfirst, drain_of_frame h]
    rfl
  | case2 d buffer d' rest h =>
    have hfirst := drain_eq_behind_decode d buffer more
    rw [h] at hfirst
    rw [hfirst, drain_of_none h]
    rfl
  | case3 d buffer e d' rest h =>
    have hfirst := drain_eq_behind_decode d buffer more
    rw [h] at hfirst
    rw [hfirst, drain_of_error h]
    rfl

/-! ### Whole frames, and what is left behind them -/

theorem drain_toBytes {header : Header} (h : header.IsAcceptable limit)
    (hpos : 0 < header.payloadLength.toNat) :
    (mk limit none).drain header.toBytes = ⟨([], none), ⟨limit, some header⟩, []⟩ := by
  have hlength := Header.length_toBytes header
  have haccept : accept limit header.toBytes = .ok header := by
    have happend := h.accept_toBytes []
    rwa [List.append_nil] at happend
  have hdrop : header.toBytes.drop Header.size = [] :=
    List.drop_eq_nil_of_le (Nat.le_of_eq hlength)
  rw [drain_of_cut haccept (Nat.le_of_eq hlength.symm) (by omega), hdrop]

theorem drainEnd_frames {frames : List Frame} (hf : ∀ f ∈ frames, f.IsWhole limit) :
    (mk limit none).drainEnd (frames.flatMap Frame.toBytes) =
      ⟨(frames, none), ⟨limit, none⟩, []⟩ := by
  have hdrain := drain_flatMap_toBytes hf []
  rw [List.append_nil] at hdrain
  have hnothing : (mk limit none).drain [] = ⟨([], none), ⟨limit, none⟩, []⟩ := drain_of_none rfl
  rw [drainEnd_eq, hdrain, hnothing, Decoded.ended_behind]
  show (⟨(frames ++ [], none), ⟨limit, none⟩, []⟩ : Decoded (List Frame × Option RpcError)) = _
  rw [List.append_nil]

theorem drainEnd_frames_header {frames : List Frame} {header : Header}
    (hf : ∀ f ∈ frames, f.IsWhole limit) (h : header.IsAcceptable limit)
    (hpos : 0 < header.payloadLength.toNat) :
    (mk limit none).drainEnd (frames.flatMap Frame.toBytes ++ header.toBytes) =
      ⟨(frames, none), ⟨limit, some header⟩, []⟩ := by
  rw [drainEnd_eq, drain_flatMap_toBytes hf, drain_toBytes h hpos, Decoded.ended_behind]
  show (⟨(frames ++ [], none), ⟨limit, some header⟩, []⟩ :
    Decoded (List Frame × Option RpcError)) = _
  rw [List.append_nil]

theorem clean_tail {error : Option RpcError} (h : Frame.IsTail limit rest error)
    (hclean : ((mk limit none).drain rest).ended.result.2 = none) :
    rest = [] ∨ ∃ header : Header, header.IsAcceptable limit ∧ 0 < header.payloadLength.toNat ∧
      rest = header.toBytes := by
  obtain ⟨herror, hbuffer⟩ := (Decoded.ended_eq_none_iff _).mp hclean
  rw [h.drain] at herror
  by_cases hshort : rest.length < Header.size
  · rw [drain_of_none (decode_short rfl (split?_of_lt hshort))] at hbuffer
    exact .inl hbuffer
  cases h with
  | short h => exact absurd h hshort
  | refused _ _ => cases herror
  | @cut header haccept hcut =>
    have hsize := Nat.not_lt.mp hshort
    obtain ⟨hparse, hle⟩ := payloadLength_le_of_accept haccept
    obtain ⟨hbytes, hflags⟩ := Header.toBytes_of_parse hparse
    rw [drain_of_cut haccept hsize hcut] at hbuffer
    -- Nothing stands behind the header, and something is still to come.
    have hdrop : rest.drop Header.size = [] := hbuffer
    refine .inr ⟨header, ⟨hflags, hle⟩, ?_, ?_⟩
    · have hle' := List.drop_eq_nil_iff.mp hdrop
      omega
    · rw [hbytes, ← List.append_nil (rest.take Header.size), ← hdrop, List.take_append_drop]

theorem drainEnd_cases {bs : Bytes} (h : ((mk limit none).drainEnd bs).result.2 = none) :
    ∃ frames : List Frame, (∀ f ∈ frames, f.IsWhole limit) ∧
      ((bs = frames.flatMap Frame.toBytes ∧
          (mk limit none).drainEnd bs = ⟨(frames, none), ⟨limit, none⟩, []⟩) ∨
        ∃ header : Header, header.IsAcceptable limit ∧ 0 < header.payloadLength.toNat ∧
          bs = frames.flatMap Frame.toBytes ++ header.toBytes ∧
          (mk limit none).drainEnd bs = ⟨(frames, none), ⟨limit, some header⟩, []⟩) := by
  obtain ⟨frames, rest, error, rfl, hf, htail⟩ := Frame.exists_flatMap_toBytes limit bs
  rw [drainEnd_eq, drain_flatMap_toBytes hf, Decoded.ended_behind] at h
  refine ⟨frames, hf, ?_⟩
  rcases clean_tail htail h with rfl | ⟨header, hheader, hpos, rfl⟩
  · rw [List.append_nil]
    exact .inl ⟨rfl, drainEnd_frames hf⟩
  · exact .inr ⟨header, hheader, hpos, rfl, drainEnd_frames_header hf hheader hpos⟩

theorem drainEnd_between_iff (limit : Nat) (bs : Bytes) :
    ((mk limit none).drainEnd bs).result.2 = none ∧
        ((mk limit none).drainEnd bs).decoder.isMidFrame = false ↔
      ∃ frames : List Frame, (∀ f ∈ frames, f.IsWhole limit) ∧
        bs = frames.flatMap Frame.toBytes := by
  constructor
  · rintro ⟨hclean, hbetween⟩
    obtain ⟨frames, hf, ⟨hbytes, -⟩ | ⟨header, -, -, -, heq⟩⟩ := drainEnd_cases hclean
    · exact ⟨frames, hf, hbytes⟩
    · rw [heq] at hbetween
      cases hbetween
  · rintro ⟨frames, hf, rfl⟩
    rw [drainEnd_frames hf]
    exact ⟨rfl, rfl⟩

theorem drainEnd_inside_iff (limit : Nat) (bs : Bytes) :
    ((mk limit none).drainEnd bs).result.2 = none ∧
        ((mk limit none).drainEnd bs).decoder.isMidFrame = true ↔
      ∃ (frames : List Frame) (header : Header), (∀ f ∈ frames, f.IsWhole limit) ∧
        header.IsAcceptable limit ∧ 0 < header.payloadLength.toNat ∧
        bs = frames.flatMap Frame.toBytes ++ header.toBytes := by
  constructor
  · rintro ⟨hclean, hinside⟩
    obtain ⟨frames, hf, ⟨-, heq⟩ | ⟨header, hheader, hpos, hbytes, -⟩⟩ := drainEnd_cases hclean
    · rw [heq] at hinside
      cases hinside
    · exact ⟨frames, header, hf, hheader, hpos, hbytes⟩
  · rintro ⟨frames, header, hf, hheader, hpos, rfl⟩
    rw [drainEnd_frames_header hf hheader hpos]
    exact ⟨rfl, rfl⟩

theorem drainEnd_bytes (limit : Nat) (bs : Bytes)
    (hclean : ((mk limit none).drainEnd bs).result.2 = none) :
    (∀ f ∈ ((mk limit none).drainEnd bs).result.1, f.IsWhole limit) ∧
      bs = ((mk limit none).drainEnd bs).result.1.flatMap Frame.toBytes ++
        ((mk limit none).drainEnd bs).decoder.pending := by
  obtain ⟨frames, hf, ⟨hbytes, heq⟩ | ⟨header, -, -, hbytes, heq⟩⟩ := drainEnd_cases hclean
  · rw [heq]
    exact ⟨hf, hbytes.trans (List.append_nil _).symm⟩
  · rw [heq]
    exact ⟨hf, hbytes⟩

end FrameDecoder

namespace FramePipe

variable {p : FramePipe}

/-- Calls `decodeEnd` until there are no more frames or it fails. -/
def drainEnd (p : FramePipe) : (List Frame × Option RpcError) × FramePipe :=
  p.after (p.decoder.drainEnd p.inbound)

theorem perform_drain (p : FramePipe) (op : Operation) (more : Bytes) :
    p.decoder.drain (p.inbound ++ (op.bytes ++ more)) =
      ((p.perform op).2.decoder.drain ((p.perform op).2.inbound ++ more)).behind
        (p.perform op).1 := by
  have hdecode := FrameDecoder.drain_eq_behind_decode p.decoder p.inbound more
  cases op with
  | feed bs =>
    rw [← List.append_assoc]
    rfl
  | decode => exact hdecode
  | decodeEnd =>
    rw [perform_decodeEnd]
    exact hdecode
  | drain => exact FrameDecoder.drain_eq_behind_drain p.decoder p.inbound more
  | encode header payload => rfl

theorem run_drain (p : FramePipe) (ops : List Operation) :
    p.decoder.drain (p.inbound ++ fed ops) =
      ((p.run ops).2.decoder.drain (p.run ops).2.inbound).behind (p.run ops).1 := by
  induction ops generalizing p with
  | nil =>
    rw [fed_nil, List.append_nil]
    rfl
  | cons op ops ih =>
    rw [fed_cons, perform_drain, ih, Decoded.behind_behind]
    rfl

theorem run_drainEnd (limit : Nat) (ops : List Operation) :
    (FrameDecoder.mk limit none).drainEnd (fed ops) =
      (((empty limit).run ops).2.decoder.drainEnd ((empty limit).run ops).2.inbound).behind
        ((empty limit).run ops).1 := by
  have hrun := run_drain (empty limit) ops
  rw [FrameDecoder.drainEnd_eq, FrameDecoder.drainEnd_eq, ← Decoded.ended_behind, ← hrun]
  rfl

/-- **What a clean end of a stream tells.**  Whatever was done with an empty pipe while the stream
came in, no error at its end means that its bytes are those of the frames taken, all of them whole,
and of the header whose payload is awaited.  So the end is clean between two frames exactly if the
bytes are those of whole frames.  It is clean as well, and the decoder is inside a frame, exactly if
there is one more header behind them, and nothing of the payload that it tells. -/
theorem clean_end_iff (limit : Nat) (ops : List Operation) :
    let (frames, p) := (empty limit).run ops
    let ((rest, error), last) := p.drainEnd
    (error = none ∧ last.decoder.isMidFrame = false ↔
      ∃ whole : List Frame, (∀ f ∈ whole, f.IsWhole limit) ∧
        fed ops = whole.flatMap Frame.toBytes) ∧
    (error = none ∧ last.decoder.isMidFrame = true ↔
      ∃ (whole : List Frame) (header : Header), (∀ f ∈ whole, f.IsWhole limit) ∧
        header.IsAcceptable limit ∧ 0 < header.payloadLength.toNat ∧
        fed ops = whole.flatMap Frame.toBytes ++ header.toBytes) ∧
    (error = none → (∀ f ∈ frames ++ rest, f.IsWhole limit) ∧
      fed ops = (frames ++ rest).flatMap Frame.toBytes ++ last.decoder.pending) := by
  have hend := run_drainEnd limit ops
  have hbetween := FrameDecoder.drainEnd_between_iff limit (fed ops)
  have hinside := FrameDecoder.drainEnd_inside_iff limit (fed ops)
  have hbytes := FrameDecoder.drainEnd_bytes limit (fed ops)
  rw [hend] at hbetween hinside hbytes
  exact ⟨hbetween, hinside, hbytes⟩

/-- A frame that comes in two pieces, with an attempt to decode between them, and a header behind it
whose payload of two bytes is missing. -/
theorem clean_end_iff_header :
    let frame : Frame := ⟨⟨3, 1, 0, 1⟩, [9]⟩
    let header : Header := ⟨7, 1, Flag.reply.bit, 2⟩
    let pieces : List Operation :=
      [.feed (frame.toBytes.take 13), .decode, .feed (frame.toBytes.drop 13)]
    let inside := ((empty 4).run (pieces ++ [.feed header.toBytes])).2.drainEnd
    let between := ((empty 4).run pieces).2.drainEnd
    (inside.1.2 = none ∧ inside.2.decoder.isMidFrame = true) ∧
      between.1.2 = none ∧ between.2.decoder.isMidFrame = false := by
  intro frame header pieces inside between
  have hframes : ∀ f ∈ [frame], f.IsWhole 4 := by
    intro f hmem
    rw [List.mem_singleton.mp hmem]
    exact ⟨⟨by decide, by decide⟩, by decide⟩
  have hheader : header.IsAcceptable 4 := ⟨by decide, by decide⟩
  obtain ⟨-, hinside, -⟩ := clean_end_iff 4 (pieces ++ [.feed header.toBytes])
  obtain ⟨hbetween, -, -⟩ := clean_end_iff 4 pieces
  exact ⟨hinside.mpr ⟨[frame], header, hframes, hheader, by decide, by decide +kernel⟩,
    hbetween.mpr ⟨[frame], hframes, by decide +kernel⟩⟩

/-- A header alone has a clean end, although its bytes are not those of whole frames: with the
payload of two bytes that it tells, it would be one. -/
theorem header_ends_clean :
    let bs := (Header.mk 7 1 Flag.reply.bit 2).toBytes
    ((empty 4).feed bs).drainEnd.1 = ([], none) ∧
      ((empty 4).feed bs).drainEnd.2.decoder.isMidFrame = true ∧
      ¬ ∃ whole : List Frame, (∀ f ∈ whole, f.IsWhole 4) ∧ bs = whole.flatMap Frame.toBytes := by
  intro bs
  have hheader : (Header.mk 7 1 Flag.reply.bit 2).IsAcceptable 4 := ⟨by decide, by decide⟩
  have hnone : ∀ f ∈ ([] : List Frame), f.IsWhole 4 := nofun
  have hend : (FrameDecoder.mk 4 none).drainEnd bs =
      ⟨([], none), ⟨4, some ⟨7, 1, Flag.reply.bit, 2⟩⟩, []⟩ :=
    FrameDecoder.drainEnd_frames_header hnone hheader (by decide)
  have hdrain : ((empty 4).feed bs).drainEnd = ((empty 4).feed bs).after
      ⟨([], none), ⟨4, some ⟨7, 1, Flag.reply.bit, 2⟩⟩, []⟩ :=
    congrArg ((empty 4).feed bs).after hend
  refine ⟨congrArg Prod.fst hdrain, ?_, ?_⟩
  · rw [hdrain]
    rfl
  · rintro ⟨whole, hwhole, hbytes⟩
    -- Behind whole frames the decoder would be between two frames.
    rw [hbytes, FrameDecoder.drainEnd_frames hwhole] at hend
    cases congrArg (·.decoder.awaiting) hend

end FramePipe

end CallWire
