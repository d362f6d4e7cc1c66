import CallWire.Proofs.Frame.Runs

/-!
# CallWire.Proofs.Frame.Conservation — every byte that came in is accounted for

What a pipe holds is the header whose payload is awaited and the bytes in its buffer.  Each
operation adds to it the bytes that it feeds and takes from it the frames that it yields, and
nothing else; so at every moment of a run the bytes fed are those of the frames taken, followed by
what is held.  Little is held once a decoder has asked for more.
-/

namespace CallWire

namespace FrameDecoder

variable {d : FrameDecoder}

theorem drain_conserves (hd : d.IsSound) (buffer : Bytes) :
    (d.drain buffer).decoder.limit = d.limit ∧ (d.drain buffer).decoder.IsSound ∧
      d.pending ++ buffer = Frame.stream (d.drain buffer).result.1 ++
        ((d.drain buffer).decoder.pending ++ (d.drain buffer).buffer) ∧
      ((d.drain buffer).result.2 = none →
        (d.drain buffer).decoder.IsStarved (d.drain buffer).buffer) := by
  induction d, buffer using drain.induct with
  | case1 d buffer frame d' rest h _ ih =>
    rcases decode_cases hd buffer with ⟨_, _, heq, hbytes⟩ | ⟨_, _, heq, -⟩ | ⟨_, heq⟩
    · obtain ⟨hframe, rfl, rfl⟩ := Decoded.mk.inj (h.symm.trans heq)
      obtain rfl := Option.some.inj (Except.ok.inj hframe)
      obtain ⟨hlimit, hsound, hlater, hstarved⟩ := ih (isSound_of_awaiting rfl)
      rw [drain_of_frame h]
      refine ⟨hlimit, hsound, ?_, hstarved⟩
      -- `image` restores the bytes of the frame that was decoded; the rest is the induction
      -- hypothesis.
      have hstream : Frame.stream (frame :: (drain { d with awaiting := none } rest).result.1) =
          Frame.image frame.header frame.payload ++
            Frame.stream (drain { d with awaiting := none } rest).result.1 := List.flatMap_cons
      rw [hbytes, hstream, List.append_assoc]
      exact congrArg (Frame.image frame.header frame.payload ++ ·) hlater
    · cases h.symm.trans heq
    · cases h.symm.trans heq
  | case2 d buffer d' rest h =>
    rw [drain_of_none h]
    rcases decode_cases hd buffer with ⟨_, _, heq, -⟩ |
      ⟨_, _, heq, hlimit, hsound, hstarved, hbytes⟩ | ⟨_, heq⟩
    · cases h.symm.trans heq
    · obtain ⟨-, rfl, rfl⟩ := Decoded.mk.inj (h.symm.trans heq)
      exact ⟨hlimit, hsound, hbytes, fun _ => hstarved⟩
    · cases h.symm.trans heq
  | case3 d buffer e d' rest h =>
    obtain ⟨-, -, -, rfl, rfl⟩ := decode_eq_error h
    rw [drain_of_error h]
    exact ⟨rfl, hd, rfl, fun h => absurd h (Option.some_ne_none e)⟩

end FrameDecoder

namespace FramePipe

variable {p q : FramePipe}

/-- The bytes fed and not returned: the header whose payload is awaited, and the buffer. -/
def held (p : FramePipe) : Bytes := p.decoder.pending ++ p.inbound

theorem perform_conserves (hp : p.decoder.IsSound) (op : Operation) :
    (p.perform op).2.decoder.limit = p.decoder.limit ∧ (p.perform op).2.decoder.IsSound ∧
      p.held ++ op.bytes = Frame.stream (p.perform op).1 ++ (p.perform op).2.held := by
  have hdecode : (p.perform .decode).2.decoder.limit = p.decoder.limit ∧
      (p.perform .decode).2.decoder.IsSound ∧
      p.held ++ [] = Frame.stream (p.perform .decode).1 ++ (p.perform .decode).2.held := by
    unfold perform decode held after
    rw [List.append_nil]
    rcases FrameDecoder.decode_cases hp p.inbound with ⟨frame, rest, heq, hbytes⟩ |
      ⟨d', rest, heq, hlimit, hsound, -, hbytes⟩ | ⟨e, heq⟩
    · rw [heq]
      refine ⟨rfl, FrameDecoder.isSound_of_awaiting rfl, ?_⟩
      rw [hbytes]
      exact congrArg (· ++ rest) (List.append_nil _).symm
    · rw [heq]
      exact ⟨hlimit, hsound, hbytes⟩
    · rw [heq]
      exact ⟨rfl, hp, rfl⟩
  cases op with
  | feed bs => exact ⟨rfl, hp, List.append_assoc _ _ _⟩
  | decode => exact hdecode
  | decodeEnd =>
    rw [perform_decodeEnd]
    exact hdecode
  | drain =>
    obtain ⟨hlimit, hsound, hbytes, -⟩ := FrameDecoder.drain_conserves hp p.inbound
    refine ⟨hlimit, hsound, ?_⟩
    show p.held ++ [] = _
    rw [List.append_nil]
    exact hbytes
  | encode header payload => exact ⟨rfl, hp, List.append_nil _⟩

theorem run_held (hp : p.decoder.IsSound) (ops : List Operation) :
    (p.run ops).2.decoder.limit = p.decoder.limit ∧ (p.run ops).2.decoder.IsSound ∧
      p.held ++ fed ops = Frame.stream (p.run ops).1 ++ (p.run ops).2.held := by
  induction ops generalizing p with
  | nil => exact ⟨rfl, hp, List.append_nil _⟩
  | cons op ops ih =>
    obtain ⟨hlimit, hsound, hbytes⟩ := perform_conserves hp op
    obtain ⟨hlimit', hsound', hbytes'⟩ := ih hsound
    refine ⟨hlimit'.trans hlimit, hsound', ?_⟩
    have hstream : Frame.stream (p.run (op :: ops)).1 = Frame.stream (p.perform op).1 ++
        Frame.stream ((p.perform op).2.run ops).1 := List.flatMap_append
    calc p.held ++ fed (op :: ops)
        = p.held ++ op.bytes ++ fed ops := by rw [fed_cons, List.append_assoc]
      _ = Frame.stream (p.perform op).1 ++ ((p.perform op).2.held ++ fed ops) := by
          rw [hbytes, List.append_assoc]
      _ = Frame.stream (p.run (op :: ops)).1 ++ (p.run (op :: ops)).2.held := by
          rw [hbytes', hstream, List.append_assoc]
          rfl

theorem isStarved_of_more (hp : p.decoder.IsSound)
    (h : p.decode = (.ok none, q) ∨ ∃ frames, p.drain = ((frames, none), q)) :
    q.decoder.limit = p.decoder.limit ∧ q.decoder.IsSound ∧ q.decoder.IsStarved q.inbound := by
  rcases h with h | ⟨frames, h⟩
  · obtain ⟨hresult, rfl⟩ := Prod.mk.inj h
    rcases FrameDecoder.decode_cases hp p.inbound with ⟨_, _, heq, -⟩ |
      ⟨_, _, heq, hlimit, hsound, hstarved, -⟩ | ⟨_, heq⟩
    · rw [heq] at hresult
      cases hresult
    · rw [heq]
      exact ⟨hlimit, hsound, hstarved⟩
    · rw [heq] at hresult
      cases hresult
  · obtain ⟨hresult, rfl⟩ := Prod.mk.inj h
    obtain ⟨hlimit, hsound, -, hstarved⟩ := FrameDecoder.drain_conserves hp p.inbound
    exact ⟨hlimit, hsound, hstarved (congrArg Prod.snd hresult)⟩

/-- **No byte is lost or made up, and few are kept back.**  Whatever was done with a pipe that was
empty, in whatever order, the bytes fed are those of the frames taken, then the header whose payload
is awaited, then those in the buffer.  A payload that is awaited is not empty and not above the
limit.  Once the decoder has asked for more, the buffer is shorter than a header, or than the
payload that is awaited. -/
theorem run_conserves (limit : Nat) (ops : List Operation) :
    let (frames, p) := (empty limit).run ops
    fed ops = Frame.stream frames ++ p.decoder.pending ++ p.inbound ∧
      (∀ header, p.decoder.awaiting = some header →
        p.decoder.pending.length = 13 ∧
          1 ≤ header.payloadLength.toNat ∧ header.payloadLength.toNat ≤ limit) ∧
      ∀ q, (p.decode = (.ok none, q) ∨ ∃ frames, p.drain = ((frames, none), q)) →
        (q.decoder.awaiting = none → q.inbound.length < 13) ∧
          (∀ header, q.decoder.awaiting = some header →
            q.inbound.length < header.payloadLength.toNat) ∧
          q.inbound.length ≤ max 12 (limit - 1) := by
  have hempty : (empty limit).decoder.IsSound := FrameDecoder.isSound_of_awaiting rfl
  obtain ⟨hlimit, hsound, hbytes⟩ := run_held hempty ops
  have hlimit : ((empty limit).run ops).2.decoder.limit = limit := hlimit
  refine ⟨?_, fun header hawaiting => ⟨?_, ?_⟩, fun q hmore => ?_⟩
  · rw [List.append_assoc]
    exact hbytes
  · unfold FrameDecoder.pending
    rw [hawaiting]
    exact Header.length_toBytes header
  · have hheader := hsound header hawaiting
    rwa [hlimit] at hheader
  · obtain ⟨hlimit', hsound', hstarved⟩ := isStarved_of_more hsound hmore
    have hle := hstarved.length_le hsound'
    rw [hlimit', hlimit] at hle
    exact ⟨hstarved.short, fun header => hstarved.cut, hle⟩

/-- A reply whose last byte is missing and a frame sent meanwhile: the header has been consumed, the
first byte of the payload waits. -/
theorem run_conserves_midFrame :
    let ops : List Operation := [.feed (Frame.image (.request 7 1) []),
      .feed ((Frame.image (.reply 3 2) [9, 8]).take 14), .drain, .encode (.request 5 1) [1]]
    let p := ((empty 4).run ops).2
    p.decode = (.ok none, p) ∧ p.decoder.isMidFrame = true ∧
      fed ops = Frame.stream ((empty 4).run ops).1 ++ p.decoder.pending ++ [9] ∧
      p.inbound.length ≤ max 12 (4 - 1) := by
  intro ops p
  have hdecoder : p.decoder = ⟨4, some ((Header.reply 3 2).withLength 2)⟩ := by decide +kernel
  have hinbound : p.inbound = [9] := by decide +kernel
  have hattempt : p.decoder.decode p.inbound = ⟨.ok none, p.decoder, p.inbound⟩ := by
    rw [hdecoder, hinbound]
    rfl
  have hdecode : p.decode = (.ok none, p) := by
    unfold decode after
    rw [hattempt]
  obtain ⟨hbytes, -, hmore⟩ := run_conserves 4 ops
  refine ⟨hdecode, by rw [hdecoder]; rfl, ?_, (hmore p (.inl hdecode)).2.2⟩
  rw [← hinbound]
  exact hbytes

end FramePipe

end CallWire
