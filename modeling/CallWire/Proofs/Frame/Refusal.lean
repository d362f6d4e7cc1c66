import CallWire.Proofs.Frame.Headers
import CallWire.Proofs.Frame.Runs

/-!
# CallWire.Proofs.Frame.Refusal — a failure changes nothing, and a refused header is final

A decoder that refuses a header keeps it at the front of its buffer.  Whatever is done with the pipe
afterwards only adds bytes behind it, so that it is refused again in the same way, for ever.
Sending has nothing to do with this: it neither changes what is decoded nor, where it fails, what is
sent.
-/

namespace CallWire

namespace FrameDecoder

variable {limit : Nat} {buffer : Bytes} {e : RpcError}

theorem accept_eq_error_cases (h : accept limit buffer = .error e) :
    (∃ detail, e = .malformedFrame detail) ∨
      ∃ length, limit < length ∧ e = .frameTooLarge length limit := by
  cases hparse : Header.parse buffer with
  | error e' =>
    have he : e' = e := by
      unfold accept at h
      rw [hparse] at h
      exact Except.error.inj h
    rw [he] at hparse
    exact .inl (Header.malformedFrame_of_parse hparse)
  | ok header =>
    by_cases hle : header.payloadLength.toNat ≤ limit
    · cases (accept_eq_ok hparse hle).symm.trans h
    · have hlt := Nat.not_le.mp hle
      have herror := (accept_eq_error hparse hlt).symm.trans h
      exact .inr ⟨_, hlt, (Except.error.inj herror).symm⟩

end FrameDecoder

namespace FramePipe

variable {p q : FramePipe} {e : RpcError}

/-! ### A refused header -/

/-- The header at the front of the buffer is refused. -/
structure IsStuck (p : FramePipe) (e : RpcError) : Prop where
  awaiting : p.decoder.awaiting = none
  size_le : Header.size ≤ p.inbound.length
  refused : FrameDecoder.accept p.decoder.limit p.inbound = .error e

theorem IsStuck.decode_eq (h : p.IsStuck e) :
    p.decoder.decode p.inbound = ⟨.error e, p.decoder, p.inbound⟩ :=
  FrameDecoder.decode_refused h.awaiting (FrameDecoder.split?_of_le h.size_le) h.refused

theorem IsStuck.decode (h : p.IsStuck e) : p.decode = (.error e, p) := by
  unfold FramePipe.decode after
  rw [h.decode_eq]

theorem IsStuck.decodeEnd (h : p.IsStuck e) : p.decodeEnd = (.error e, p) := by
  unfold FramePipe.decodeEnd FrameDecoder.decodeEnd after
  rw [h.decode_eq]

theorem IsStuck.drain (h : p.IsStuck e) : p.drain = (([], some e), p) := by
  unfold FramePipe.drain after
  rw [FrameDecoder.drain_of_error h.decode_eq]

theorem isStuck_of_decode (h : p.decode = (.error e, q)) : p.IsStuck e ∧ q = p := by
  obtain ⟨hresult, rfl⟩ := Prod.mk.inj h
  rcases hdecode : p.decoder.decode p.inbound with ⟨result, d, rest⟩
  rw [hdecode] at hresult
  obtain rfl : result = .error e := hresult
  obtain ⟨hawaiting, hsize, haccept, rfl, rfl⟩ := FrameDecoder.decode_eq_error hdecode
  exact ⟨⟨hawaiting, hsize, haccept⟩, rfl⟩

theorem IsStuck.of_append (h : p.IsStuck e) {more : Bytes} (hdecoder : q.decoder = p.decoder)
    (hinbound : q.inbound = p.inbound ++ more) : q.IsStuck e where
  awaiting := by
    rw [hdecoder]
    exact h.awaiting
  size_le := by
    rw [hinbound, List.length_append]
    exact Nat.le_add_right_of_le h.size_le
  refused := by
    rw [hdecoder, hinbound, FrameDecoder.accept_append h.size_le]
    exact h.refused

theorem IsStuck.perform (h : p.IsStuck e) (op : Operation) :
    (p.perform op).1 = [] ∧ (p.perform op).2.decoder = p.decoder ∧
      (p.perform op).2.inbound = p.inbound ++ op.bytes := by
  have hnothing : p.inbound = p.inbound ++ [] := (List.append_nil _).symm
  cases op with
  | feed bs => exact ⟨rfl, rfl, rfl⟩
  | decode =>
    unfold FramePipe.perform
    rw [h.decode]
    exact ⟨rfl, rfl, hnothing⟩
  | decodeEnd =>
    unfold FramePipe.perform
    rw [h.decodeEnd]
    exact ⟨rfl, rfl, hnothing⟩
  | drain =>
    unfold FramePipe.perform
    rw [h.drain]
    exact ⟨rfl, rfl, hnothing⟩
  | encode header payload => exact ⟨rfl, rfl, hnothing⟩

theorem IsStuck.run (h : p.IsStuck e) (ops : List Operation) :
    (p.run ops).1 = [] ∧ (p.run ops).2.decoder = p.decoder ∧
      (p.run ops).2.inbound = p.inbound ++ fed ops := by
  induction ops generalizing p with
  | nil => exact ⟨rfl, rfl, (List.append_nil _).symm⟩
  | cons op ops ih =>
    obtain ⟨hframes, hdecoder, hinbound⟩ := h.perform op
    obtain ⟨hframes', hdecoder', hinbound'⟩ := ih (h.of_append hdecoder hinbound)
    refine ⟨?_, hdecoder'.trans hdecoder, ?_⟩
    · show (p.perform op).1 ++ ((p.perform op).2.run ops).1 = []
      rw [hframes, hframes']
      rfl
    · show ((p.perform op).2.run ops).2.inbound = p.inbound ++ fed (op :: ops)
      rw [hinbound', hinbound, fed_cons, List.append_assoc]

/-! ### Sending beside -/

/-- Two pipes that differ in their outputs only. -/
structure DecodesAs (p q : FramePipe) : Prop where
  decoder : p.decoder = q.decoder
  inbound : p.inbound = q.inbound

theorem DecodesAs.perform (h : p.DecodesAs q) (op : Operation) :
    (p.perform op).1 = (q.perform op).1 ∧ (p.perform op).2.DecodesAs (q.perform op).2 := by
  obtain ⟨hdecoder, hinbound⟩ := h
  have hdecode : (p.perform .decode).1 = (q.perform .decode).1 ∧
      (p.perform .decode).2.DecodesAs (q.perform .decode).2 := by
    unfold FramePipe.perform FramePipe.decode after
    rw [hdecoder, hinbound]
    exact ⟨rfl, rfl, rfl⟩
  cases op with
  | feed bs => exact ⟨rfl, hdecoder, congrArg (· ++ bs) hinbound⟩
  | decode => exact hdecode
  | decodeEnd =>
    rw [perform_decodeEnd, perform_decodeEnd]
    exact hdecode
  | drain =>
    unfold FramePipe.perform FramePipe.drain after
    rw [hdecoder, hinbound]
    exact ⟨rfl, rfl, rfl⟩
  | encode header payload => exact ⟨rfl, hdecoder, hinbound⟩

theorem DecodesAs.run_filter (h : p.DecodesAs q) (ops : List Operation) :
    (p.run ops).1 = (q.run (ops.filter fun op => !op.isEncode)).1 ∧
      (p.run ops).2.DecodesAs (q.run (ops.filter fun op => !op.isEncode)).2 := by
  induction ops generalizing p q with
  | nil => exact ⟨rfl, h⟩
  | cons op ops ih =>
    by_cases hsend : op.isEncode = true
    · -- The operation is left out on the one side, and changes nothing on the other.
      obtain ⟨header, payload, rfl⟩ : ∃ header payload, op = .encode header payload := by
        cases op with
        | encode header payload => exact ⟨header, payload, rfl⟩
        | _ => cases hsend
      exact ih (p := (p.encode header payload).2) ⟨h.decoder, h.inbound⟩
    · rw [List.filter_cons_of_pos (by simpa using hsend)]
      obtain ⟨hframes, hagree⟩ := h.perform op
      obtain ⟨hframes', hagree'⟩ := ih hagree
      refine ⟨?_, hagree'⟩
      show (p.perform op).1 ++ ((p.perform op).2.run ops).1 = _
      rw [hframes, hframes']
      rfl

theorem encode_eq_error {header : Header} {payload : Bytes}
    (h : p.encode header payload = (.error e, q)) :
    p.decoder.limit < payload.length ∧ e = .frameTooLarge payload.length p.decoder.limit ∧
      q = p := by
  unfold encode FrameDecoder.encode at h
  by_cases hlimit : p.decoder.limit < payload.length
  · have hcheck : FrameDecoder.checkLength p.decoder.limit payload.length =
        .error (.frameTooLarge payload.length p.decoder.limit) := if_pos hlimit
    rw [hcheck] at h
    obtain ⟨he, rfl⟩ := Prod.mk.inj h
    exact ⟨hlimit, (Except.error.inj he).symm, rfl⟩
  · have hcheck : FrameDecoder.checkLength p.decoder.limit payload.length = .ok () :=
      if_neg hlimit
    rw [hcheck] at h
    cases (Prod.mk.inj h).1

/-- **Failures change nothing, and those of decoding are final.**  To decode fails only between two
frames, for the flags of a header or the length it tells, and changes nothing; from then on,
whatever is fed, sent or tried, no frame is taken and each attempt fails for the same cause.  A
frame that cannot be sent changes nothing, and one that is sent or not changes nothing for the
frames that come in. -/
theorem failures_are_final (p : FramePipe) :
    (∀ e q, p.decode = (.error e, q) →
      p.decoder.isMidFrame = false ∧
        ((∃ detail, e = .malformedFrame detail) ∨
          ∃ length, p.decoder.limit < length ∧ e = .frameTooLarge length p.decoder.limit) ∧
        q = p ∧
        ∀ ops, let (frames, later) := p.run ops
          frames = [] ∧ later.decoder = p.decoder ∧ later.inbound = p.inbound ++ fed ops ∧
            later.decode = (.error e, later) ∧ later.drain = (([], some e), later)) ∧
    (∀ header payload e q, p.encode header payload = (.error e, q) → q = p) ∧
    ∀ ops, let (frames, later) := p.run ops
      let (frames', later') := p.run (ops.filter fun op => !op.isEncode)
      frames = frames' ∧ later.decoder = later'.decoder ∧ later.inbound = later'.inbound := by
  refine ⟨fun e q h => ?_, fun header payload e q h => (encode_eq_error h).2.2, fun ops => ?_⟩
  · obtain ⟨hstuck, hq⟩ := isStuck_of_decode h
    refine ⟨?_, FrameDecoder.accept_eq_error_cases hstuck.refused, hq, fun ops => ?_⟩
    · unfold FrameDecoder.isMidFrame
      rw [hstuck.awaiting]
      rfl
    · obtain ⟨hframes, hdecoder, hinbound⟩ := hstuck.run ops
      have hlater := hstuck.of_append hdecoder hinbound
      exact ⟨hframes, hdecoder, hinbound, hlater.decode, hlater.drain⟩
  · have hself : p.DecodesAs p := ⟨rfl, rfl⟩
    obtain ⟨hframes, hagree⟩ := hself.run_filter ops
    exact ⟨hframes, hagree.decoder, hagree.inbound⟩

/-- A header that tells five bytes where four are let through, with a good frame behind it, and a
payload of five bytes that is not sent either. -/
theorem failures_are_final_tooLarge :
    let p := (empty 4).feed ((Header.mk 7 1 0 5).toBytes ++ Frame.image (.request 8 2) [9])
    let ops : List Operation := [.drain, .encode (.request 3 1) [1, 2, 3, 4, 5], .decode]
    p.decode = (.error (.frameTooLarge 5 4), p) ∧
      p.encode (.request 3 1) [1, 2, 3, 4, 5] = (.error (.frameTooLarge 5 4), p) ∧
      (p.run ops).1 = [] ∧ (p.run ops).2.decode = (.error (.frameTooLarge 5 4), (p.run ops).2) := by
  intro p ops
  have herror : p.decode.1 = .error (.frameTooLarge 5 4) := by decide +kernel
  have hdecode : p.decode = (.error (.frameTooLarge 5 4), p) :=
    Prod.ext herror (isStuck_of_decode (Prod.ext herror rfl)).2
  obtain ⟨hfails, -, -⟩ := failures_are_final p
  obtain ⟨-, -, -, hlater⟩ := hfails _ p hdecode
  obtain ⟨hframes, -, -, hagain, -⟩ := hlater ops
  exact ⟨hdecode, rfl, hframes, hagain⟩

end FramePipe

end CallWire
