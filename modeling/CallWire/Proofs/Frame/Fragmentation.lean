import CallWire.Frame.Pipe

/-!
# CallWire.Proofs.Frame.Fragmentation — the pieces a stream arrives in make no difference

A decoder that has run out of bytes goes on, when more arrive, as it would have gone on with all of
them from the start; and one that has refused a header has done so for good.  So the frames and the
error taken from a stream depend on its bytes alone, wherever it was cut: inside a header, inside a
payload, or nowhere.
-/

namespace CallWire

namespace FrameDecoder

variable {d d' : FrameDecoder} {header : Header} {buffer more head rest : Bytes} {frame : Frame}
  {e : RpcError}

/-! ### One step, with more bytes behind -/

theorem split?_eq_some {n : Nat} (h : split? n buffer = some (head, rest)) :
    head.length = n ∧ head ++ rest = buffer := by
  simp only [split?] at h
  split at h
  · next hn =>
    obtain ⟨rfl, rfl⟩ := Prod.mk.inj (Option.some.inj h)
    exact ⟨hn, List.take_append_drop n buffer⟩
  · cases h

theorem split?_append_left (h : head.length = n) : split? n (head ++ rest) = some (head, rest) := by
  subst h
  simp [split?]

theorem split?_append {n : Nat} (h : split? n buffer = some (head, rest)) :
    split? n (buffer ++ more) = some (head, rest ++ more) := by
  obtain ⟨hn, rfl⟩ := split?_eq_some h
  rw [List.append_assoc]
  exact split?_append_left hn

theorem accept_append {limit : Nat} (h : Header.size ≤ buffer.length) :
    accept limit (buffer ++ more) = accept limit buffer := by
  have htake : (buffer ++ more).take Header.size = buffer.take Header.size :=
    List.take_append_of_le_length h
  have hlength : ¬ (buffer.take Header.size).length < Header.size := by
    rw [List.length_take]
    omega
  unfold accept Header.parse
  simp only [htake, hlength, if_false]

theorem decode_awaiting (h : d.awaiting = some header) :
    d.decode buffer = d.payload header buffer := by
  unfold decode
  rw [h]

theorem decode_short (h : d.awaiting = none) (hs : split? Header.size buffer = none) :
    d.decode buffer = ⟨.ok none, d, buffer⟩ := by
  unfold decode
  rw [h, hs]

theorem decode_refused (h : d.awaiting = none) (hs : split? Header.size buffer = some (head, rest))
    (ha : accept d.limit buffer = .error e) : d.decode buffer = ⟨.error e, d, buffer⟩ := by
  unfold decode
  rw [h, hs]
  simp only [ha]

theorem decode_accepted (h : d.awaiting = none) (hs : split? Header.size buffer = some (head, rest))
    (ha : accept d.limit buffer = .ok header) : d.decode buffer = d.payload header rest := by
  unfold decode
  rw [h, hs]
  simp only [ha]

end FrameDecoder

namespace Decoded

/-- The result of decoding, if further bytes arrive: one that asked for more bytes is repeated. -/
def retried (r : Decoded (Except RpcError (Option Frame))) (more : Bytes) :
    Decoded (Except RpcError (Option Frame)) :=
  match r.result with
  | .ok none => r.decoder.decode (r.buffer ++ more)
  | _ => { r with buffer := r.buffer ++ more }

/-- The result of draining, if further bytes arrive: unless it failed, it goes on. -/
def resumed (r : Decoded (List Frame × Option RpcError)) (more : Bytes) :
    Decoded (List Frame × Option RpcError) :=
  match r.result.2 with
  | some _ => { r with buffer := r.buffer ++ more }
  | none =>
    let later := r.decoder.drain (r.buffer ++ more)
    ⟨(r.result.1 ++ later.result.1, later.result.2), later.decoder, later.buffer⟩

/-- A result with frames in front of its own. -/
def behind (r : Decoded (List Frame × Option RpcError)) (frames : List Frame) :
    Decoded (List Frame × Option RpcError) :=
  { r with result := (frames ++ r.result.1, r.result.2) }

@[simp] theorem behind_behind (r : Decoded (List Frame × Option RpcError))
    (frames earlier : List Frame) :
    (r.behind frames).behind earlier = r.behind (earlier ++ frames) := by
  unfold behind
  rw [List.append_assoc]

end Decoded

namespace FrameDecoder

variable {d d' : FrameDecoder} {header : Header} {buffer more rest : Bytes} {frame : Frame}
  {e : RpcError}

theorem payload_append :
    d.payload header (buffer ++ more) = (d.payload header buffer).retried more := by
  cases hs : split? header.payloadLength.toNat buffer with
  | some taken =>
    obtain ⟨payload, rest⟩ := taken
    simp only [FrameDecoder.payload, hs, split?_append hs, Decoded.retried]
  | none =>
    -- The header is all that was consumed, and the next attempt begins with it.
    rw [show d.payload header buffer = ⟨.ok none, { d with awaiting := some header }, buffer⟩ by
      simp only [FrameDecoder.payload, hs]]
    rfl

theorem decode_append : d.decode (buffer ++ more) = (d.decode buffer).retried more := by
  cases ha : d.awaiting with
  | some header =>
    rw [decode_awaiting ha, decode_awaiting ha]
    exact payload_append
  | none =>
    cases hs : split? Header.size buffer with
    | none =>
      rw [decode_short ha hs]
      rfl
    | some taken =>
      obtain ⟨head, rest⟩ := taken
      -- The header is judged by its own thirteen bytes, and those are there already.
      have haccept : accept d.limit (buffer ++ more) = accept d.limit buffer := by
        obtain ⟨hn, rfl⟩ := split?_eq_some hs
        refine accept_append ?_
        rw [List.length_append]
        omega
      have hs' : split? Header.size (buffer ++ more) = some (head, rest ++ more) :=
        split?_append hs
      cases hc : accept d.limit buffer with
      | error e =>
        rw [decode_refused ha hs hc, decode_refused ha hs' (haccept.trans hc)]
        rfl
      | ok header =>
        rw [decode_accepted ha hs hc, decode_accepted ha hs' (haccept.trans hc)]
        exact payload_append

/-! ### All the frames there are -/

theorem drain_of_frame (h : d.decode buffer = ⟨.ok (some frame), d', rest⟩) :
    d.drain buffer = ⟨(frame :: (d'.drain rest).result.1, (d'.drain rest).result.2),
      (d'.drain rest).decoder, (d'.drain rest).buffer⟩ := by
  rw [drain]
  split
  · next h' =>
    rw [h] at h'
    cases h'
    rfl
  all_goals
    next h' =>
    rw [h] at h'
    cases h'

theorem drain_of_none (h : d.decode buffer = ⟨.ok none, d', rest⟩) :
    d.drain buffer = ⟨([], none), d', rest⟩ := by
  rw [drain]
  split
  all_goals simp_all

theorem drain_of_error (h : d.decode buffer = ⟨.error e, d', rest⟩) :
    d.drain buffer = ⟨([], some e), d', rest⟩ := by
  rw [drain]
  split
  all_goals simp_all

theorem drain_congr {buffer' : Bytes} (h : d.decode buffer = d'.decode buffer') :
    d.drain buffer = d'.drain buffer' := by
  rcases hd : d'.decode buffer' with ⟨_ | _ | frame, last, left⟩
  · rw [drain_of_error hd, drain_of_error (h.trans hd)]
  · rw [drain_of_none hd, drain_of_none (h.trans hd)]
  · rw [drain_of_frame hd, drain_of_frame (h.trans hd)]

theorem drain_append (d : FrameDecoder) (buffer more : Bytes) :
    d.drain (buffer ++ more) = (d.drain buffer).resumed more := by
  induction d, buffer using drain.induct with
  | case1 d buffer frame d' rest h _ ih =>
    have happend : d.decode (buffer ++ more) = ⟨.ok (some frame), d', rest ++ more⟩ := by
      rw [decode_append, h]
      rfl
    rw [drain_of_frame happend, drain_of_frame h, ih]
    rcases d'.drain rest with ⟨⟨frames, _ | e⟩, last, left⟩
    · rfl
    · rfl
  | case2 d buffer d' rest h =>
    have happend : d.decode (buffer ++ more) = d'.decode (rest ++ more) := by
      rw [decode_append, h]
      rfl
    rw [drain_of_none h, drain_congr happend]
    simp only [Decoded.resumed, List.nil_append]
  | case3 d buffer e d' rest h =>
    have happend : d.decode (buffer ++ more) = ⟨.error e, d', rest ++ more⟩ := by
      rw [decode_append, h]
      rfl
    rw [drain_of_error happend, drain_of_error h]
    rfl

theorem drain_drain {frames : List Frame} (h : d.drain buffer = ⟨(frames, none), d', rest⟩) :
    d'.drain rest = ⟨([], none), d', rest⟩ := by
  have hagain := drain_append d buffer []
  rw [List.append_nil, h] at hagain
  rcases hlater : d'.drain rest with ⟨⟨more, error⟩, last, left⟩
  simp only [Decoded.resumed, List.append_nil, hlater, Decoded.mk.injEq, Prod.mk.injEq,
    List.self_eq_append_right] at hagain
  obtain ⟨⟨rfl, rfl⟩, rfl, rfl⟩ := hagain
  rfl

end FrameDecoder

/-! ### Chunks -/

namespace FramePipe

/-- The frames and the error, in order. -/
def outcome (taken : List Frame × Option RpcError) : List (Except RpcError Frame) :=
  taken.1.map .ok ++ taken.2.toList.map .error

theorem drainChunks_error {p q : FramePipe} {frames : List Frame} {e : RpcError} (index : Nat)
    (chunk : Bytes) (chunks : List Bytes) (h : (p.feed chunk).drain = ((frames, some e), q)) :
    p.drainChunks index (chunk :: chunks) =
      (frames.map (index, .ok ·) ++ [(index, .error e)], q) := by
  unfold drainChunks
  rw [h]

theorem drainChunks_none {p q : FramePipe} {frames : List Frame} (index : Nat)
    (chunk : Bytes) (chunks : List Bytes) (h : (p.feed chunk).drain = ((frames, none), q)) :
    p.drainChunks index (chunk :: chunks) =
      (frames.map (index, .ok ·) ++ (q.drainChunks (index + 1) chunks).1,
        (q.drainChunks (index + 1) chunks).2) := by
  rw [drainChunks, h]

theorem drainChunks_eq_drain {p : FramePipe} (index : Nat) (chunks : List Bytes)
    (hp : p.decoder.drain p.inbound = ⟨([], none), p.decoder, p.inbound⟩) :
    let whole := p.decoder.drain (p.inbound ++ chunks.flatten)
    let (results, last) := p.drainChunks index chunks
    results.map (·.2) = outcome whole.result ∧
      (whole.result.2 = none → last = (p.after whole).2) := by
  induction chunks generalizing p index with
  | nil =>
    simp only [List.flatten_nil, List.append_nil, hp, drainChunks]
    exact ⟨rfl, fun _ => rfl⟩
  | cons chunk chunks ih =>
    have hwhole : p.decoder.drain (p.inbound ++ (chunk :: chunks).flatten) =
        (p.decoder.drain (p.inbound ++ chunk)).resumed chunks.flatten := by
      rw [List.flatten_cons, ← List.append_assoc]
      exact FrameDecoder.drain_append _ _ _
    -- The chunks that remain are drained by the decoder and buffer that this chunk leaves.
    rw [hwhole]
    rcases hfirst : p.decoder.drain (p.inbound ++ chunk) with ⟨⟨frames, error⟩, d, rest⟩
    have hdrain : (p.feed chunk).drain =
        ((frames, error), { p with decoder := d, inbound := rest }) := by
      show (p.feed chunk).after (p.decoder.drain (p.inbound ++ chunk)) = _
      rw [hfirst]
      rfl
    cases error with
    | some e =>
      rw [drainChunks_error index chunk chunks hdrain]
      refine ⟨?_, fun h => by cases h⟩
      simp [outcome, Decoded.resumed, Function.comp_def]
    | none =>
      obtain ⟨hresults, hlast⟩ := ih (p := { p with decoder := d, inbound := rest }) (index + 1)
        (FrameDecoder.drain_drain hfirst)
      rw [drainChunks_none index chunk chunks hdrain]
      refine ⟨?_, hlast⟩
      simp only [List.map_append, hresults]
      simp [outcome, Decoded.resumed, Function.comp_def]

/-- **Frames do not depend on how the stream was cut.**  Two ways of cutting the same bytes, both
fed into an empty pipe, yield the same frames, followed by the same error or by none; and without
an error they leave the same decoder with the same bytes. -/
theorem drainChunks_independent (limit : Nat) (chunks chunks' : List Bytes)
    (h : chunks.flatten = chunks'.flatten) :
    ∃ (frames : List Frame) (error : Option RpcError),
      ((empty limit).drainChunks 0 chunks).1.map (·.2) =
        frames.map .ok ++ error.toList.map .error ∧
      ((empty limit).drainChunks 0 chunks').1.map (·.2) =
        frames.map .ok ++ error.toList.map .error ∧
      (error = none →
        ((empty limit).drainChunks 0 chunks).2 = ((empty limit).drainChunks 0 chunks').2) := by
  have hempty : (empty limit).decoder.drain (empty limit).inbound =
      ⟨([], none), (empty limit).decoder, (empty limit).inbound⟩ :=
    FrameDecoder.drain_of_none rfl
  obtain ⟨hresults, hlast⟩ := drainChunks_eq_drain 0 chunks hempty
  obtain ⟨hresults', hlast'⟩ := drainChunks_eq_drain 0 chunks' hempty
  rw [← h] at hresults' hlast'
  exact ⟨_, _, hresults, hresults', fun he => (hlast he).trans (hlast' he).symm⟩

/-- A frame and a refused header, at once or byte by byte with nothing between the bytes. -/
theorem drainChunks_independent_bytewise :
    let stream : Bytes := Frame.image (.request 7 1) [9] ++ (Header.mk 7 2 0xff 0).toBytes
    let bytewise : List Bytes := stream.flatMap fun b => [[], [b]]
    [stream].flatten = bytewise.flatten ∧
      ((empty 4).drainChunks 0 [stream]).1.map (·.2) =
        ((empty 4).drainChunks 0 bytewise).1.map (·.2) := by
  intro stream bytewise
  have h : [stream].flatten = bytewise.flatten := by decide +kernel
  obtain ⟨frames, error, hone, hother, -⟩ := drainChunks_independent 4 [stream] bytewise h
  exact ⟨h, hone.trans hother.symm⟩

end FramePipe

end CallWire
