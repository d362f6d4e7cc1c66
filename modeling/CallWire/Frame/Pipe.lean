import CallWire.Frame.Decoder

/-!
# CallWire.Frame.Pipe — a frame coder with its two buffers

Bytes are fed into the inbound buffer and taken out as frames; frames are encoded into the
outbound buffer.  `trickle` feeds a byte string in chunks and takes the frames out after each.
-/

namespace CallWire

/-- A codec with its input buffer and its output buffer. -/
structure FramePipe where
  decoder : FrameDecoder
  inbound : Bytes := []
  outbound : Bytes := []

namespace FramePipe

def empty (limit : Nat) : FramePipe := { decoder := { limit } }

def feed (p : FramePipe) (bs : Bytes) : FramePipe := { p with inbound := p.inbound ++ bs }

def after {α : Type} (p : FramePipe) (d : Decoded α) : α × FramePipe :=
  (d.result, { p with decoder := d.decoder, inbound := d.buffer })

def decode (p : FramePipe) : Except RpcError (Option Frame) × FramePipe :=
  p.after (p.decoder.decode p.inbound)

def decodeEnd (p : FramePipe) : Except RpcError (Option Frame) × FramePipe :=
  p.after (p.decoder.decodeEnd p.inbound)

def drain (p : FramePipe) : (List Frame × Option RpcError) × FramePipe :=
  p.after (p.decoder.drain p.inbound)

/-- Feeds the chunks one by one and decodes all frames after each, up to the first error.  The
results carry the index of their chunk. -/
def drainChunks (p : FramePipe) (index : Nat) :
    List Bytes → List (Nat × Except RpcError Frame) × FramePipe
  | [] => ([], p)
  | chunk :: chunks =>
    match (p.feed chunk).drain with
    | ((frames, some e), p) => (frames.map (index, .ok ·) ++ [(index, .error e)], p)
    | ((frames, none), p) =>
      let (later, p) := p.drainChunks (index + 1) chunks
      (frames.map (index, .ok ·) ++ later, p)

def trickle (p : FramePipe) (size : Nat) (bs : Bytes) :
    List (Nat × Except RpcError Frame) × FramePipe :=
  p.drainChunks 0 (Bytes.chunks size bs)

def encode (p : FramePipe) (header : Header) (payload : Bytes) :
    Except RpcError Unit × FramePipe :=
  let (result, outbound) := FrameDecoder.encode p.decoder.limit p.outbound header payload
  (result, { p with outbound })

/-- Moves the output to the input. -/
def loopBack (p : FramePipe) : FramePipe :=
  { p with inbound := p.inbound ++ p.outbound, outbound := [] }

end FramePipe

end CallWire
