import LifecycleFabric.Wire.Frames

/-!
# Decoding a stream

The decoder keeps what was fed and where it has read up to. Bytes that were read are let go
only when everything was read.
-/

namespace LifecycleFabric.Wire

open ByteCodec

/-- The size of the largest frame. -/
def maxFrameSize (limits : ProtocolLimits) : ℕ :=
  sizeWord (limits.maxPayloadBytes + kFrameHeaderSize + kFrameTrailerSize)

/-- A decoder of a stream. -/
structure FrameDecoder where
  limits : ProtocolLimits := {}
  buffer : Bytes := []
  position : ℕ := 0
  failed : Bool := false
  failure : ProtocolStatus := .ok

namespace FrameDecoder

/-- What was fed and not yet read. -/
def unread (d : FrameDecoder) : Bytes := d.buffer.drop d.position

/-- A decoder that fails stays failed. -/
def fail (d : FrameDecoder) (status : ProtocolStatus) : FrameDecoder :=
  { d with failed := true, failure := status }

/-- Feed bytes. -/
def feed (d : FrameDecoder) (data : Bytes) : ProtocolStatus × FrameDecoder :=
  if d.failed then (d.failure, d)
  else if maxFrameSize d.limits < data.length then (.oversized, d.fail .oversized)
  else if maxFrameSize d.limits < d.buffer.length + data.length then
    (.oversized, d.fail .oversized)
  else if 0 < d.position ∧ d.position = d.buffer.length then
    (.ok, { d with buffer := data, position := 0 })
  else (.ok, { d with buffer := d.buffer ++ data })

/-- Pop one frame. -/
def next (d : FrameDecoder) (out : Frame) : ProtocolStatus × Frame × FrameDecoder :=
  if d.failed then (d.failure, out, d)
  else if d.unread.length < kFrameHeaderSize then (.needMoreData, out, d)
  else
    let read := decodeFrame (some d.unread) d.limits out
    if read.status = .ok then
      if d.position + read.consumed = d.buffer.length then
        (.ok, read.out, { d with buffer := [], position := 0 })
      else (.ok, read.out, { d with position := d.position + read.consumed })
    else if read.status ≠ .needMoreData then (read.status, read.out, d.fail read.status)
    else (read.status, read.out, d)

end FrameDecoder

/-- What came of bytes that were fed: the frames popped, how the last call ended, and the
decoder. -/
structure Reception where
  frames : List Frame := []
  status : ProtocolStatus
  decoder : FrameDecoder

namespace FrameDecoder

/-- Pop frames for as long as there are any, at most `fuel` times. -/
def popAll : ℕ → FrameDecoder → Reception
  | 0, d => { status := .ok, decoder := d }
  | fuel + 1, d =>
    let (status, frame, d) := d.next {}
    if status = .ok then
      let rest := popAll fuel d
      { rest with frames := frame :: rest.frames }
    else { status, decoder := d }

/-- Feed a chunk and pop the frames it completes. A frame takes a byte at least, so the fuel
does not run out before the bytes do. -/
def receive (d : FrameDecoder) (chunk : Bytes) : Reception :=
  let (status, d) := d.feed chunk
  if status = .ok then popAll (d.unread.length + 1) d else { status, decoder := d }

/-- Receive a stream in chunks. -/
def receiveAll (d : FrameDecoder) : List Bytes → List Reception
  | [] => []
  | chunk :: chunks =>
    let reception := d.receive chunk
    reception :: receiveAll reception.decoder chunks

end FrameDecoder

end LifecycleFabric.Wire
