import LifecycleFabric.Wire.Frames

/-!
# Framing

A frame is decoded from the front of whatever follows it, no strict prefix of it is mistaken
for a frame, and no input is consumed beyond its end or without success.
-/

namespace LifecycleFabric.Wire

open ByteCodec

variable {limits : ProtocolLimits} {frame : Frame}

/-- A frame that can be sent: its type is known, its payload is within the limits, and the
length field can carry the length. -/
structure Frame.Valid (limits : ProtocolLimits) (frame : Frame) : Prop where
  known : frame.type.isKnown = true
  limit : frame.payload.length ≤ limits.maxPayloadBytes
  carried : frame.payload.length < 2 ^ 32

/-- The bytes of a frame. -/
def frameBytes (limits : ProtocolLimits) (frame : Frame) : Bytes :=
  sealFrame (frameHeader limits frame ++ frame.payload)

@[simp] theorem length_frameBytes :
    (frameBytes limits frame).length =
      kFrameHeaderSize + frame.payload.length + kFrameTrailerSize := by
  simp [frameBytes, kFrameTrailerSize]

/-- A frame is encoded when its type is known and its payload is within the limits. -/
theorem encodeFrame_eq_ok_iff {bytes : Bytes} :
    encodeFrame limits frame = .ok bytes ↔
      frame.type.isKnown = true ∧ frame.payload.length ≤ limits.maxPayloadBytes ∧
        bytes = frameBytes limits frame := by
  unfold encodeFrame
  constructor
  · intro h
    split_ifs at h with hsize htype
    rw [not_or, Nat.not_lt] at htype
    exact ⟨MessageType.isKnown_of_code htype.1 htype.2, not_lt.mp hsize, (Except.ok.inj h).symm⟩
  · rintro ⟨hknown, hsize, rfl⟩
    obtain ⟨hpos, hcount, _⟩ := MessageType.code_of_isKnown hknown
    rw [if_neg (by omega), if_neg (by omega), frameBytes]

theorem Frame.Valid.encode (h : frame.Valid limits) :
    encodeFrame limits frame = .ok (frameBytes limits frame) :=
  encodeFrame_eq_ok_iff.mpr ⟨h.known, h.limit, rfl⟩

/-! ## Whole frames -/

/-- A frame is decoded from the front of what follows it. -/
theorem Frame.Valid.decode_append (h : frame.Valid limits) (rest : Bytes) (out : Frame) :
    decodeFrame (some (frameBytes limits frame ++ rest)) limits out =
      { status := .ok, out := frame, consumed := (frameBytes limits frame).length } := by
  have hcarried : frame.payload.length % 2 ^ 32 = frame.payload.length :=
    Nat.mod_eq_of_lt h.carried
  have hlength : (frameHeader limits frame ++ frame.payload).length =
      kFrameHeaderSize + frame.payload.length := by simp
  have hdata : frameBytes limits frame ++ rest = frameHeader limits frame ++
      (frame.payload ++ word 4 (crc32 (frameHeader limits frame ++ frame.payload)).toNat ++
        rest) := by
    simp [frameBytes, sealFrame]
  have hstored := readAt_sealFrame (frameHeader limits frame ++ frame.payload) rest
  have hbody : (frameBytes limits frame ++ rest).take
      (kFrameHeaderSize + frame.payload.length) = frameHeader limits frame ++ frame.payload := by
    rw [frameBytes, sealFrame, List.append_assoc, ← hlength, List.take_left]
  have hpayload : ((frameBytes limits frame ++ rest).drop kFrameHeaderSize).take
      frame.payload.length = frame.payload := by
    rw [hdata, ← length_frameHeader limits frame, List.drop_left, List.append_assoc,
      List.take_left]
  have hsize : ¬(frameBytes limits frame ++ rest).length <
      kFrameHeaderSize + frame.payload.length + kFrameTrailerSize := by
    rw [List.length_append, length_frameBytes]
    omega
  have hheader := decodeFrame_of_header out h.known
    (hcarried.trans_le h.limit) (frame.payload ++
      word 4 (crc32 (frameHeader limits frame ++ frame.payload)).toNat ++ rest)
  dsimp only at hheader
  rw [← hdata, hcarried, if_neg hsize, hbody, hpayload] at hheader
  rw [hlength, ← frameBytes] at hstored
  rw [hheader, if_neg (not_not_intro hstored), length_frameBytes]

/-- The start of a frame asks for more. -/
theorem Frame.Valid.decode_take (h : frame.Valid limits) {size : ℕ}
    (hsize : size < (frameBytes limits frame).length) (out : Frame) :
    decodeFrame (some ((frameBytes limits frame).take size)) limits out =
      { status := .needMoreData, out } := by
  have hcarried : frame.payload.length % 2 ^ 32 = frame.payload.length :=
    Nat.mod_eq_of_lt h.carried
  have hlength : ((frameBytes limits frame).take size).length = size :=
    List.length_take_of_le hsize.le
  by_cases hheader : size < kFrameHeaderSize
  · dsimp only [decodeFrame]
    rw [hlength, if_pos hheader]
  · obtain ⟨rest, hrest⟩ : ∃ rest, (frameBytes limits frame).take size =
        frameHeader limits frame ++ rest := by
      refine ⟨(frame.payload ++ word 4 (crc32 (frameHeader limits frame ++
        frame.payload)).toNat).take (size - kFrameHeaderSize), ?_⟩
      rw [frameBytes, sealFrame, List.append_assoc, List.take_append, length_frameHeader,
        List.take_of_length_le (by rw [length_frameHeader]; omega)]
    have hdecode := decodeFrame_of_header out h.known
      (hcarried.trans_le h.limit) rest
    dsimp only at hdecode
    rw [length_frameBytes] at hsize
    rw [← hrest, hlength, hcarried, if_pos hsize] at hdecode
    exact hdecode

/-- For every frame with a known type and a payload within limits below the range of the length
field: what encodes it decodes to it from the front of any tail, consuming its own size, and
asks for more at any cut before its end. No input at all is consumed beyond its end, nor
unless a frame was decoded. -/
theorem frames_round_trip (limits : ProtocolLimits) (hlimits : limits.maxPayloadBytes < 2 ^ 32) :
    (∀ frame : Frame, frame.type.isKnown = true →
      frame.payload.length ≤ limits.maxPayloadBytes →
      ∃ bytes, encodeFrame limits frame = .ok bytes ∧
        (∀ rest out, decodeFrame (some (bytes ++ rest)) limits out =
          { status := .ok, out := frame, consumed := bytes.length }) ∧
        ∀ size < bytes.length, ∀ out, decodeFrame (some (bytes.take size)) limits out =
          { status := .needMoreData, out := out, consumed := 0 }) ∧
    ∀ buffer out, (decodeFrame buffer limits out).consumed ≤ (buffer.getD []).length ∧
      ((decodeFrame buffer limits out).consumed ≠ 0 →
        (decodeFrame buffer limits out).status = .ok) := by
  refine ⟨fun frame hknown hlimit => ?_, fun buffer out => consumed_decodeFrame buffer⟩
  have hvalid : frame.Valid limits := ⟨hknown, hlimit, hlimit.trans_lt hlimits⟩
  refine ⟨frameBytes limits frame, hvalid.encode, hvalid.decode_append, ?_⟩
  exact fun size hsize out => hvalid.decode_take hsize out

theorem frames_round_trip_witness :
    (262144 : ℕ) < 2 ^ 32 ∧ ∃ bytes, encodeFrame {} { type := .reply, payload := [7, 0] } =
      .ok bytes ∧ ∀ rest out, decodeFrame (some (bytes ++ rest)) {} out =
        { status := .ok, out := { type := .reply, payload := [7, 0] }, consumed := bytes.length } := by
  refine ⟨by decide, ?_⟩
  obtain ⟨bytes, hencode, hdecode, _⟩ := (frames_round_trip {} (by decide)).1
    { type := .reply, payload := [7, 0] } rfl (by decide)
  exact ⟨bytes, hencode, hdecode⟩

end LifecycleFabric.Wire
