import LifecycleFabric.Properties.Framing
import LifecycleFabric.StateFile.Bounds

/-!
# One-byte corruption

A frame, and a state file, is refused after the change of any byte outside its length field.
The length field has 32 bits, so this is so of payloads shorter than that.
-/

namespace LifecycleFabric.Wire

open ByteCodec

variable {limits : ProtocolLimits} {frame : Frame}

/-- A frame with one byte outside of its length field changed is refused. -/
def RefusesCorruptFrame (limits : ProtocolLimits) (frame : Frame) : Prop :=
  ∀ bytes, encodeFrame limits frame = .ok bytes →
    ∀ i b, (hi : i < bytes.length) → i < 12 ∨ 16 ≤ i → bytes[i] ≠ b →
      ∀ out, (decodeFrame (some (bytes.set i b)) limits out).status ≠ .ok ∧
        (decodeFrame (some (bytes.set i b)) limits out).status ≠ .needMoreData

/-- The length field of a frame. -/
theorem readAt_frameBytes (hcarried : frame.payload.length < 2 ^ 32) :
    readAt (frameBytes limits frame) 12 4 = frame.payload.length := by
  have hbytes : frameBytes limits frame = frameHeader limits frame ++ (frame.payload ++
      word 4 (crc32 (frameHeader limits frame ++ frame.payload)).toNat) := by
    simp [frameBytes, sealFrame]
  obtain ⟨_, _, _, _, hlength⟩ := readAt_frameHeader limits frame (frame.payload ++
    word 4 (crc32 (frameHeader limits frame ++ frame.payload)).toNat)
  rw [hbytes, hlength, Nat.mod_eq_of_lt hcarried]

theorem refusesCorruptFrame_of_lt (hcarried : frame.payload.length < 2 ^ 32) :
    RefusesCorruptFrame limits frame := by
  intro bytes hencode i b hi hfield hb out
  obtain ⟨_, _, rfl⟩ := encodeFrame_eq_ok_iff.mp hencode
  have hlength : readAt ((frameBytes limits frame).set i b) 12 4 = frame.payload.length := by
    rw [readAt_set hfield, readAt_frameBytes hcarried]
  have hbody : (frameHeader limits frame ++ frame.payload).length =
      kFrameHeaderSize + frame.payload.length := by simp
  constructor
  · intro hok
    obtain ⟨_, hstored⟩ := checked_of_ok hok
    rw [hlength, ← hbody] at hstored
    exact checksum_ne_of_set hi hb hstored
  · intro hmore
    have hincomplete := incomplete_of_needMoreData hmore
    rw [hlength, List.length_set, length_frameBytes] at hincomplete
    exact lt_irrefl _ hincomplete

/-! ## A payload whose length the field cannot carry -/

/-- The checksum of the header of an empty frame, and zeros up to a length that is written as
zero. -/
def hollowPayload (limits : ProtocolLimits) : Bytes :=
  word 4 (crc32 (frameHeader limits {})).toNat ++ 0 :: List.replicate (2 ^ 32 - 5) 0

theorem length_hollowPayload : (hollowPayload limits).length = 2 ^ 32 := by
  rw [hollowPayload, List.length_append, length_word, List.length_cons, List.length_replicate]
  norm_num

/-- A frame of that payload starts with the bytes of an empty frame. -/
theorem frameBytes_hollow (limits : ProtocolLimits) :
    ∃ tail, frameBytes limits { payload := hollowPayload limits } =
      frameBytes limits {} ++ 0 :: tail := by
  have hheader : frameHeader limits { payload := hollowPayload limits } =
      frameHeader limits {} := by
    have hword : word 4 (2 ^ 32) = word 4 0 := by decide
    rw [frameHeader, frameHeader, length_hollowPayload, hword]
    rfl
  refine ⟨List.replicate (2 ^ 32 - 5) 0 ++
    word 4 (crc32 (frameHeader limits {} ++ hollowPayload limits)).toNat, ?_⟩
  rw [frameBytes, frameBytes, hheader, sealFrame, sealFrame, List.append_nil]
  conv_lhs => rw [hollowPayload]
  simp only [List.append_assoc, List.cons_append]
  rfl

/-- It stays accepted, as an empty frame, when the byte behind these changes. -/
theorem not_refusesCorruptFrame (limits : ProtocolLimits)
    (hlimit : 2 ^ 32 ≤ limits.maxPayloadBytes) :
    ¬RefusesCorruptFrame limits { payload := hollowPayload limits } := by
  intro hrefuses
  have hencode : encodeFrame limits { payload := hollowPayload limits } =
      .ok (frameBytes limits { payload := hollowPayload limits }) := by
    apply encodeFrame_eq_ok_iff.mpr
    exact ⟨rfl, length_hollowPayload.trans_le hlimit, rfl⟩
  obtain ⟨tail, htail⟩ := frameBytes_hollow limits
  have hempty : (frameBytes limits {}).length = 20 := by
    rw [length_frameBytes]
    rfl
  have hvalid : Frame.Valid limits {} := ⟨rfl, Nat.zero_le _, by decide⟩
  have hset : (frameBytes limits {} ++ 0 :: tail).set 20 1 = frameBytes limits {} ++ 1 :: tail := by
    rw [List.set_append_right 20 1 hempty.le, hempty]
    rfl
  have hlength : 20 < (frameBytes limits { payload := hollowPayload limits }).length := by
    rw [htail, List.length_append, hempty, List.length_cons]
    omega
  have hbyte : (frameBytes limits { payload := hollowPayload limits })[20] ≠ 1 := by
    have hget : (frameBytes limits { payload := hollowPayload limits })[20]? = some 0 := by
      rw [htail, List.getElem?_append_right hempty.le, hempty]
      rfl
    rw [List.getElem?_eq_getElem hlength] at hget
    rw [Option.some.inj hget]
    decide
  have hok := (hrefuses _ hencode 20 1 hlength (Or.inr (by decide)) hbyte {}).1
  rw [htail, hset, hvalid.decode_append] at hok
  exact hok rfl

end LifecycleFabric.Wire

namespace LifecycleFabric.StateFile

open ByteCodec Wire

variable {limits : DecodeLimits} {d : DurableState} {data payload : Bytes}

/-! ## State files -/

/-- A state file with one byte outside of its length field changed is refused. -/
def RefusesCorruptFile (limits : DecodeLimits) (d : DurableState) : Prop :=
  ∀ bytes, serializeDurableState limits d = .ok bytes →
    ∀ i b, (hi : i < bytes.length) → i < 8 ∨ 12 ≤ i → bytes[i] ≠ b →
      ∃ fault, deserializeDurableState limits (some (bytes.set i b)) = .error (.framing fault)

/-- A payload that is taken out of a file passed the checksum. -/
theorem checked_of_unframe (h : unframe limits (some data) = .ok payload) :
    readAt data (kHeaderSize + readAt data 8 4) 4 =
      (crc32 (data.take (kHeaderSize + readAt data 8 4))).toNat := by
  dsimp only [unframe] at h
  split_ifs at h with h1 h2 h3 h4 h5 h6
  exact not_not.mp h6

theorem refusesCorruptFile_of_lt (hcarried : (writePayload d).length < 2 ^ 32) :
    RefusesCorruptFile limits d := by
  intro bytes hencode i b hi hfield hb
  obtain ⟨_, _, rfl⟩ := serialize_eq_ok_iff.mp hencode
  have hbody : (fileHeader d (writePayload d) ++ writePayload d).length =
      kHeaderSize + (writePayload d).length := by simp
  have hlength : readAt ((fileBytes d).set i b) 8 4 = (writePayload d).length := by
    rw [readAt_set hfield, fileBytes, sealFrame, List.append_assoc, readAt_fileHeader,
      Nat.mod_eq_of_lt hcarried]
  cases hunframe : unframe limits (some ((fileBytes d).set i b)) with
  | error fault =>
    refine ⟨fault, ?_⟩
    rw [deserializeDurableState, hunframe]
  | ok payload =>
    have hstored := checked_of_unframe hunframe
    rw [hlength, ← hbody] at hstored
    exact absurd hstored (checksum_ne_of_set hi hb)

/-! ## Both -/

/-- Every frame and every state file with a payload of fewer than `2 ^ 32` bytes is refused
after the change of one byte outside its length field, and every frame is exactly when the
limits allow no longer payload. -/
theorem corruption_refused_iff (limits : ProtocolLimits) (fileLimits : DecodeLimits) :
    (∀ frame : Wire.Frame, frame.payload.length < 2 ^ 32 → RefusesCorruptFrame limits frame) ∧
      ((∀ frame, RefusesCorruptFrame limits frame) ↔ limits.maxPayloadBytes < 2 ^ 32) ∧
      ∀ d, (writePayload d).length < 2 ^ 32 → RefusesCorruptFile fileLimits d := by
  refine ⟨fun frame => refusesCorruptFrame_of_lt, ⟨fun hall => ?_, fun hlimit frame => ?_⟩,
    fun d => refusesCorruptFile_of_lt⟩
  · by_contra hlimit
    exact not_refusesCorruptFrame limits (not_lt.mp hlimit) (hall _)
  · intro bytes hencode
    have hcarried := (encodeFrame_eq_ok_iff.mp hencode).2.1.trans_lt hlimit
    exact refusesCorruptFrame_of_lt hcarried bytes hencode

/-- A frame of two payload bytes, and the state file of an empty state. -/
theorem corruption_refused_witness :
    RefusesCorruptFrame {} { type := .reply, payload := [7, 0] } ∧ RefusesCorruptFile {} {} := by
  obtain ⟨hframe, _, hfile⟩ := corruption_refused_iff {} {}
  exact ⟨hframe _ (by decide), hfile _ (by decide +kernel)⟩

/-- With a payload limit of `2 ^ 32` bytes a frame of that length stays accepted when one of
its payload bytes changes. -/
theorem hollow_frame_accepted :
    ¬∀ frame, RefusesCorruptFrame { maxPayloadBytes := 2 ^ 32 } frame := by
  intro hall
  exact not_refusesCorruptFrame { maxPayloadBytes := 2 ^ 32 } le_rfl (hall _)

end LifecycleFabric.StateFile
