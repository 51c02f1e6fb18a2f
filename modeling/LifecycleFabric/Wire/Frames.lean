import LifecycleFabric.Sessions
import LifecycleFabric.Wire.Checksum

/-!
# Frames

A frame is a fixed 16-byte header, a bounded payload, and a trailing CRC-32 over everything
before it. Decoding validates magic, version, type, length, truncation and integrity before
any message is interpreted.
-/

namespace LifecycleFabric.Wire

open ByteCodec

/-- Frame header size in bytes: magic, version, type, flags and length. -/
def kFrameHeaderSize : ℕ := 16

/-- Trailing integrity check size in bytes. -/
def kFrameTrailerSize : ℕ := 4

/-- The first bytes of every frame. -/
def kFrameMagic : Bytes := text "MLFP"

/-- The number of message types. -/
def kMessageTypeCount : ℕ := 30

/-- Message type. A type is a 16-bit number, so that one without a name can exist. -/
inductive MessageType
  | hello | helloAck | registerWorker | registerModel | registerVersion | publishCompatibility
  | publishReadiness | publishHealth | requestWarm | requestActivate | requestDrain
  | requestRollback | ackAttempt | publishCompletion | queryState | queryAuthority | fence
  | promote | registerRolloutPlan | beginRollout | advanceStage | failStage | retire
  | revalidate | rollback | reconcile | supersedeRollout | reply | command | registerScope
  | invalid (raw : UInt16) (unnamed : raw = 0 ∨ 30 < raw)
  deriving DecidableEq

namespace MessageType

/-- The named types, in order of their numbers, the first of which is one. -/
def named : List MessageType :=
  [.hello, .helloAck, .registerWorker, .registerModel, .registerVersion, .publishCompatibility,
    .publishReadiness, .publishHealth, .requestWarm, .requestActivate, .requestDrain,
    .requestRollback, .ackAttempt, .publishCompletion, .queryState, .queryAuthority, .fence,
    .promote, .registerRolloutPlan, .beginRollout, .advanceStage, .failStage, .retire,
    .revalidate, .rollback, .reconcile, .supersedeRollout, .reply, .command, .registerScope]

/-- The number of a type. -/
def code : MessageType → UInt16
  | .invalid raw _ => raw
  | type => UInt16.ofNat (type.ctorIdx + 1)

/-- The type cast from a number. -/
def ofCode (raw : UInt16) : MessageType :=
  if h : raw = 0 ∨ 30 < raw then .invalid raw h else named.getD (raw.toNat - 1) .hello

/-- Whether a type has a name. -/
def isKnown : MessageType → Bool
  | .invalid _ _ => false
  | _ => true

theorem code_of_isKnown {type : MessageType} (h : type.isKnown = true) :
    1 ≤ type.code.toNat ∧ type.code.toNat ≤ kMessageTypeCount ∧ ofCode type.code = type := by
  cases type with
  | invalid raw unnamed => exact absurd h Bool.false_ne_true
  | _ => decide

theorem isKnown_of_code {type : MessageType} (hpos : type.code.toNat ≠ 0)
    (hcount : type.code.toNat ≤ kMessageTypeCount) : type.isKnown = true := by
  cases type with
  | invalid raw unnamed =>
    exfalso
    rcases unnamed with rfl | hraw
    · exact hpos rfl
    · exact absurd (UInt16.lt_iff_toNat_lt.mp hraw) (Nat.not_lt.mpr hcount)
  | _ => rfl

end MessageType

/-- What a step of the protocol reports. -/
inductive ProtocolStatus
  | ok | needMoreData | wrongMagic | unsupportedVersion | unknownType | oversized | truncated
  | integrityFailure | decodeFailure | encodeFailure | ioError | tooManyPending | closed
  deriving DecidableEq

/-- A frame on the wire. -/
structure Frame where
  type : MessageType := .hello
  flags : UInt32 := 0
  payload : Bytes := []
  deriving DecidableEq

/-! ## Encoding -/

/-- The bytes of a frame before its payload. -/
def frameHeader (limits : ProtocolLimits) (frame : Frame) : Bytes :=
  [kFrameMagic, word 2 limits.version.toNat, word 2 frame.type.code.toNat,
    word 4 frame.flags.toNat, word 4 frame.payload.length].flatten

/-- Encode a frame. -/
def encodeFrame (limits : ProtocolLimits) (frame : Frame) : Except ProtocolStatus Bytes :=
  if limits.maxPayloadBytes < frame.payload.length then .error .oversized
  else if frame.type.code.toNat = 0 ∨ kMessageTypeCount < frame.type.code.toNat then
    .error .unknownType
  else .ok (sealFrame (frameHeader limits frame ++ frame.payload))

/-! ## Decoding -/

/-- What decoding returns: a status, the frame passed in or the one decoded, and the number of
bytes consumed. -/
structure FrameRead where
  status : ProtocolStatus
  out : Frame
  consumed : ℕ := 0
  deriving DecidableEq

/-- Decode the frame at the front of a buffer. A null buffer is absent. -/
def decodeFrame (data : Option Bytes) (limits : ProtocolLimits) (out : Frame) : FrameRead :=
  match data with
  | none => { status := .decodeFailure, out }
  | some data =>
    if data.length < kFrameHeaderSize then { status := .needMoreData, out }
    else if data.take 4 ≠ kFrameMagic then { status := .wrongMagic, out }
    else
      let version := readAt data 4 2
      let type := readAt data 6 2
      let flags := readAt data 8 4
      let length := readAt data 12 4
      if version ≠ limits.version.toNat then { status := .unsupportedVersion, out }
      else if type = 0 ∨ kMessageTypeCount < type then { status := .unknownType, out }
      else if limits.maxPayloadBytes < length then { status := .oversized, out }
      else
        let framed := kFrameHeaderSize + length
        let total := framed + kFrameTrailerSize
        if data.length < total then { status := .needMoreData, out }
        else if readAt data framed 4 ≠ (crc32 (data.take framed)).toNat then
          { status := .integrityFailure, out }
        else
          { status := .ok
            out :=
              { type := .ofCode (UInt16.ofNat type)
                flags := UInt32.ofNat flags
                payload := (data.drop kFrameHeaderSize).take length }
            consumed := total }

/-! ## Headers -/

section Headers

variable (limits : ProtocolLimits) (frame : Frame) (tail : Bytes)

@[simp] theorem length_frameHeader : (frameHeader limits frame).length = kFrameHeaderSize := by
  simp [frameHeader, kFrameMagic, text, kFrameHeaderSize]

/-- The fields of a header are read back. -/
theorem readAt_frameHeader :
    (frameHeader limits frame ++ tail).take 4 = kFrameMagic ∧
      readAt (frameHeader limits frame ++ tail) 4 2 = limits.version.toNat ∧
      readAt (frameHeader limits frame ++ tail) 6 2 = frame.type.code.toNat ∧
      readAt (frameHeader limits frame ++ tail) 8 4 = frame.flags.toNat ∧
      readAt (frameHeader limits frame ++ tail) 12 4 = frame.payload.length % 2 ^ 32 := by
  have hversion : limits.version.toNat < 256 ^ 2 := limits.version.toNat_lt
  have htype : frame.type.code.toNat < 256 ^ 2 := frame.type.code.toNat_lt
  have hflags : frame.flags.toNat < 256 ^ 4 := frame.flags.toNat_lt
  have hmagic : kFrameMagic.length = 4 := rfl
  have hdata : frameHeader limits frame ++ tail = kFrameMagic ++ (word 2 limits.version.toNat ++
      (word 2 frame.type.code.toNat ++ (word 4 frame.flags.toNat ++
        (word 4 frame.payload.length ++ tail)))) := by
    simp [frameHeader]
  refine ⟨?_, ?_, ?_, ?_, ?_⟩
  · rw [hdata]
    rfl
  · rw [hdata, readAt_append hmagic, Nat.mod_eq_of_lt hversion]
  · rw [hdata, ← List.append_assoc, readAt_append (by simp [hmagic]),
      Nat.mod_eq_of_lt htype]
  · rw [hdata, ← List.append_assoc, ← List.append_assoc,
      readAt_append (by simp [hmagic]), Nat.mod_eq_of_lt hflags]
  · rw [hdata, ← List.append_assoc, ← List.append_assoc, ← List.append_assoc,
      readAt_append (by simp [hmagic])]
    norm_num

end Headers

/-! ## What decoding establishes -/

section Decoding

variable {limits : ProtocolLimits} {data : Bytes} {out : Frame}

/-- Behind a good header, only the size and the checksum remain to be checked. -/
theorem decodeFrame_of_header (out : Frame) {frame : Frame} (hknown : frame.type.isKnown = true)
    (hlimit : frame.payload.length % 2 ^ 32 ≤ limits.maxPayloadBytes) (tail : Bytes) :
    let data := frameHeader limits frame ++ tail
    let framed := kFrameHeaderSize + frame.payload.length % 2 ^ 32
    decodeFrame (some data) limits out =
      if data.length < framed + kFrameTrailerSize then { status := .needMoreData, out }
      else if readAt data framed 4 ≠ (crc32 (data.take framed)).toNat then
        { status := .integrityFailure, out }
      else
        { status := .ok
          out :=
            { frame with
              payload := (data.drop kFrameHeaderSize).take (frame.payload.length % 2 ^ 32) }
          consumed := framed + kFrameTrailerSize } := by
  obtain ⟨hmagic, hversion, htype, hflags, hlength⟩ := readAt_frameHeader limits frame tail
  obtain ⟨hpos, hcount, hcode⟩ := MessageType.code_of_isKnown hknown
  have hsize : ¬(frameHeader limits frame ++ tail).length < kFrameHeaderSize := by
    rw [List.length_append, length_frameHeader]
    omega
  dsimp only [decodeFrame]
  rw [if_neg hsize, if_neg (not_not_intro hmagic), hversion, htype, hflags, hlength,
    if_neg (not_not_intro rfl), if_neg (by omega), if_neg (by omega)]
  rw [UInt16.ofNat_toNat, UInt32.ofNat_toNat, hcode]

/-- A frame that is decoded is complete and passes its checksum. -/
theorem checked_of_ok (h : (decodeFrame (some data) limits out).status = .ok) :
    let framed := kFrameHeaderSize + readAt data 12 4
    framed + kFrameTrailerSize ≤ data.length ∧
      readAt data framed 4 = (crc32 (data.take framed)).toNat := by
  dsimp only [decodeFrame] at h
  split_ifs at h with h1 h2 h3 h4 h5 h6 h7
  exact ⟨not_lt.mp h6, not_not.mp h7⟩

/-- More data is asked for only where a header or what it announces is missing. -/
theorem incomplete_of_needMoreData
    (h : (decodeFrame (some data) limits out).status = .needMoreData) :
    data.length < kFrameHeaderSize + readAt data 12 4 + kFrameTrailerSize := by
  dsimp only [decodeFrame] at h
  split_ifs at h with h1 h2 h3 h4 h5 h6 h7
  · omega
  · exact h6

/-- Decoding consumes no more than there is, and nothing where it fails. -/
theorem consumed_decodeFrame (buffer : Option Bytes) :
    (decodeFrame buffer limits out).consumed ≤ (buffer.getD []).length ∧
      ((decodeFrame buffer limits out).consumed ≠ 0 →
        (decodeFrame buffer limits out).status = .ok) := by
  cases buffer with
  | none => exact ⟨le_rfl, fun h => absurd rfl h⟩
  | some data =>
    dsimp only [decodeFrame, Option.getD_some]
    split_ifs with h1 h2 h3 h4 h5 h6 h7
    case neg => exact ⟨not_lt.mp h6, fun _ => rfl⟩
    all_goals exact ⟨Nat.zero_le _, fun h => absurd rfl h⟩

end Decoding

end LifecycleFabric.Wire
