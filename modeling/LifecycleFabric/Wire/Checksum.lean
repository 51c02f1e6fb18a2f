import LifecycleFabric.Lib.ByteCodec
import LifecycleFabric.Lib.Crc

/-!
# The integrity check of frames and state files

CRC-32 by a table of the shifts of each byte.
-/

namespace LifecycleFabric

open ByteCodec

/-! ## Table -/

/-- One bit of a table entry. -/
def crcShift (value : BitVec 32) : BitVec 32 :=
  if value &&& 1#32 ≠ 0#32 then 0xEDB88320#32 ^^^ (value >>> 1) else value >>> 1

/-- The table entry of an index: eight bits of it shifted out. -/
def crcTableEntry (index : BitVec 32) : BitVec 32 := crcShift^[8] index

/-- Sixteen entries of the table. -/
def crcRow (n : ℕ) : List (BitVec 32) :=
  (List.range 16).map fun k => crcTableEntry (BitVec.ofNat 32 (n * 16 + k))

/-- The table of the 256 byte values. -/
def crcTable : List (BitVec 32) := (List.range 16).flatMap crcRow

/-! ## Checksum -/

/-- The checksum after one more byte. -/
def crcUpdate (value : BitVec 32) (byte : UInt8) : BitVec 32 :=
  crcTable.getD ((value ^^^ byte.toBitVec.setWidth 32) &&& 0xFF#32).toNat 0#32 ^^^ (value >>> 8)

/-- CRC-32 of a byte string. -/
def crc32 (bytes : Bytes) : BitVec 32 :=
  bytes.foldl crcUpdate 0xFFFFFFFF#32 ^^^ 0xFFFFFFFF#32

/-- Bytes with their checksum behind them. -/
def sealFrame (body : Bytes) : Bytes := body ++ word 4 (crc32 body).toNat

example : crc32 [0x31, 0x32, 0x33, 0x34, 0x35, 0x36, 0x37, 0x38, 0x39] = 0xCBF43926#32 := by
  decide +kernel

/-! ## The table agrees with the polynomial -/

/-- The polynomial of CRC-32, least significant bit first. -/
def crcPolynomial : BitVec 32 := 0xEDB88320#32

theorem crcShift_eq (value : BitVec 32) : crcShift value = Crc.shift crcPolynomial value := by
  have hlow : (value &&& 1#32 ≠ 0#32) ↔ value.getLsbD 0 = true := by
    rw [BitVec.and_one_eq_setWidth_ofBool_getLsbD]
    cases value.getLsbD 0 <;> decide
  unfold crcShift Crc.shift
  exact if_congr hlow rfl rfl

theorem crcTableEntry_eq (index : BitVec 32) :
    crcTableEntry index = (Crc.shift crcPolynomial)^[8] index := by
  rw [crcTableEntry, show crcShift = Crc.shift crcPolynomial from funext crcShift_eq]

/-- The first rows hold the first indices. -/
theorem flatMap_crcRow (rows : ℕ) :
    (List.range rows).flatMap crcRow =
      (List.range (rows * 16)).map fun n => crcTableEntry (BitVec.ofNat 32 n) := by
  induction rows with
  | zero => rfl
  | succ rows ih =>
    rw [List.range_succ, List.flatMap_append, ih, List.flatMap_singleton, Nat.succ_mul,
      List.range_add, List.map_append, List.map_map]
    rfl

theorem crcTable_eq :
    crcTable = (List.range 256).map fun n => crcTableEntry (BitVec.ofNat 32 n) :=
  flatMap_crcRow 16

theorem crcTable_getD {index : BitVec 32} (h : index.toNat < 256) :
    crcTable.getD index.toNat 0#32 = crcTableEntry index := by
  rw [crcTable_eq, List.getD_eq_getElem?_getD, List.getElem?_map, List.getElem?_range h]
  simp

/-- The table-driven step is the step of the polynomial. -/
theorem crcUpdate_eq (value : BitVec 32) (byte : UInt8) :
    crcUpdate value byte = Crc.feed crcPolynomial value byte := by
  have hmask : ∀ i < 32, (0xFF#32).getLsbD i = decide (i < 8) := by decide
  have hindex : ((value ^^^ byte.toBitVec.setWidth 32) &&& 0xFF#32).toNat < 256 := by
    rw [BitVec.toNat_and]
    exact Nat.lt_succ_of_le Nat.and_le_right
  rw [Crc.feed_eq_table _ hmask, crcUpdate, crcTable_getD hindex, crcTableEntry_eq]

theorem crc32_eq (bytes : Bytes) :
    crc32 bytes = Crc.remainder crcPolynomial 0xFFFFFFFF#32 bytes ^^^ 0xFFFFFFFF#32 := by
  rw [crc32, Crc.remainder,
    show crcUpdate = Crc.feed crcPolynomial from funext₂ crcUpdate_eq]

/-- Byte strings that differ in one byte have different checksums. -/
theorem crc32_ne_of_byte (bytes rest : Bytes) {b c : UInt8} (hbc : b ≠ c) :
    crc32 (bytes ++ b :: rest) ≠ crc32 (bytes ++ c :: rest) := by
  intro h
  rw [crc32_eq, crc32_eq] at h
  exact Crc.remainder_ne (by decide) (by decide) _ bytes rest hbc (BitVec.xor_left_inj _ |>.mp h)

/-! ## Sealed bytes -/

@[simp] theorem length_sealFrame (body : Bytes) :
    (sealFrame body).length = body.length + 4 := by
  simp [sealFrame]

/-- The checksum is read at the end of the bytes it is behind. -/
theorem readAt_sealFrame (body rest : Bytes) :
    readAt (sealFrame body ++ rest) body.length 4 = (crc32 body).toNat := by
  have hchecksum : (crc32 body).toNat < 256 ^ 4 := (crc32 body).isLt
  rw [sealFrame, List.append_assoc, readAt_append rfl, Nat.mod_eq_of_lt hchecksum]

theorem crc32_set_ne {bytes : Bytes} {i : ℕ} {b : UInt8} (hi : i < bytes.length)
    (hb : bytes[i] ≠ b) : crc32 (bytes.set i b) ≠ crc32 bytes := by
  have hbytes : bytes = bytes.take i ++ bytes[i] :: bytes.drop (i + 1) := by simp
  have hset : bytes.set i b = bytes.take i ++ b :: bytes.drop (i + 1) := by
    rw [List.set_eq_take_append_cons_drop, if_pos hi]
  rw [hset]
  conv_rhs => rw [hbytes]
  exact crc32_ne_of_byte _ _ hb.symm

/-- After a change of any byte the checksum does not match. -/
theorem checksum_ne_of_set {body : Bytes} {i : ℕ} {b : UInt8}
    (hi : i < (sealFrame body).length) (hb : (sealFrame body)[i] ≠ b) :
    readAt ((sealFrame body).set i b) body.length 4 ≠
      (crc32 (((sealFrame body).set i b).take body.length)).toNat := by
  have htake : (sealFrame body).take body.length = body := List.take_left
  have hstored := readAt_sealFrame body []
  rw [List.append_nil] at hstored
  by_cases hbody : i < body.length
  · have hbyte : body[i] ≠ b := by
      have hget : (sealFrame body)[i] = body[i] := List.getElem_append_left hbody
      rwa [hget] at hb
    rw [readAt_set (Or.inl hbody), hstored, List.take_set, htake]
    intro h
    exact crc32_set_ne hbody hbyte (BitVec.eq_of_toNat_eq h).symm
  · rw [List.take_set_of_le (not_lt.mp hbody), htake, ← hstored]
    intro h
    have hsame : ((sealFrame body).set i b).drop body.length =
        (sealFrame body).drop body.length := by
      have hwhole := ofWord_injective (by simp) h
      rwa [List.take_of_length_le (by simp), List.take_of_length_le (by simp)] at hwhole
    have hget : ((sealFrame body).set i b)[i]? = (sealFrame body)[i]? := by
      have hdrop := congrArg (·[i - body.length]?) hsame
      rw [List.getElem?_drop, List.getElem?_drop, Nat.add_sub_cancel' (not_lt.mp hbody)] at hdrop
      exact hdrop
    rw [List.getElem?_set_self hi, List.getElem?_eq_getElem hi] at hget
    exact hb (Option.some.inj hget).symm

end LifecycleFabric
