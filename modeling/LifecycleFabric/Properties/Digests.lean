import LifecycleFabric.Compression

/-!
# The digests are those of the standard

The hasher keeps the fold of compressions over the complete blocks it has taken, so how its
bytes were portioned does not show. What it appends on finishing is the padding of the standard,
in bytes.
-/

namespace LifecycleFabric

open ByteCodec (Bytes)
open BigEndian

/-! ## The hasher -/

namespace Sha256

variable (hasher : Sha256)

/-- Taking a byte folds the block it fills. -/
theorem push_eq (byte : UInt8) :
    ((hasher.push byte).state, (hasher.push byte).buffer) =
      Blocks.absorb 64 HashWords.compress (hasher.state, hasher.buffer) byte := by
  unfold push Blocks.absorb
  split_ifs <;> rfl

theorem count_push (length : ℕ) (byte : UInt8) :
    (hasher.count length).push byte = (hasher.push byte).count length := by
  unfold push count
  split_ifs <;> rfl

theorem count_foldl_push (length : ℕ) (data : Bytes) :
    data.foldl push (hasher.count length) = (data.foldl push hasher).count length := by
  induction data generalizing hasher with
  | nil => rfl
  | cons byte data ih => rw [List.foldl_cons, List.foldl_cons, count_push, ih]

theorem count_add (left right : ℕ) :
    (hasher.count left).count right = hasher.count (left + right) := by
  unfold count
  rw [UInt64.ofNat_add, UInt64.add_assoc]

theorem update_nil : hasher.update [] = hasher := by
  have hcount : hasher.totalBytes + UInt64.ofNat 0 = hasher.totalBytes :=
    UInt64.add_zero _
  rw [update, List.foldl_nil, count, List.length_nil, hcount]

/-- Taking two portions is taking them as one. -/
theorem update_append (left right : Bytes) :
    (hasher.update left).update right = hasher.update (left ++ right) := by
  unfold update
  rw [List.foldl_append, List.length_append, ← count_add, ← count_foldl_push]

/-- Bytes in portions are taken as if they came at once. -/
theorem foldl_update (portions : List Bytes) :
    portions.foldl update hasher = hasher.update portions.flatten := by
  induction portions generalizing hasher with
  | nil => exact (update_nil hasher).symm
  | cons portion portions ih => rw [List.foldl_cons, ih, update_append, List.flatten_cons]

theorem totalBytes_push (byte : UInt8) : (hasher.push byte).totalBytes = hasher.totalBytes := by
  unfold push
  split_ifs <;> rfl

theorem totalBytes_update (data : Bytes) :
    (hasher.update data).totalBytes = hasher.totalBytes + UInt64.ofNat data.length := by
  have hkept : ∀ (data : Bytes) (h : Sha256), (data.foldl push h).totalBytes = h.totalBytes := by
    intro data
    induction data with
    | nil => exact fun _ => rfl
    | cons byte data ih =>
      intro h
      rw [List.foldl_cons, ih, totalBytes_push]
  exact hkept data _

/-- Taking bytes folds the blocks they fill. -/
theorem update_eq (data : Bytes) :
    ((hasher.update data).state, (hasher.update data).buffer) =
      data.foldl (Blocks.absorb 64 HashWords.compress) (hasher.state, hasher.buffer) := by
  have hfold : ∀ (data : Bytes) (h : Sha256),
      ((data.foldl push h).state, (data.foldl push h).buffer) =
        data.foldl (Blocks.absorb 64 HashWords.compress) (h.state, h.buffer) := by
    intro data
    induction data with
    | nil => exact fun _ => rfl
    | cons byte data ih =>
      intro h
      rw [List.foldl_cons, List.foldl_cons, ih, push_eq]
  exact hfold data _

/-- A new hasher holds the fold over the blocks it was given, and the rest. -/
theorem start_update (data : Bytes) :
    (({} : Sha256).update data).state = (Blocks.blocks 64 data).foldl HashWords.compress {} ∧
      (({} : Sha256).update data).buffer = Blocks.rest 64 data := by
  have h := update_eq {} data
  rw [Blocks.foldl_absorb (by omega)] at h
  exact Prod.mk.inj h

/-- The zeros a hasher takes before the length. -/
theorem fill_eq :
    hasher.fill = hasher.update (List.replicate ((120 - hasher.buffer.length) % 64) 0) := by
  induction hasher using fill.induct with
  | case1 hasher hfull =>
    rw [fill, if_pos hfull, hfull]
    exact (update_nil hasher).symm
  | case2 hasher hroom ih =>
    have hlt := hasher.bufferShort
    have hnext : (hasher.update [0]).buffer.length = (hasher.buffer.length + 1) % 64 := by
      rw [update_singleton, length_buffer_push]
      rfl
    have hcount : (120 - hasher.buffer.length) % 64 =
        (120 - (hasher.update [0]).buffer.length) % 64 + 1 := by
      rw [hnext]
      omega
    rw [fill, if_neg hroom, ih, update_append, hcount]
    rfl

/-- A message with the padding of the hasher. -/
def padded (message : Bytes) : Bytes :=
  message ++ 0x80 :: (List.replicate ((120 - (message.length + 1) % 64) % 64) 0 ++
    lengthBytes (UInt64.ofNat message.length * 8))

/-- Finishing takes the padding. -/
theorem finish_eq (message : Bytes) :
    (({} : Sha256).update message).finish =
      ((Blocks.blocks 64 (padded message)).foldl HashWords.compress {}).bytes := by
  have htotal : (({} : Sha256).update message).totalBytes = UInt64.ofNat message.length := by
    rw [totalBytes_update]
    exact UInt64.zero_add _
  have hbuffer : (({} : Sha256).update (message ++ [0x80])).buffer.length =
      (message.length + 1) % 64 := by
    rw [(start_update _).2, Blocks.length_rest, List.length_append]
    rfl
  rw [finish, htotal, update_append, fill_eq, hbuffer, update_append, update_append,
    (start_update _).1]
  congr 3
  rw [padded, List.append_assoc]
  rfl

end Sha256

/-! ## Padding -/

theorem toNat_byte32 (word amount : UInt32) (h : amount.toNat < 32) :
    ((word >>> amount) &&& 0xff).toUInt8.toNat = word.toNat / 2 ^ amount.toNat % 2 ^ 8 := by
  rw [UInt32.toNat_toUInt8, UInt32.toNat_and, UInt32.toNat_shiftRight, Nat.mod_eq_of_lt h,
    Nat.shiftRight_eq_div_pow]
  have hmask := Nat.and_two_pow_sub_one_eq_mod (word.toNat / 2 ^ amount.toNat) 8
  exact (congrArg (· % 2 ^ 8) hmask).trans (Nat.mod_mod _ _)

theorem toNat_byte64 (word amount : UInt64) (h : amount.toNat < 64) :
    ((word >>> amount) &&& 0xff).toUInt8.toNat = word.toNat / 2 ^ amount.toNat % 2 ^ 8 := by
  rw [UInt64.toNat_toUInt8, UInt64.toNat_and, UInt64.toNat_shiftRight, Nat.mod_eq_of_lt h,
    Nat.shiftRight_eq_div_pow]
  have hmask := Nat.and_two_pow_sub_one_eq_mod (word.toNat / 2 ^ amount.toNat) 8
  exact (congrArg (· % 2 ^ 8) hmask).trans (Nat.mod_mod _ _)

theorem bitsOf_lengthBytes (length : UInt64) :
    bitsOf (Sha256.lengthBytes length) = toBits 64 length.toNat := by
  have hlist : ([7, 6, 5, 4, 3, 2, 1, 0] : List UInt64) =
      (List.range 8).reverse.map UInt64.ofNat := by decide
  have hbits := toBits_bytes 8 length.toNat
  rw [Sha256.lengthBytes, hlist, bitsOf, List.map_map, List.flatMap_map]
  refine Eq.trans (List.flatMap_congr fun i hi => ?_) hbits.symm
  have hlt : i < 8 := List.mem_range.mp (List.mem_reverse.mp hi)
  have hamount : (8 * UInt64.ofNat i).toNat = 8 * i := by
    rw [UInt64.toNat_mul, UInt64.toNat_ofNat']
    change 8 * (i % 2 ^ 64) % 2 ^ 64 = 8 * i
    omega
  rw [Function.comp_apply, toNat_byte64 _ _ (by omega), hamount, toBits_mod]

theorem bitsOf_wordBytes (word : UInt32) : bitsOf (wordBytes word) = toBits 32 word.toNat := by
  have hlast : (word &&& 0xff).toUInt8.toNat = word.toNat % 2 ^ 8 := by
    rw [UInt32.toNat_toUInt8, UInt32.toNat_and]
    have hmask := Nat.and_two_pow_sub_one_eq_mod word.toNat 8
    exact (congrArg (· % 2 ^ 8) hmask).trans (Nat.mod_mod _ _)
  have hbytes : toBits 32 word.toNat = toBits 8 (word.toNat / 2 ^ 24) ++
      (toBits 8 (word.toNat / 2 ^ 16) ++ (toBits 8 (word.toNat / 2 ^ 8) ++
        (toBits 8 (word.toNat / 2 ^ 0) ++ []))) :=
    toBits_bytes 4 word.toNat
  rw [hbytes, wordBytes, bitsOf, List.flatMap_cons, List.flatMap_cons, List.flatMap_cons,
    List.flatMap_cons, toNat_byte32 word 24 (by decide), toNat_byte32 word 16 (by decide),
    toNat_byte32 word 8 (by decide), hlast, toBits_mod, toBits_mod, toBits_mod, toBits_mod,
    pow_zero, Nat.div_one]
  rfl

/-- The padding of the hasher is the padding of the standard. -/
theorem bitsOf_padded {message : Bytes} (h : message.length < 2 ^ 61) :
    bitsOf (Sha256.padded message) = Fips180.pad (bitsOf message) := by
  have hone : toBits 8 (0x80 : UInt8).toNat = true :: List.replicate 7 false := by decide
  have hlength : (UInt64.ofNat message.length * 8).toNat = message.length * 8 := by
    rw [UInt64.toNat_mul, UInt64.toNat_ofNat_of_lt' (by rw [UInt64.size]; omega)]
    exact Nat.mod_eq_of_lt (by simp; omega)
  have hzeros : Fips180.padZeros (message.length * 8) =
      7 + (120 - (message.length + 1) % 64) % 64 * 8 := by
    rw [Fips180.padZeros_eq]
    omega
  have htail : bitsOf (0x80 :: (List.replicate ((120 - (message.length + 1) % 64) % 64) 0 ++
      Sha256.lengthBytes (UInt64.ofNat message.length * 8))) =
        (true :: List.replicate 7 false) ++
          (List.replicate ((120 - (message.length + 1) % 64) % 64 * 8) false ++
            toBits 64 (message.length * 8)) := by
    rw [← hlength, ← bitsOf_lengthBytes, ← bitsOf_zeros, ← bitsOf_append, ← hone]
    rfl
  rw [Sha256.padded, bitsOf_append, htail, Fips180.pad, length_bitsOf, hzeros, List.replicate_add,
    List.cons_append, List.append_assoc]

theorem bitsOf_bytes (state : HashWords) : bitsOf state.bytes = state.standard.bits := by
  have hwords : state.standard.words =
      [state.a, state.b, state.c, state.d, state.e, state.f, state.g, state.h].map
        UInt32.toBitVec := rfl
  rw [HashWords.bytes, Fips180.Words.bits, hwords, bitsOf, List.flatMap_assoc, List.flatMap_map]
  exact List.flatMap_congr fun word _ => bitsOf_wordBytes word

/-- Compressing blocks is what the standard does with their bits. -/
theorem standard_foldl_compress {blocks : List Bytes} (h : ∀ block ∈ blocks, block.length = 64)
    (state : HashWords) :
    (blocks.foldl HashWords.compress state).standard =
      (blocks.map bitsOf).foldl Fips180.Words.compress state.standard := by
  induction blocks generalizing state with
  | nil => rfl
  | cons block blocks ih =>
    obtain ⟨hblock, hrest⟩ := List.forall_mem_cons.mp h
    rw [List.foldl_cons, List.map_cons, List.foldl_cons, ih hrest,
      HashWords.standard_compress hblock]

/-- The digest of a message is its SHA-256. -/
theorem bitsOf_finish {message : Bytes} (h : message.length < 2 ^ 61) :
    bitsOf (({} : Sha256).update message).finish = Fips180.sha256 (bitsOf message) := by
  have hblocks : Blocks.blocks 512 (bitsOf (Sha256.padded message)) =
      (Blocks.blocks 64 (Sha256.padded message)).map bitsOf :=
    Blocks.blocks_flatMap (by omega) length_byteBits 64 _
  rw [Sha256.finish_eq, bitsOf_bytes, standard_foldl_compress fun _ => Blocks.length_of_mem_blocks,
    initialHash_eq, ← hblocks, bitsOf_padded h]
  rfl

/-! ## Files -/

theorem Sha256.update_if_empty (hasher : Sha256) (got : Bytes) :
    (if got.length = 0 then hasher else hasher.update got) = hasher.update got := by
  split_ifs with hempty
  · rw [List.length_eq_zero_iff.mp hempty, update_nil]
  · rfl

/-- Reading a file buffer by buffer takes its bytes. -/
theorem Sha256.updateFrom_eq (hasher : Sha256) (unread : Bytes) :
    hasher.updateFrom unread = hasher.update unread := by
  have hsize : 0 < readSize := by decide
  induction hlength : unread.length using Nat.strong_induction_on generalizing hasher unread with
  | _ length ih =>
    rw [updateFrom, update_if_empty]
    by_cases hlast : unread.length < readSize
    · rw [if_pos hlast, List.take_of_length_le hlast.le]
    · have hshorter : (unread.drop readSize).length < length := by
        rw [List.length_drop]
        omega
      rw [if_neg hlast, ih _ hshorter _ _ rfl, update_append, List.take_append_drop]

theorem computeBufferDigest_some (data : Bytes) :
    computeBufferDigest (some data) = text "sha256:" ++ hexOf (({} : Sha256).update data).finish := by
  cases data with
  | nil => rw [Sha256.update_nil]; rfl
  | cons byte rest => rfl

/-- The digest of a message shorter than 2^61 bytes is its SHA-256, in whatever portions a hasher
was given it; portions never matter, and a file has the digest of its contents. -/
theorem digests_are_standard :
    (∀ portions : List Bytes, portions.flatten.length < 2 ^ 61 →
        bitsOf (portions.foldl Sha256.update {}).finish =
          Fips180.sha256 (bitsOf portions.flatten)) ∧
      (∀ portions portions' : List Bytes, portions.flatten = portions'.flatten →
        (portions.foldl Sha256.update {}).finish = (portions'.foldl Sha256.update {}).finish) ∧
      (∀ contents, computeBufferDigest (some contents) =
        text "sha256:" ++ hexOf (({} : Sha256).update contents).finish) ∧
      ∀ contents, computeFileDigest (some { contents }) =
        some (computeBufferDigest (some contents)) := by
  refine ⟨fun portions hlength => ?_, fun portions portions' hsame => ?_, computeBufferDigest_some,
    fun contents => ?_⟩
  · rw [Sha256.foldl_update]
    exact bitsOf_finish hlength
  · rw [Sha256.foldl_update, Sha256.foldl_update, hsame]
  · rw [computeFileDigest, computeBufferDigest_some, Sha256.updateFrom_eq]
    rfl

/-- The example of the standard: the SHA-256 of three letters. -/
theorem digests_are_standard_abc :
    Fips180.sha256 (bitsOf (text "abc")) = toBits 256
      0xba7816bf8f01cfea414140de5dae2223b00361a396177a9cb410ff61f20015ad := by
  have hdigest := digests_are_standard.1 [text "a", text "bc"] (by decide)
  exact hdigest.symm.trans (by decide +kernel)

end LifecycleFabric
