import LifecycleFabric.Artifact
import LifecycleFabric.Lib.ByteCodec

/-!
# Content digests

Artifact identity is a SHA-256 content digest. The hasher takes bytes in any portions, keeps a
partial block of fewer than 64, and compresses each block as it fills. A file is read through a
buffer of 64 KiB.
-/

namespace LifecycleFabric

open ByteCodec (Bytes)

/-- The constants of the rounds. -/
def sha256K : List UInt32 :=
  [
    0x428a2f98, 0x71374491, 0xb5c0fbcf, 0xe9b5dba5, 0x3956c25b, 0x59f111f1, 0x923f82a4,
    0xab1c5ed5, 0xd807aa98, 0x12835b01, 0x243185be, 0x550c7dc3, 0x72be5d74, 0x80deb1fe,
    0x9bdc06a7, 0xc19bf174, 0xe49b69c1, 0xefbe4786, 0x0fc19dc6, 0x240ca1cc, 0x2de92c6f,
    0x4a7484aa, 0x5cb0a9dc, 0x76f988da, 0x983e5152, 0xa831c66d, 0xb00327c8, 0xbf597fc7,
    0xc6e00bf3, 0xd5a79147, 0x06ca6351, 0x14292967, 0x27b70a85, 0x2e1b2138, 0x4d2c6dfc,
    0x53380d13, 0x650a7354, 0x766a0abb, 0x81c2c92e, 0x92722c85, 0xa2bfe8a1, 0xa81a664b,
    0xc24b8b70, 0xc76c51a3, 0xd192e819, 0xd6990624, 0xf40e3585, 0x106aa070, 0x19a4c116,
    0x1e376c08, 0x2748774c, 0x34b0bcb5, 0x391c0cb3, 0x4ed8aa4a, 0x5b9cca4f, 0x682e6ff3,
    0x748f82ee, 0x78a5636f, 0x84c87814, 0x8cc70208, 0x90befffa, 0xa4506ceb, 0xbef9a3f7,
    0xc67178f2]

/-- Rotate a word to the right. -/
def rotr (value amount : UInt32) : UInt32 :=
  (value >>> amount) ||| (value <<< ((32 - amount) &&& 31))

/-- The eight words of a state, or the working variables of its compression. -/
structure HashWords where
  a : UInt32 := 0x6a09e667
  b : UInt32 := 0xbb67ae85
  c : UInt32 := 0x3c6ef372
  d : UInt32 := 0xa54ff53a
  e : UInt32 := 0x510e527f
  f : UInt32 := 0x9b05688c
  g : UInt32 := 0x1f83d9ab
  h : UInt32 := 0x5be0cd19
  deriving DecidableEq

/-- A big-endian word of a block. -/
def loadWord (block : Bytes) (i : ℕ) : UInt32 :=
  block[i * 4 + 0]!.toUInt32 <<< 24 ||| block[i * 4 + 1]!.toUInt32 <<< 16 |||
    block[i * 4 + 2]!.toUInt32 <<< 8 ||| block[i * 4 + 3]!.toUInt32

/-- The big-endian bytes of a word. -/
def wordBytes (word : UInt32) : Bytes :=
  [((word >>> 24) &&& 0xff).toUInt8, ((word >>> 16) &&& 0xff).toUInt8,
    ((word >>> 8) &&& 0xff).toUInt8, (word &&& 0xff).toUInt8]

/-- One more word of the message schedule. -/
def expandWord (w : Array UInt32) (i : ℕ) : Array UInt32 :=
  let s0 := rotr w[i - 15]! 7 ^^^ rotr w[i - 15]! 18 ^^^ (w[i - 15]! >>> 3)
  let s1 := rotr w[i - 2]! 17 ^^^ rotr w[i - 2]! 19 ^^^ (w[i - 2]! >>> 10)
  w.push (w[i - 16]! + s0 + w[i - 7]! + s1)

/-- The message schedule of a block. -/
def expandBlock (block : Bytes) : Array UInt32 :=
  (List.range' 16 48).foldl expandWord ((List.range 16).map (loadWord block)).toArray

namespace HashWords

/-- One round of a compression. -/
def round (w : Array UInt32) (v : HashWords) (i : ℕ) : HashWords :=
  let s1 := rotr v.e 6 ^^^ rotr v.e 11 ^^^ rotr v.e 25
  let ch := (v.e &&& v.f) ^^^ (~~~v.e &&& v.g)
  let temp1 := v.h + s1 + ch + sha256K[i]! + w[i]!
  let s0 := rotr v.a 2 ^^^ rotr v.a 13 ^^^ rotr v.a 22
  let maj := (v.a &&& v.b) ^^^ (v.a &&& v.c) ^^^ (v.b &&& v.c)
  let temp2 := s0 + maj
  { h := v.g, g := v.f, f := v.e, e := v.d + temp1, d := v.c, c := v.b, b := v.a
    a := temp1 + temp2 }

/-- Compress a block into a state. -/
def compress (state : HashWords) (block : Bytes) : HashWords :=
  let v := (List.range 64).foldl (round (expandBlock block)) state
  { a := state.a + v.a, b := state.b + v.b, c := state.c + v.c, d := state.d + v.d
    e := state.e + v.e, f := state.f + v.f, g := state.g + v.g, h := state.h + v.h }

/-- The bytes of a state. -/
def bytes (state : HashWords) : Bytes :=
  [state.a, state.b, state.c, state.d, state.e, state.f, state.g, state.h].flatMap wordBytes

end HashWords

/-- A hasher. -/
structure Sha256 where
  state : HashWords := {}
  totalBytes : UInt64 := 0
  buffer : Bytes := []
  /-- A block is compressed as soon as it is full. -/
  bufferShort : buffer.length < 64 := by decide

namespace Sha256

/-- Take one byte into the buffer, and compress the block it fills. -/
def push (hasher : Sha256) (byte : UInt8) : Sha256 :=
  if h : hasher.buffer.length + 1 = 64 then
    { hasher with
      state := hasher.state.compress (hasher.buffer ++ [byte])
      buffer := []
      bufferShort := by decide }
  else
    { hasher with
      buffer := hasher.buffer ++ [byte]
      bufferShort := by
        have hlt := hasher.bufferShort
        rw [List.length_append, List.length_singleton]
        omega }

/-- Count bytes that are about to be taken. -/
def count (hasher : Sha256) (length : ℕ) : Sha256 :=
  { hasher with totalBytes := hasher.totalBytes + UInt64.ofNat length }

/-- Take a portion of bytes. -/
def update (hasher : Sha256) (data : Bytes) : Sha256 :=
  data.foldl push (hasher.count data.length)

theorem length_buffer_push (hasher : Sha256) (byte : UInt8) :
    (hasher.push byte).buffer.length = (hasher.buffer.length + 1) % 64 := by
  have hlt := hasher.bufferShort
  unfold push
  split_ifs with hfull
  · rw [hfull]
    rfl
  · dsimp only
    rw [List.length_append, List.length_singleton, Nat.mod_eq_of_lt (by omega)]

theorem update_singleton (hasher : Sha256) (byte : UInt8) :
    hasher.update [byte] = (hasher.count 1).push byte :=
  rfl

/-- Take zeros until there is room for exactly the length. -/
def fill (hasher : Sha256) : Sha256 :=
  if hasher.buffer.length = 56 then hasher else fill (hasher.update [0])
termination_by (120 - hasher.buffer.length) % 64
decreasing_by
  have hlt := hasher.bufferShort
  have hnext : (hasher.update [0]).buffer.length = (hasher.buffer.length + 1) % 64 := by
    rw [update_singleton, length_buffer_push]
    rfl
  rw [hnext]
  omega

/-- The big-endian bytes of a length in bits. -/
def lengthBytes (bitLength : UInt64) : Bytes :=
  [7, 6, 5, 4, 3, 2, 1, 0].map fun i : UInt64 => ((bitLength >>> (8 * i)) &&& 0xff).toUInt8

/-- Pad what was taken, and give the digest. -/
def finish (hasher : Sha256) : Bytes :=
  ((hasher.update [0x80]).fill.update (lengthBytes (hasher.totalBytes * 8))).state.bytes

end Sha256

/-- The digits of a digest. -/
def hexOf (digest : Bytes) : Text :=
  digest.flatMap fun byte : UInt8 =>
    [(text "0123456789abcdef")[(byte >>> 4).toNat]!,
      (text "0123456789abcdef")[(byte &&& 0x0f).toNat]!]

/-- The digest of the bytes of a buffer; a null pointer has none. -/
def computeBufferDigest (data : Option Bytes) : Text :=
  let hasher : Sha256 :=
    match data with
    | some (byte :: rest) => ({} : Sha256).update (byte :: rest)
    | _ => {}
  text "sha256:" ++ hexOf hasher.finish

/-- A file that was opened: the bytes it yields, and whether an error ended them. -/
structure InputFile where
  contents : Bytes
  bad : Bool := false

/-- How much is read at once. -/
def readSize : ℕ := 64 * 1024

/-- Read buffer after buffer, until a read comes short. -/
def Sha256.updateFrom (hasher : Sha256) (unread : Bytes) : Sha256 :=
  let got := unread.take readSize
  let next := if got.length = 0 then hasher else hasher.update got
  if unread.length < readSize then next else updateFrom next (unread.drop readSize)
termination_by unread.length
decreasing_by
  rename_i hlong
  rw [List.length_drop]
  have hsize : 0 < readSize := by decide
  omega

/-- The digest of a file; none when it cannot be opened, or its reading ends in an error. -/
def computeFileDigest (file : Option InputFile) : Option Text :=
  match file with
  | none => none
  | some file =>
    let hasher := ({} : Sha256).updateFrom file.contents
    if file.bad then none else some (text "sha256:" ++ hexOf hasher.finish)

end LifecycleFabric
