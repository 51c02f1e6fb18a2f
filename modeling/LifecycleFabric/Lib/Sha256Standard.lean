import LifecycleFabric.Lib.BigEndian
import LifecycleFabric.Lib.Blocks
import Mathlib.Analysis.SpecialFunctions.Pow.NthRootLemmas
import Mathlib.Data.Nat.ModEq
import Mathlib.Data.Nat.Nth
import Mathlib.Data.Nat.Prime.Defs
import Mathlib.Order.ConditionallyCompleteLattice.Basic

/-!
# The SHA-256 of FIPS 180-4

The hash of a message of bits, in the terms of the standard: words of 32 bits, constants that
are fractional parts of roots of primes, a padded message parsed into blocks of 512 bits, and
64 rounds for each block. Section numbers are those of the standard.
-/

namespace Fips180

open BigEndian

/-- A word of 32 bits; addition is modulo 2^32. -/
abbrev Word := BitVec 32

/-! ## Functions (4.1.2) -/

def ch (x y z : Word) : Word := (x &&& y) ^^^ (~~~x &&& z)

def maj (x y z : Word) : Word := (x &&& y) ^^^ (x &&& z) ^^^ (y &&& z)

def bigSigma0 (x : Word) : Word := x.rotateRight 2 ^^^ x.rotateRight 13 ^^^ x.rotateRight 22

def bigSigma1 (x : Word) : Word := x.rotateRight 6 ^^^ x.rotateRight 11 ^^^ x.rotateRight 25

def smallSigma0 (x : Word) : Word := x.rotateRight 7 ^^^ x.rotateRight 18 ^^^ x >>> 3

def smallSigma1 (x : Word) : Word := x.rotateRight 17 ^^^ x.rotateRight 19 ^^^ x >>> 10

/-! ## Constants (4.2.2, 5.3.3) -/

/-- The first 32 bits of the fractional part of a root of a number. -/
def rootWord (degree n : ℕ) : Word := BitVec.ofNat 32 (Nat.nthRoot degree (n * 2 ^ (32 * degree)))

/-- The constant of a round, from the cube root of a prime. -/
noncomputable def roundConstant (t : ℕ) : Word := rootWord 3 (Nat.nth Nat.Prime t)

/-- The words a hash starts from, from the square root of a prime. -/
noncomputable def initialWord (i : ℕ) : Word := rootWord 2 (Nat.nth Nat.Prime i)

/-! ## Preprocessing (5.1.1, 5.2.1) -/

/-- How many zeros pad a message: as few as leave room for a length of 64 bits. -/
noncomputable def padZeros (length : ℕ) : ℕ := sInf {k | length + 1 + k ≡ 448 [MOD 512]}

/-- A message behind which stand a one, zeros, and its length. -/
noncomputable def pad (message : List Bool) : List Bool :=
  message ++ true :: (List.replicate (padZeros message.length) false ++ toBits 64 message.length)

/-- A word of a block. -/
def blockWord (block : List Bool) (i : ℕ) : Word :=
  BitVec.ofNat 32 (ofBits ((block.drop (i * 32)).take 32))

/-! ## Computation (6.2.2) -/

/-- The message schedule of a block. -/
def schedule (block : List Bool) (t : ℕ) : Word :=
  if t < 16 then blockWord block t
  else smallSigma1 (schedule block (t - 2)) + schedule block (t - 7) +
    smallSigma0 (schedule block (t - 15)) + schedule block (t - 16)
termination_by t

/-- Eight words: those of a hash value, or the working variables. -/
@[ext]
structure Words where
  a : Word
  b : Word
  c : Word
  d : Word
  e : Word
  f : Word
  g : Word
  h : Word

namespace Words

/-- One round. -/
def round (constant word : Word) (v : Words) : Words :=
  let t1 := v.h + bigSigma1 v.e + ch v.e v.f v.g + constant + word
  let t2 := bigSigma0 v.a + maj v.a v.b v.c
  ⟨t1 + t2, v.a, v.b, v.c, v.d + t1, v.e, v.f, v.g⟩

/-- The working variables after a number of rounds. -/
noncomputable def rounds (block : List Bool) (v : Words) (count : ℕ) : Words :=
  (List.range count).foldl (fun v t => v.round (roundConstant t) (schedule block t)) v

/-- Sums word by word. -/
def add (v w : Words) : Words :=
  ⟨v.a + w.a, v.b + w.b, v.c + w.c, v.d + w.d, v.e + w.e, v.f + w.f, v.g + w.g, v.h + w.h⟩

/-- The hash value after a block. -/
noncomputable def compress (hash : Words) (block : List Bool) : Words :=
  (hash.rounds block 64).add hash

/-- The words in order. -/
def words (v : Words) : List Word := [v.a, v.b, v.c, v.d, v.e, v.f, v.g, v.h]

/-- The words side by side, each most significant bit first. -/
def bits (v : Words) : List Bool := v.words.flatMap fun word => toBits 32 word.toNat

end Words

/-- The hash value a message starts from. -/
noncomputable def initialHash : Words :=
  ⟨initialWord 0, initialWord 1, initialWord 2, initialWord 3, initialWord 4, initialWord 5,
    initialWord 6, initialWord 7⟩

/-- The SHA-256 of a message. -/
noncomputable def sha256 (message : List Bool) : List Bool :=
  ((Blocks.blocks 512 (pad message)).foldl Words.compress initialHash).bits

/-! ## Evaluation -/

/-- The padding zeros are the fewest that fill the last block. -/
theorem padZeros_eq (length : ℕ) : padZeros length = (959 - length % 512) % 512 := by
  have hlt := Nat.mod_lt length (by omega : 0 < 512)
  have hleast : IsLeast {k | length + 1 + k ≡ 448 [MOD 512]} ((959 - length % 512) % 512) := by
    constructor
    · change (length + 1 + (959 - length % 512) % 512) % 512 = 448 % 512
      omega
    · intro k hk
      change (length + 1 + k) % 512 = 448 % 512 at hk
      omega
  exact hleast.csInf_eq

/-- The numbers of a range that pass a test are enumerated in order. -/
theorem nth_eq_getElem {test : ℕ → Bool} (n : ℕ) {t : ℕ}
    (ht : t < ((List.range n).filter test).length) :
    Nat.nth (fun i => test i = true) t = ((List.range n).filter test)[t] := by
  induction n with
  | zero => cases ht
  | succ n ih =>
    have hcount : ((List.range n).filter test).length = Nat.count (fun i => test i = true) n := by
      rw [Nat.count, List.countP_eq_length_filter]
      simp
    simp only [List.range_succ, List.filter_append] at ht ⊢
    by_cases hlt : t < ((List.range n).filter test).length
    · rw [List.getElem_append_left hlt]
      exact ih hlt
    · by_cases hn : test n = true
      · have hlast : [n].filter test = [n] := by simp [hn]
        have hlength := ht
        rw [List.length_append, hlast, List.length_singleton] at hlength
        have hindex : t = Nat.count (fun i => test i = true) n := by omega
        have hnth : Nat.nth (fun i => test i = true) (Nat.count (fun i => test i = true) n) = n :=
          Nat.nth_count hn
        rw [List.getElem_append_right (by omega)]
        simp only [hlast, List.getElem_singleton]
        rw [hindex, hnth]
      · have hnone : [n].filter test = [] := by simp [hn]
        rw [List.length_append, hnone, List.length_nil] at ht
        omega

/-- Trial division. -/
def isPrime (n : ℕ) : Bool :=
  Nat.ble 2 n && (List.range (n.sqrt + 1)).all fun m => Nat.blt m 2 || Nat.blt 0 (n % m)

theorem isPrime_iff (n : ℕ) : isPrime n = true ↔ Nat.Prime n := by
  rw [Nat.prime_def_le_sqrt, isPrime, Bool.and_eq_true, Nat.ble_eq, List.all_eq_true]
  refine and_congr_right fun _ => forall_congr' fun m => ?_
  rw [List.mem_range, Bool.or_eq_true, Nat.blt_eq, Nat.blt_eq, Nat.dvd_iff_mod_eq_zero]
  omega

/-- The primes below a number. -/
def primesBelow (n : ℕ) : List ℕ := (List.range n).filter isPrime

theorem nth_prime {n t : ℕ} (ht : t < (primesBelow n).length) :
    Nat.nth Nat.Prime t = (primesBelow n)[t] := by
  have hprime : Nat.Prime = fun i => isPrime i = true := by
    funext i
    exact propext (isPrime_iff i).symm
  rw [hprime]
  exact nth_eq_getElem n ht

/-- Whether a word is the first 32 bits of the fractional part of a root. -/
def isRootWord (degree n : ℕ) (word : Word) : Bool :=
  (List.range (n + 1)).any fun whole =>
    decide ((whole * 2 ^ 32 + word.toNat) ^ degree ≤ n * 2 ^ (32 * degree)) &&
      decide (n * 2 ^ (32 * degree) < (whole * 2 ^ 32 + word.toNat + 1) ^ degree)

theorem rootWord_eq {degree n : ℕ} {word : Word} (h : isRootWord degree n word = true) :
    rootWord degree n = word := by
  obtain ⟨whole, _, hroot⟩ := List.any_eq_true.mp h
  rw [Bool.and_eq_true, decide_eq_true_eq, decide_eq_true_eq] at hroot
  rw [rootWord, Nat.nthRoot_eq_of_le_of_lt hroot.1 hroot.2]
  apply BitVec.eq_of_toNat_eq
  have hword := word.isLt
  rw [BitVec.toNat_ofNat]
  omega

/-- Words that are roots of the first primes, in order. -/
theorem rootWord_nth {degree n : ℕ} {words : List Word} {t : ℕ}
    (h : ((primesBelow n).zip words).all (fun e => isRootWord degree e.1 e.2) = true)
    (hlength : words.length ≤ (primesBelow n).length) (ht : t < words.length) :
    rootWord degree (Nat.nth Nat.Prime t) = words[t] := by
  have hprime : t < (primesBelow n).length := by omega
  have hmem : ((primesBelow n)[t], words[t]) ∈ (primesBelow n).zip words := by
    have hzip : t < ((primesBelow n).zip words).length := by
      rw [List.length_zip]
      omega
    rw [← List.getElem_zip]
    exact List.getElem_mem hzip
  rw [nth_prime hprime]
  exact rootWord_eq (List.all_eq_true.mp h _ hmem)

theorem schedule_of_lt {block : List Bool} {t : ℕ} (h : t < 16) :
    schedule block t = blockWord block t := by
  rw [schedule, if_pos h]

theorem schedule_of_le {block : List Bool} {t : ℕ} (h : 16 ≤ t) :
    schedule block t = smallSigma1 (schedule block (t - 2)) + schedule block (t - 7) +
      smallSigma0 (schedule block (t - 15)) + schedule block (t - 16) := by
  rw [schedule, if_neg (not_lt.mpr h)]

end Fips180
