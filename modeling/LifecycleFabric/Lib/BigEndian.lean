import Mathlib.Data.List.Induction
import Mathlib.Data.Nat.Bitwise
import Mathlib.Tactic.Ring

/-!
# Numbers in big-endian bits

A number is written in a fixed width, most significant bit first, and read back. Writing side
by side is shifting and adding.
-/

namespace BigEndian

/-- The number a list of bits spells, most significant first. -/
def ofBits (bits : List Bool) : ℕ := bits.foldl (fun n bit => 2 * n + bit.toNat) 0

/-- The lowest bits of a number, most significant first. -/
def toBits (width n : ℕ) : List Bool :=
  (List.range width).map fun i => n.testBit (width - 1 - i)

@[simp] theorem length_toBits (width n : ℕ) : (toBits width n).length = width := by
  simp [toBits]

theorem ofBits_append_singleton (bits : List Bool) (bit : Bool) :
    ofBits (bits ++ [bit]) = 2 * ofBits bits + bit.toNat := by
  simp [ofBits, List.foldl_append]

theorem ofBits_append (left right : List Bool) :
    ofBits (left ++ right) = ofBits left * 2 ^ right.length + ofBits right := by
  induction right using List.reverseRecOn with
  | nil => simp [ofBits]
  | append_singleton right bit ih =>
    rw [← List.append_assoc, ofBits_append_singleton, ih, ofBits_append_singleton,
      List.length_append, List.length_singleton, pow_succ]
    ring

/-- The last bit apart. -/
theorem toBits_succ (width n : ℕ) :
    toBits (width + 1) n = toBits width (n / 2) ++ [n.testBit 0] := by
  unfold toBits
  rw [List.range_succ, List.map_append, List.map_singleton]
  congr 1
  · refine List.map_congr_left fun i hi => ?_
    have hlt := List.mem_range.mp hi
    rw [← Nat.testBit_succ]
    congr 1
    omega
  · simp

theorem ofBits_toBits (width n : ℕ) : ofBits (toBits width n) = n % 2 ^ width := by
  induction width generalizing n with
  | zero => simp [ofBits, toBits, Nat.mod_one]
  | succ width ih =>
    rw [toBits_succ, ofBits_append_singleton, ih, Nat.testBit_zero, pow_succ', Nat.mod_mul]
    have hbit : (decide (n % 2 = 1)).toNat = n % 2 := by
      rcases Nat.mod_two_eq_zero_or_one n with h | h
      · simp [h]
      · simp [h]
    rw [hbit, Nat.add_comm]

/-- A wide number is its high bits, then its low bits. -/
theorem toBits_add (high low n : ℕ) :
    toBits (high + low) n = toBits high (n / 2 ^ low) ++ toBits low n := by
  induction low generalizing n with
  | zero => simp [toBits]
  | succ low ih =>
    rw [← Nat.add_assoc, toBits_succ, ih, toBits_succ low, Nat.div_div_eq_div_mul, ← pow_succ',
      List.append_assoc]

/-- A number of whole bytes is its bytes, the highest first. -/
theorem toBits_bytes (count n : ℕ) :
    toBits (8 * count) n = (List.range count).reverse.flatMap fun i => toBits 8 (n / 2 ^ (8 * i)) := by
  induction count with
  | zero => rfl
  | succ count ih =>
    rw [Nat.mul_succ, Nat.add_comm, toBits_add, ih, List.range_succ, List.reverse_append,
      List.reverse_singleton, List.singleton_append, List.flatMap_cons]

theorem toBits_mod (width n : ℕ) : toBits width (n % 2 ^ width) = toBits width n := by
  unfold toBits
  refine List.map_congr_left fun i hi => ?_
  have hlt := List.mem_range.mp hi
  rw [Nat.testBit_mod_two_pow, decide_eq_true (by omega), Bool.true_and]

theorem toBits_zero (width : ℕ) : toBits width 0 = List.replicate width false := by
  simp [toBits, List.map_const']

end BigEndian
