import Mathlib

/-!
# Cyclic redundancy checks

The remainder of a byte string modulo a polynomial, least significant bit first. A shift of
the remainder is linear in exclusive or, so eight shifts come from a table of the low bytes;
and it loses nothing when the polynomial has its highest coefficient, so two strings that
differ in one byte leave different remainders.
-/

namespace Crc

variable {w : ℕ} {poly v x y : BitVec w}

/-- One shift of the remainder. -/
def shift (poly v : BitVec w) : BitVec w :=
  if v.getLsbD 0 then poly ^^^ (v >>> 1) else v >>> 1

/-- The remainder after a byte: it joins the low bits, which are then shifted out. -/
def feed (poly v : BitVec w) (b : UInt8) : BitVec w :=
  (shift poly)^[8] (v ^^^ b.toBitVec.setWidth w)

/-- The remainder after a byte string. -/
def remainder (poly v : BitVec w) (bytes : List UInt8) : BitVec w := bytes.foldl (feed poly) v

/-! ## Linearity -/

theorem shift_xor (poly x y : BitVec w) :
    shift poly (x ^^^ y) = shift poly x ^^^ shift poly y := by
  apply BitVec.eq_of_getLsbD_eq
  intro i hi
  unfold shift
  rw [BitVec.getLsbD_xor, BitVec.ushiftRight_xor_distrib]
  cases x.getLsbD 0 <;> cases y.getLsbD 0 <;> simp only [Bool.xor_false, Bool.xor_true,
    Bool.not_false, Bool.not_true, Bool.false_eq_true, if_true, if_false, BitVec.getLsbD_xor]
  · rw [Bool.xor_left_comm]
  · rw [Bool.xor_assoc]
  · cases poly.getLsbD i <;> simp

theorem iterate_shift_xor (poly : BitVec w) (n : ℕ) (x y : BitVec w) :
    (shift poly)^[n] (x ^^^ y) = (shift poly)^[n] x ^^^ (shift poly)^[n] y := by
  induction n generalizing x y with
  | zero => rfl
  | succ n ih => rw [Function.iterate_succ_apply, shift_xor, ih]; rfl

/-- A remainder whose low bits are clear only moves down. -/
theorem iterate_shift_of_clear {n : ℕ} (hclear : ∀ i < n, x.getLsbD i = false) :
    (shift poly)^[n] x = x >>> n := by
  induction n with
  | zero => simp
  | succ n ih =>
    have hlow : (x >>> n).getLsbD 0 = false := by
      rw [BitVec.getLsbD_ushiftRight]
      exact hclear n (Nat.lt_succ_self n)
    rw [Function.iterate_succ_apply', ih fun i hi => hclear i (by omega), shift, hlow,
      if_neg Bool.false_ne_true, BitVec.shiftRight_add]

/-- Shifts of a remainder come from those of its low bits, and the rest moves down. -/
theorem iterate_shift_split (poly x mask : BitVec w) {n : ℕ}
    (hmask : ∀ i < w, mask.getLsbD i = decide (i < n)) :
    (shift poly)^[n] x = (shift poly)^[n] (x &&& mask) ^^^ (x >>> n) := by
  have hsplit : x = (x &&& mask) ^^^ (x &&& ~~~mask) := by
    apply BitVec.eq_of_getLsbD_eq
    intro i hi
    simp only [BitVec.getLsbD_xor, BitVec.getLsbD_and, BitVec.getLsbD_not, hi]
    cases x.getLsbD i <;> cases mask.getLsbD i <;> rfl
  have hclear : ∀ i < n, (x &&& ~~~mask).getLsbD i = false := by
    intro i hi
    by_cases hw : i < w
    · simp [hmask i hw, hi]
    · simp [hw]
  have hhigh : (x &&& ~~~mask) >>> n = x >>> n := by
    apply BitVec.eq_of_getLsbD_eq
    intro i hi
    simp only [BitVec.getLsbD_ushiftRight, BitVec.getLsbD_and, BitVec.getLsbD_not]
    by_cases hw : n + i < w
    · rw [hmask (n + i) hw]
      simp [hw]
    · simp [BitVec.getLsbD_of_ge x (n + i) (by omega)]
  calc
    (shift poly)^[n] x = (shift poly)^[n] ((x &&& mask) ^^^ (x &&& ~~~mask)) := by rw [← hsplit]
    _ = (shift poly)^[n] (x &&& mask) ^^^ (shift poly)^[n] (x &&& ~~~mask) :=
      iterate_shift_xor poly n _ _
    _ = (shift poly)^[n] (x &&& mask) ^^^ (x >>> n) := by
      rw [iterate_shift_of_clear hclear, hhigh]

/-- The step by a table of the shifts of the low bytes. -/
theorem feed_eq_table (mask : BitVec w) (hmask : ∀ i < w, mask.getLsbD i = decide (i < 8))
    (b : UInt8) :
    feed poly v b =
      (shift poly)^[8] ((v ^^^ b.toBitVec.setWidth w) &&& mask) ^^^ (v >>> 8) := by
  have hbyte : (b.toBitVec.setWidth w) >>> 8 = 0#w := by
    apply BitVec.eq_of_getLsbD_eq
    intro i hi
    simp only [BitVec.getLsbD_ushiftRight, BitVec.getLsbD_setWidth, BitVec.getLsbD_zero]
    rw [BitVec.getLsbD_of_ge b.toBitVec (8 + i) (by omega), Bool.and_false]
  rw [feed, iterate_shift_split poly _ mask hmask, BitVec.ushiftRight_xor_distrib, hbyte,
    BitVec.xor_zero]

/-! ## Injectivity -/

/-- The bit that is shifted out is the highest bit of the shifted remainder. -/
theorem getLsbD_last_shift (hpoly : poly.getLsbD (w - 1) = true) :
    (shift poly v).getLsbD (w - 1) = v.getLsbD 0 := by
  have hshifted : (v >>> 1).getLsbD (w - 1) = false := by
    rw [BitVec.getLsbD_ushiftRight]
    exact BitVec.getLsbD_of_ge v _ (by omega)
  unfold shift
  cases v.getLsbD 0 with
  | false => rw [if_neg Bool.false_ne_true, hshifted]
  | true => rw [if_pos rfl, BitVec.getLsbD_xor, hpoly, hshifted, Bool.xor_false]

theorem shift_injective (hpoly : poly.getLsbD (w - 1) = true) :
    Function.Injective (shift poly) := by
  intro x y h
  have hlow : x.getLsbD 0 = y.getLsbD 0 := by
    rw [← getLsbD_last_shift hpoly, h, getLsbD_last_shift hpoly]
  have hhigh : x >>> 1 = y >>> 1 := by
    unfold shift at h
    rw [hlow] at h
    cases hy : y.getLsbD 0 with
    | false => rwa [hy, if_neg Bool.false_ne_true, if_neg Bool.false_ne_true] at h
    | true =>
      rw [hy, if_pos rfl, if_pos rfl] at h
      exact BitVec.xor_right_inj poly |>.mp h
  apply BitVec.eq_of_getLsbD_eq
  intro i hi
  cases i with
  | zero => exact hlow
  | succ i =>
    have hbit := congrArg (BitVec.getLsbD · i) hhigh
    simpa [BitVec.getLsbD_ushiftRight, Nat.add_comm 1 i] using hbit

/-- A byte does not make different remainders equal. -/
theorem feed_injective (hpoly : poly.getLsbD (w - 1) = true) (b : UInt8) :
    Function.Injective fun v => feed poly v b := by
  intro x y h
  have hxor := (shift_injective hpoly).iterate 8 h
  exact BitVec.xor_left_inj _ |>.mp hxor

/-- Different bytes leave different remainders. -/
theorem feed_injective_byte (hpoly : poly.getLsbD (w - 1) = true) (hw : 8 ≤ w) (v : BitVec w) :
    Function.Injective (feed poly v) := by
  intro b c h
  have hxor := (shift_injective hpoly).iterate 8 h
  have hwide : b.toBitVec.setWidth w = c.toBitVec.setWidth w := BitVec.xor_right_inj v |>.mp hxor
  apply UInt8.toBitVec_inj.mp
  apply BitVec.eq_of_getLsbD_eq
  intro i hi
  have hbit := congrArg (BitVec.getLsbD · i) hwide
  simpa [BitVec.getLsbD_setWidth, show i < w by omega] using hbit

theorem remainder_append (poly v : BitVec w) (bytes rest : List UInt8) :
    remainder poly v (bytes ++ rest) = remainder poly (remainder poly v bytes) rest :=
  List.foldl_append

theorem remainder_injective (hpoly : poly.getLsbD (w - 1) = true) (bytes : List UInt8) :
    Function.Injective fun v => remainder poly v bytes := by
  induction bytes with
  | nil => exact fun _ _ h => h
  | cons b bytes ih => exact ih.comp (feed_injective hpoly b)

/-- Two strings that differ in one byte leave different remainders. -/
theorem remainder_ne (hpoly : poly.getLsbD (w - 1) = true) (hw : 8 ≤ w) (v : BitVec w)
    (bytes rest : List UInt8) {b c : UInt8} (hbc : b ≠ c) :
    remainder poly v (bytes ++ b :: rest) ≠ remainder poly v (bytes ++ c :: rest) := by
  intro h
  rw [remainder_append, remainder_append] at h
  exact hbc (feed_injective_byte hpoly hw _ (remainder_injective hpoly rest h))

end Crc
