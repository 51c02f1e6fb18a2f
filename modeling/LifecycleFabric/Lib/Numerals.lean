import Mathlib.Data.Nat.Digits.Lemmas

/-!
# Reading numerals

A reader takes a numeral one character at a time and accumulates its value. A bounded
accumulator either wraps at its modulus or refuses to go past it. Both are determined by what
an unbounded accumulator reads.
-/

namespace Numerals

variable {α β γ : Type*}

/-- Accumulating in two types that agree step by step. -/
theorem map_foldlM (f : β → α → Option β) (f' : γ → α → Option γ) (g : β → γ)
    (hstep : ∀ value c, (f value c).map g = f' (g value) c) (numeral : List α) (start : β) :
    (numeral.foldlM f start).map g = numeral.foldlM f' (g start) := by
  induction numeral generalizing start with
  | nil => rfl
  | cons c numeral ih =>
    rw [List.foldlM_cons, List.foldlM_cons, ← hstep]
    cases f start c with
    | none => rfl
    | some next => exact ih next

variable (digit : α → Option ℕ) (base modulus : ℕ)

/-- One more digit; none where the character is no digit. -/
def step (value : ℕ) (c : α) : Option ℕ := (digit c).map fun d => value * base + d

/-- One more digit, wrapped at the modulus. -/
def wrappedStep (value : ℕ) (c : α) : Option ℕ := (step digit base value c).map (· % modulus)

/-- One more digit, refused where it would reach the modulus. -/
def checkedStep (value : ℕ) (c : α) : Option ℕ :=
  (step digit base value c).filter fun next => decide (next < modulus)

/-- The number a numeral spells, from what is read already. -/
def read (numeral : List α) (start : ℕ) : Option ℕ := numeral.foldlM (step digit base) start

variable {digit base modulus} {numeral : List α} {start n : ℕ}

/-- What is read already is never lost. -/
theorem le_of_read (hbase : 0 < base) (h : read digit base numeral start = some n) :
    start ≤ n := by
  induction numeral generalizing start with
  | nil => exact (Option.some.inj h).le
  | cons c numeral ih =>
    obtain ⟨next, hnext, hrest⟩ := Option.bind_eq_some_iff.mp h
    obtain ⟨d, _, rfl⟩ := Option.map_eq_some_iff.mp hnext
    have hscaled : start ≤ start * base := Nat.le_mul_of_pos_right start hbase
    have hread := ih hrest
    omega

/-- An accumulator that wraps reads the number modulo its modulus. -/
theorem foldlM_wrappedStep (numeral : List α) (start : ℕ) :
    numeral.foldlM (wrappedStep digit base modulus) (start % modulus) =
      (read digit base numeral start).map (· % modulus) := by
  refine (map_foldlM (step digit base) _ (· % modulus) (fun value c => ?_) numeral start).symm
  unfold wrappedStep step
  rw [Option.map_map, Option.map_map]
  refine Option.map_congr fun d _ => ?_
  simp [Nat.add_mod, Nat.mul_mod]

/-- An accumulator that refuses to reach its modulus reads the number if it is below. -/
theorem foldlM_checkedStep (hbase : 0 < base) (hstart : start < modulus) :
    numeral.foldlM (checkedStep digit base modulus) start =
      (read digit base numeral start).filter fun value => decide (value < modulus) := by
  induction numeral generalizing start with
  | nil =>
    rw [read, List.foldlM_nil, List.foldlM_nil]
    exact (Option.filter_some_pos (by simpa using hstart)).symm
  | cons c numeral ih =>
    rw [read, List.foldlM_cons, List.foldlM_cons, checkedStep]
    cases step digit base start c with
    | none => rfl
    | some next =>
      by_cases hnext : next < modulus
      · rw [Option.filter_some_pos (by simpa using hnext)]
        exact ih hnext
      · rw [Option.filter_some_neg (by simpa using hnext)]
        refine (Option.filter_eq_none_iff.mpr fun value hvalue => ?_).symm
        have hle : next ≤ value := le_of_read hbase hvalue
        simp only [decide_eq_true_eq]
        omega

end Numerals
