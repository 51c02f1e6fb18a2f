import Mathlib

/-!
# Three-way comparison

A comparison that answers with a sign. Over a linear order the sign determines
the order and is determined by it, so a function that compares some key of its
arguments by sign is a total preorder. The rules below take the comparison of
pairs and of lists apart into comparisons of what they hold.
-/

namespace ThreeWay

variable {α β : Type*} [LinearOrder α] [LinearOrder β]

/-- The sign of a comparison: `-1` below, `0` equal, `1` above. -/
def sign (x y : α) : ℤ := if x < y then -1 else if y < x then 1 else 0

theorem sign_self (x : α) : sign x x = 0 := by simp [sign]

theorem sign_of_ne {x y : α} (hne : x ≠ y) : sign x y = if x < y then -1 else 1 := by
  rcases lt_or_gt_of_ne hne with hlt | hgt
  · rw [sign, if_pos hlt, if_pos hlt]
  · rw [sign, if_neg (lt_asymm hgt), if_pos hgt, if_neg (lt_asymm hgt)]

theorem sign_of_lt {x y : α} (hlt : x < y) : sign x y = -1 := by rw [sign, if_pos hlt]

theorem sign_of_gt {x y : α} (hgt : y < x) : sign x y = 1 := by
  rw [sign, if_neg (lt_asymm hgt), if_pos hgt]

/-- Exchanging the arguments negates the sign. -/
theorem sign_swap (x y : α) : sign y x = -sign x y := by
  rcases lt_trichotomy x y with hlt | rfl | hgt
  · rw [sign_of_lt hlt, sign_of_gt hlt, neg_neg]
  · rw [sign_self, neg_zero]
  · rw [sign_of_gt hgt, sign_of_lt hgt]

theorem sign_eq_zero {x y : α} : sign x y = 0 ↔ x = y := by
  constructor
  · intro hzero
    by_contra hne
    rw [sign_of_ne hne] at hzero
    split at hzero <;> omega
  · rintro rfl
    exact sign_self x

/-- The sign is at least zero exactly when the first argument is the greater or equal one. -/
theorem sign_nonneg {x y : α} : 0 ≤ sign x y ↔ y ≤ x := by
  rcases lt_trichotomy x y with hlt | rfl | hgt
  · simp [sign_of_lt hlt, hlt]
  · simp [sign_self]
  · simp [sign_of_gt hgt, hgt.le]

/-- The sign is at most zero exactly when the first argument is the smaller or equal one. -/
theorem sign_nonpos {x y : α} : sign x y ≤ 0 ↔ x ≤ y := by
  have hswap := sign_nonneg (x := y) (y := x)
  rw [sign_swap x y] at hswap
  rw [← hswap]
  omega

/-- Pairs compare by the first parts and, where these agree, by the second. -/
theorem sign_lex (a c : α) (b d : β) :
    sign (toLex (a, b)) (toLex (c, d)) = if a = c then sign b d else sign a c := by
  by_cases heq : a = c
  · subst heq
    rw [if_pos rfl]
    simp only [sign, Prod.Lex.lt_iff, ofLex_toLex, lt_irrefl, true_and, false_or]
  · have hne : (toLex (a, b) : α ×ₗ β) ≠ toLex (c, d) := by
      intro h
      exact heq (congrArg (fun p => (ofLex p).1) h)
    rw [if_neg heq, sign_of_ne hne, sign_of_ne heq]
    simp only [Prod.Lex.lt_iff, ofLex_toLex, heq, false_and, or_false]

/-- Nonempty lists compare by their heads and, where these agree, by their tails. -/
theorem sign_cons (x y : α) (xs ys : List α) :
    sign (x :: xs) (y :: ys) = if x = y then sign xs ys else sign x y := by
  by_cases heq : x = y
  · subst heq
    rw [if_pos rfl]
    rcases lt_trichotomy xs ys with hlt | rfl | hgt
    · rw [sign_of_lt hlt, sign_of_lt (List.cons_lt_cons_iff.mpr (Or.inr ⟨rfl, hlt⟩))]
    · rw [sign_self, sign_self]
    · rw [sign_of_gt hgt, sign_of_gt (List.cons_lt_cons_iff.mpr (Or.inr ⟨rfl, hgt⟩))]
  · have hne : x :: xs ≠ y :: ys := by
      intro h
      exact heq (List.cons.inj h).1
    rw [if_neg heq, sign_of_ne hne, sign_of_ne heq]
    simp only [List.cons_lt_cons_iff, heq, false_and, or_false]

/-- A list that ends first is the smaller one. -/
theorem sign_nil_cons (y : α) (ys : List α) : sign [] (y :: ys) = -1 :=
  sign_of_lt (List.nil_lt_cons y ys)

theorem sign_cons_nil (x : α) (xs : List α) : sign (x :: xs) [] = 1 :=
  sign_of_gt (List.nil_lt_cons x xs)

end ThreeWay
