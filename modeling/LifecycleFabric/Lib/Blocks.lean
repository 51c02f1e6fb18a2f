import Mathlib.Algebra.Order.Ring.Nat
import Mathlib.Data.List.Basic
import Mathlib.Data.List.Induction
import Mathlib.Tactic.Ring

/-!
# Blocks of a stream

A list is cut into blocks of one length, and what is left of it. An accumulator that takes a
stream one element at a time, keeps a partial block, and folds each block as it fills, ends
with the fold over the blocks of the stream.
-/

namespace Blocks

variable {α β σ : Type*} {n k : ℕ} {l : List α}

/-- The complete blocks of a list. -/
def blocks (n : ℕ) (l : List α) : List (List α) :=
  (List.range (l.length / n)).map fun i => (l.drop (i * n)).take n

/-- What is left behind the complete blocks. -/
def rest (n : ℕ) (l : List α) : List α := l.drop (l.length / n * n)

theorem length_rest (n : ℕ) (l : List α) : (rest n l).length = l.length % n := by
  have hdiv := Nat.div_add_mod' l.length n
  rw [rest, List.length_drop]
  omega

theorem length_of_mem_blocks {block : List α} (h : block ∈ blocks n l) : block.length = n := by
  obtain ⟨i, hi, rfl⟩ := List.mem_map.mp h
  have hfull : (i + 1) * n ≤ l.length / n * n :=
    Nat.mul_le_mul_right n (List.mem_range.mp hi)
  have hdiv := Nat.div_mul_le_self l.length n
  rw [Nat.add_mul] at hfull
  rw [List.length_take, List.length_drop]
  omega

/-- Elements behind a block do not change it. -/
theorem take_drop_append {i : ℕ} (h : i < l.length / n) (more : List α) :
    ((l ++ more).drop (i * n)).take n = (l.drop (i * n)).take n := by
  have hfull : (i + 1) * n ≤ l.length / n * n := Nat.mul_le_mul_right n h
  have hdiv := Nat.div_mul_le_self l.length n
  rw [Nat.add_mul] at hfull
  rw [List.drop_append_of_le_length (by omega), List.take_append_of_le_length]
  rw [List.length_drop]
  omega

/-- An element that does not fill a block. -/
theorem append_short (hn : 0 < n) (h : (rest n l).length + 1 ≠ n) (x : α) :
    blocks n (l ++ [x]) = blocks n l ∧ rest n (l ++ [x]) = rest n l ++ [x] := by
  rw [length_rest] at h
  have hlt := Nat.mod_lt l.length hn
  have hcount : (l ++ [x]).length / n = l.length / n := by
    have hlength : (l ++ [x]).length = n * (l.length / n) + (l.length % n + 1) := by
      rw [List.length_append, List.length_singleton, ← Nat.add_assoc, Nat.div_add_mod]
    have hsmall : (l.length % n + 1) / n = 0 := Nat.div_eq_of_lt (by omega)
    rw [hlength, Nat.mul_add_div hn, hsmall, Nat.add_zero]
  constructor
  · unfold blocks
    rw [hcount]
    exact List.map_congr_left fun i hi => take_drop_append (List.mem_range.mp hi) [x]
  · unfold rest
    rw [hcount, List.drop_append_of_le_length (Nat.div_mul_le_self _ _)]

/-- An element that fills a block. -/
theorem append_full (hn : 0 < n) (h : (rest n l).length + 1 = n) (x : α) :
    blocks n (l ++ [x]) = blocks n l ++ [rest n l ++ [x]] ∧ rest n (l ++ [x]) = [] := by
  have hlength : (l ++ [x]).length = n * (l.length / n + 1) := by
    rw [length_rest] at h
    rw [List.length_append, List.length_singleton, Nat.mul_succ]
    have hdiv := Nat.div_add_mod l.length n
    omega
  have hcount : (l ++ [x]).length / n = l.length / n + 1 := by
    rw [hlength, Nat.mul_div_cancel_left _ hn]
  constructor
  · unfold blocks
    rw [hcount, List.range_succ, List.map_append, List.map_singleton]
    congr 1
    · exact List.map_congr_left fun i hi => take_drop_append (List.mem_range.mp hi) [x]
    · rw [List.drop_append_of_le_length (Nat.div_mul_le_self _ _), List.take_of_length_le]
      · rfl
      · rw [← rest, List.length_append, List.length_singleton, h]
  · unfold rest
    rw [hcount, Nat.mul_comm, ← hlength, List.drop_length]

/-- Take one element: keep it in the partial block, or fold the block it fills. -/
def absorb (n : ℕ) (f : σ → List α → σ) (s : σ × List α) (x : α) : σ × List α :=
  if s.2.length + 1 = n then (f s.1 (s.2 ++ [x]), []) else (s.1, s.2 ++ [x])

/-- Taking a stream element by element folds its blocks, and keeps the rest. -/
theorem foldl_absorb (hn : 0 < n) (f : σ → List α → σ) (start : σ) (l : List α) :
    l.foldl (absorb n f) (start, []) = ((blocks n l).foldl f start, rest n l) := by
  induction l using List.reverseRecOn with
  | nil => simp [blocks, rest]
  | append_singleton l x ih =>
    rw [List.foldl_append, ih, List.foldl_cons, List.foldl_nil, absorb]
    by_cases hfull : (rest n l).length + 1 = n
    · obtain ⟨hblocks, hrest⟩ := append_full hn hfull x
      rw [if_pos hfull, hblocks, hrest, List.foldl_append]
      rfl
    · obtain ⟨hblocks, hrest⟩ := append_short hn hfull x
      rw [if_neg hfull, hblocks, hrest]

/-! ## Blocks of what is written for the elements -/

variable {g : α → List β}

theorem length_flatMap_of_length (hg : ∀ x, (g x).length = k) (l : List α) :
    (l.flatMap g).length = l.length * k := by
  induction l with
  | nil => simp
  | cons x l ih =>
    rw [List.flatMap_cons, List.length_append, hg, ih, List.length_cons]
    ring

theorem drop_flatMap (hg : ∀ x, (g x).length = k) (i : ℕ) (l : List α) :
    (l.flatMap g).drop (i * k) = (l.drop i).flatMap g := by
  induction i generalizing l with
  | zero => simp
  | succ i ih =>
    cases l with
    | nil => simp
    | cons x l =>
      rw [List.flatMap_cons, List.drop_succ_cons, ← ih l, Nat.succ_mul, Nat.add_comm,
        ← List.drop_drop, ← hg x, List.drop_left]

theorem take_flatMap (hg : ∀ x, (g x).length = k) (i : ℕ) (l : List α) :
    (l.flatMap g).take (i * k) = (l.take i).flatMap g := by
  induction i generalizing l with
  | zero => simp
  | succ i ih =>
    cases l with
    | nil => simp
    | cons x l =>
      rw [List.flatMap_cons, List.take_succ_cons, List.flatMap_cons, ← ih l, Nat.succ_mul,
        Nat.add_comm, ← hg x, List.take_length_add_append]

/-- Where every element is written in one length, the blocks of what is written are what is
written for the blocks. -/
theorem blocks_flatMap (hk : 0 < k) (hg : ∀ x, (g x).length = k) (n : ℕ) (l : List α) :
    blocks (n * k) (l.flatMap g) = (blocks n l).map (List.flatMap g) := by
  unfold blocks
  rw [length_flatMap_of_length hg, Nat.mul_div_mul_right _ _ hk, List.map_map]
  refine List.map_congr_left fun i _ => ?_
  rw [Function.comp_apply, ← Nat.mul_assoc, drop_flatMap hg, take_flatMap hg]

end Blocks
