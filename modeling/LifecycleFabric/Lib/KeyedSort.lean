import Mathlib

/-!
# Sorting by a key and dropping neighbours with the same key

A list sorted by a key and freed of neighbours with equal keys increases strictly
in the key. Where no two elements share a key it holds exactly the elements of the
list it came from, so it depends on nothing but which elements these are: not on
their order, not on how often each occurs, and not on how the sort breaks ties.
-/

namespace KeyedSort

variable {α κ : Type*} [LinearOrder κ] {key : α → κ} {l l' : List α}

/-- The list is sorted by the key. -/
def Sorted (key : α → κ) (l : List α) : Prop := l.Pairwise fun a b => key a ≤ key b

/-- No two elements of the list share a key. -/
def Keyed (key : α → κ) (l : List α) : Prop := ∀ a ∈ l, ∀ b ∈ l, key a = key b → a = b

/-- Drop each element that has the key of the one before it. -/
def unique (key : α → κ) (l : List α) : List α := l.destutter fun a b => key a ≠ key b

omit [LinearOrder κ] in
theorem Keyed.subset (h : Keyed key l') (hsub : l ⊆ l') : Keyed key l :=
  fun a ha b hb => h a (hsub ha) b (hsub hb)

/-- The keys that are left are those of the list, once each. -/
theorem map_unique (h : Sorted key l) : (unique key l).map key = (l.map key).dedup := by
  have hkeys : (l.map key).Pairwise (· ≤ ·) := List.pairwise_map.mpr h
  rw [← hkeys.destutter_eq_dedup]
  exact List.map_destutter fun a _ b _ => Iff.rfl

theorem unique_subset (key : α → κ) (l : List α) : unique key l ⊆ l :=
  (List.destutter_sublist _ l).subset

/-- A sorted list without its repetitions increases strictly. -/
theorem unique_increases (h : Sorted key l) :
    (unique key l).Pairwise fun a b => key a < key b := by
  have hsorted : (unique key l).Pairwise fun a b => key a ≤ key b :=
    h.sublist (List.destutter_sublist _ l)
  have hdistinct : (unique key l).Pairwise fun a b => key a ≠ key b := by
    rw [← List.pairwise_map (f := key) (R := (· ≠ ·)), map_unique h]
    exact List.nodup_dedup _
  exact hsorted.imp₂ (fun a b hle hne => lt_of_le_of_ne hle hne) hdistinct

/-- Dropping repetitions of a keyed list loses no element. -/
theorem mem_unique (h : Sorted key l) (hkeyed : Keyed key l) {a : α} :
    a ∈ unique key l ↔ a ∈ l := by
  constructor
  · exact fun ha => unique_subset key l ha
  · intro ha
    have hkey : key a ∈ (unique key l).map key := by
      rw [map_unique h, List.mem_dedup]
      exact List.mem_map_of_mem ha
    obtain ⟨b, hb, hsame⟩ := List.mem_map.mp hkey
    have heq := hkeyed b (unique_subset key l hb) a ha hsame
    exact heq ▸ hb

/-- Two sorted arrangements of the same elements lose their repetitions to the same list. -/
theorem unique_congr (h : Sorted key l) (h' : Sorted key l') (hkeyed : Keyed key l)
    (hsame : ∀ a, a ∈ l ↔ a ∈ l') : unique key l = unique key l' := by
  have hkeyed' : Keyed key l' := hkeyed.subset fun a ha => (hsame a).mpr ha
  have hirrefl : Std.Irrefl fun a b : α => key a < key b := ⟨fun a => lt_irrefl (key a)⟩
  have hantisymm : Std.Antisymm fun a b : α => key a < key b :=
    ⟨fun a b hab hba => absurd hba (lt_asymm hab)⟩
  refine (unique_increases h).eq_of_mem_iff (unique_increases h') fun a => ?_
  rw [mem_unique h hkeyed, mem_unique h' hkeyed', hsame]

end KeyedSort
