import Mathlib

/-!
# Allocated identities

A system holds things under identities of several kinds and hands identities of a kind out
in order. As long as it holds nothing at or above what it hands out next, and every step
holds only what it held before or what it handed out, no identity is handed out twice.
-/

namespace Allocators

/-! ## Lists that grow -/

section Lists

variable {ι α : Type*} {P : ι → Prop} {before after later before' after' : List ι}

/-- What is in a list was in another one, or has a property. -/
def GrowsBy (P : ι → Prop) (before after : List ι) : Prop := ∀ i ∈ after, i ∈ before ∨ P i

theorem GrowsBy.refl (list : List ι) : GrowsBy P list list := fun _ hi => Or.inl hi

theorem growsBy_of_subset (h : after ⊆ before) : GrowsBy P before after := fun _ hi => Or.inl (h hi)

theorem GrowsBy.trans (h : GrowsBy P before after) (h' : GrowsBy P after later) :
    GrowsBy P before later :=
  fun i hi => (h' i hi).elim (h i) Or.inr

theorem GrowsBy.append (h : GrowsBy P before after) (h' : GrowsBy P before' after') :
    GrowsBy P (before ++ before') (after ++ after') := by
  intro i hi
  rcases List.mem_append.mp hi with hleft | hright
  · exact (h i hleft).imp_left (List.mem_append_left _)
  · exact (h' i hright).imp_left (List.mem_append_right _)

/-- What the values of a list show, the values of another one show, or it has a property. -/
theorem growsBy_map {f : α → ι} {before after : List α}
    (h : ∀ a ∈ after, (∃ b ∈ before, f b = f a) ∨ P (f a)) :
    GrowsBy P (before.map f) (after.map f) := by
  intro i hi
  obtain ⟨a, ha, rfl⟩ := List.mem_map.mp hi
  exact (h a ha).imp_left fun ⟨b, hb, hsame⟩ => List.mem_map.mpr ⟨b, hb, hsame⟩

end Lists

/-! ## Allocation -/

variable {σ κ ι : Type*}

/-- The identities of each kind a state holds, and the one of each kind it hands out next. -/
structure Allocation (σ κ ι : Type*) where
  held : σ → κ → ι → Prop
  next : σ → κ → ι

variable [LinearOrder ι] (a : Allocation σ κ ι)

/-- Every identity a state holds is below the one it hands out next. -/
def Allocation.Fresh (s : σ) : Prop := ∀ k i, a.held s k i → i < a.next s k

/-- Of each kind a step holds what was held before it, and what it handed out. -/
structure Allocation.Issues (s t : σ) : Prop where
  advances : ∀ k, a.next s k ≤ a.next t k
  held : ∀ k i, a.held t k i → a.held s k i ∨ a.next s k ≤ i ∧ i < a.next t k

namespace Allocation

variable {a} {s t : σ}

theorem Issues.refl (s : σ) : a.Issues s s where
  advances _ := le_rfl
  held _ _ hi := Or.inl hi

theorem Fresh.issues (hs : a.Fresh s) (h : a.Issues s t) : a.Fresh t := by
  intro k i hi
  rcases h.held k i hi with hheld | ⟨_, hlt⟩
  · exact (hs k i hheld).trans_le (h.advances k)
  · exact hlt

/-- What is handed out next, or later, is not held yet. -/
theorem Fresh.not_held (hs : a.Fresh s) {k : κ} {i : ι} (hi : a.next s k ≤ i) : ¬a.held s k i :=
  fun hheld => hi.not_gt (hs k i hheld)

end Allocation

end Allocators
