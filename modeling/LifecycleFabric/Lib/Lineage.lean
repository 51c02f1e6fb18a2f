import Mathlib

/-!
# Lineages

In a structure where every node has at most one parent, the lineage of a node is the list of
nodes from it upwards to one without a parent. Where a rank decreases towards the parents
every node has a lineage, no longer than its rank allows, and it does not repeat a node.
-/

variable {α : Type*}

/-- The nodes from a node up to one that has no parent. -/
inductive Lineage (parent : α → Option α) : α → List α → Prop
  | top {a : α} (h : parent a = none) : Lineage parent a [a]
  | under {a p : α} {above : List α} (h : parent a = some p) (hp : Lineage parent p above) :
      Lineage parent a (a :: above)

namespace Lineage

variable {parent : α → Option α} {a b : α} {line line' : List α}

/-- A lineage starts with its node. -/
theorem eq_cons (h : Lineage parent a line) : ∃ above, line = a :: above := by
  cases h with
  | top _ => exact ⟨[], rfl⟩
  | under _ _ => exact ⟨_, rfl⟩

/-- A node has one lineage. -/
theorem unique (h : Lineage parent a line) (h' : Lineage parent a line') : line = line' := by
  induction h generalizing line' with
  | top hnone =>
    cases h' with
    | top _ => rfl
    | under hsome _ =>
      rw [hnone] at hsome
      cases hsome
  | under hsome _ ih =>
    cases h' with
    | top hnone =>
      rw [hsome] at hnone
      cases hnone
    | under hsome' hp' =>
      rw [hsome] at hsome'
      obtain rfl := Option.some.inj hsome'
      rw [ih hp']

/-- The lineage of an ancestor ends the lineage of its descendant. -/
theorem suffix (h : Lineage parent a line) (hb : b ∈ line) :
    ∃ below above, line = below ++ above ∧ Lineage parent b above := by
  induction h with
  | @top a hnone =>
    obtain rfl := List.mem_singleton.mp hb
    exact ⟨[], [b], rfl, .top hnone⟩
  | @under a p above hsome hp ih =>
    rcases List.mem_cons.mp hb with rfl | hb
    · exact ⟨[], b :: above, rfl, .under hsome hp⟩
    · obtain ⟨below, above', rfl, hline⟩ := ih hb
      exact ⟨a :: below, above', rfl, hline⟩

/-- Each node of a lineage but the last is followed by its parent. -/
theorem isChain (h : Lineage parent a line) :
    line.IsChain fun child node => parent child = some node := by
  induction h with
  | top _ => exact List.isChain_singleton _
  | under hsome hp ih =>
    obtain ⟨above, rfl⟩ := hp.eq_cons
    exact List.isChain_cons_cons.mpr ⟨hsome, ih⟩

/-- The last node of a lineage has no parent. -/
theorem getLast?_eq (h : Lineage parent a line) :
    ∃ last, line.getLast? = some last ∧ parent last = none := by
  induction h with
  | @top a hnone => exact ⟨a, rfl, hnone⟩
  | under _ hp ih =>
    obtain ⟨above, rfl⟩ := hp.eq_cons
    exact ih

/-! ## Ranks -/

section

variable {rank : α → ℕ} (hrank : ∀ a p, parent a = some p → rank p < rank a)
include hrank

/-- A node has a lineage, of no more nodes than its rank allows. -/
theorem exists_of_rank (a : α) : ∃ line, Lineage parent a line ∧ line.length ≤ rank a + 1 := by
  induction hn : rank a using Nat.strong_induction_on generalizing a with
  | _ n ih =>
    cases hparent : parent a with
    | none => exact ⟨[a], .top hparent, by simp⟩
    | some p =>
      have hlower := hrank a p hparent
      obtain ⟨above, hline, hlength⟩ := ih (rank p) (by omega) p rfl
      refine ⟨a :: above, .under hparent hline, ?_⟩
      rw [List.length_cons]
      omega

/-- Ranks decrease along a lineage, so it repeats no node. -/
theorem pairwise_rank (h : Lineage parent a line) : line.Pairwise fun a b => rank b < rank a := by
  induction h with
  | top _ => exact List.pairwise_singleton _ _
  | @under a p above hsome hp ih =>
    have hlower := hrank a p hsome
    obtain ⟨above, rfl⟩ := hp.eq_cons
    refine List.pairwise_cons.mpr ⟨?_, ih⟩
    intro b hb
    rcases List.mem_cons.mp hb with rfl | hb
    · exact hlower
    · exact ((List.pairwise_cons.mp ih).1 b hb).trans hlower

theorem nodup (h : Lineage parent a line) : line.Nodup := by
  refine (h.pairwise_rank hrank).imp ?_
  rintro a b hlower rfl
  exact lt_irrefl _ hlower

end

end Lineage
