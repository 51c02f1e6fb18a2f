import Mathlib

/-!
# Bounded journals

A journal keeps the newest entries it was given, oldest first. It gives up its oldest entry
when a new one does not fit, and gives up any entry when told to. Every entry it was given
is kept or counted as lost.
-/

/-- The entries kept, oldest first, and the number of those given up. -/
structure Journal (α : Type*) where
  kept : List α := []
  lost : ℕ := 0

namespace Journal

variable {α : Type*}

/-- Give up the oldest entries until one more fits. -/
def room (capacity : ℕ) (j : Journal α) : Journal α where
  kept := j.kept.drop (j.kept.length + 1 - capacity)
  lost := j.lost + min j.kept.length (j.kept.length + 1 - capacity)

/-- Add an entry, for which there is made room. -/
def append (capacity : ℕ) (j : Journal α) (a : α) : Journal α :=
  { j.room capacity with kept := (j.room capacity).kept ++ [a] }

/-- Give up the entries a test accepts. -/
def withdraw (test : α → Bool) (j : Journal α) : Journal α where
  kept := j.kept.filter fun a => !test a
  lost := j.lost + j.kept.countP test

/-! ## Room -/

/-- Where an entry fits, nothing is given up. -/
theorem room_of_lt {capacity : ℕ} {j : Journal α} (h : j.kept.length < capacity) :
    j.room capacity = j := by
  have hnone : j.kept.length + 1 - capacity = 0 := by omega
  unfold room
  rw [hnone, List.drop_zero, Nat.min_zero, Nat.add_zero]

theorem room_of_nil {capacity : ℕ} {j : Journal α} (h : j.kept = []) : j.room capacity = j := by
  unfold room
  rw [h, List.drop_nil, List.length_nil, Nat.zero_min, Nat.add_zero, ← h]

/-- In a full journal, room begins with the oldest entry. -/
theorem room_of_cons {capacity : ℕ} {a : α} {rest : List α} {lost : ℕ}
    (h : capacity ≤ rest.length + 1) :
    ({ kept := a :: rest, lost } : Journal α).room capacity =
      ({ kept := rest, lost := lost + 1 } : Journal α).room capacity := by
  have hsteps : (a :: rest).length + 1 - capacity = rest.length + 1 - capacity + 1 := by
    rw [List.length_cons]
    omega
  simp only [room, hsteps, List.drop_succ_cons, mk.injEq, true_and]
  rw [List.length_cons]
  omega

/-- In a journal that is just full, room takes the oldest entry alone. -/
theorem room_of_full {capacity : ℕ} {j : Journal α} {a : α} {rest : List α}
    (hkept : j.kept = a :: rest) (hfull : j.kept.length = capacity) :
    j.room capacity = { kept := rest, lost := j.lost + 1 } := by
  obtain ⟨kept, lost⟩ := j
  dsimp only at hkept hfull
  subst hkept
  rw [List.length_cons] at hfull
  have hroom : rest.length < capacity := by omega
  rw [room_of_cons (by omega)]
  exact room_of_lt hroom

/-- Where a journal is not overfull, room takes its oldest entry or none. -/
theorem kept_room {capacity : ℕ} {j : Journal α} (h : j.kept.length ≤ max 1 capacity) :
    (j.room capacity).kept = if j.kept.length < capacity then j.kept else j.kept.tail := by
  split_ifs with hroom
  · rw [room_of_lt hroom]
  · rcases Nat.eq_zero_or_pos capacity with hzero | hpos
    · have hall : j.kept.length ≤ 1 := by omega
      have hdropped : j.kept.length ≤ j.kept.length + 1 - capacity := by omega
      have htail : j.kept.tail.length = 0 := by rw [List.length_tail]; omega
      rw [room, List.drop_of_length_le hdropped, List.length_eq_zero_iff.mp htail]
    · have hone : j.kept.length + 1 - capacity = 1 := by omega
      rw [room, hone, List.drop_one]

/-! ## Entries given -/

/-- The journals that hold what is left of a list of entries, given one after another. -/
inductive Holds (capacity : ℕ) : List α → Journal α → Prop
  | empty : Holds capacity [] {}
  | append {given : List α} {j : Journal α} (h : Holds capacity given j) (a : α) :
      Holds capacity (given ++ [a]) (j.append capacity a)
  | withdraw {given : List α} {j : Journal α} (h : Holds capacity given j) (test : α → Bool) :
      Holds capacity given (j.withdraw test)

variable {capacity : ℕ} {given : List α} {j : Journal α}

/-- What is kept was given, in the same order. -/
theorem Holds.sublist (h : Holds capacity given j) : j.kept.Sublist given := by
  induction h with
  | empty => exact List.Sublist.refl _
  | append _ a ih => exact ((List.drop_sublist _ _).trans ih).append (List.Sublist.refl [a])
  | withdraw _ test ih => exact List.filter_sublist.trans ih

/-- Every entry given is kept or counted as lost. -/
theorem Holds.length_eq (h : Holds capacity given j) : given.length = j.kept.length + j.lost := by
  induction h with
  | empty => rfl
  | append _ a ih =>
    simp only [Journal.append, room, List.length_append, List.length_drop, List.length_singleton]
    omega
  | @withdraw given j _ test ih =>
    have hparts := List.length_eq_countP_add_countP test (l := j.kept)
    have hrest : (j.kept.filter fun a => !test a).length = j.kept.countP fun a => !test a :=
      List.countP_eq_length_filter.symm
    have hsame : (j.kept.countP fun a => !test a) = j.kept.countP fun a => ¬test a = true := by
      refine List.countP_congr fun a _ => ?_
      simp
    simp only [Journal.withdraw]
    omega

/-- A journal is never overfull by more than the entry it was given last. -/
theorem Holds.length_le_max (h : Holds capacity given j) : j.kept.length ≤ max 1 capacity := by
  induction h with
  | empty => exact Nat.zero_le _
  | append _ a ih =>
    simp only [Journal.append, room, List.length_append, List.length_drop, List.length_singleton]
    omega
  | withdraw _ test ih => exact (List.length_filter_le _ _).trans ih

/-- A journal that can hold an entry never holds more than its capacity. -/
theorem Holds.length_le (hcapacity : 1 ≤ capacity) (h : Holds capacity given j) :
    j.kept.length ≤ capacity := by
  have hmax := h.length_le_max
  omega

/-- Of distinct entries given, those that are kept are what is kept. -/
theorem filter_of_sublist {kept given : List α} (hsub : kept.Sublist given) (hnodup : given.Nodup)
    {stored : α → Bool} (hstored : ∀ a ∈ given, (stored a = true ↔ a ∈ kept)) :
    given.filter stored = kept := by
  induction hsub with
  | slnil => rfl
  | @cons kept given a hsub ih =>
    obtain ⟨hfresh, hrest⟩ := List.nodup_cons.mp hnodup
    have hlost : stored a ≠ true := by
      intro ha
      exact hfresh (hsub.subset ((hstored a List.mem_cons_self).mp ha))
    rw [List.filter_cons_of_neg hlost]
    exact ih hrest fun b hb => hstored b (List.mem_cons_of_mem _ hb)
  | @cons_cons kept given a hsub ih =>
    obtain ⟨hfresh, hrest⟩ := List.nodup_cons.mp hnodup
    have hkept : stored a = true := (hstored a List.mem_cons_self).mpr List.mem_cons_self
    rw [List.filter_cons_of_pos hkept]
    congr 1
    refine ih hrest fun b hb => ?_
    rw [hstored b (List.mem_cons_of_mem _ hb), List.mem_cons]
    refine ⟨fun h => h.resolve_left ?_, Or.inr⟩
    rintro rfl
    exact hfresh hb

end Journal
