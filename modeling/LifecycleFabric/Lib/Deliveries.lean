import Mathlib

/-!
# At most once

Things are sent, and what was sent is in flight until it is delivered or lost. What is sent
without repetition is delivered without repetition, in whatever order it arrives.
-/

namespace Deliveries

variable {ι : Type*} {sent new flying delivered delivered' : List ι}

/-- Nothing is delivered twice, or delivered and still in flight, and all of it was sent. -/
structure Once (sent flying delivered : List ι) : Prop where
  nodup : (delivered ++ flying).Nodup
  sent : delivered ++ flying ⊆ sent

theorem once_nil : Once ([] : List ι) [] [] := ⟨List.nodup_nil, List.Subset.refl _⟩

theorem Once.delivered_nodup (h : Once sent flying delivered) : delivered.Nodup :=
  (List.nodup_append.mp h.nodup).1

theorem Once.perm (h : Once sent flying delivered) (hperm : delivered'.Perm delivered) :
    Once sent flying delivered' where
  nodup := (hperm.append_right flying).nodup_iff.mpr h.nodup
  sent := List.Subset.trans (hperm.append_right flying).subset h.sent

/-- What is sent anew is in flight. -/
theorem Once.send (h : Once sent flying delivered) (hnew : (sent ++ new).Nodup) :
    Once (sent ++ new) (flying ++ new) delivered := by
  obtain ⟨_, hnodup, hapart⟩ := List.nodup_append.mp hnew
  constructor
  · rw [← List.append_assoc]
    refine List.nodup_append.mpr ⟨h.nodup, hnodup, ?_⟩
    intro i hi j hj
    exact hapart i (h.sent hi) j hj
  · rw [← List.append_assoc]
    exact List.append_subset.mpr
      ⟨List.Subset.trans h.sent (List.subset_append_left _ _), List.subset_append_right _ _⟩

/-- What is lost does not arrive. -/
theorem Once.lose (h : Once sent flying delivered) (k : ℕ) :
    Once sent (flying.eraseIdx k) delivered := by
  have hsublist : (delivered ++ flying.eraseIdx k).Sublist (delivered ++ flying) :=
    (List.eraseIdx_sublist flying k).append_left delivered
  exact ⟨h.nodup.sublist hsublist, List.Subset.trans hsublist.subset h.sent⟩

/-- What arrives is no longer in flight. -/
theorem Once.deliver (h : Once sent flying delivered) {k : ℕ} {i : ι} (hk : flying[k]? = some i) :
    Once sent (flying.eraseIdx k) (delivered ++ [i]) := by
  obtain ⟨hlt, rfl⟩ := List.getElem?_eq_some_iff.mp hk
  have hperm : (delivered ++ [flying[k]] ++ flying.eraseIdx k).Perm (delivered ++ flying) := by
    rw [List.append_assoc, List.singleton_append]
    exact (List.getElem_cons_eraseIdx_perm hlt).append_left delivered
  exact ⟨hperm.nodup_iff.mpr h.nodup, List.Subset.trans hperm.subset h.sent⟩

section Parties

variable {α : Type*} {parties : List α} {j : ℕ} {change : α → α} {received : α → List ι}

/-- What several parties received, when one of them received more. -/
theorem flatMap_modify_perm {party : α} (hparty : parties[j]? = some party)
    (hnew : received (change party) = received party ++ new) :
    ((parties.modify j change).flatMap received).Perm (parties.flatMap received ++ new) := by
  induction parties generalizing j with
  | nil => cases hparty
  | cons first rest ih =>
    cases j with
    | zero =>
      obtain rfl := Option.some.inj hparty
      rw [List.modify_zero_cons, List.flatMap_cons, List.flatMap_cons, hnew, List.append_assoc,
        List.append_assoc]
      exact List.perm_append_comm.append_left (received first)
    | succ j =>
      rw [List.modify_succ_cons, List.flatMap_cons, List.flatMap_cons, List.append_assoc]
      exact (ih hparty).append_left (received first)

/-- A party that was there before, or the one that changed. -/
theorem mem_modify {party : α} (h : party ∈ parties.modify j change) :
    party ∈ parties ∨ ∃ before, parties[j]? = some before ∧ party = change before := by
  obtain ⟨k, hk⟩ := List.mem_iff_getElem?.mp h
  rw [List.getElem?_modify] at hk
  obtain ⟨before, hbefore, rfl⟩ := Option.map_eq_some_iff.mp hk
  split_ifs with heq
  · subst heq
    exact .inr ⟨before, hbefore, rfl⟩
  · exact .inl (List.mem_of_getElem? hbefore)

end Parties

end Deliveries
