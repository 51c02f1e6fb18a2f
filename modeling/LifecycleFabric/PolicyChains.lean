import LifecycleFabric.Policy

/-!
# Refinements along a chain

A refinement counts at a scope when nothing above it on the chain has one that forbids it. The
kinds a policy ends with are those of the base policy and those of the refinements that count.
-/

namespace LifecycleFabric

namespace PolicySet

/-- Every refinement attached to some scopes permits further refinement. -/
def Permits (overrides : OrdMap UInt64 ScopePolicyOverride) (scopes : List ScopeId) : Prop :=
  ∀ scope ∈ scopes, ∀ refinement, overrides.get? scope.raw = some refinement →
    refinement.permitsChildOverride = true

/-- A scope stands on a chain, and no refinement above it forbids one there. -/
def Counts (overrides : OrdMap UInt64 ScopePolicyOverride) (chain : List ScopeId)
    (scope : ScopeId) : Prop :=
  ∃ above below, chain = above ++ scope :: below ∧ Permits overrides above

variable {overrides : OrdMap UInt64 ScopePolicyOverride} {chain above below : List ScopeId}
  {scope node : ScopeId} {refinement : ScopePolicyOverride}

/-- Once a refinement forbids more, the rest of a chain changes nothing. -/
theorem refineAlong_false (chain : List ScopeId) (policy : LifecyclePolicy) :
    refineAlong overrides chain false policy = policy := by
  induction chain with
  | nil => rfl
  | cons node chain ih =>
    unfold refineAlong
    cases overrides.get? node.raw with
    | none => exact ih
    | some refinement => exact ih

/-- Refinements that permit more leave the rest of a chain to refine. -/
theorem refineAlong_append (hpermits : Permits overrides above) (policy : LifecyclePolicy) :
    refineAlong overrides (above ++ below) true policy =
      refineAlong overrides below true (refineAlong overrides above true policy) := by
  induction above generalizing policy with
  | nil => rfl
  | cons node above ih =>
    have hrest : Permits overrides above := fun scope hscope =>
      hpermits scope (List.mem_cons_of_mem _ hscope)
    rw [List.cons_append, refineAlong, refineAlong]
    cases hfound : overrides.get? node.raw with
    | none => exact ih hrest policy
    | some refinement =>
      have hmore := hpermits node List.mem_cons_self refinement hfound
      dsimp only
      rw [if_neg (by simp), if_neg (by simp), hmore]
      exact ih hrest _

/-- Below a refinement that counts and forbids more, a chain ends with that refinement. -/
theorem refineAlong_locked (hpermits : Permits overrides above)
    (hfound : overrides.get? scope.raw = some refinement)
    (hlocked : refinement.permitsChildOverride = false) (policy : LifecyclePolicy) :
    refineAlong overrides (above ++ scope :: below) true policy =
      refine (refineAlong overrides above true policy) refinement := by
  rw [refineAlong_append hpermits, refineAlong, hfound]
  dsimp only
  rw [if_neg (by simp), hlocked, refineAlong_false]

/-- A scope without a refinement forbids none. -/
theorem permits_of_get?_none (hnone : overrides.get? node.raw = none) :
    Permits overrides [node] := by
  intro scope hscope refinement hrefinement
  rw [List.mem_singleton.mp hscope, hnone] at hrefinement
  cases hrefinement

theorem counts_nil : ¬Counts overrides [] scope := by
  rintro ⟨above, below, hchain, _⟩
  simp at hchain

/-- Where a refinement counts on a longer chain. -/
theorem counts_cons :
    Counts overrides (node :: chain) scope ↔
      scope = node ∨ Permits overrides [node] ∧ Counts overrides chain scope := by
  constructor
  · rintro ⟨above, below, hchain, hpermits⟩
    cases above with
    | nil =>
      obtain ⟨rfl, _⟩ := List.cons.inj hchain
      exact Or.inl rfl
    | cons first above =>
      obtain ⟨rfl, rfl⟩ := List.cons.inj hchain
      refine Or.inr ⟨?_, above, below, rfl, ?_⟩
      · intro other hother
        rw [List.mem_singleton.mp hother]
        exact hpermits node List.mem_cons_self
      · intro other hother
        exact hpermits other (List.mem_cons_of_mem _ hother)
  · rintro (rfl | ⟨hfirst, above, below, rfl, hpermits⟩)
    · exact ⟨[], chain, rfl, fun _ hnone => absurd hnone List.not_mem_nil⟩
    · refine ⟨node :: above, below, rfl, ?_⟩
      intro other hother
      rcases List.mem_cons.mp hother with rfl | hother
      · exact hfirst other (List.mem_singleton_self other)
      · exact hpermits other hother

/-- The kinds of a policy refined along a chain: its own, and those of the refinements that
count. -/
theorem mem_refineAlong (chain : List ScopeId) (policy : LifecyclePolicy) (kind : ScopeKind) :
    kind ∈ (refineAlong overrides chain true policy).promotableScopeKinds ↔
      kind ∈ policy.promotableScopeKinds ∨
        ∃ scope refinement, Counts overrides chain scope ∧
          overrides.get? scope.raw = some refinement ∧
          kind ∈ refinement.additionalPromotableScopeKinds := by
  induction chain generalizing policy with
  | nil => simp [refineAlong, counts_nil]
  | cons node chain ih =>
    rw [refineAlong]
    simp only [counts_cons]
    cases hfound : overrides.get? node.raw with
    | none =>
      have hpermits := permits_of_get?_none hfound
      dsimp only
      rw [ih policy]
      grind
    | some refinement =>
      dsimp only
      rw [if_neg (by simp)]
      cases hmore : refinement.permitsChildOverride with
      | false =>
        have hforbids : ¬Permits overrides [node] := by
          intro hpermits
          have hall := hpermits node (List.mem_singleton_self node) refinement hfound
          rw [hmore] at hall
          cases hall
        rw [refineAlong_false]
        simp only [refine, List.mem_append]
        grind
      | true =>
        have hpermits : Permits overrides [node] := by
          intro scope hscope other hother
          rw [List.mem_singleton.mp hscope, hfound] at hother
          rw [← Option.some.inj hother]
          exact hmore
        rw [ih]
        simp only [refine, List.mem_append]
        grind

end PolicySet

end LifecycleFabric
