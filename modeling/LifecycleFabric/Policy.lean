import LifecycleFabric.Evidence
import LifecycleFabric.Scope

/-!
# Lifecycle policy

A base policy with per-scope refinements, resolved along the scope chain from the
root down.
-/

namespace LifecycleFabric

/-- Policy governing lifecycle authority. -/
structure LifecyclePolicy where
  generation : PolicyGeneration := ⟨firstGeneration⟩
  /-- Most simultaneously authoritative generations per scope. -/
  maxActiveGenerationsPerScope : UInt32 := 2
  allowSplitTraffic : Bool := true
  requireRollbackTarget : Bool := true
  allowAutomaticRollback : Bool := false
  requireManualApprovalForPromotion : Bool := false
  /-- Largest share of the target scope one stage may move. -/
  maxBlastRadiusPercent : UInt32 := 100
  requireEvidenceForStageAdvance : Bool := true
  /-- Zero disables expiry by age. -/
  maxEvidenceAgeTicks : UInt64 := 0
  requireResidencyBeforeStageEntry : Bool := false
  requireDrainAfterStageCommit : Bool := false
  allowImmediateCutover : Bool := true
  /-- Scope kinds a promotion may target; empty means all. -/
  promotableScopeKinds : List ScopeKind := []
  /-- Evidence every promotion must carry. -/
  globallyRequiredEvidence : List EvidenceKind := []
  allowRetirementWithoutDrain : Bool := false
  rollbackRetentionGenerations : UInt32 := 1
  supersedeInflightRolloutOnNewPromotion : Bool := true
  allowVersionLabelReuseAfterRetirement : Bool := false
  deriving DecidableEq

/-- A scope-specific refinement. Signed fields below zero inherit. -/
structure ScopePolicyOverride where
  scope : ScopeId := {}
  /-- Whether descendants may refine this refinement. -/
  permitsChildOverride : Bool := false
  /-- Zero inherits. -/
  maxActiveGenerationsPerScope : UInt32 := 0
  requireRollbackTarget : Int8 := -1
  requireEvidenceForStageAdvance : Int8 := -1
  requireResidencyBeforeStageEntry : Int8 := -1
  additionalRequiredEvidence : List EvidenceKind := []
  additionalPromotableScopeKinds : List ScopeKind := []
  deriving DecidableEq

/-- Sort kinds by number and drop repetitions. -/
def sortUniqueEvidence (kinds : List EvidenceKind) : List EvidenceKind :=
  (kinds.insertionSort fun a b => a.code ≤ b.code).dedup

/-- Sort kinds by number and drop repetitions. -/
def sortUniqueScopeKinds (kinds : List ScopeKind) : List ScopeKind :=
  (kinds.insertionSort fun a b => a.code ≤ b.code).dedup

/-- Base policy and refinements by scope. -/
structure PolicySet where
  base : LifecyclePolicy := {}
  overrides : OrdMap UInt64 ScopePolicyOverride := OrdMap.empty
  deriving DecidableEq

namespace PolicySet

/-- Attach a refinement to its scope. -/
def setOverride (set : PolicySet) (refinement : ScopePolicyOverride) : PolicySet × Decision :=
  if !refinement.scope.valid then
    (set, .because .rejected .unknownScope (text "policy override needs a scope identity"))
  else if EvidenceKind.count < refinement.additionalRequiredEvidence.length then
    (set, .because .boundsExceeded .boundsEvidenceCount
      (text "too many required evidence kinds"))
  else
    let normalized : ScopePolicyOverride :=
      { refinement with
        additionalRequiredEvidence := sortUniqueEvidence refinement.additionalRequiredEvidence
        additionalPromotableScopeKinds :=
          sortUniqueScopeKinds refinement.additionalPromotableScopeKinds }
    ({ set with overrides := set.overrides.insert normalized.scope.raw normalized }, .accepted)

/-- A refinement leaves the base policy alone. -/
@[simp] theorem setOverride_base (set : PolicySet) (refinement : ScopePolicyOverride) :
    (set.setOverride refinement).1.base = set.base := by
  unfold setOverride
  split_ifs <;> rfl

/-- A signed refinement of a flag. -/
def refineFlag (refinement : Int8) (inherited : Bool) : Bool :=
  if 0 ≤ refinement then refinement != 0 else inherited

/-- Apply one refinement. -/
def refine (policy : LifecyclePolicy) (refinement : ScopePolicyOverride) : LifecyclePolicy :=
  { policy with
    maxActiveGenerationsPerScope :=
      if refinement.maxActiveGenerationsPerScope ≠ 0 then refinement.maxActiveGenerationsPerScope
      else policy.maxActiveGenerationsPerScope
    requireRollbackTarget :=
      refineFlag refinement.requireRollbackTarget policy.requireRollbackTarget
    requireEvidenceForStageAdvance :=
      refineFlag refinement.requireEvidenceForStageAdvance policy.requireEvidenceForStageAdvance
    requireResidencyBeforeStageEntry :=
      refineFlag refinement.requireResidencyBeforeStageEntry
        policy.requireResidencyBeforeStageEntry
    globallyRequiredEvidence :=
      policy.globallyRequiredEvidence ++ refinement.additionalRequiredEvidence
    promotableScopeKinds :=
      policy.promotableScopeKinds ++ refinement.additionalPromotableScopeKinds }

/-- Apply the refinements found along a chain. A refinement that does not permit
further refinement makes those below it be ignored. -/
def refineAlong (overrides : OrdMap UInt64 ScopePolicyOverride) :
    List ScopeId → Bool → LifecyclePolicy → LifecyclePolicy
  | [], _, policy => policy
  | node :: chain, mayRefine, policy =>
    match overrides.get? node.raw with
    | none => refineAlong overrides chain mayRefine policy
    | some refinement =>
      if !mayRefine then refineAlong overrides chain mayRefine policy
      else refineAlong overrides chain refinement.permitsChildOverride (refine policy refinement)

/-- The effective policy of a scope. -/
def effective (set : PolicySet) (scopes : ScopeRegistry) (scope : ScopeId) : LifecyclePolicy :=
  let policy := refineAlong set.overrides (scopes.chain scope) true set.base
  { policy with
    globallyRequiredEvidence := sortUniqueEvidence policy.globallyRequiredEvidence
    promotableScopeKinds := sortUniqueScopeKinds policy.promotableScopeKinds }

/-- What no refinement changes is the same along a chain. -/
theorem refineAlong_unrefined {α : Type} (f : LifecyclePolicy → α)
    (hf : ∀ policy refinement, f (refine policy refinement) = f policy)
    (overrides : OrdMap UInt64 ScopePolicyOverride) (chain : List ScopeId) (mayRefine : Bool)
    (policy : LifecyclePolicy) : f (refineAlong overrides chain mayRefine policy) = f policy := by
  induction chain generalizing mayRefine policy with
  | nil => rfl
  | cons node chain ih =>
    unfold refineAlong
    cases overrides.get? node.raw with
    | none => exact ih mayRefine policy
    | some refinement =>
      dsimp only
      split_ifs
      · exact ih mayRefine policy
      · rw [ih, hf]

/-- No refinement decides whether a scope may split traffic. -/
theorem effective_allowSplitTraffic (set : PolicySet) (scopes : ScopeRegistry) (scope : ScopeId) :
    (set.effective scopes scope).allowSplitTraffic = set.base.allowSplitTraffic :=
  refineAlong_unrefined LifecyclePolicy.allowSplitTraffic (fun _ _ => rfl) _ _ _ _

/-- No refinement decides whether a committed stage drains what it replaced. -/
theorem effective_requireDrain (set : PolicySet) (scopes : ScopeRegistry) (scope : ScopeId) :
    (set.effective scopes scope).requireDrainAfterStageCommit =
      set.base.requireDrainAfterStageCommit :=
  refineAlong_unrefined LifecyclePolicy.requireDrainAfterStageCommit (fun _ _ => rfl) _ _ _ _

/-- No refinement decides whether a failed stage is rolled back by itself. -/
theorem effective_allowAutomaticRollback (set : PolicySet) (scopes : ScopeRegistry)
    (scope : ScopeId) :
    (set.effective scopes scope).allowAutomaticRollback = set.base.allowAutomaticRollback :=
  refineAlong_unrefined LifecyclePolicy.allowAutomaticRollback (fun _ _ => rfl) _ _ _ _

/-- The checks recovery makes on a base policy. -/
def restorableBase (base : LifecyclePolicy) : Bool :=
  base.generation.valid && decide (base.maxActiveGenerationsPerScope ≠ 0) &&
  decide (base.maxActiveGenerationsPerScope ≤ 64) &&
  decide (base.maxBlastRadiusPercent ≤ 100) &&
  decide (base.globallyRequiredEvidence.length ≤ EvidenceKind.count)

/-- The checks recovery makes on one refinement. -/
def restorableOverride (key : UInt64) (refinement : ScopePolicyOverride) : Bool :=
  decide (key ≠ 0) && decide (refinement.scope.raw = key) &&
    decide (refinement.additionalRequiredEvidence.length ≤ EvidenceKind.count)

/-- Replace the set during recovery. `none` leaves it untouched. -/
def restore (overrides : OrdMap UInt64 ScopePolicyOverride)
    (base : LifecyclePolicy) : Option PolicySet :=
  if restorableBase base ∧ overrides.entries.all fun e => restorableOverride e.1 e.2 then
    some { base, overrides }
  else none

end PolicySet

end LifecycleFabric
