import LifecycleFabric.Engine.Step
import LifecycleFabric.PolicyChains
import LifecycleFabric.ScopeWalks

/-!
# Locked refinements and targetable scopes

A refinement that forbids more fixes the policy of everything below it. Kinds added to a
refinement widen what a promotion may target, except where nothing limited the targets before:
there the added kinds are the first limit.
-/

namespace LifecycleFabric

open EngineState PolicySet

/-! ## Locked refinements -/

/-- Below a scope whose refinement counts and forbids more, every scope has its policy. -/
theorem effective_locked {r : ScopeRegistry} (hr : Runs.Reachable ScopeRegistry.call {} r)
    (set : PolicySet) {scope descendant : ScopeId} {refinement : ScopePolicyOverride}
    (hfound : set.overrides.get? scope.raw = some refinement)
    (hlocked : refinement.permitsChildOverride = false)
    (hcounts : Counts set.overrides (r.chain scope) scope)
    (hbelow : r.isAncestorOrSelf scope descendant = true) :
    set.effective r descendant = set.effective r scope := by
  obtain ⟨above, below, hchain, hpermits⟩ := hcounts
  obtain ⟨rest, hrest⟩ := (ScopeRegistry.formed_of_reachable hr).chain_begins hbelow
  have hlonger : r.chain descendant = above ++ scope :: (below ++ rest) := by
    rw [← hrest, hchain, List.append_assoc, List.cons_append]
  rw [effective, effective, hchain, hlonger, refineAlong_locked hpermits hfound hlocked,
    refineAlong_locked hpermits hfound hlocked]

/-- A cluster with a tenant. -/
def tenantTree : ScopeRegistry :=
  Runs.run ScopeRegistry.call {} [.ensurePath (text "global/cluster:c1/tenant:t1")]

/-- A refinement of the cluster that forbids more, and one of its tenant. -/
def lockedCluster : PolicySet :=
  ((({} : PolicySet).setOverride { scope := ⟨2⟩, requireRollbackTarget := 0 }).1.setOverride
    { scope := ⟨3⟩, requireRollbackTarget := 1 }).1

theorem effective_locked_tenant :
    lockedCluster.effective tenantTree ⟨3⟩ = lockedCluster.effective tenantTree ⟨2⟩ ∧
      (lockedCluster.effective tenantTree ⟨3⟩).requireRollbackTarget = false := by
  have hfound : lockedCluster.overrides.get? (⟨2⟩ : ScopeId).raw =
      some { scope := ⟨2⟩, requireRollbackTarget := 0 } := by decide +kernel
  have hroot : lockedCluster.overrides.get? (⟨1⟩ : ScopeId).raw = none := by decide +kernel
  have hcounts : Counts lockedCluster.overrides (tenantTree.chain ⟨2⟩) ⟨2⟩ :=
    ⟨[⟨1⟩], [], by decide +kernel, permits_of_get?_none hroot⟩
  exact ⟨effective_locked ⟨_, rfl⟩ lockedCluster hfound rfl hcounts (by decide +kernel),
    by decide +kernel⟩

/-! ## Added kinds -/

/-- Kinds added to the refinement of a scope, which is stored as attaching it stores it. -/
def PolicySet.addKinds (set : PolicySet) (scope : ScopeId) (kinds : List ScopeKind) : PolicySet :=
  { set with
    overrides := set.overrides.modify scope.raw fun refinement =>
      { refinement with
        additionalPromotableScopeKinds :=
          sortUniqueScopeKinds (refinement.additionalPromotableScopeKinds ++ kinds) } }

/-- Attaching a stored refinement again, with more kinds, adds the kinds. -/
theorem setOverride_addKinds {set : PolicySet} {scope : ScopeId} (hscope : scope.valid = true)
    {refinement : ScopePolicyOverride} (hfound : set.overrides.get? scope.raw = some refinement)
    (hown : refinement.scope = scope)
    (hcount : refinement.additionalRequiredEvidence.length ≤ EvidenceKind.count)
    (hsorted : sortUniqueEvidence refinement.additionalRequiredEvidence =
      refinement.additionalRequiredEvidence) (kinds : List ScopeKind) :
    (set.setOverride { refinement with
      additionalPromotableScopeKinds := refinement.additionalPromotableScopeKinds ++ kinds }).1 =
      set.addKinds scope kinds := by
  subst hown
  unfold setOverride PolicySet.addKinds
  rw [if_neg (by simp [hscope]), if_neg (Nat.not_lt.mpr hcount)]
  dsimp only
  congr 1
  refine OrdMap.ext_get? fun key => ?_
  rw [OrdMap.get?_insert, OrdMap.get?_modify, hsorted]
  split_ifs with hkey
  · rw [hkey, hfound, Option.map_some]
  · simp

@[simp] theorem mem_sortUniqueScopeKinds {kinds : List ScopeKind} {kind : ScopeKind} :
    kind ∈ sortUniqueScopeKinds kinds ↔ kind ∈ kinds := by
  rw [sortUniqueScopeKinds, List.mem_dedup, List.mem_insertionSort]

variable {set : PolicySet} {scope node : ScopeId} {kinds : List ScopeKind}

/-- Adding kinds changes which refinements permit more nowhere. -/
theorem permits_addKinds (scopes : List ScopeId) :
    Permits (set.addKinds scope kinds).overrides scopes ↔ Permits set.overrides scopes := by
  unfold Permits PolicySet.addKinds
  simp only [OrdMap.get?_modify, Option.map_eq_some_iff]
  constructor
  · intro h above habove refinement hfound
    have hafter := h above habove _ ⟨refinement, hfound, rfl⟩
    split_ifs at hafter
    · exact hafter
    · exact hafter
  · rintro h above habove _ ⟨refinement, hfound, rfl⟩
    have hbefore := h above habove refinement hfound
    split_ifs
    · exact hbefore
    · exact hbefore

theorem counts_addKinds (chain : List ScopeId) :
    Counts (set.addKinds scope kinds).overrides chain node ↔ Counts set.overrides chain node := by
  simp only [Counts, permits_addKinds]

/-- What a promotion into a scope may target. -/
theorem mem_effective_iff {scopes : ScopeRegistry} {target : ScopeId} {kind : ScopeKind} :
    kind ∈ (set.effective scopes target).promotableScopeKinds ↔
      kind ∈ set.base.promotableScopeKinds ∨
        ∃ node refinement, Counts set.overrides (scopes.chain target) node ∧
          set.overrides.get? node.raw = some refinement ∧
          kind ∈ refinement.additionalPromotableScopeKinds := by
  rw [effective]
  dsimp only
  rw [mem_sortUniqueScopeKinds, mem_refineAlong]

/-- The added kinds are among the kinds of a scope where the refinement counts, and nothing
else changes. -/
theorem mem_effective_addKinds {scopes : ScopeRegistry} {target : ScopeId} {kind : ScopeKind} :
    kind ∈ ((set.addKinds scope kinds).effective scopes target).promotableScopeKinds ↔
      kind ∈ (set.effective scopes target).promotableScopeKinds ∨
        Counts set.overrides (scopes.chain target) scope ∧
          set.overrides.contains scope.raw = true ∧ kind ∈ kinds := by
  simp only [mem_effective_iff, counts_addKinds, OrdMap.contains_iff]
  simp only [PolicySet.addKinds, OrdMap.get?_modify, Option.map_eq_some_iff]
  constructor
  · rintro (hbase | ⟨node, _, hcounts, ⟨refinement, hfound, rfl⟩, hkind⟩)
    · exact Or.inl (Or.inl hbase)
    · split_ifs at hkind with hsame
      · obtain rfl : node = scope := congrArg Ident.mk hsame
        rw [mem_sortUniqueScopeKinds, List.mem_append] at hkind
        rcases hkind with hown | hadded
        · exact Or.inl (Or.inr ⟨node, refinement, hcounts, hfound, hown⟩)
        · exact Or.inr ⟨hcounts, ⟨refinement, hfound⟩, hadded⟩
      · exact Or.inl (Or.inr ⟨node, refinement, hcounts, hfound, hkind⟩)
  · rintro ((hbase | ⟨node, refinement, hcounts, hfound, hkind⟩) |
      ⟨hcounts, ⟨refinement, hfound⟩, hadded⟩)
    · exact Or.inl hbase
    · refine Or.inr ⟨node, _, hcounts, ⟨refinement, hfound, rfl⟩, ?_⟩
      split_ifs
      · rw [mem_sortUniqueScopeKinds, List.mem_append]
        exact Or.inl hkind
      · exact hkind
    · refine Or.inr ⟨scope, _, hcounts, ⟨refinement, hfound, rfl⟩, ?_⟩
      rw [if_pos rfl, mem_sortUniqueScopeKinds, List.mem_append]
      exact Or.inr hadded

/-! ## The gate -/

/-- Whether the promotion gate takes the kind of the target scope. -/
def EngineState.targets (s : EngineState) (request : PromotionRequest) : Bool :=
  (s.targetScopeFaults request).all fun fault => decide (fault.code ≠ .policyScopeNotTargetable)

/-- The engine with kinds added to the refinement of a scope. -/
def EngineState.addKinds (s : EngineState) (scope : ScopeId) (kinds : List ScopeKind) :
    EngineState :=
  { s with policy := s.policy.addKinds scope kinds }

/-- The added kinds are the first limit on the target of a request, and leave out its kind:
neither the base policy nor a refinement that counts at the target names a kind. -/
structure FirstLimit (s : EngineState) (request : PromotionRequest) (scope : ScopeId)
    (kinds : List ScopeKind) : Prop where
  counts : Counts s.policy.overrides (s.scopes.chain request.scope) scope
  attached : s.policy.overrides.contains scope.raw = true
  base : s.policy.base.promotableScopeKinds = []
  refinements : ∀ node refinement,
    Counts s.policy.overrides (s.scopes.chain request.scope) node →
      s.policy.overrides.get? node.raw = some refinement →
      refinement.additionalPromotableScopeKinds = []
  added : kinds ≠ []
  leftOut : ∃ record, s.scopes.find request.scope = some record ∧ record.kind ∉ kinds

variable {s : EngineState} {request : PromotionRequest}

theorem targets_iff :
    s.targets request = true ↔
      ∀ record, s.scopes.find request.scope = some record →
        (s.policy.effective s.scopes request.scope).promotableScopeKinds = [] ∨
          record.kind ∈ (s.policy.effective s.scopes request.scope).promotableScopeKinds := by
  unfold EngineState.targets EngineState.targetScopeFaults EngineState.promotionPolicy
  cases hfind : s.scopes.find request.scope with
  | none => simp
  | some record =>
    have hfirst : ∀ (condition : Prop) [Decidable condition] (fault : Fault),
        (faultIf condition fault).all (fun fault => decide (fault.code ≠ .policyScopeNotTargetable))
            = true ↔ condition → fault.code ≠ .policyScopeNotTargetable := by
      intro condition _ fault
      unfold faultIf
      split_ifs with hcondition
      · simp [hcondition]
      · simp [hcondition]
    dsimp only
    rw [List.all_append, Bool.and_eq_true, hfirst, hfirst]
    constructor
    · rintro ⟨_, htarget⟩ found hfound
      obtain rfl := Option.some.inj hfound
      by_contra hnone
      rw [not_or] at hnone
      refine htarget ⟨?_, ?_⟩ rfl
      · simpa using hnone.1
      · simpa using hnone.2
    · intro h
      refine ⟨fun _ => by decide, ?_⟩
      rintro ⟨hlimited, hout⟩ _
      rcases h record rfl with hempty | hin
      · exact hlimited (by simpa using hempty)
      · exact hout (by simpa using hin)

/-- A target without a limit: no list that counts there names a kind. -/
theorem effective_eq_nil_iff {scopes : ScopeRegistry} {target : ScopeId} :
    (set.effective scopes target).promotableScopeKinds = [] ↔
      set.base.promotableScopeKinds = [] ∧
        ∀ node refinement, Counts set.overrides (scopes.chain target) node →
          set.overrides.get? node.raw = some refinement →
          refinement.additionalPromotableScopeKinds = [] := by
  simp only [List.eq_nil_iff_forall_not_mem, mem_effective_iff, not_or, not_exists, not_and]
  constructor
  · intro h
    exact ⟨fun kind => (h kind).1, fun node refinement hcounts hfound kind =>
      (h kind).2 node refinement hcounts hfound⟩
  · rintro ⟨hbase, hrefinements⟩ kind
    exact ⟨hbase kind, fun node refinement hcounts hfound =>
      hrefinements node refinement hcounts hfound kind⟩

/-- Kinds added to a refinement keep a target, except where they are the first limit. -/
theorem targets_addKinds_iff (s : EngineState) (request : PromotionRequest) (scope : ScopeId)
    (kinds : List ScopeKind) :
    (s.targets request = true → (s.addKinds scope kinds).targets request = true) ↔
      ¬FirstLimit s request scope kinds := by
  have hmem : ∀ kind, kind ∈
      ((s.addKinds scope kinds).policy.effective s.scopes request.scope).promotableScopeKinds ↔
        kind ∈ (s.policy.effective s.scopes request.scope).promotableScopeKinds ∨
          Counts s.policy.overrides (s.scopes.chain request.scope) scope ∧
            s.policy.overrides.contains scope.raw = true ∧ kind ∈ kinds :=
    fun _ => mem_effective_addKinds
  have hscopes : (s.addKinds scope kinds).scopes = s.scopes := rfl
  rw [targets_iff, targets_iff, hscopes]
  constructor
  · rintro h ⟨hcounts, hattached, hbase, hrefinements, hadded, record, hfind, hout⟩
    have hempty := effective_eq_nil_iff.mpr ⟨hbase, hrefinements⟩
    obtain ⟨kind, hkind⟩ := List.exists_mem_of_ne_nil kinds hadded
    rcases h (fun _ _ => Or.inl hempty) record hfind with hnone | hin
    · have hin := (hmem kind).mpr (Or.inr ⟨hcounts, hattached, hkind⟩)
      rw [hnone] at hin
      exact List.not_mem_nil hin
    · rcases (hmem record.kind).mp hin with hbefore | ⟨_, _, hkind⟩
      · rw [hempty] at hbefore
        exact List.not_mem_nil hbefore
      · exact hout hkind
  · intro hfirst h record hfind
    rcases h record hfind with hempty | hin
    · by_contra hlimited
      rw [not_or] at hlimited
      obtain ⟨hsome, hleft⟩ := hlimited
      obtain ⟨kind, hkind⟩ := List.exists_mem_of_ne_nil _ hsome
      rcases (hmem kind).mp hkind with hbefore | ⟨hcounts, hattached, hadded⟩
      · rw [hempty] at hbefore
        exact List.not_mem_nil hbefore
      · obtain ⟨hbase, hrefinements⟩ := effective_eq_nil_iff.mp hempty
        refine hfirst ⟨hcounts, hattached, hbase, hrefinements, ?_, record, hfind, ?_⟩
        · exact List.ne_nil_of_mem hadded
        · intro hin
          exact hleft ((hmem record.kind).mpr (Or.inr ⟨hcounts, hattached, hin⟩))
    · exact Or.inr ((hmem record.kind).mpr (Or.inl hin))

/-- The registration of a cluster, and a refinement of it that names no kind. -/
def refinedCluster : List Operation :=
  [.registerScope (text "global/cluster:c1"), .setScopePolicy { scope := ⟨2⟩ }]

/-- A cluster takes promotions until a kind other than its own is added to its refinement. -/
theorem added_kind_closes_target :
    (∃ refinement, (runOps {} (init {}) refinedCluster).policy.overrides.get? 2 = some refinement) ∧
      Counts (runOps {} (init {}) refinedCluster).policy.overrides
        ((runOps {} (init {}) refinedCluster).scopes.chain ⟨2⟩) ⟨2⟩ ∧
      (runOps {} (init {}) refinedCluster).targets { scope := ⟨2⟩ } = true ∧
      ((runOps {} (init {}) refinedCluster).addKinds ⟨2⟩ [.tenant]).targets { scope := ⟨2⟩ } =
        false := by
  have hroot : (runOps {} (init {}) refinedCluster).policy.overrides.get? (⟨1⟩ : ScopeId).raw =
      none := by decide +kernel
  exact ⟨OrdMap.contains_iff.mp (by decide +kernel),
    ⟨[⟨1⟩], [], by decide +kernel, permits_of_get?_none hroot⟩, by decide +kernel,
    by decide +kernel⟩

end LifecycleFabric
