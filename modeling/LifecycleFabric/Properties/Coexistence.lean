import LifecycleFabric.Engine.ActiveGenerations
import LifecycleFabric.Properties.ScopeGenerations

/-!
# How many generations a scope holds

The policy bounds the generations active in a scope. The promotion gate counts them before
it grants, and a rollback leaves one. Stages are granted without a count, so that a scope
stays within its limit as long as no stage entry and no stage commit exceeds it.
-/

namespace LifecycleFabric

open EngineState AuthorityTable

variable {c : EngineConfig} {s t : EngineState} {plan : RolloutPlan}

/-! ## Limits -/

/-- The number of generations the policy lets be active in a scope. -/
def EngineState.generationLimit (s : EngineState) (scope : ScopeId) : ℕ :=
  (s.policy.effective s.scopes scope).maxActiveGenerationsPerScope.toNat

/-- No scope holds more active generations than the policy permits there. -/
def EngineState.WithinLimits (s : EngineState) : Prop :=
  ∀ scope, (s.activeIn scope).card ≤ s.generationLimit scope

/-- Apart from an import, no step moves a scope to another place in the tree. -/
theorem StepCase.keepsTree {op : Operation} (h : StepCase c s op t) (hop : op.isImport = false) :
    s.scopes.Keeps t.scopes := by
  cases h with
  | aside h => exact h.scopes.extends.keeps
  | chain p _ _ _ h =>
    refine Runs.chain_preserves (P := fun u => s.scopes.Keeps u.scopes) ?_ h
      (ScopeRegistry.Extends.refl s.scopes).keeps
    intro u v huv hu
    cases huv with
    | touch scope => exact hu.trans (ScopeRegistry.keeps_touch u.scopes scope)
    | _ => exact hu
  | recover => cases hop

/-- A state with the policy and the tree of another has its limits. -/
theorem generationLimit_eq (hstanding : Standing s) (hpolicy : t.policy = s.policy)
    (hkeeps : s.scopes.Keeps t.scopes) {scope : ScopeId}
    (hfound : (s.scopes.find scope).isSome = true) :
    t.generationLimit scope = s.generationLimit scope := by
  rw [generationLimit, generationLimit, PolicySet.effective, PolicySet.effective, hpolicy,
    hstanding.tree.chain_eq hkeeps hfound]

/-- A scope that is not registered holds nothing. -/
theorem activeIn_unregistered (hseated : Seated s) {scope : ScopeId}
    (hmissing : (s.scopes.find scope).isSome = false) : s.activeIn scope = ∅ := by
  apply activeGenerations_inactive
  intro b hb
  rw [hseated scope b hb] at hmissing
  cases hmissing

/-- What grants nothing beyond the limits keeps within them. -/
theorem EngineState.WithinLimits.step (h : s.WithinLimits) (hstanding : Standing s) (hseated : Seated s)
    (hpolicy : t.policy = s.policy) (hkeeps : s.scopes.Keeps t.scopes)
    (hactive : ∀ scope, t.activeIn scope ⊆ s.activeIn scope ∨
      (s.scopes.find scope).isSome = true ∧ (t.activeIn scope).card ≤ s.generationLimit scope) :
    t.WithinLimits := by
  intro scope
  cases hfound : (s.scopes.find scope).isSome with
  | true =>
    rw [generationLimit_eq hstanding hpolicy hkeeps hfound]
    rcases hactive scope with hsubset | ⟨_, hcard⟩
    · exact (Finset.card_le_card hsubset).trans (h scope)
    · exact hcard
  | false =>
    rcases hactive scope with hsubset | ⟨hcontra, _⟩
    · rw [activeIn_unregistered hseated hfound] at hsubset
      rw [Finset.subset_empty.mp hsubset, Finset.card_empty]
      exact Nat.zero_le _
    · rw [hfound] at hcontra
      cases hcontra

/-- A scope that holds an active generation has a limit above zero. -/
theorem EngineState.WithinLimits.pos (h : s.WithinLimits) {scope : ScopeId} {b : AuthorityBinding}
    (hb : b ∈ s.authority.bindingsFor scope) (hactive : b.active = true) :
    0 < s.generationLimit scope := by
  have hmem : b.held ∈ s.activeIn scope := mem_activeGenerations.mpr ⟨b, hb, hactive, rfl⟩
  exact (Finset.card_pos.mpr ⟨b.held, hmem⟩).trans_le (h scope)

/-! ## Promotions -/

/-- A grant that counts adds at most the generation of its version to its scope. -/
theorem activeIn_grant_subset (hs : Coherent s) (hstanding : Standing s) {g : GrantRequest}
    (hmoves : g.supersedeExisting = true) (scope : ScopeId) :
    (s.grantAuthority g).1.activeIn scope ⊆
      if scope = g.scope then insert (s.heldBy g.model g.version) (s.activeIn scope)
      else s.activeIn scope := by
  cases hadmitted : g.admitted s with
  | true =>
    have hgranted := (grantAuthority_admitted hs hstanding hadmitted).2
    by_cases hscope : scope = g.scope
    · rw [if_pos hscope, hscope, hgranted.activeIn_self hs (Or.inl hmoves)]
      exact Finset.insert_subset_insert _ (activeGenerations_weakens (g.weakens_keeps _))
    · rw [if_neg hscope, activeIn_of_bindingsFor (hgranted.bindingsFor_of_ne hscope)]
  | false =>
    have hkept : (s.grantAuthority g).1.activeIn scope = s.activeIn scope := by
      rcases (grantAuthority_refused hs hstanding hadmitted).2 with hsame | hbumped
      · rw [hsame]
      · rw [hbumped]
        rfl
    rw [hkept]
    split_ifs
    · exact Finset.subset_insert _ _
    · exact Finset.Subset.refl _

/-- The gate counts the generations of the target scope as they would be. -/
theorem card_le_projected (s : EngineState) (scope : ScopeId) (record : ModelVersionRecord) :
    (insert (record.model, record.version, record.generation) (s.activeIn scope)).card ≤
      max (s.activeIn scope).card (s.projectedGenerations scope record) := by
  by_cases hmem : (record.model, record.version, record.generation) ∈ s.activeIn scope
  · rw [Finset.insert_eq_of_mem hmem]
    exact le_max_left _ _
  · refine le_max_of_le_right ?_
    have hserving : (s.authority.liveBindingsFor scope).filter
        (fun b => decide (b.kind ≠ .rollbackRetained)) =
          (s.authority.bindingsFor scope).filter AuthorityBinding.active := by
      rw [liveBindingsFor, List.filter_filter]
      refine List.filter_congr fun b _ => ?_
      rw [AuthorityBinding.active, Bool.and_comm]
    have hcurrent : ∀ b ∈ (s.authority.bindingsFor scope).filter AuthorityBinding.active,
        b.bindsCurrent record = false := by
      intro b hb
      obtain ⟨hb, hactive⟩ := List.mem_filter.mp hb
      by_contra hbinds
      rw [Bool.not_eq_false, AuthorityBinding.bindsCurrent, Bool.and_eq_true,
        AuthorityBinding.ofVersion_iff, decide_eq_true_eq] at hbinds
      obtain ⟨⟨hmodel, hversion⟩, hgeneration⟩ := hbinds
      refine hmem (mem_activeGenerations.mpr ⟨b, hb, hactive, ?_⟩)
      rw [AuthorityBinding.held, hmodel, hversion, hgeneration]
    have hothers : ((s.authority.bindingsFor scope).filter AuthorityBinding.active).filter
        (fun b => !b.bindsCurrent record) =
          (s.authority.bindingsFor scope).filter AuthorityBinding.active := by
      rw [List.filter_eq_self]
      intro b hb
      rw [hcurrent b hb]
      rfl
    have hpresent : ((s.authority.bindingsFor scope).filter AuthorityBinding.active).any
        (·.bindsCurrent record) = false := by
      rw [List.any_eq_false]
      intro b hb
      rw [hcurrent b hb]
      exact Bool.false_ne_true
    -- Numbers tell generations apart, so counting them counts the generations.
    have hraw : ((s.authority.bindingsFor scope).filter AuthorityBinding.active).map
        (fun b => (b.model.raw, b.version.raw, b.modelGeneration.raw)) =
          (((s.authority.bindingsFor scope).filter AuthorityBinding.active).map
            AuthorityBinding.held).map fun g => (g.1.raw, g.2.1.raw, g.2.2.raw) := by
      rw [List.map_map]
      rfl
    have hinjective : Function.Injective fun g : HeldGeneration =>
        (g.1.raw, g.2.1.raw, g.2.2.raw) := by
      rintro ⟨model, version, generation⟩ ⟨model', version', generation'⟩ hsame
      simp only [Prod.mk.injEq] at hsame
      obtain ⟨hmodel, hversion, hgeneration⟩ := hsame
      rw [Ident.ext hmodel, Ident.ext hversion, Ident.ext hgeneration]
    unfold projectedGenerations
    dsimp only
    rw [hserving, hothers, hpresent, hraw, List.dedup_map_of_injective hinjective, List.length_map,
      Finset.card_insert_of_notMem hmem, activeIn, activeGenerations, List.card_toFinset]
    exact le_rfl

/-- A permitted promotion leaves its scope room for the candidate. -/
theorem promotion_within (hs : Coherent s) {request : PromotionRequest}
    (hgate : (s.evaluatePromotion c request).allowed = true) (hlimits : s.WithinLimits) :
    (s.scopes.find request.scope).isSome = true ∧
      (insert (s.heldBy request.model request.candidate) (s.activeIn request.scope)).card ≤
        s.generationLimit request.scope := by
  obtain ⟨record, hrecord, hfaults⟩ := evaluatePromotion_allowed_iff.mp hgate
  obtain ⟨found, hfound, _, hscope⟩ := promotion_permitted hgate
  obtain ⟨hmodel, hversion⟩ := versionKey_inj.mp (hs.versions _ record hrecord)
  refine ⟨hscope, ?_⟩
  obtain ⟨scopeRecord, hscopeRecord⟩ := Option.isSome_iff_exists.mp hscope
  simp only [promotionFaults, List.append_eq_nil_iff] at hfaults
  obtain ⟨⟨_, hcoexistence⟩, _⟩ := hfaults
  simp only [coexistenceFaults, promotionPolicy, hscopeRecord, List.append_eq_nil_iff,
    faultIf_eq_nil, not_lt] at hcoexistence
  have hheld : s.heldBy request.model request.candidate =
      (record.model, record.version, record.generation) := by
    rw [heldBy, hrecord, hmodel, hversion]
    rfl
  rw [hheld]
  exact (card_le_projected s request.scope record).trans
    (max_le (hlimits request.scope) hcoexistence.1)

theorem heldBy_prepared (hs : Coherent s) {request : PromotionRequest} {record : ModelVersionRecord}
    (hrecord : s.versionOf request.model request.candidate = some record) :
    (s.prepared request record).heldBy request.model request.candidate =
      s.heldBy request.model request.candidate := by
  rw [prepared, heldBy_advanceVersion, heldBy, heldBy, versionOf_clearInflight hs hrecord, hrecord]

/-- What a promotion leaves active in a scope. -/
theorem promote_active (hs : Coherent s) (hstanding : Standing s) (request : PromotionRequest)
    (scope : ScopeId) :
    (s.promote c request).1.activeIn scope ⊆ s.activeIn scope ∨
      scope = request.scope ∧ (s.evaluatePromotion c request).allowed = true ∧
        (s.promote c request).1.activeIn scope ⊆
          insert (s.heldBy request.model request.candidate) (s.activeIn scope) := by
  cases hcommit : s.reachesCommit c request with
  | false =>
    left
    cases promotes (c := c) hs hstanding request with
    | stopped _ _ hsame => rw [hsame]
    | committed hreaches =>
      rw [hcommit] at hreaches
      cases hreaches
    | aborted hreaches =>
      rw [hcommit] at hreaches
      cases hreaches
  | true =>
    obtain ⟨record, promotion, generation, hrecord, _, _, hauthority, _⟩ :=
      promote_granted hs hcommit
    have hgate : (s.evaluatePromotion c request).allowed = true := by
      rw [reachesCommit, Bool.and_eq_true] at hcommit
      exact hcommit.1
    have hchain := chain_prepared_still (c := c) s request record
    have hprepared : (s.prepared request record).activeIn scope ⊆ s.activeIn scope :=
      hchain.activeIn_subset fun _ hgrants => hgrants.elim
    rw [activeIn, hauthority, ← activeIn, grantPromotion_eq]
    by_cases himmediate : request.immediate = true
    · rw [if_pos himmediate]
      have hgranted : ((s.prepared request record).grantAuthority
          (request.grant promotion generation)).1.activeIn scope ⊆
            if scope = request.scope then
              insert ((s.prepared request record).heldBy request.model request.candidate)
                ((s.prepared request record).activeIn scope)
            else (s.prepared request record).activeIn scope :=
        activeIn_grant_subset (hchain.coherent hs) (hchain.standing hstanding) rfl scope
      by_cases hscope : scope = request.scope
      · refine Or.inr ⟨hscope, hgate, hgranted.trans ?_⟩
        rw [if_pos hscope, heldBy_prepared hs hrecord]
        exact Finset.insert_subset_insert _ hprepared
      · left
        rw [if_neg hscope] at hgranted
        exact hgranted.trans hprepared
    · rw [if_neg himmediate]
      exact Or.inl hprepared

/-! ## Rollbacks -/

/-- A cleared scope that is granted holds one generation at most. -/
theorem card_takenOver (hs : Coherent s) (hstanding : Standing s) {g : GrantRequest}
    (hmoves : g.supersedeExisting = true) :
    (((s.mapAuthority (·.supersedeScope g.scope)).grantAuthority g).1.activeIn g.scope).card ≤ 1 := by
  have hchain : Chain {} {} s (s.mapAuthority (·.supersedeScope g.scope)) :=
    chain_supersedeScope s g.scope
  have hcleared : (s.mapAuthority (·.supersedeScope g.scope)).activeIn g.scope = ∅ := by
    apply activeGenerations_inactive
    intro b hb
    rw [AuthorityBinding.active, not_live_of_supersedeScope hb]
    rfl
  have hgranted := activeIn_grant_subset (hchain.coherent hs) (hchain.standing hstanding) hmoves
    g.scope
  rw [if_pos rfl, hcleared] at hgranted
  exact Finset.card_le_card hgranted

/-- The candidate of a permitted rollback counts in the scope of the rollback. -/
theorem rollback_counts {request : RollbackRequest}
    (hgate : (s.evaluateRollback request).allowed = true) :
    (s.scopes.find request.scope).isSome = true ∧
      ∃ b ∈ s.authority.bindingsFor request.scope, b.active = true := by
  obtain ⟨candidate, target, hpermitted⟩ := rollback_permitted hgate
  have hholds := hpermitted.holds
  rw [candidateHolds, Bool.and_eq_true, List.any_eq_true] at hholds
  obtain ⟨_, b, hb, hown⟩ := hholds
  obtain ⟨hmem, hlive⟩ := mem_liveBindingsFor.mp hb
  rw [Bool.and_eq_true, decide_eq_true_eq] at hown
  exact ⟨hpermitted.scope, b, hmem, AuthorityBinding.active_iff.mpr ⟨hlive, hown.2⟩⟩

/-- A permitted rollback leaves one generation at most in its scope. -/
theorem card_rollback (hs : Coherent s) (hstanding : Standing s) {request : RollbackRequest}
    (hgate : (s.evaluateRollback request).allowed = true) :
    ((s.rollback request).1.activeIn request.scope).card ≤ 1 := by
  obtain ⟨candidate, target, hpermitted⟩ := rollback_permitted hgate
  have htaken := card_takenOver hs hstanding (g := request.grant ⟨s.nextRollbackId⟩
    candidate.rollbackGeneration.nextGeneration) rfl
  have hscope : (request.grant ⟨s.nextRollbackId⟩
    candidate.rollbackGeneration.nextGeneration).scope = request.scope := rfl
  rw [hscope] at htaken
  rw [rollback_eq hgate hpermitted.candidateStored hpermitted.targetStored]
  dsimp only
  generalize (s.mapAuthority (·.supersedeScope request.scope)).grantAuthority (request.grant
    ⟨s.nextRollbackId⟩ candidate.rollbackGeneration.nextGeneration) = granted at htaken ⊢
  split_ifs
  · exact htaken
  · obtain ⟨hauthority, _⟩ := finishRollback_kept granted.1 request candidate
      ⟨s.nextRollbackId⟩ candidate.rollbackGeneration.nextGeneration
    dsimp only
    rw [activeIn, hauthority, markDraining, bindingsFor_mapScope, if_pos rfl,
      activeGenerations_drain]
    exact htaken

/-- What a rollback leaves active in a scope. -/
theorem rollback_active (hs : Coherent s) (hstanding : Standing s) (request : RollbackRequest)
    (hlimits : s.WithinLimits) (scope : ScopeId) :
    (s.rollback request).1.activeIn scope ⊆ s.activeIn scope ∨
      (s.scopes.find scope).isSome = true ∧
        ((s.rollback request).1.activeIn scope).card ≤ s.generationLimit scope := by
  cases hgate : (s.evaluateRollback request).allowed with
  | false =>
    have hsame : (s.rollback request).1 = s := by simp [EngineState.rollback, hgate]
    rw [hsame]
    exact Or.inl (Finset.Subset.refl _)
  | true =>
    by_cases hscope : scope = request.scope
    · obtain ⟨hfound, b, hb, hactive⟩ := rollback_counts hgate
      rw [hscope]
      exact Or.inr ⟨hfound, (card_rollback hs hstanding hgate).trans (hlimits.pos hb hactive)⟩
    · left
      refine (rollback_progresses (c := {}) hs request fun h => h).chain.activeIn_subset ?_
      rintro b ⟨hb, _⟩ hcontra
      exact absurd (hcontra.symm.trans hb) hscope

/-- What a rollback by itself leaves active: one generation at most in the root scope, and
nothing new elsewhere. -/
theorem automatic_active (hs : Coherent s) (hstanding : Standing s) (rollout : RolloutId)
    (plan : RolloutPlan) (record : ModelVersionRecord) (scope : ScopeId) :
    ((s.commitAutomaticRollback rollout plan record).activeIn plan.rootScope).card ≤ 1 ∧
      (scope ≠ plan.rootScope →
        (s.commitAutomaticRollback rollout plan record).activeIn scope ⊆ s.activeIn scope) := by
  have hchain : Chain {} {} s (s.mapAuthority (·.supersedeScope plan.rootScope)) :=
    chain_supersedeScope s plan.rootScope
  have htaken := card_takenOver hs hstanding (g := plan.automaticGrant ⟨s.nextRollbackId⟩
    record.rollbackGeneration.nextGeneration) rfl
  have hgranted := activeIn_grant_subset (hchain.coherent hs) (hchain.standing hstanding)
    (g := plan.automaticGrant ⟨s.nextRollbackId⟩ record.rollbackGeneration.nextGeneration) rfl scope
  unfold activeIn
  rw [authority_commitAutomaticRollback]
  refine ⟨htaken, ?_⟩
  intro hother
  have hroot : scope ≠ (plan.automaticGrant ⟨s.nextRollbackId⟩
    record.rollbackGeneration.nextGeneration).scope := hother
  rw [if_neg hroot] at hgranted
  exact hgranted.trans
    (activeGenerations_weakens ((weakened_supersedeScope s.authority plan.rootScope).bindings scope))

/-- What a failed stage leaves active in a scope. -/
theorem failure_active (hs : Coherent s) (hstanding : Standing s)
    {request : RolloutProgressRequest} (plan : RolloutPlan)
    (htripped : (s.evaluateStageAdvance request).has .stageFailureThresholdExceeded = true)
    (hlimits : s.WithinLimits) (scope : ScopeId) :
    (s.failCurrentStage request plan (s.evaluateStageAdvance request)).1.activeIn scope ⊆
        s.activeIn scope ∨
      (s.scopes.find scope).isSome = true ∧
        ((s.failCurrentStage request plan (s.evaluateStageAdvance request)).1.activeIn scope).card ≤
          s.generationLimit scope := by
  have hchain := (moves_commitFailure (c := {}) (p := Permit.undriven (fun _ => False) False) s
    request.rollout plan (s.evaluateStageAdvance request).reasons false trivial False.elim).chain
  have hfailed : (s.commitFailure request.rollout plan (s.evaluateStageAdvance request).reasons
      false).activeIn scope ⊆ s.activeIn scope :=
    hchain.activeIn_subset fun _ hgrants => hgrants.elim
  obtain ⟨hscopes, hauthority⟩ := commitFailure_kept (s := s) request.rollout plan
    (s.evaluateStageAdvance request).reasons false
  rcases failCurrentStage_cases plan htripped with ⟨_, hstate⟩ | ⟨_, failed, _, hallowed, hstate⟩
  · rw [hstate]
    exact Or.inl hfailed
  · rw [hstate]
    obtain ⟨hcard, helsewhere⟩ := automatic_active (hchain.coherent hs) (hchain.standing hstanding)
      request.rollout plan failed scope
    by_cases hroot : scope = plan.rootScope
    · obtain ⟨hfound, b, hb, hactive⟩ := rollback_counts hallowed
      rw [hauthority] at hb
      rw [hscopes] at hfound
      obtain ⟨origin, horigin, hweakens⟩ :=
        (weakened_supersedeRollout s.authority plan.id plan.generation).exists_before hb
      have hpos := hlimits.pos horigin (hweakens.active_of_active hactive).1
      rw [hroot]
      exact Or.inr ⟨hfound, hcard.trans hpos⟩
    · exact Or.inl ((helsewhere hroot).trans hfailed)

/-! ## Stages -/

/-- The scopes the grants of a stage are admitted to depend on its plan, not on the progress
of it. -/
theorem grantsOver_stageGrant (s : EngineState) (plan plan' : RolloutPlan)
    (hmodel : plan'.model = plan.model) (hcandidate : plan'.candidate = plan.candidate)
    (htarget : plan'.rollbackTarget = plan.rollbackTarget)
    (hgeneration : plan'.rollbackTargetGeneration = plan.rollbackTargetGeneration)
    (stage : StageDefinition) (kind : AuthorityKind) (supersedeExisting : Bool)
    (taken : List ScopeId) (used : ℕ) (scopes : List ScopeId) :
    s.grantsOver (stageGrant plan' stage kind supersedeExisting) taken used scopes =
      s.grantsOver (stageGrant plan stage kind supersedeExisting) taken used scopes := by
  have hsame := stageGrant_same s plan plan' hmodel hcandidate htarget hgeneration stage kind
    supersedeExisting
  induction scopes generalizing taken used with
  | nil => rfl
  | cons scope scopes ih =>
    unfold EngineState.grantsOver
    rw [(hsame scope).1, (hsame scope).2, ih]

/-- A scope a grant is admitted to is registered. -/
theorem registered_of_grantsOver {grant : ScopeId → GrantRequest}
    (hscopes : ∀ scope, (grant scope).scope = scope) {taken : List ScopeId} {used : ℕ}
    {scopes : List ScopeId} {scope : ScopeId} (h : scope ∈ s.grantsOver grant taken used scopes) :
    (s.scopes.find scope).isSome = true := by
  induction scopes generalizing taken used with
  | nil => cases h
  | cons first scopes ih =>
    unfold EngineState.grantsOver at h
    split_ifs at h with hadmitted
    · rcases List.mem_cons.mp h with rfl | h
      · simp only [GrantRequest.admittedAfter, Bool.and_eq_true] at hadmitted
        obtain ⟨⟨⟨_, hfound⟩, _⟩, _⟩ := hadmitted
        rw [hscopes] at hfound
        exact hfound
      · exact ih h
    · cases h

/-- A run of grants leaves the generation of every version. -/
theorem heldBy_grantOver {grant : ScopeId → GrantRequest}
    {after : ScopeId → EngineState → EngineState} {model : ModelId} {version : ModelVersionId}
    (hafter : ∀ scope t, (after scope t).heldBy model version = t.heldBy model version)
    (scopes : List ScopeId) (t : EngineState) :
    (grantOver grant after scopes t).1.heldBy model version = t.heldBy model version := by
  refine grantOver_preserves (P := fun u => u.heldBy model version = t.heldBy model version) ?_ ?_
    rfl
  · intro scope _ u hu _
    rw [heldBy_grantAuthority, hu]
  · intro scope _ u hu _
    rw [hafter, heldBy_grantAuthority, hu]

/-- Canaries of a plan add the generation of its candidate to the scopes they are admitted
to. -/
theorem activeIn_canaries (plan : RolloutPlan) {t : EngineState} {taken : List ScopeId}
    {used : ℕ} {rollout : RolloutId} {plan' : RolloutPlan}
    (h : Ahead s t.rollouts plan.model plan.candidate taken used t)
    (hstored : t.rolloutOf rollout = some plan') (hmodel : plan'.model = plan.model)
    (hcandidate : plan'.candidate = plan.candidate)
    (htarget : plan'.rollbackTarget = plan.rollbackTarget)
    (hgeneration : plan'.rollbackTargetGeneration = plan.rollbackTargetGeneration)
    (stage : StageDefinition) (scope : ScopeId) :
    (grantOver (stageGrant plan' stage .canary false) (fun _ t => t) (plan.stageScopes stage)
        t).1.activeIn scope =
      if scope ∈ s.grantsOver (stageGrant plan stage .canary false) taken used
          (plan.stageScopes stage) then
        insert (t.heldBy plan.model plan.candidate) (t.activeIn scope)
      else t.activeIn scope := by
  have hkey : plan'.id.raw = rollout.raw := h.coherent.rollouts _ plan' hstored
  rw [← grantsOver_stageGrant s plan plan' hmodel hcandidate htarget hgeneration]
  refine activeIn_grantOver _ (fun _ t => t) ?_ ?_ (fun _ _ _ _ _ ht => ht)
    (fun _ _ => ⟨rfl, fun _ => rfl, fun _ _ => rfl⟩) (nodup_stageScopes plan stage)
    (fun _ _ hsupersede => absurd hsupersede Bool.false_ne_true) h scope
  · intro scope
    rw [← hmodel, ← hcandidate]
    exact forStage_stageGrant plan' stage .canary false (fun _ => rfl) scope
  · intro scope u hu
    exact namesStored_stageGrant plan' (by rw [rolloutOf, hu]; exact hstored) hkey ⟨rfl, rfl, rfl⟩ stage
      .canary false scope

/-- The scopes a plan is granted when it enters its first stage. -/
def EngineState.entryScopes (s : EngineState) (plan : RolloutPlan) : List ScopeId :=
  s.grantsOver (stageGrant plan plan.firstStage .canary false) [] 0
    (plan.stageScopes plan.firstStage)

/-- The generations active in a scope once a plan has entered its first stage. -/
def EngineState.activeAfterEntry (s : EngineState) (plan : RolloutPlan) (scope : ScopeId) :
    Finset HeldGeneration :=
  if scope ∈ s.entryScopes plan then
    insert (s.heldBy plan.model plan.candidate) (s.activeIn scope)
  else s.activeIn scope

theorem begin_active (hs : Coherent s) (hstanding : Standing s) {request : RolloutProgressRequest}
    (h : s.entry request = some plan) (scope : ScopeId) :
    (s.beginRollout request).1.activeIn scope = s.activeAfterEntry plan scope := by
  obtain ⟨hplan, hrefusal, _⟩ := entry_permitted h
  have hserves := mayServe_of_bindings (begin_permitted hrefusal).2.2.2
  obtain ⟨hauthority, hscopes⟩ := authority_enteredState s request plan
  have hahead : Ahead s (s.enteredState request plan).rollouts plan.model plan.candidate [] 0
      (s.enteredState request plan) :=
    (Ahead.start hs hstanding hserves).keep (chain_enteredState (c := {}) h) id hauthority hscopes
  have hheld : (s.enteredState request plan).heldBy plan.model plan.candidate =
      s.heldBy plan.model plan.candidate := by
    unfold enteredState
    dsimp only
    rw [heldBy_stampVersion, heldBy_recordStage, heldBy_advanceVersion]
    rfl
  have hactive := activeIn_canaries plan hahead (rolloutOf_enteredState hplan) rfl rfl rfl rfl
    plan.firstStage scope
  have hbefore : (s.enteredState request plan).activeIn scope = s.activeIn scope :=
    activeIn_of_bindingsFor (by rw [hauthority])
  rw [hheld, hbefore] at hactive
  rw [begin_eq h, activeAfterEntry, entryScopes, ← hactive]
  dsimp only
  split_ifs
  · rfl
  · exact activeIn_of_bindingsFor (congrArg (bindingsFor · scope) (authority_refreshRoot _ _ _))

/-- The scopes of the current stage that its commit is granted. -/
def EngineState.commitScopes (s : EngineState) (plan : RolloutPlan) : List ScopeId :=
  s.grantsOver (stageGrant plan plan.currentStage .exclusive true) [] 0
    (plan.stageScopes plan.currentStage)

/-- The scopes of the next stage that a commit is granted: none unless the current stage was
granted all of its own. -/
def EngineState.nextScopes (s : EngineState) (plan : RolloutPlan) : List ScopeId :=
  let current := stageGrant plan plan.currentStage .exclusive true
  let scopes := plan.stageScopes plan.currentStage
  if s.admitsOver current [] 0 scopes && !decide (plan.stages.length ≤ plan.currentStageIndex + 1)
  then
    s.grantsOver (stageGrant plan plan.nextStage .canary false) scopes.reverse
      (s.placesOver current scopes) (plan.stageScopes plan.nextStage)
  else []

/-- The generations active in a scope once the current stage of a plan is granted: the
holder of a granted scope makes way for the candidate. -/
def EngineState.activeAfterGrants (s : EngineState) (plan : RolloutPlan) (scope : ScopeId) :
    Finset HeldGeneration :=
  if scope ∈ s.commitScopes plan then
    insert (s.heldBy plan.model plan.candidate)
      (activeGenerations (supersedeFirstExclusive (s.authority.bindingsFor scope)))
  else s.activeIn scope

/-- The generations active in a scope once the current stage of a plan has committed. -/
def EngineState.activeAfterCommit (s : EngineState) (plan : RolloutPlan) (scope : ScopeId) :
    Finset HeldGeneration :=
  if scope ∈ s.nextScopes plan then
    insert (s.heldBy plan.model plan.candidate) (s.activeAfterGrants plan scope)
  else s.activeAfterGrants plan scope

/-- Draining what a plan replaces leaves what counts, and the generations of versions. -/
theorem drainPrevious_active (plan : RolloutPlan) (scope : ScopeId) (t : EngineState)
    (model : ModelId) (version : ModelVersionId) :
    (drainPrevious plan plan.currentStage scope t).heldBy model version =
        t.heldBy model version ∧
      ∀ other, (drainPrevious plan plan.currentStage scope t).activeIn other =
        t.activeIn other := by
  constructor
  · unfold drainPrevious
    dsimp only
    split
    · split
      · rfl
      · split
        · rfl
        · exact heldBy_advanceVersion _ _ _ _
    · rfl
  · intro other
    rw [activeIn, bindingsFor_drainPrevious]
    split_ifs
    · exact activeGenerations_drain plan.model plan.previous _
    · rfl

section Commit

variable (hs : Coherent s) (hstanding : Standing s) {request : RolloutProgressRequest}
  (h : s.commit request = some plan)

include hs hstanding h

theorem commitGrants_active (scope : ScopeId) :
    (s.commitGrants request.rollout plan).1.activeIn scope = s.activeAfterGrants plan scope ∧
      (s.commitGrants request.rollout plan).1.heldBy plan.model plan.candidate =
        s.heldBy plan.model plan.candidate := by
  have hauthority := advancedState_authority s request.rollout
  have hversions := advancedState_versions s request.rollout
  have hdrained : ∀ scope t, (drainPrevious plan plan.currentStage scope t).heldBy plan.model
        plan.candidate = t.heldBy plan.model plan.candidate ∧
      (∀ other, (drainPrevious plan plan.currentStage scope t).activeIn other = t.activeIn other) ∧
      ∀ other, other ≠ scope →
        (drainPrevious plan plan.currentStage scope t).authority.bindingsFor other =
          t.authority.bindingsFor other := by
    intro scope t
    obtain ⟨hsame, hkept⟩ := drainPrevious_active plan scope t plan.model plan.candidate
    refine ⟨hsame, hkept, ?_⟩
    intro other hne
    rw [bindingsFor_drainPrevious, if_neg fun hcontra => hne hcontra.2]
  have hstage : ∀ scope, (stageGrant (s.committedPlan plan) plan.currentStage .exclusive true
      scope).scope = scope ∧ (stageGrant (s.committedPlan plan) plan.currentStage .exclusive true
        scope).forStage plan.model plan.candidate :=
    forStage_stageGrant (s.committedPlan plan) plan.currentStage .exclusive true
      fun hcanary => absurd hcanary.symm Bool.false_ne_true
  have hactive := activeIn_grantOver _ (drainPrevious plan plan.currentStage) hstage
    (namesStored_commit hs hstanding h)
    (fun _ _ _ _ hscope ht => ahead_drainPrevious ht hscope plan.currentStage) hdrained
    (nodup_stageScopes plan plan.currentStage) (fun _ _ _ htaken => absurd htaken List.not_mem_nil)
    (ahead_advancedState hs hstanding h) scope
  have hkept : (s.advancedState request.rollout).heldBy plan.model plan.candidate =
      s.heldBy plan.model plan.candidate := by
    rw [heldBy, versionOf, hversions, ← versionOf, ← heldBy]
  have hlist : (stageGrant (s.committedPlan plan) plan.currentStage .exclusive true scope).keeps
      ((s.advancedState request.rollout).authority.bindingsFor scope) =
        supersedeFirstExclusive (s.authority.bindingsFor scope) := by
    change supersedeFirstExclusive _ = _
    rw [hauthority]
  have hbefore : (s.advancedState request.rollout).activeIn scope = s.activeIn scope :=
    activeIn_of_bindingsFor (by rw [hauthority])
  have hheld : (grantOver (stageGrant (s.committedPlan plan) plan.currentStage .exclusive true)
      (drainPrevious plan plan.currentStage) (plan.stageScopes plan.currentStage)
      (s.advancedState request.rollout)).1.heldBy plan.model plan.candidate =
        (s.advancedState request.rollout).heldBy plan.model plan.candidate :=
    heldBy_grantOver (fun scope t => (hdrained scope t).1) _ _
  rw [grantsOver_stageGrant s plan (s.committedPlan plan) rfl rfl rfl rfl, hkept, hlist,
    hbefore] at hactive
  rw [hkept] at hheld
  rw [commitGrants, activeAfterGrants, commitScopes]
  exact ⟨hactive, hheld⟩

theorem commit_active (scope : ScopeId) :
    (s.advanceStage request).1.activeIn scope = s.activeAfterCommit plan scope := by
  obtain ⟨_, hfaults, heq⟩ := commit_permitted h
  obtain ⟨hlive, _⟩ := stage_permitted_live hfaults
  obtain ⟨hentered, _, _⟩ := stage_permitted_open hfaults
  obtain ⟨hallowed, hcommitted, hgranted⟩ := commitGrants_spec hs hstanding h
  obtain ⟨hactive, hheld⟩ := commitGrants_active hs hstanding h scope
  rw [heq, commitStage_eq, activeAfterCommit, nextScopes]
  dsimp only
  rw [← commitGrants]
  generalize s.commitGrants request.rollout plan = granted
    at hallowed hcommitted hgranted hactive hheld ⊢
  cases hfits : s.admitsOver (stageGrant plan plan.currentStage .exclusive true) [] 0
      (plan.stageScopes plan.currentStage) with
  | false =>
    rw [hfits] at hallowed
    rw [hallowed, Bool.not_false, if_pos rfl, Bool.false_and, if_neg Bool.false_ne_true,
      if_neg List.not_mem_nil]
    exact hactive
  | true =>
    rw [hfits] at hallowed
    have hleft : (granted.1.leaveStage request.rollout (s.committedPlan plan)).1.activeIn scope =
        if scope ∈ (if !decide (plan.stages.length ≤ plan.currentStageIndex + 1) then
            s.grantsOver (stageGrant plan plan.nextStage .canary false)
              (plan.stageScopes plan.currentStage).reverse
              (s.placesOver (stageGrant plan plan.currentStage .exclusive true)
                (plan.stageScopes plan.currentStage)) (plan.stageScopes plan.nextStage)
          else []) then
          insert (s.heldBy plan.model plan.candidate) (s.activeAfterGrants plan scope)
        else s.activeAfterGrants plan scope := by
      by_cases hlast : plan.stages.length ≤ plan.currentStageIndex + 1
      · have hlast' : (s.committedPlan plan).stages.length ≤
            (s.committedPlan plan).currentStageIndex + 1 := hlast
        rw [decide_eq_true hlast, Bool.not_true, if_neg Bool.false_ne_true,
          if_neg List.not_mem_nil, ← hactive]
        unfold leaveStage
        rw [if_pos hlast']
        rfl
      · have hlast' : ¬(s.committedPlan plan).stages.length ≤
            (s.committedPlan plan).currentStageIndex + 1 := hlast
        have hadvanced : (s.committedPlan plan).stageAdvanced = true :=
          stageAdvanced_advancedPlan _ _ plan
        have hchain := chain_nextState (c := {}) hcommitted hlive hentered hadvanced hlast'
        have hnext := (hgranted hallowed).keep hchain id
          (authority_nextState granted.1 request.rollout (s.committedPlan plan)).1
          (authority_nextState granted.1 request.rollout (s.committedPlan plan)).2
        have hgrants := activeIn_canaries plan hnext (rolloutOf_nextState hcommitted)
          rfl rfl rfl rfl plan.nextStage scope
        have hsame : (granted.1.nextState request.rollout (s.committedPlan plan)).heldBy plan.model
            plan.candidate = s.heldBy plan.model plan.candidate := by
          rw [← hheld]
          unfold nextState
          dsimp only
          rw [heldBy_recordStage, heldBy_advanceVersion]
          rfl
        have hlist : (granted.1.nextState request.rollout (s.committedPlan plan)).activeIn scope =
            s.activeAfterGrants plan scope := by
          rw [← hactive]
          exact activeIn_of_bindingsFor
            (by rw [(authority_nextState granted.1 request.rollout (s.committedPlan plan)).1])
        rw [hsame, hlist] at hgrants
        rw [decide_eq_false hlast, Bool.not_false, if_pos rfl, leaveStage_eq _ _ hlast']
        exact hgrants
    rw [hallowed, Bool.not_true, if_neg Bool.false_ne_true, Bool.true_and, ← hleft]
    split_ifs
    · rfl
    · exact activeIn_of_bindingsFor (congrArg (bindingsFor · scope) (authority_refreshRoot _ _ _))

end Commit

/-! ## Steps and runs -/

/-- What an operation must find so that no scope exceeds its limit: a stage entry or a stage
commit grants only scopes that stay within theirs. -/
def Operation.KeepsLimits (s : EngineState) : Operation → Prop
  | .beginRollout request =>
    ∀ plan ∈ s.entry request, ∀ scope ∈ s.entryScopes plan,
      (s.activeAfterEntry plan scope).card ≤ s.generationLimit scope
  | .advanceStage request =>
    ∀ plan ∈ s.commit request, ∀ scope ∈ s.commitScopes plan ++ s.nextScopes plan,
      (s.activeAfterCommit plan scope).card ≤ s.generationLimit scope
  | _ => True

instance (s : EngineState) (op : Operation) : Decidable (op.KeepsLimits s) :=
  match op with
  | .beginRollout request =>
    inferInstanceAs (Decidable (∀ plan ∈ s.entry request, ∀ scope ∈ s.entryScopes plan,
      (s.activeAfterEntry plan scope).card ≤ s.generationLimit scope))
  | .advanceStage request =>
    inferInstanceAs (Decidable (∀ plan ∈ s.commit request,
      ∀ scope ∈ s.commitScopes plan ++ s.nextScopes plan,
        (s.activeAfterCommit plan scope).card ≤ s.generationLimit scope))
  | .registerModel _ _ _ | .registerVersion _ | .reviseVersion _ | .registerScope _
  | .setPolicy _ | .setScopePolicy _ | .publishCompatibility _ _ _ _ _ | .publishEvidence _
  | .expirePublisherEvidence _ | .registerWorker _ | .fenceWorker _ _ _ _
  | .setWorkerLiveness _ _ | .promote _ | .createRollout _ | .failStage _
  | .supersedeRollout _ _ _ _ | .rollback _ | .retire _ | .revalidate _ | .beginAttempt _
  | .completeAttempt _ | .reconcileAttempt _ _ _ _ | .advanceEpoch _
  | .importDurableState _ _ | .invalidateVolatileState _ => isTrue trivial

/-- Steps that leave every scope as it is granted, where what is granted is registered,
keep within the limits exactly where the granted scopes do. -/
theorem within_limits_iff (hstanding : Standing s) (hseated : Seated s) (hlimits : s.WithinLimits)
    (hpolicy : t.policy = s.policy) (hkeeps : s.scopes.Keeps t.scopes) {granted : List ScopeId}
    {active : ScopeId → Finset HeldGeneration} (hactive : ∀ scope, t.activeIn scope = active scope)
    (hregistered : ∀ scope ∈ granted, (s.scopes.find scope).isSome = true)
    (helsewhere : ∀ scope, scope ∉ granted → active scope = s.activeIn scope) :
    t.WithinLimits ↔ ∀ scope ∈ granted, (active scope).card ≤ s.generationLimit scope := by
  constructor
  · intro h scope hscope
    have hcard := h scope
    rw [generationLimit_eq hstanding hpolicy hkeeps (hregistered scope hscope), hactive] at hcard
    exact hcard
  · intro h
    refine hlimits.step hstanding hseated hpolicy hkeeps fun scope => ?_
    rw [hactive]
    by_cases hscope : scope ∈ granted
    · exact Or.inr ⟨hregistered scope hscope, h scope hscope⟩
    · rw [helsewhere scope hscope]
      exact Or.inl (Finset.Subset.refl _)

/-- A step that sets no policy and imports nothing keeps within the limits exactly where it
finds what it must. -/
theorem step_within_limits_iff (hs : Coherent s) (hstanding : Standing s) (hseated : Seated s)
    (hlimits : s.WithinLimits) (op : Operation) (hsets : op.setsPolicy = false)
    (himport : op.isImport = false) : (step c s op).WithinLimits ↔ op.KeepsLimits s := by
  have hpolicy : (step c s op).policy = s.policy := step_policy hs hsets himport
  have hkeeps : s.scopes.Keeps (step c s op).scopes := (step_cases hs op).keepsTree himport
  have hwithin : (∀ scope, (step c s op).activeIn scope ⊆ s.activeIn scope ∨
      (s.scopes.find scope).isSome = true ∧
        ((step c s op).activeIn scope).card ≤ s.generationLimit scope) →
      (step c s op).WithinLimits := hlimits.step hstanding hseated hpolicy hkeeps
  have haside : Aside c s (step c s op) → (step c s op).WithinLimits := by
    intro h
    refine hwithin fun scope => Or.inl (activeIn_of_bindingsFor ?_).subset
    rw [h.authority]
  have hchain : ∀ p : Permit, (∀ b, ¬p.grants b) → Chain c p s (step c s op) →
      (step c s op).WithinLimits := by
    intro p hp h
    exact hwithin fun scope => Or.inl (h.activeIn_subset fun b hb => absurd hb (hp b))
  cases op with
  | registerModel name family provenance =>
    exact iff_of_true (haside (registerModel_aside s name family provenance)) trivial
  | registerVersion request =>
    exact iff_of_true (haside (registerVersion_aside s request)) trivial
  | reviseVersion request =>
    exact iff_of_true (hchain _ (fun _ h => h) (reviseVersion_progresses s request).chain) trivial
  | registerScope path => exact iff_of_true (haside (registerScope_aside s path)) trivial
  | setPolicy => cases hsets
  | setScopePolicy => cases hsets
  | publishCompatibility version environment outcome detail provenance =>
    exact iff_of_true (haside (publishCompatibility_aside s version environment outcome detail
      provenance)) trivial
  | publishEvidence record => exact iff_of_true (haside (publishEvidence_aside s record)) trivial
  | expirePublisherEvidence boot =>
    exact iff_of_true (haside (expirePublisherEvidence_aside s boot)) trivial
  | registerWorker registration =>
    exact iff_of_true (haside (registerWorker_aside s registration)) trivial
  | fenceWorker worker boot epoch reason =>
    exact iff_of_true (haside (fenceWorker_aside s worker boot epoch reason)) trivial
  | setWorkerLiveness worker connected =>
    exact iff_of_true (haside (setWorkerLiveness_aside s worker connected)) trivial
  | promote request =>
    refine iff_of_true (hwithin fun scope => ?_) trivial
    rcases promote_active hs hstanding request scope with hsubset | ⟨rfl, hgate, hsubset⟩
    · exact Or.inl hsubset
    · obtain ⟨hfound, hcard⟩ := promotion_within hs hgate hlimits
      exact Or.inr ⟨hfound, (Finset.card_le_card hsubset).trans hcard⟩
  | createRollout request => exact iff_of_true (haside (createRollout_aside s request)) trivial
  | beginRollout request =>
    cases hentry : s.entry request with
    | none =>
      have hsame : step c s (.beginRollout request) = s := begin_stopped hentry
      rw [hsame]
      simp [Operation.KeepsLimits, hentry, hlimits]
    | some plan =>
      have hregistered : ∀ scope ∈ s.entryScopes plan, (s.scopes.find scope).isSome = true :=
        fun scope hscope => registered_of_grantsOver (fun _ => rfl) hscope
      have hiff := within_limits_iff hstanding hseated hlimits hpolicy hkeeps
        (begin_active hs hstanding hentry) hregistered (fun scope hscope => if_neg hscope)
      simpa [Operation.KeepsLimits, hentry] using hiff
  | advanceStage request =>
    cases hcommit : s.commit request with
    | none =>
      refine iff_of_true ?_ (by simp [Operation.KeepsLimits, hcommit])
      rcases advance_uncommitted hcommit with hsame | ⟨plan, _, htripped, hfails⟩
      · have hkept : step c s (.advanceStage request) = s := hsame
        rw [hkept]
        exact hlimits
      · have hstate : step c s (.advanceStage request) =
            (s.failCurrentStage request plan (s.evaluateStageAdvance request)).1 := hfails
        refine hwithin fun scope => ?_
        rw [hstate]
        exact failure_active hs hstanding plan htripped hlimits scope
    | some plan =>
      have hregistered : ∀ scope ∈ s.commitScopes plan ++ s.nextScopes plan,
          (s.scopes.find scope).isSome = true := by
        intro scope hscope
        rcases List.mem_append.mp hscope with hcurrent | hnext
        · exact registered_of_grantsOver (fun _ => rfl) hcurrent
        · unfold nextScopes at hnext
          dsimp only at hnext
          split_ifs at hnext
          · exact registered_of_grantsOver (fun _ => rfl) hnext
          · cases hnext
      have helsewhere : ∀ scope, scope ∉ s.commitScopes plan ++ s.nextScopes plan →
          s.activeAfterCommit plan scope = s.activeIn scope := by
        intro scope hscope
        rw [List.mem_append, not_or] at hscope
        rw [activeAfterCommit, if_neg hscope.2, activeAfterGrants, if_neg hscope.1]
      have hiff := within_limits_iff hstanding hseated hlimits hpolicy hkeeps
        (commit_active hs hstanding hcommit) hregistered helsewhere
      simpa [Operation.KeepsLimits, hcommit] using hiff
  | failStage request =>
    exact iff_of_true (hchain _ (fun _ h => h) (failStage_progresses s request).chain) trivial
  | supersedeRollout rollout generation epoch detail =>
    exact iff_of_true (hchain _ (fun _ h => h) (supersedeRollout_progresses s rollout generation
      epoch detail fun h => h).chain) trivial
  | rollback request =>
    exact iff_of_true (hwithin (rollback_active hs hstanding request hlimits)) trivial
  | retire request =>
    exact iff_of_true (hchain _ (fun _ h => h) (retire_progresses hs request).chain) trivial
  | revalidate request =>
    exact iff_of_true (hchain _ (fun _ h => h) (revalidate_progresses s request).chain) trivial
  | beginAttempt request => exact iff_of_true (haside (beginAttempt_aside s request)) trivial
  | completeAttempt completion =>
    exact iff_of_true (haside (completeAttempt_aside s completion)) trivial
  | reconcileAttempt attempt sideEffectObserved epoch detail =>
    exact iff_of_true (haside (reconcileAttempt_aside s attempt sideEffectObserved epoch detail))
      trivial
  | advanceEpoch expectedCurrent =>
    exact iff_of_true (haside (advanceEpoch_aside s expectedCurrent)) trivial
  | importDurableState => cases himport
  | invalidateVolatileState cause =>
    exact iff_of_true (haside (invalidateVolatileState_aside s cause)) trivial

/-- Whether an operation only lays out the scopes or sets the policy. -/
def Operation.configures : Operation → Bool
  | .registerScope _ | .setPolicy _ | .setScopePolicy _ => true
  | _ => false

/-- Laying out the scopes and setting the policy grants nothing. -/
theorem authority_configured {setup : List Operation}
    (hsetup : ∀ op ∈ setup, op.configures = true) :
    (runOps c (init c) setup).authority = (init c).authority := by
  have halong : Runs.Along (step c) (fun _ op => op.configures = true) (init c) setup :=
    Runs.along_of_forall (step c) hsetup
  refine Runs.run_preserves (step c) (P := fun t => t.authority = (init c).authority) ?_ halong rfl
  intro t op ht hop
  cases op with
  | registerScope path => exact (registerScope_aside (c := c) t path).authority.trans ht
  | setPolicy policy => exact (setPolicy_aside (c := c) t policy).authority.trans ht
  | setScopePolicy refinement =>
    exact (setScopePolicy_aside (c := c) t refinement).authority.trans ht
  | _ => cases hop

/-- With the scopes laid out and the policy fixed, every scope stays within its limit
throughout a run without imports exactly when every stage entry and every stage commit of the
run grants only scopes that stay within theirs. -/
theorem generations_within_limits_iff {setup ops : List Operation}
    (hsetup : ∀ op ∈ setup, op.configures = true)
    (hops : ∀ op ∈ ops, op.setsPolicy = false ∧ op.isImport = false) :
    Runs.Always (step c) WithinLimits (runOps c (init c) setup) ops ↔
      Runs.Along (step c) (fun s op => op.KeepsLimits s) (runOps c (init c) setup) ops := by
  have hreachable : ReachableState c (runOps c (init c) setup) := ⟨setup, rfl⟩
  have hvacant : ∀ scope, (runOps c (init c) setup).authority.bindingsFor scope = [] := by
    intro scope
    rw [authority_configured hsetup]
    rfl
  refine Runs.always_iff_along (step c) (P := fun t => Coherent t ∧ Standing t ∧ Seated t) ?_ ?_
    hops ⟨hreachable.coherent, hreachable.standing, ?_⟩ ?_
  · rintro t op ⟨ht, hstanding, hseated⟩ _
    have hcase := step_cases (c := c) ht op
    exact ⟨hcase.coherent ht, hcase.standing hstanding, hcase.seated hseated⟩
  · rintro t op ⟨ht, hstanding, hseated⟩ hlimits ⟨hsets, himport⟩
    exact step_within_limits_iff ht hstanding hseated hlimits op hsets himport
  · intro scope b hb
    rw [hvacant] at hb
    cases hb
  · intro scope
    rw [activeIn, hvacant]
    exact Nat.zero_le _

/-- A version is promoted and enters its first stage in the root scope. -/
def oneRollout : List Operation :=
  [.registerModel [109] [] .synthetic,
    .registerVersion
      { model := ⟨1⟩, label := [49]
        artifact := { setId := ⟨1⟩, generation := ⟨1⟩, digest := [97] } },
    .publishCompatibility ⟨1⟩ { key := [101] } .compatible [] .synthetic,
    .promote { model := ⟨1⟩, candidate := ⟨1⟩, scope := ⟨1⟩, environmentKey := [101] },
    .createRollout
      { model := ⟨1⟩, candidate := ⟨1⟩, rootScope := ⟨1⟩
        cohorts := [{ name := [99], scopes := [⟨1⟩] }]
        stages := [{ name := [115], cohortIndices := [0] }] },
    .beginRollout { rollout := ⟨1⟩ }]

theorem generations_within_limits_witness :
    Runs.Always (step {}) WithinLimits (runOps {} (init {}) []) oneRollout :=
  (generations_within_limits_iff (fun op hop => absurd hop List.not_mem_nil) (by decide)).mpr
    (by decide +kernel)

/-- A version of each of three models is promoted in the root scope, which permits two, and
each enters the first stage of its rollout there. -/
def threeRollouts : List Operation :=
  [.registerModel [109] [] .synthetic,
    .registerModel [110] [] .synthetic,
    .registerModel [111] [] .synthetic,
    .registerVersion
      { model := ⟨1⟩, label := [49]
        artifact := { setId := ⟨1⟩, generation := ⟨1⟩, digest := [97] } },
    .registerVersion
      { model := ⟨2⟩, label := [49]
        artifact := { setId := ⟨1⟩, generation := ⟨1⟩, digest := [97] } },
    .registerVersion
      { model := ⟨3⟩, label := [49]
        artifact := { setId := ⟨1⟩, generation := ⟨1⟩, digest := [97] } },
    .publishCompatibility ⟨1⟩ { key := [101] } .compatible [] .synthetic,
    .publishCompatibility ⟨2⟩ { key := [101] } .compatible [] .synthetic,
    .publishCompatibility ⟨3⟩ { key := [101] } .compatible [] .synthetic,
    .promote { model := ⟨1⟩, candidate := ⟨1⟩, scope := ⟨1⟩, environmentKey := [101] },
    .promote { model := ⟨2⟩, candidate := ⟨2⟩, scope := ⟨1⟩, environmentKey := [101] },
    .promote { model := ⟨3⟩, candidate := ⟨3⟩, scope := ⟨1⟩, environmentKey := [101] },
    .createRollout
      { model := ⟨1⟩, candidate := ⟨1⟩, rootScope := ⟨1⟩
        cohorts := [{ name := [99], scopes := [⟨1⟩] }]
        stages := [{ name := [115], cohortIndices := [0] }] },
    .beginRollout { rollout := ⟨1⟩ },
    .createRollout
      { model := ⟨2⟩, candidate := ⟨2⟩, rootScope := ⟨1⟩
        cohorts := [{ name := [99], scopes := [⟨1⟩] }]
        stages := [{ name := [115], cohortIndices := [0] }] },
    .beginRollout { rollout := ⟨2⟩ },
    .createRollout
      { model := ⟨3⟩, candidate := ⟨3⟩, rootScope := ⟨1⟩
        cohorts := [{ name := [99], scopes := [⟨1⟩] }]
        stages := [{ name := [115], cohortIndices := [0] }] },
    .beginRollout { rollout := ⟨3⟩ }]

/-- The root scope then holds three generations. -/
theorem generations_within_limits_counterexample :
    ¬∀ (c : EngineConfig) (ops : List Operation),
      (∀ op ∈ ops, op.setsPolicy = false ∧ op.isImport = false) →
        ∀ scope, ((runOps c (init c) ops).activeIn scope).card ≤
          (runOps c (init c) ops).generationLimit scope := by
  intro hclaim
  have hwithin := hclaim {} threeRollouts (by decide) ⟨1⟩
  revert hwithin
  decide +kernel

end LifecycleFabric
