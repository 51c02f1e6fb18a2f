import LifecycleFabric.Properties.Rollbacks

/-!
# The automatic rollback of a failed stage

The stage-failure branch carries its own copy of the rollback commit. Its gate is that of
an explicit rollback, but its grant names the failed candidate. Whenever it is taken, the
candidate is left as the one holder of the root scope.
-/

namespace LifecycleFabric

open EngineState AuthorityTable

variable {c : EngineConfig} {s s' : EngineState}

/-- What an automatic rollback must leave in the root scope of its plan: the rollback
target holds it exclusively, and the candidate does not. -/
structure AgreesWithRollback (plan : RolloutPlan) (s : EngineState) : Prop where
  target : ∃ binding, HoldsExclusively s plan.rootScope binding ∧ binding.model = plan.model ∧
    binding.version = plan.rollbackTarget
  candidate : ∀ binding, HoldsExclusively s plan.rootScope binding →
    binding.ofVersion plan.model plan.candidate = false

/-! ## When the automatic rollback is taken -/

/-- The outcome of a failed stage names a committed rollback only where the gate of the
rollback permitted one. -/
theorem failCurrentStage_rollbackAllowed {request : RolloutProgressRequest} {plan : RolloutPlan}
    {gate : Decision} (h : (s.failCurrentStage request plan gate).2.outcome = .rollbackAllowed) :
    ∃ record, ((s.commitFailure request.rollout plan gate.reasons false).evaluateRollback
          ((s.commitFailure request.rollout plan gate.reasons false).automaticRollback request plan
            record)).allowed = true ∧
      (s.failCurrentStage request plan gate).1 =
        (s.commitFailure request.rollout plan gate.reasons false).commitAutomaticRollback
          request.rollout plan record := by
  unfold failCurrentStage at h ⊢
  dsimp only at h ⊢
  split at h
  · simp at h
  · rename_i hauto
    rw [if_neg hauto]
    split at h
    · simp at h
    · rename_i record hrecord
      split at h
      · simp at h
      · rename_i hgate
        rw [if_neg hgate]
        split at h
        · simp at h
        · exact ⟨record, by simpa using hgate, rfl⟩

/-- The outcome of a committed stage never names a rollback. -/
theorem commitStage_not_rollbackAllowed (s : EngineState) (rollout : RolloutId)
    (plan : RolloutPlan) : (s.commitStage rollout plan).2.outcome ≠ .rollbackAllowed := by
  have hrefusal : ∀ granted : Decision, ¬granted.allowed = true →
      (({ outcome := granted.outcome } : Decision).addAll granted.reasons).outcome ≠
        .rollbackAllowed := by
    intro granted hdenied hsame
    rw [Decision.outcome_addAll] at hsame
    rw [Decision.allowed, hsame] at hdenied
    exact hdenied rfl
  unfold commitStage
  dsimp only
  split
  · rename_i hdenied
    exact hrefusal _ (by simpa using hdenied)
  · split
    · rename_i hdenied
      exact hrefusal _ (by simpa using hdenied)
    · simp

theorem advanceStage_rollbackAllowed {request : RolloutProgressRequest} {plan : RolloutPlan}
    (hplan : s.rolloutOf request.rollout = some plan)
    (h : (s.advanceStage request).2.outcome = .rollbackAllowed) :
    (s.advanceStage request) =
      s.failCurrentStage request plan (s.evaluateStageAdvance request) := by
  unfold advanceStage at h ⊢
  dsimp only at h ⊢
  rw [hplan] at h ⊢
  dsimp only at h ⊢
  split at h
  · rename_i hrefused
    rw [Decision.allowed, h] at hrefused
    simp [OutcomeCode.isPositive] at hrefused
  · rename_i hrefused
    rw [if_neg hrefused]
    split at h
    · simp at h
    · split at h
      · rename_i hfailed
        rw [if_pos hfailed]
      · exact absurd h (commitStage_not_rollbackAllowed _ _ _)

/-! ## What it leaves -/

/-- The grant of an automatic rollback: it names the candidate. -/
def RolloutPlan.automaticGrant (plan : RolloutPlan) (rollback : RollbackId)
    (rollbackGeneration : RollbackGeneration) : GrantRequest where
  model := plan.model
  version := plan.candidate
  scope := plan.rootScope
  kind := .exclusive
  rollback
  rollbackGeneration
  supersedeExisting := true
  retentionTarget := plan.rollbackTarget
  retentionGeneration := plan.rollbackTargetGeneration

theorem authority_commitAutomaticRollback (s : EngineState) (rollout : RolloutId)
    (plan : RolloutPlan) (record : ModelVersionRecord) :
    (s.commitAutomaticRollback rollout plan record).authority =
      ((s.mapAuthority (·.supersedeScope plan.rootScope)).grantAuthority
        (plan.automaticGrant ⟨s.nextRollbackId⟩
          record.rollbackGeneration.nextGeneration)).1.authority := by
  unfold commitAutomaticRollback stampVersion recordRollback advanceVersion
  unfold EngineState.commitRollback
  dsimp only
  rw [touchScope_authority, modifyVersion_authority]
  split
  · simp [RolloutPlan.automaticGrant]
  · simp [RolloutPlan.automaticGrant]

theorem scopes_commitAutomaticRollback (s : EngineState) (rollout : RolloutId)
    (plan : RolloutPlan) (record : ModelVersionRecord) :
    (s.commitAutomaticRollback rollout plan record).scopes =
      ((s.mapAuthority (·.supersedeScope plan.rootScope)).grantAuthority
        (plan.automaticGrant ⟨s.nextRollbackId⟩
          record.rollbackGeneration.nextGeneration)).1.scopes.touch plan.rootScope := by
  unfold commitAutomaticRollback stampVersion recordRollback advanceVersion
  unfold EngineState.commitRollback
  dsimp only
  rw [touchScope_scopes, modifyVersion_scopes]
  split
  · simp [RolloutPlan.automaticGrant]
  · simp [RolloutPlan.automaticGrant]

/-- A permitted automatic rollback takes the root scope over for the candidate. -/
theorem automatic_takes_over (hs : Coherent s) (hstanding : Standing s)
    {request : RolloutProgressRequest} {plan : RolloutPlan} {record : ModelVersionRecord}
    (hgate : (s.evaluateRollback (s.automaticRollback request plan record)).allowed = true) :
    TakenOver s (plan.automaticGrant ⟨s.nextRollbackId⟩ record.rollbackGeneration.nextGeneration)
      ((s.mapAuthority (·.supersedeScope plan.rootScope)).grantAuthority
        (plan.automaticGrant ⟨s.nextRollbackId⟩
          record.rollbackGeneration.nextGeneration)).1 := by
  obtain ⟨candidate, target, hpermitted⟩ := rollback_permitted hgate
  obtain ⟨hmodel, hversion, hserves, hroom⟩ := rollback_holds hs hstanding hpermitted
  exact (takeOver_spec hs hstanding
    (g := plan.automaticGrant ⟨s.nextRollbackId⟩ record.rollbackGeneration.nextGeneration)
    rfl hserves hmodel hversion hpermitted.scope hroom).2

/-- The list of the root scope after a permitted automatic rollback: what was there is
withdrawn, and the candidate's new binding stands. -/
theorem bindingsFor_commitAutomaticRollback (hs : Coherent s) (hstanding : Standing s)
    {request : RolloutProgressRequest} (rollout : RolloutId) {plan : RolloutPlan}
    {record : ModelVersionRecord}
    (hgate : (s.evaluateRollback (s.automaticRollback request plan record)).allowed = true) :
    ∃ stored, ∃ scopeRecord : ScopeRecord, s.versionOf plan.model plan.candidate = some stored ∧
      (s.commitAutomaticRollback rollout plan record).authority.bindingsFor plan.rootScope =
        (s.authority.bindingsFor plan.rootScope).map AuthorityBinding.supersede ++
          [s.bumpSequence.grantedBinding (plan.automaticGrant ⟨s.nextRollbackId⟩
            record.rollbackGeneration.nextGeneration) stored scopeRecord.generation] ∧
      plan.rollbackTarget ≠ plan.candidate := by
  obtain ⟨candidate, target, hpermitted⟩ := rollback_permitted hgate
  obtain ⟨_, hcandidateVersion⟩ :=
    versionKey_inj.mp (hs.versions _ candidate hpermitted.candidateStored)
  obtain ⟨_, htargetVersion⟩ := versionKey_inj.mp (hs.versions _ target hpermitted.targetStored)
  obtain ⟨stored, scopeRecord, hstored, _, hhere⟩ := (automatic_takes_over hs hstanding hgate).here
  refine ⟨stored, scopeRecord, hstored, ?_, ?_⟩
  · rw [authority_commitAutomaticRollback]
    exact hhere
  · intro hsame
    refine hpermitted.distinct ?_
    rw [← htargetVersion, ← hcandidateVersion]
    exact hsame

/-- After a permitted automatic rollback the candidate's new binding is the only live one
of the root scope. -/
theorem live_commitAutomaticRollback (hs : Coherent s) (hstanding : Standing s)
    {request : RolloutProgressRequest} (rollout : RolloutId) {plan : RolloutPlan}
    {record : ModelVersionRecord}
    (hgate : (s.evaluateRollback (s.automaticRollback request plan record)).allowed = true) :
    ∃ binding, HoldsExclusively (s.commitAutomaticRollback rollout plan record) plan.rootScope
        binding ∧ binding.ofVersion plan.model plan.candidate = true ∧
      (∀ other, HoldsExclusively (s.commitAutomaticRollback rollout plan record) plan.rootScope
        other → other = binding) ∧
      plan.rollbackTarget ≠ plan.candidate := by
  obtain ⟨stored, scopeRecord, hstored, hbindings, hne⟩ :=
    bindingsFor_commitAutomaticRollback hs hstanding rollout hgate
  obtain ⟨hstoredModel, hstoredVersion⟩ := versionKey_inj.mp (hs.versions _ stored hstored)
  refine ⟨s.bumpSequence.grantedBinding (plan.automaticGrant ⟨s.nextRollbackId⟩
    record.rollbackGeneration.nextGeneration) stored scopeRecord.generation,
    ⟨mem_liveBindingsFor.mpr ⟨?_, rfl⟩, rfl⟩, ?_, ?_, hne⟩
  · rw [hbindings]
    exact List.mem_append_right _ List.mem_cons_self
  · rw [AuthorityBinding.ofVersion_iff]
    exact ⟨hstoredModel.symm, hstoredVersion.symm⟩
  · rintro other ⟨hother, _⟩
    obtain ⟨hmem, hlive⟩ := mem_liveBindingsFor.mp hother
    rw [hbindings, List.mem_append] at hmem
    rcases hmem with hmem | hmem
    · obtain ⟨_, _, rfl⟩ := List.mem_map.mp hmem
      cases hlive
    · exact List.mem_singleton.mp hmem

/-- No automatic rollback agrees with the explicit one. -/
theorem automatic_rollback_disagrees (hs : ReachableState c s) {request : RolloutProgressRequest}
    {plan : RolloutPlan} (hplan : s.rolloutOf request.rollout = some plan)
    (houtcome : (s.advanceStage request).2.outcome = .rollbackAllowed) :
    ¬AgreesWithRollback plan (s.advanceStage request).1 := by
  have hadvanced := advanceStage_rollbackAllowed hplan houtcome
  rw [hadvanced] at houtcome ⊢
  obtain ⟨record, hgate, hstate⟩ := failCurrentStage_rollbackAllowed houtcome
  have hfailed := (moves_commitFailure (c := c) (p := {}) s request.rollout plan
    (s.evaluateStageAdvance request).reasons false trivial False.elim).chain
  obtain ⟨binding, hholds, hown, honly, hne⟩ := live_commitAutomaticRollback
    (hfailed.coherent hs.coherent) (hfailed.standing hs.standing) request.rollout hgate
  rw [hstate]
  rintro ⟨⟨restored, hrestored, _, htarget⟩, _⟩
  rw [honly restored hrestored] at htarget
  rw [AuthorityBinding.ofVersion_iff] at hown
  exact hne (htarget.symm.trans hown.2)

/-! ## A run that takes it -/

/-- The base policy permits automatic rollbacks. -/
def automatic : EngineConfig :=
  { policy := { allowAutomaticRollback := true, requireRollbackTarget := false } }

/-- The candidate is rolled out where it already served, with an error rate that fails its
first stage. -/
def failingStage : List Operation :=
  [.registerModel [109] [] .synthetic,
    .registerVersion
      { model := ⟨1⟩, label := [49]
        artifact := { setId := ⟨1⟩, generation := ⟨1⟩, digest := [97] } },
    .publishCompatibility ⟨1⟩ { key := [101] } .compatible [] .synthetic,
    .registerVersion
      { model := ⟨1⟩, label := [50]
        artifact := { setId := ⟨1⟩, generation := ⟨1⟩, digest := [97] } },
    .publishCompatibility ⟨2⟩ { key := [101] } .compatible [] .synthetic,
    .promote
      { model := ⟨1⟩, candidate := ⟨2⟩, scope := ⟨1⟩, environmentKey := [101]
        requestImmediateCutover := true },
    .revalidate { model := ⟨1⟩, version := ⟨2⟩ },
    .publishCompatibility ⟨2⟩ { key := [101] } .compatible [] .synthetic,
    .promote { model := ⟨1⟩, candidate := ⟨2⟩, scope := ⟨1⟩, environmentKey := [101] },
    .createRollout
      { model := ⟨1⟩, candidate := ⟨2⟩, rootScope := ⟨1⟩, rollbackTarget := ⟨1⟩
        cohorts := [{ name := [99], scopes := [⟨1⟩] }]
        stages := [{ name := [115], cohortIndices := [0], failure := [{ kind := .errorRate }] }] },
    .beginRollout { rollout := ⟨1⟩ },
    .publishEvidence
      { kind := .errorRate, verdict := .satisfied, provenance := .synthetic
        subject :=
          { version := ⟨2⟩, scope := ⟨1⟩, rollout := ⟨1⟩, rolloutGeneration := ⟨1⟩
            stage := ⟨1⟩, stageGeneration := ⟨1⟩ } }]

/-- The plan of that run, as it stands before its first stage is advanced. -/
def failingPlan : RolloutPlan :=
  ((runOps automatic (init automatic) failingStage).rolloutOf ⟨1⟩).getD {}

theorem automatic_rollback_disagrees_witness :
    ¬AgreesWithRollback failingPlan
      ((runOps automatic (init automatic) failingStage).advanceStage { rollout := ⟨1⟩ }).1 :=
  automatic_rollback_disagrees (c := automatic) ⟨failingStage, rfl⟩
    (by decide +kernel : (runOps automatic (init automatic) failingStage).rolloutOf ⟨1⟩ =
      some failingPlan)
    (by decide +kernel)

/-- The automatic rollback leaves the failed candidate in the root scope. -/
theorem automatic_rollback_keeps_candidate :
    ((runOps automatic (init automatic) failingStage).advanceStage
        { rollout := ⟨1⟩ }).2.outcome = .rollbackAllowed ∧
      ¬AgreesWithRollback failingPlan
        ((runOps automatic (init automatic) failingStage).advanceStage { rollout := ⟨1⟩ }).1 := by
  refine ⟨by decide +kernel, ?_⟩
  rintro ⟨⟨binding, ⟨hlive, _⟩, _, hversion⟩, _⟩
  have hholders : ∀ other ∈ ((runOps automatic (init automatic) failingStage).advanceStage
      { rollout := ⟨1⟩ }).1.authority.liveBindingsFor failingPlan.rootScope,
      other.version ≠ failingPlan.rollbackTarget := by
    decide +kernel
  exact hholders binding hlive hversion

end LifecycleFabric
