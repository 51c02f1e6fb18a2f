import LifecycleFabric.Engine.Endings
import LifecycleFabric.EvidenceFiling

/-!
# Operations that leave authority alone

Registrations, publications, leases and attempts do not touch the authority table. They
keep every stored version, plan and scope, apart from bookkeeping, and may add new ones.
-/

namespace LifecycleFabric

open EngineState

variable {c : EngineConfig} {s s' s'' : EngineState}

/-- A plan that was just created: it is at its first stage, which it has not entered. -/
structure RolloutPlan.Fresh (plan : RolloutPlan) : Prop where
  index : plan.currentStageIndex = 0
  generation : plan.currentStageGeneration = {}
  entered : plan.stageEntered = false
  history : plan.history = []
  completed : plan.completed = false
  failed : plan.failed = false
  stages : plan.stages ≠ []
  few : plan.stages.length < 2 ^ 64
  distinct : (plan.stages.map StageDefinition.id).Nodup
  numbered : plan.generation.valid = true
  covers : ∀ stage ∈ plan.stages, plan.stageScopes stage ≠ []

/-- What an operation that leaves authority alone may do. -/
structure Aside (c : EngineConfig) (s s' : EngineState) : Prop where
  authority : s'.authority = s.authority
  versions : ∀ key record, s.versions.get? key = some record →
    ∃ record', s'.versions.get? key = some record' ∧
      Relation.ReflTransGen (VersionEdit c) record record'
  newVersions : ∀ key record, s'.versions.get? key = some record → s.versions.get? key = none →
    record.retired = false ∧ key = versionKey record.model record.version ∧
      record.generation.valid = true
  plans : ∀ key plan, s.rollouts.get? key = some plan →
    ∃ plan', s'.rollouts.get? key = some plan' ∧ PlanStep False True plan plan'
  newPlans : ∀ key plan, s'.rollouts.get? key = some plan → s.rollouts.get? key = none →
    ∃ created : RolloutPlan, created.Fresh ∧ created.id.raw = key ∧ PlanStep False True created plan
  scopes : s.scopes.Grows s'.scopes
  sequence : s.sequence ≤ s'.sequence
  evidence : Relation.ReflTransGen EvidenceStore.Changed s.evidence s'.evidence
  policy : s.policy.base.generation ≤ s'.policy.base.generation
  epoch : s.epoch ≤ s'.epoch

/-! ## Composition -/

/-- Edits keep whose record it is, and neither retire nor revive it. -/
theorem VersionEdit.same_of_chain {before after : ModelVersionRecord}
    (h : Relation.ReflTransGen (VersionEdit c) before after) :
    after.model = before.model ∧ after.version = before.version ∧
      (after.retired = true ↔ before.retired = true) ∧
      before.generation ≤ after.generation := by
  induction h with
  | refl => exact ⟨rfl, rfl, Iff.rfl, le_rfl⟩
  | tail _ hedit ih =>
    obtain ⟨hmodel, hversion, hretired, hgeneration⟩ := ih
    obtain ⟨hmodel', hversion', hretired', hgeneration'⟩ := hedit.same
    exact ⟨hmodel'.trans hmodel, hversion'.trans hversion, hretired'.trans hretired,
      hgeneration.trans hgeneration'⟩

theorem Aside.trans (h : Aside c s s') (h' : Aside c s' s'') : Aside c s s'' where
  authority := h'.authority.trans h.authority
  versions key record hrecord := by
    obtain ⟨record', hrecord', hedits⟩ := h.versions key record hrecord
    obtain ⟨record'', hrecord'', hedits'⟩ := h'.versions key record' hrecord'
    exact ⟨record'', hrecord'', hedits.trans hedits'⟩
  newVersions key record hrecord hnone := by
    cases hmid : s'.versions.get? key with
    | none => exact h'.newVersions key record hrecord hmid
    | some mid =>
      obtain ⟨hretired, hkey, hgeneration⟩ := h.newVersions key mid hmid hnone
      obtain ⟨record', hrecord', hedits⟩ := h'.versions key mid hmid
      obtain rfl := Option.some.inj (hrecord'.symm.trans hrecord)
      obtain ⟨hmodel, hversion, hsame, hle⟩ := VersionEdit.same_of_chain hedits
      refine ⟨?_, by rw [hmodel, hversion, hkey], Ident.valid_of_le hgeneration hle⟩
      rw [Bool.eq_false_iff, ne_eq, hsame, hretired]
      exact Bool.false_ne_true
  plans key plan hplan := by
    obtain ⟨plan', hplan', hstep⟩ := h.plans key plan hplan
    obtain ⟨plan'', hplan'', hstep'⟩ := h'.plans key plan' hplan'
    exact ⟨plan'', hplan'', hstep.trans hstep'⟩
  newPlans key plan hplan hnone := by
    cases hmid : s'.rollouts.get? key with
    | none => exact h'.newPlans key plan hplan hmid
    | some mid =>
      obtain ⟨plan', hplan', hstep⟩ := h'.plans key mid hmid
      obtain rfl := Option.some.inj (hplan'.symm.trans hplan)
      obtain ⟨created, hfresh, hkey, hedited⟩ := h.newPlans key mid hmid hnone
      exact ⟨created, hfresh, hkey, hedited.trans hstep⟩
  scopes := h.scopes.trans h'.scopes
  sequence := h.sequence.trans h'.sequence
  evidence := h.evidence.trans h'.evidence
  policy := h.policy.trans h'.policy
  epoch := h.epoch.trans h'.epoch

/-! ## Parts of an operation -/

/-- An operation that touches neither versions, plans, scopes nor authority. -/
theorem aside_of_frame (hauthority : s'.authority = s.authority)
    (hversions : s'.versions = s.versions) (hrollouts : s'.rollouts = s.rollouts)
    (hscopes : s'.scopes = s.scopes) (hsequence : s.sequence ≤ s'.sequence)
    (hevidence : Relation.ReflTransGen EvidenceStore.Changed s.evidence s'.evidence)
    (hpolicy : s.policy.base.generation ≤ s'.policy.base.generation)
    (hepoch : s.epoch ≤ s'.epoch) : Aside c s s' where
  authority := hauthority
  versions key record hrecord := ⟨record, by rw [hversions, hrecord], .refl⟩
  newVersions key record hrecord hnone := by
    rw [hversions, hnone] at hrecord
    cases hrecord
  plans key plan hplan := ⟨plan, by rw [hrollouts, hplan], PlanStep.refl _ _ _⟩
  newPlans key plan hplan hnone := by
    rw [hrollouts, hnone] at hplan
    cases hplan
  scopes := by rw [hscopes]; exact ScopeRegistry.Grows.refl _
  sequence := hsequence
  evidence := hevidence
  policy := hpolicy
  epoch := hepoch

theorem Aside.refl (s : EngineState) : Aside c s s :=
  aside_of_frame rfl rfl rfl rfl le_rfl .refl le_rfl le_rfl

theorem aside_bump (s : EngineState) : Aside c s s.bumpSequence :=
  aside_of_frame rfl rfl rfl rfl (Ident.le_nextGeneration _) .refl le_rfl le_rfl

/-- The record under one key is edited. -/
theorem aside_modifyVersions (s : EngineState) (key : VersionKey)
    {f : ModelVersionRecord → ModelVersionRecord}
    (hf : ∀ record, s.versions.get? key = some record →
      Relation.ReflTransGen (VersionEdit c) record (f record)) :
    Aside c s { s with versions := s.versions.modify key f } where
  authority := rfl
  versions key' record hrecord := by
    refine ⟨_, by rw [OrdMap.get?_modify, hrecord]; rfl, ?_⟩
    split_ifs with hkey
    · exact hf record (hkey ▸ hrecord)
    · exact .refl
  newVersions key' record hrecord hnone := by
    rw [OrdMap.get?_modify, hnone] at hrecord
    cases hrecord
  plans key plan hplan := ⟨plan, hplan, PlanStep.refl _ _ _⟩
  newPlans key plan hplan hnone := by
    rw [hnone] at hplan
    cases hplan
  scopes := ScopeRegistry.Grows.refl _
  sequence := le_rfl
  evidence := .refl
  policy := le_rfl
  epoch := le_rfl

/-- The plan under one key is edited without being driven on. -/
theorem aside_modifyRollouts (s : EngineState) (key : UInt64) {f : RolloutPlan → RolloutPlan}
    (hf : ∀ plan, PlanStep False True plan (f plan)) :
    Aside c s { s with rollouts := s.rollouts.modify key f } where
  authority := rfl
  versions key record hrecord := ⟨record, hrecord, .refl⟩
  newVersions key record hrecord hnone := by
    rw [hnone] at hrecord
    cases hrecord
  plans key' plan hplan := by
    refine ⟨_, by rw [OrdMap.get?_modify, hplan]; rfl, ?_⟩
    split_ifs
    · exact hf plan
    · exact PlanStep.refl _ _ _
  newPlans key' plan hplan hnone := by
    rw [OrdMap.get?_modify, hnone] at hplan
    cases hplan
  scopes := ScopeRegistry.Grows.refl _
  sequence := le_rfl
  evidence := .refl
  policy := le_rfl
  epoch := le_rfl

/-- A version that is not retired is added under its key. -/
theorem aside_insertVersion (s : EngineState) {key : VersionKey} {record : ModelVersionRecord}
    (hretired : record.retired = false) (hkey : key = versionKey record.model record.version)
    (hgeneration : record.generation.valid = true) :
    Aside c s { s with versions := s.versions.insertNew key record } where
  authority := rfl
  versions key' stored hstored := by
    refine ⟨stored, ?_, .refl⟩
    rw [OrdMap.get?_insertNew]
    split_ifs with h
    · rw [← h, hstored]
      rfl
    · exact hstored
  newVersions key' stored hstored hnone := by
    rw [OrdMap.get?_insertNew] at hstored
    split_ifs at hstored with h
    · rw [← h, hnone] at hstored
      obtain rfl := Option.some.inj hstored
      exact ⟨hretired, h.trans hkey, hgeneration⟩
    · rw [hnone] at hstored
      cases hstored
  plans key plan hplan := ⟨plan, hplan, PlanStep.refl _ _ _⟩
  newPlans key plan hplan hnone := by
    rw [hnone] at hplan
    cases hplan
  scopes := ScopeRegistry.Grows.refl _
  sequence := le_rfl
  evidence := .refl
  policy := le_rfl
  epoch := le_rfl

/-- A fresh plan is added under its identity. -/
theorem aside_insertPlan (s : EngineState) {plan : RolloutPlan} (hfresh : plan.Fresh) :
    Aside c s { s with rollouts := s.rollouts.insertNew plan.id.raw plan } where
  authority := rfl
  versions key record hrecord := ⟨record, hrecord, .refl⟩
  newVersions key record hrecord hnone := by
    rw [hnone] at hrecord
    cases hrecord
  plans key stored hstored := by
    refine ⟨stored, ?_, PlanStep.refl _ _ _⟩
    rw [OrdMap.get?_insertNew]
    split_ifs with h
    · rw [← h, hstored]
      rfl
    · exact hstored
  newPlans key stored hstored hnone := by
    rw [OrdMap.get?_insertNew] at hstored
    split_ifs at hstored with h
    · rw [← h, hnone] at hstored
      obtain rfl := Option.some.inj hstored
      exact ⟨_, hfresh, h.symm, PlanStep.refl _ _ _⟩
    · rw [hnone] at hstored
      cases hstored
  scopes := ScopeRegistry.Grows.refl _
  sequence := le_rfl
  evidence := .refl
  policy := le_rfl
  epoch := le_rfl

/-! ## The operations -/

theorem registerModel_aside (s : EngineState) (name family : Text) (provenance : Provenance) :
    Aside c s (s.registerModel c name family provenance).1 := by
  unfold registerModel
  split_ifs
  · exact Aside.refl s
  · exact Aside.refl s
  · exact Aside.refl s
  · exact Aside.refl s
  · exact aside_of_frame rfl rfl rfl rfl (Ident.le_nextGeneration _) .refl le_rfl le_rfl

theorem registerVersion_aside (s : EngineState) (request : RegisterVersionRequest) :
    Aside c s (s.registerVersion c request).1 := by
  unfold registerVersion
  dsimp only
  split_ifs
  · exact Aside.refl s
  · exact Aside.refl s
  · exact Aside.refl s
  · exact Aside.refl s
  · exact Aside.refl s
  · exact Aside.refl s
  · split
    · exact Aside.refl s
    · have hindexed : Aside c s
          { ({ s with nextVersionId := s.nextVersionId + 1 } : EngineState).bumpSequence with
            versionLabels := s.versionLabels.insertNew
              (toLex (request.model.raw, request.label)) ⟨s.nextVersionId⟩
            versionIndex := s.versionIndex.insertNew s.nextVersionId
              (versionKey request.model ⟨s.nextVersionId⟩) } :=
        aside_of_frame rfl rfl rfl rfl (Ident.le_nextGeneration _) .refl le_rfl le_rfl
      exact hindexed.trans (aside_insertVersion _ rfl rfl rfl)

theorem registerScope_aside (s : EngineState) (path : Text) :
    Aside c s (s.registerScope path).1 where
  authority := rfl
  versions key record hrecord := ⟨record, hrecord, .refl⟩
  newVersions key record hrecord hnone := by
    have hstored : s.versions.get? key = some record := hrecord
    rw [hnone] at hstored
    cases hstored
  plans key plan hplan := ⟨plan, hplan, PlanStep.refl _ _ _⟩
  newPlans key plan hplan hnone := by
    have hstored : s.rollouts.get? key = some plan := hplan
    rw [hnone] at hstored
    cases hstored
  scopes := ScopeRegistry.grows_ensurePath s.scopes path
  sequence := le_rfl
  evidence := .refl
  policy := le_rfl
  epoch := le_rfl

theorem setPolicy_aside (s : EngineState) (policy : LifecyclePolicy) :
    Aside c s (s.setPolicy policy).1 := by
  unfold setPolicy
  split_ifs with _ _ _ hstale
  · exact Aside.refl s
  · exact Aside.refl s
  · exact Aside.refl s
  · exact Aside.refl s
  · exact aside_of_frame rfl rfl rfl rfl (Ident.le_nextGeneration _) .refl
      (not_le.mp hstale).le le_rfl

theorem setScopePolicy_aside (s : EngineState) (refinement : ScopePolicyOverride) :
    Aside c s (s.setScopePolicy refinement).1 := by
  unfold setScopePolicy
  split
  · exact Aside.refl s
  · dsimp only
    split
    · exact Aside.refl s
    · refine aside_of_frame rfl rfl rfl rfl (Ident.le_nextGeneration _) .refl ?_ le_rfl
      exact (congrArg LifecyclePolicy.generation
        (s.policy.setOverride_base refinement)).symm.le

/-- The version found by its identity is stored under the key it is found with. -/
theorem findVersion_stored {version : ModelVersionId} {key : VersionKey}
    {record : ModelVersionRecord} (h : s.findVersion version = some (key, record)) :
    s.versions.get? key = some record :=
  OrdMap.get?_of_mem (List.mem_of_find?_eq_some h)

theorem publishCompatibility_aside (s : EngineState) (version : ModelVersionId)
    (environment : EnvironmentProfile) (outcome : CompatibilityOutcome) (detail : Text)
    (provenance : Provenance) :
    Aside c s (s.publishCompatibility c version environment outcome detail provenance).1 := by
  unfold publishCompatibility
  split
  · exact Aside.refl s
  · rename_i key record hfound
    split
    · exact Aside.refl s
    · split
      · exact Aside.refl s
      · dsimp only
        split
        · exact aside_bump s
        · refine (aside_modifyVersions s key ?_).trans
            (aside_of_frame rfl rfl rfl rfl (Ident.le_nextGeneration _) .refl le_rfl le_rfl)
          intro stored hstored
          obtain rfl := Option.some.inj ((findVersion_stored hfound).symm.trans hstored)
          have hrecorded : VersionEdit c record { record with
              compatibilityGeneration := ⟨s.nextCompatibilityGeneration⟩
              updatedSequence := s.bumpSequence.sequence } := .annotate (by constructor <;> rfl)
          split
          · exact (Relation.ReflTransGen.single hrecorded).tail
              (versionEdit_transition _ (by decide))
          · exact Relation.ReflTransGen.single hrecorded

theorem publishEvidence_aside (s : EngineState) (record : EvidenceRecord) :
    Aside c s (s.publishEvidence record).1 := by
  unfold publishEvidence
  dsimp only
  split
  · exact Aside.refl s
  · split
    · exact Aside.refl s
    · split
      · exact Aside.refl s
      · exact aside_of_frame rfl rfl rfl rfl le_rfl (.single (.publish _)) le_rfl le_rfl

theorem expirePublisherEvidence_aside (s : EngineState) (boot : WorkerBootId) :
    Aside c s (s.expirePublisherEvidence boot).1 := by
  unfold expirePublisherEvidence
  dsimp only
  split
  · exact aside_of_frame rfl rfl rfl rfl (Ident.le_nextGeneration _) (.single (.expire boot))
      le_rfl le_rfl
  · exact aside_of_frame rfl rfl rfl rfl le_rfl (.single (.expire boot)) le_rfl le_rfl

theorem registerWorker_aside (s : EngineState) (registration : WorkerRegistration) :
    Aside c s (s.registerWorker c registration).1 := by
  unfold registerWorker
  dsimp only
  split_ifs
  · exact Aside.refl s
  · exact Aside.refl s
  · exact Aside.refl s
  · exact Aside.refl s
  · exact Aside.refl s
  · exact aside_of_frame rfl rfl rfl rfl (Ident.le_nextGeneration _) .refl le_rfl le_rfl

theorem settleFenced_aside (boot : WorkerBootId) (keys : List UInt64) (s : EngineState) :
    Aside c s (settleFenced boot keys s) := by
  induction keys generalizing s with
  | nil => exact Aside.refl s
  | cons key keys ih =>
    unfold settleFenced
    split
    · exact ih s
    · split
      · exact ih s
      · refine Aside.trans ?_ (ih _)
        exact aside_of_frame rfl rfl rfl rfl (Ident.le_nextGeneration _) .refl le_rfl le_rfl

theorem fenceWorker_aside (s : EngineState) (worker : WorkerId) (boot : WorkerBootId)
    (epoch : CoordinatorEpoch) (reason : Text) :
    Aside c s (s.fenceWorker worker boot epoch reason).1 := by
  unfold fenceWorker
  split
  · exact Aside.refl s
  · split_ifs
    · exact Aside.refl s
    · exact Aside.refl s
    · exact Aside.refl s
    · refine Aside.trans ?_ (settleFenced_aside _ _ _)
      exact aside_of_frame rfl rfl rfl rfl (Ident.le_nextGeneration _) (.single (.expire _))
        le_rfl le_rfl

theorem setWorkerLiveness_aside (s : EngineState) (worker : WorkerId) (connected : Bool) :
    Aside c s (s.setWorkerLiveness worker connected).1 := by
  unfold setWorkerLiveness
  split_ifs
  · exact Aside.refl s
  · exact aside_of_frame rfl rfl rfl rfl le_rfl .refl le_rfl le_rfl

theorem installPlan_aside (s : EngineState) (request : RolloutPlanRequest) {plan : RolloutPlan}
    (hfresh : plan.Fresh) : Aside c s (s.installPlan request plan) := by
  have hrecord := (aside_bump (c := c) s).trans (aside_modifyVersions s.bumpSequence
    (versionKey request.model request.candidate) (f := fun record =>
      { record with
        rollout := plan.id
        rolloutGeneration := plan.generation
        updatedSequence := s.bumpSequence.sequence })
    fun _ _ => Relation.ReflTransGen.single (.annotate (by constructor <;> rfl)))
  exact (hrecord.trans (aside_insertPlan _ hfresh)).trans
    (aside_of_frame rfl rfl rfl rfl le_rfl .refl le_rfl le_rfl)

theorem createRollout_aside (s : EngineState) (request : RolloutPlanRequest) :
    Aside c s (s.createRollout c request).1 := by
  have hbump := aside_bump (c := c) s
  unfold createRollout
  split
  · exact Aside.refl s
  · split
    · exact Aside.refl s
    · rename_i hrefusal
      dsimp only
      split
      · exact hbump.trans (aside_of_frame rfl rfl rfl rfl le_rfl .refl le_rfl le_rfl)
      · rename_i hcohorts
        split
        · exact hbump.trans (aside_of_frame rfl rfl rfl rfl le_rfl .refl le_rfl le_rfl)
        · rename_i hstages
          split
          · exact hbump.trans (aside_of_frame rfl rfl rfl rfl le_rfl .refl le_rfl le_rfl)
          · refine Aside.trans ?_ (installPlan_aside _ request ?_)
            · exact hbump.trans (aside_of_frame rfl rfl rfl rfl le_rfl .refl le_rfl le_rfl)
            · obtain ⟨hsome, hfew⟩ := plan_permitted hrefusal
              have hbound := c.bounds.maxStagesPerRollout_lt
              obtain ⟨hlength, hdistinct⟩ := buildStages_distinct hstages (by omega)
              have hscopes := buildCohorts_scoped (by simp) hcohorts
              have hknown := buildStages_known (by simp) hstages
              refine ⟨rfl, rfl, rfl, rfl, rfl, rfl, ?_, ?_, hdistinct,
                Ident.nextGeneration_valid _, fun stage hstage =>
                  stageScopes_ne_nil hscopes (hknown stage hstage).1 (hknown stage hstage).2⟩
              · rwa [ne_eq, ← List.length_eq_zero_iff, hlength, List.length_eq_zero_iff]
              · dsimp only
                omega

theorem beginAttempt_aside (s : EngineState) (request : AttemptRequest) :
    Aside c s (s.beginAttempt c request).1 := by
  unfold beginAttempt
  split
  · exact Aside.refl s
  · exact Aside.refl s
  · exact aside_of_frame rfl rfl rfl rfl (Ident.le_nextGeneration _) .refl le_rfl le_rfl

theorem settleAttempt_aside (s : EngineState) (key : UInt64) (state : AttemptState)
    (detail : Text) : Aside c s (s.settleAttempt key state detail) :=
  aside_of_frame rfl rfl rfl rfl (Ident.le_nextGeneration _) .refl le_rfl le_rfl

theorem completeAttempt_aside (s : EngineState) (completion : CompletionRecord) :
    Aside c s (s.completeAttempt completion).1 := by
  unfold completeAttempt
  split
  · exact Aside.refl s
  · split
    · exact Aside.refl s
    · split
      · exact settleAttempt_aside _ _ _ _
      · exact settleAttempt_aside _ _ _ _

theorem reconcileAttempt_aside (s : EngineState) (attempt : AttemptId)
    (sideEffectObserved : Bool) (epoch : CoordinatorEpoch) (detail : Text) :
    Aside c s (s.reconcileAttempt attempt sideEffectObserved epoch detail).1 := by
  unfold reconcileAttempt
  split
  · exact Aside.refl s
  · split_ifs
    · exact Aside.refl s
    · exact Aside.refl s
    · exact Aside.refl s
    · exact settleAttempt_aside _ _ _ _
    · exact settleAttempt_aside _ _ _ _
    · exact settleAttempt_aside _ _ _ _

theorem advanceEpoch_aside (s : EngineState) (expectedCurrent : CoordinatorEpoch) :
    Aside c s (s.advanceEpoch expectedCurrent).1 := by
  unfold advanceEpoch
  split_ifs
  · exact Aside.refl s
  · exact aside_of_frame rfl rfl rfl rfl (Ident.le_nextGeneration _) .refl le_rfl
      (Ident.le_nextGeneration _)

theorem stampEntered_aside (keys : List UInt64) (s : EngineState) :
    Aside c s (stampEntered keys s) := by
  induction keys generalizing s with
  | nil => exact Aside.refl s
  | cons key keys ih =>
    unfold stampEntered
    split
    · exact ih s
    · split
      · exact ih s
      · have hstamp := (aside_bump (c := c) s).trans (aside_modifyRollouts s.bumpSequence key
          (f := fun plan => { plan with updatedSequence := s.bumpSequence.sequence })
          fun _ => planStep_stamp _)
        exact hstamp.trans (ih _)

theorem invalidateVolatileState_aside (s : EngineState) (cause : Text) :
    Aside c s (s.invalidateVolatileState cause) := by
  unfold invalidateVolatileState
  refine Aside.trans (Aside.trans ?_ (stampEntered_aside _ _)) (aside_bump _)
  exact aside_of_frame rfl rfl rfl rfl le_rfl (.single (.removeKinds _)) le_rfl le_rfl

end LifecycleFabric
