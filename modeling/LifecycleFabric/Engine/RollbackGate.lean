import LifecycleFabric.Engine.StageChains

/-!
# What the gate of a rollback reads

The gate reads the identity and the content of the versions, the generation, the candidate
and the rollback of a plan, and the table. A committed stage failure changes of these only
the table, from which it withdraws the bindings of the rollout.
-/

namespace LifecycleFabric

open EngineState AuthorityTable

variable {s t u : EngineState}

/-- What the gate of a rollback reads of a version. -/
structure ModelVersionRecord.SameContent (before after : ModelVersionRecord) : Prop where
  model : after.model = before.model
  version : after.version = before.version
  generation : after.generation = before.generation
  artifact : after.artifact = before.artifact
  compatibilityGeneration : after.compatibilityGeneration = before.compatibilityGeneration
  retired : after.retired = before.retired

/-- A version is stored after what keeps its content, and with the same content. -/
def EngineState.KeepsContent (s t : EngineState) : Prop :=
  ∀ model version, Option.Rel ModelVersionRecord.SameContent (s.versionOf model version)
    (t.versionOf model version)

/-- What the gate of a rollback reads of a plan. -/
structure RolloutPlan.SameProgress (before after : RolloutPlan) : Prop where
  generation : after.generation = before.generation
  candidate : after.candidate = before.candidate
  lastRollback : after.lastRollback = before.lastRollback

/-- Two states between which the gate of a rollback makes no difference. -/
structure SameRollbackGround (t u : EngineState) : Prop where
  epoch : u.epoch = t.epoch
  policy : u.policy = t.policy
  scopes : u.scopes = t.scopes
  workers : u.workers = t.workers
  authority : u.authority = t.authority
  versions : t.KeepsContent u
  plans : ∀ rollout, Option.Rel RolloutPlan.SameProgress (t.rolloutOf rollout) (u.rolloutOf rollout)

theorem rel_cases {α : Type} {r : α → α → Prop} {before after : Option α}
    (h : Option.Rel r before after) :
    before = none ∧ after = none ∨ ∃ a b, before = some a ∧ after = some b ∧ r a b := by
  cases h with
  | none => exact Or.inl ⟨rfl, rfl⟩
  | some h => exact Or.inr ⟨_, _, rfl, rfl, h⟩

theorem rollbackFaults_congr (h : SameRollbackGround t u) (request : RollbackRequest)
    {candidate candidate' : ModelVersionRecord} (hsame : candidate.SameContent candidate') :
    u.rollbackFaults request candidate' = t.rollbackFaults request candidate := by
  have hcaller : u.callerFaults request.epoch request.policyGeneration request.worker
      request.boot = t.callerFaults request.epoch request.policyGeneration request.worker
        request.boot := by
    simp only [callerFaults, checkEpoch, checkPolicyGeneration, checkWorker, workerOf, h.epoch,
      h.policy, h.workers]
  have hscope : u.rollbackScopeFaults request candidate' =
      t.rollbackScopeFaults request candidate := by
    unfold rollbackScopeFaults candidateHolds
    rw [h.scopes, h.authority, hsame.model, hsame.version]
  have hplan : u.rollbackPlanFaults request candidate' = t.rollbackPlanFaults request candidate := by
    have hplans := h.plans request.rollout
    unfold rollbackPlanFaults
    rw [hsame.version]
    revert hplans
    generalize t.rolloutOf request.rollout = before
    generalize u.rolloutOf request.rollout = after
    rintro (hprogress | _)
    · dsimp only
      rw [hprogress.generation, hprogress.candidate, hprogress.lastRollback]
    · rfl
  have htarget : u.rollbackDestinationFaults request candidate' =
      t.rollbackDestinationFaults request candidate := by
    have hversions := h.versions request.model request.target
    unfold rollbackDestinationFaults
    rw [hsame.version]
    revert hversions
    generalize t.versionOf request.model request.target = before
    generalize u.versionOf request.model request.target = after
    rintro (hcontent | _)
    · unfold ModelVersionRecord.hasCompatibility
      dsimp only
      rw [hcontent.retired, hcontent.artifact, hcontent.generation, hcontent.version,
        hcontent.compatibilityGeneration]
    · rfl
  have hpolicy : u.rollbackPolicyFaults request = t.rollbackPolicyFaults request := by
    unfold rollbackPolicyFaults promotionPolicy
    rw [h.scopes, h.policy]
  rw [rollbackFaults, rollbackFaults, hcaller, hscope, hplan, htarget, hpolicy, hsame.generation]

/-- The gate answers alike in two such states. -/
theorem evaluateRollback_congr (h : SameRollbackGround t u) (request : RollbackRequest) :
    u.evaluateRollback request = t.evaluateRollback request := by
  have hversions := h.versions request.model request.candidate
  have hfaults : ∀ candidate candidate' : ModelVersionRecord, candidate.SameContent candidate' →
      u.rollbackFaults request candidate' = t.rollbackFaults request candidate :=
    fun _ _ hsame => rollbackFaults_congr h request hsame
  unfold evaluateRollback
  revert hversions
  generalize t.versionOf request.model request.candidate = before
  generalize u.versionOf request.model request.candidate = after
  rintro (hcontent | _)
  · dsimp only
    rw [hfaults _ _ hcontent]
  · rfl

/-- Advancing a version to a state other than the retired one keeps its content. -/
theorem sameContent_advance (record : ModelVersionRecord) {target : LifecycleState}
    (htarget : target ≠ .retired) : record.SameContent (record.advanceLifecycleTo target).1 := by
  obtain ⟨_, _, heq⟩ := ModelVersionRecord.same_of_transitions
    (ModelVersionRecord.advanceLifecycleTo_chain record target)
  have hretired := (versionEdit_advance (c := {}) record htarget).same.2.2.1
  refine ⟨by rw [heq], by rw [heq], by rw [heq], by rw [heq], by rw [heq], ?_⟩
  rw [Bool.eq_iff_iff]
  exact hretired

/-! ## Keeping the content of the versions -/

theorem ModelVersionRecord.SameContent.refl (record : ModelVersionRecord) :
    record.SameContent record := ⟨rfl, rfl, rfl, rfl, rfl, rfl⟩

theorem ModelVersionRecord.SameContent.trans {first second third : ModelVersionRecord}
    (h : first.SameContent second) (h' : second.SameContent third) : first.SameContent third where
  model := h'.model.trans h.model
  version := h'.version.trans h.version
  generation := h'.generation.trans h.generation
  artifact := h'.artifact.trans h.artifact
  compatibilityGeneration := h'.compatibilityGeneration.trans h.compatibilityGeneration
  retired := h'.retired.trans h.retired

/-- A state with the same versions keeps their content. -/
theorem keepsContent_of_versions (h : t.versions = s.versions) : s.KeepsContent t := by
  intro model version
  rw [versionOf, versionOf, h]
  cases s.versions.get? (versionKey model version) with
  | none => exact .none
  | some record => exact .some (.refl record)

theorem EngineState.KeepsContent.trans (h : s.KeepsContent t) (h' : t.KeepsContent u) :
    s.KeepsContent u := by
  intro model version
  have hfirst := h model version
  have hsecond := h' model version
  rcases rel_cases hfirst with ⟨hbefore, hmid⟩ | ⟨before, mid, hbefore, hmid, hsame⟩
  · rw [hmid] at hsecond
    rcases rel_cases hsecond with ⟨_, hafter⟩ | ⟨_, _, hcontra, _⟩
    · rw [hbefore, hafter]
      exact .none
    · cases hcontra
  · rw [hmid] at hsecond
    rcases rel_cases hsecond with ⟨hcontra, _⟩ | ⟨other, after, hother, hafter, hsame'⟩
    · cases hcontra
    · obtain rfl := Option.some.inj hother
      rw [hbefore, hafter]
      exact .some (hsame.trans hsame')

/-- A stored version is stored after what keeps its content. -/
theorem EngineState.KeepsContent.stored (h : s.KeepsContent t) {model : ModelId}
    {version : ModelVersionId} {before : ModelVersionRecord}
    (hbefore : s.versionOf model version = some before) :
    ∃ after, t.versionOf model version = some after ∧ before.SameContent after := by
  rcases rel_cases (h model version) with ⟨hnone, _⟩ | ⟨stored, after, hstored, hafter, hsame⟩
  · rw [hbefore] at hnone
    cases hnone
  · obtain rfl := Option.some.inj (hbefore.symm.trans hstored)
    exact ⟨after, hafter, hsame⟩

theorem keepsContent_modifyVersion (s : EngineState) (model : ModelId) (version : ModelVersionId)
    {f : ModelVersionRecord → ModelVersionRecord}
    (hf : ∀ record : ModelVersionRecord, record.SameContent (f record)) :
    s.KeepsContent (s.modifyVersion model version f) := by
  intro other others
  rw [versionOf_modifyVersion]
  cases s.versionOf other others with
  | none => exact .none
  | some record =>
    refine .some ?_
    dsimp only
    split_ifs
    · exact hf record
    · exact .refl record

theorem keepsContent_advance (s : EngineState) (model : ModelId) (version : ModelVersionId)
    {target : LifecycleState} (htarget : target ≠ .retired) :
    s.KeepsContent (s.advanceVersion model version target) :=
  keepsContent_modifyVersion s model version fun record : ModelVersionRecord =>
    sameContent_advance record htarget

theorem keepsContent_demoteDisplaced (s : EngineState) (model : ModelId)
    (version : ModelVersionId) : s.KeepsContent (s.demoteDisplaced model version) := by
  unfold demoteDisplaced
  split_ifs
  · exact keepsContent_advance s model version (by decide)
  · split
    · split_ifs
      · exact keepsContent_advance s model version (by decide)
      · exact keepsContent_of_versions rfl
    · exact keepsContent_of_versions rfl

/-- Superseding the rollouts in flight moves their candidates, and changes nothing else of
the versions. -/
theorem keepsContent_supersedeInflight (record : ModelVersionRecord) (keys : List UInt64)
    (s : EngineState) : s.KeepsContent (supersedeInflight record keys s) := by
  induction keys generalizing s with
  | nil => exact keepsContent_of_versions rfl
  | cons key keys ih =>
    rw [supersedeInflight]
    split
    · exact ih s
    · rename_i plan hplan
      dsimp only
      split_ifs
      · exact ih s
      · refine EngineState.KeepsContent.trans ?_ (ih _)
        split
        · exact keepsContent_of_versions rfl
        · split_ifs
          · exact keepsContent_of_versions rfl
          · refine EngineState.KeepsContent.trans ?_ (keepsContent_advance _ _ _ (by decide))
            exact keepsContent_of_versions rfl

section Failure

variable (rollout : RolloutId) (plan : RolloutPlan) (reasons : List Reason) (leaveStage : Bool)

/-- A committed failure touches no worker and no scope. -/
theorem commitFailure_kept :
    (s.commitFailure rollout plan reasons leaveStage).scopes = s.scopes ∧
      (s.commitFailure rollout plan reasons leaveStage).authority =
        s.authority.supersedeRollout plan.id plan.generation := by
  unfold commitFailure stampVersion advanceVersion
  constructor
  · simp
  · simp

theorem keepsContent_commitFailure :
    s.KeepsContent (s.commitFailure rollout plan reasons leaveStage) := by
  unfold commitFailure stampVersion
  dsimp only
  have hstamped : ∀ (t : EngineState) (updated : Sequence), t.KeepsContent
      (t.modifyVersion plan.model plan.candidate fun record =>
        { record with updatedSequence := updated }) := by
    intro t updated
    exact keepsContent_modifyVersion t _ _ fun record : ModelVersionRecord =>
      ⟨rfl, rfl, rfl, rfl, rfl, rfl⟩
  refine EngineState.KeepsContent.trans ?_ (hstamped _ _)
  refine EngineState.KeepsContent.trans ?_ (keepsContent_of_versions (bumpSequence_versions _))
  refine EngineState.KeepsContent.trans ?_
    (keepsContent_advance _ plan.model plan.candidate (by decide))
  refine keepsContent_of_versions ?_
  simp

theorem rollouts_commitFailure :
    ∃ decided updated, (s.commitFailure rollout plan reasons leaveStage).rollouts =
      s.rollouts.modify rollout.raw (failedPlan decided updated reasons leaveStage) := by
  unfold commitFailure stampVersion advanceVersion
  exact ⟨s.bumpSequence.sequence, s.bumpSequence.bumpSequence.sequence, by simp [modifyRollout]⟩

/-- A committed failure makes of all the gate reads only the table another one. -/
theorem sameGround_commitFailure :
    SameRollbackGround (s.mapAuthority (·.supersedeRollout plan.id plan.generation))
      (s.commitFailure rollout plan reasons leaveStage) := by
  obtain ⟨hscopes, hauthority⟩ := commitFailure_kept (s := s) rollout plan reasons leaveStage
  have hchain := (moves_commitFailure (c := {}) (p := {}) s rollout plan reasons leaveStage trivial
    False.elim).chain
  obtain ⟨hpolicy, hepoch⟩ := hchain.policy_epoch
  refine ⟨hepoch, hpolicy, hscopes, hchain.workers_eq, hauthority, ?_, ?_⟩
  · exact (keepsContent_commitFailure rollout plan reasons leaveStage)
  · intro other
    obtain ⟨decided, updated, hrollouts⟩ :=
      rollouts_commitFailure (s := s) rollout plan reasons leaveStage
    have hbefore : (s.mapAuthority (·.supersedeRollout plan.id plan.generation)).rolloutOf other =
        s.rollouts.get? other.raw := rfl
    rw [hbefore, rolloutOf, hrollouts, OrdMap.get?_modify]
    cases s.rollouts.get? other.raw with
    | none => exact .none
    | some stored =>
      refine .some ?_
      split_ifs
      · exact ⟨rfl, rfl, rfl⟩
      · exact ⟨rfl, rfl, rfl⟩

end Failure

end LifecycleFabric
