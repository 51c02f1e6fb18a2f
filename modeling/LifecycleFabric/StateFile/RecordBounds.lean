import LifecycleFabric.StateFile.Records

/-!
# What is read of a written record

For each record of the state file: the bounds its reader puts on it, and that the reader takes
what was written back when these hold, and refuses it otherwise. A comparison, a reason code
and a stage index are cast from their numbers, so the record must be one that its numbers
stand for.
-/

namespace LifecycleFabric.StateFile

open ByteCodec Wire

variable {limits : DecodeLimits}

/-! ## Values -/

/-- A signed byte is read back. -/
theorem reads_i8 (value : Int8) : Reads readI8 (writeI8 value) True value := by
  have hlt : value.toUInt8.toNat < 256 ^ 1 := value.toUInt8.toNat_lt
  have hread := (Reads.number_of_lt hlt).map fun raw => (UInt8.ofNat raw).toInt8
  rwa [UInt8.ofNat_toNat, Int8.toInt8_toUInt8] at hread

theorem reads_scopeKind (kind : ScopeKind) :
    Reads (getEnum ScopeKind.all) (putEnum kind.code) True kind := by
  apply reads_getEnum <;> cases kind <;> decide

theorem reads_lifecycleState (state : LifecycleState) :
    Reads (getEnum LifecycleState.all) (putEnum state.code) True state := by
  apply reads_getEnum <;> cases state <;> decide

theorem reads_authorityKind (kind : AuthorityKind) :
    Reads (getEnum AuthorityKind.all) (putEnum kind.code) True kind := by
  apply reads_getEnum <;> cases kind <;> decide

theorem reads_decision (decision : StageDecision) :
    Reads (getEnum StageDecision.all) (putEnum decision.code) True decision := by
  apply reads_getEnum <;> cases decision <;> decide

theorem reads_attemptState (state : AttemptState) :
    Reads (getEnum AttemptState.all) (putEnum state.code) True state := by
  apply reads_getEnum <;> cases state <;> decide

theorem reads_kinds {α : Type} {code : α → ℕ} {all : List α}
    (h : ∀ kind, Reads (getEnum all) (putEnum (code kind)) True kind) (limit : ℕ)
    (kinds : List α) :
    Reads (readKinds limit all) (writeKinds code kinds) (Fits limit kinds.length) kinds := by
  have hput (kind : α) : 0 < (putEnum (code kind)).length := by simp [putEnum]
  exact (Reads.counted (fun kind _ => h kind) hput limit).congr (by simp)

/-! ## Policies -/

def withinPolicy (limits : DecodeLimits) (policy : LifecyclePolicy) : Prop :=
  Fits ScopeKind.count policy.promotableScopeKinds.length ∧
    Fits (min limits.maxString maxEvidenceKinds) policy.globallyRequiredEvidence.length

instance (limits : DecodeLimits) (policy : LifecyclePolicy) : Decidable (withinPolicy limits policy) :=
  inferInstanceAs (Decidable (_ ∧ _))

theorem reads_policy (policy : LifecyclePolicy) :
    Reads (readPolicy limits) (writePolicy policy) (withinPolicy limits policy) policy := by
  have hread : Reads (readPolicy limits) (writePolicy policy) _ policy :=
    .next (reads_getId _) <| .next (reads_getU32 _) <| .next (reads_getBool _) <|
    .next (reads_getBool _) <| .next (reads_getBool _) <| .next (reads_getBool _) <|
    .next (reads_getU32 _) <| .next (reads_getBool _) <| .next (reads_getU64 _) <|
    .next (reads_getBool _) <| .next (reads_getBool _) <| .next (reads_getBool _) <|
    .next (reads_getBool _) <| .next (reads_getU32 _) <| .next (reads_getBool _) <|
    .next (reads_getBool _) <| .field (reads_kinds reads_scopeKind _ _) fun _ =>
    .field (reads_kinds reads_evidenceKind _ _) fun _ => .done _
  exact hread.congr (by simp [withinPolicy])

def withinOverride (o : ScopePolicyOverride) : Prop :=
  Fits maxEvidenceKinds o.additionalRequiredEvidence.length ∧
    Fits ScopeKind.count o.additionalPromotableScopeKinds.length

instance (o : ScopePolicyOverride) : Decidable (withinOverride o) :=
  inferInstanceAs (Decidable (_ ∧ _))

theorem reads_override (o : ScopePolicyOverride) :
    Reads readOverride (writeOverride o) (withinOverride o) o := by
  have hread : Reads readOverride (writeOverride o) _ o :=
    .next (reads_getId _) <| .next (reads_getBool _) <| .next (reads_getU32 _) <|
    .next (reads_i8 _) <| .next (reads_i8 _) <| .next (reads_i8 _) <|
    .field (reads_kinds reads_evidenceKind _ _) fun _ =>
    .field (reads_kinds reads_scopeKind _ _) fun _ => .done _
  exact hread.congr (by simp [withinOverride])

/-! ## Scopes, models and versions -/

def withinScope (limits : DecodeLimits) (scope : ScopeRecord) : Prop :=
  Fits limits.maxString scope.name.length ∧ Fits (sizeWord (limits.maxString * 8)) scope.path.length

instance (limits : DecodeLimits) (scope : ScopeRecord) : Decidable (withinScope limits scope) :=
  inferInstanceAs (Decidable (_ ∧ _))

theorem reads_scope (scope : ScopeRecord) :
    Reads (readScope limits) (writeScope scope) (withinScope limits scope) scope := by
  have hread : Reads (readScope limits) (writeScope scope) _ scope :=
    .next (reads_getId _) <| .next (reads_getId _) <| .next (reads_scopeKind _) <|
    .field (reads_string _ _) fun _ => .field (reads_string _ _) fun _ =>
    .next (reads_getId _) <| .next (reads_getU32 _) <| .done _
  exact hread.congr (by simp [withinScope])

def withinModel (limits : DecodeLimits) (record : ModelRecord) : Prop :=
  Fits limits.maxString record.name.length ∧ Fits limits.maxString record.family.length ∧
    record.id.valid

instance (limits : DecodeLimits) (record : ModelRecord) : Decidable (withinModel limits record) :=
  inferInstanceAs (Decidable (_ ∧ _))

theorem reads_model (record : ModelRecord) :
    Reads (readModel limits) (writeModel record) (withinModel limits record) record := by
  have hread : Reads (readModel limits) (writeModel record) _ record :=
    .next (reads_getId _) <| .field (reads_string _ _) fun _ =>
    .field (reads_string _ _) fun _ => .next (reads_provenance _) <|
    .next (reads_getId _) <| .checked _ _
  exact hread.congr (by simp [withinModel])

def withinVersion (limits : DecodeLimits) (record : ModelVersionRecord) : Prop :=
  Fits limits.maxString record.label.length ∧
    Fits limits.maxDigest record.artifact.digest.length ∧
    fitsRequirements limits.maxString record.requirements ∧
    record.model.valid ∧ record.version.valid ∧ record.generation.valid ∧
    record.lifecycleGeneration.valid

instance (limits : DecodeLimits) (record : ModelVersionRecord) :
    Decidable (withinVersion limits record) :=
  inferInstanceAs (Decidable (_ ∧ _))

theorem reads_version (record : ModelVersionRecord) :
    Reads (readVersion limits) (writeVersion record) (withinVersion limits record) record := by
  have hread : Reads (readVersion limits) (writeVersion record) _ record :=
    .next (reads_getId _) <| .next (reads_getId _) <| .field (reads_string _ _) fun _ =>
    .next (reads_getId _) <| .next (reads_getId _) <| .next (reads_getId _) <|
    .field (reads_bindingUpTo _ _) fun _ => .field (reads_requirementsUpTo _ _) fun _ =>
    .next (reads_lifecycleState _) <| .next (reads_getId _) <| .next (reads_getId _) <|
    .next (reads_getId _) <| .next (reads_getId _) <| .next (reads_getId _) <|
    .next (reads_getId _) <| .next (reads_getId _) <| .next (reads_getId _) <|
    .next (reads_getId _) <| .next (reads_getId _) <| .next (reads_provenance _) <|
    .next (reads_getId _) <| .next (reads_getId _) <| .checked _ _
  exact hread.congr (by simp [withinVersion])

def withinFact (limits : DecodeLimits) (fact : CompatibilityFact) : Prop :=
  Fits limits.maxString fact.environmentKey.length ∧
    Fits (sizeWord (limits.maxString * 2)) fact.detail.length ∧
    fact.version.valid ∧ fact.generation.valid ∧ fact.environmentKey ≠ []

instance (limits : DecodeLimits) (fact : CompatibilityFact) : Decidable (withinFact limits fact) :=
  inferInstanceAs (Decidable (_ ∧ _))

theorem reads_fact (fact : CompatibilityFact) :
    Reads (readFact limits) (writeFact fact) (withinFact limits fact) fact := by
  have hread : Reads (readFact limits) (writeFact fact) _ fact :=
    .next (reads_getId _) <| .next (reads_getId _) <| .next (reads_getId _) <|
    .next (reads_getId _) <| .next (reads_getId _) <| .next (reads_getId _) <|
    .field (reads_string _ _) fun _ => .next (reads_compatibility _) <|
    .field (reads_string _ _) fun _ => .next (reads_provenance _) <|
    .next (reads_getId _) <| .checked _ _
  exact hread.congr (by simp [withinFact])

/-! ## Rollout plans -/

/-- A comparison that its number stands for. -/
def properComparison (comparison : CriterionComparison) : Prop :=
  CriterionComparison.ofCode comparison.code = comparison

theorem reads_criterion {c : Criterion} (h : properComparison c.comparison) :
    Reads readCriterion (putCriterion c) True c := by
  have hlt : c.comparison.code.toNat < 256 ^ 1 := c.comparison.code.toNat_lt
  have hcomparison := (Reads.number_of_lt hlt).map fun raw =>
    CriterionComparison.ofCode (UInt8.ofNat raw)
  rw [UInt8.ofNat_toNat, h] at hcomparison
  exact .next (reads_evidenceKind _) <| .next hcomparison <| .next (reads_getF64 _) <| .done _

theorem reads_criteria {cs : List Criterion} (h : ∀ c ∈ cs, properComparison c.comparison) :
    Reads (counted maxListed readCriterion) (putCounted putCriterion cs)
      (Fits maxListed cs.length) cs := by
  have hput (c : Criterion) : 0 < (putCriterion c).length := by simp [putCriterion, putEnum]
  exact (Reads.counted (fun c hc => reads_criterion (h c hc)) hput _).congr (by simp)

def withinCohort (limits : DecodeLimits) (c : CohortDefinition) : Prop :=
  Fits limits.maxString c.name.length ∧ Fits limits.maxScopes c.scopes.length ∧
    c.trafficPercent.toNat ≤ 100 ∧ c.maxBlastRadiusPercent.toNat ≤ 100

instance (limits : DecodeLimits) (c : CohortDefinition) : Decidable (withinCohort limits c) :=
  inferInstanceAs (Decidable (_ ∧ _))

theorem reads_cohort (c : CohortDefinition) :
    Reads (readCohort limits) (writeCohort c) (withinCohort limits c) c := by
  have hread : Reads (readCohort limits) (writeCohort c) _ c :=
    .next (reads_getId _) <| .field (reads_string _ _) fun _ =>
    .field (reads_ids _ _) fun _ => .field (reads_percent _) fun _ =>
    .field (reads_percent _) fun _ => .done _
  exact hread.congr (by simp [withinCohort])

/-- The criteria of a stage compare in ways that their numbers stand for. -/
def properStage (s : StageDefinition) : Prop :=
  (∀ c ∈ s.acceptance, properComparison c.comparison) ∧
    ∀ c ∈ s.failure, properComparison c.comparison

def withinStage (limits : DecodeLimits) (s : StageDefinition) : Prop :=
  Fits limits.maxString s.name.length ∧ Fits limits.maxCohortsPerRollout s.cohorts.length ∧
    Fits maxEvidenceKinds s.requiredEvidence.length ∧ Fits maxListed s.acceptance.length ∧
    Fits maxListed s.failure.length

instance (limits : DecodeLimits) (s : StageDefinition) : Decidable (withinStage limits s) :=
  inferInstanceAs (Decidable (_ ∧ _))

theorem reads_stage {s : StageDefinition} (h : properStage s) :
    Reads (readStage limits) (writeStage s) (withinStage limits s) s := by
  have hread : Reads (readStage limits) (writeStage s) _ s :=
    .next (reads_getId _) <| .field (reads_string _ _) fun _ =>
    .field (reads_ids _ _) fun _ => .field (reads_requirementList _ _) fun _ =>
    .field (reads_criteria h.1) fun _ => .field (reads_criteria h.2) fun _ =>
    .next (reads_getBool _) <| .next (reads_getBool _) <| .done _
  exact hread.congr (by simp [withinStage])

/-- The reasons of a stage record are codes that their numbers stand for. -/
def properStageRecord (r : StageRecord) : Prop := ∀ reason ∈ r.reasons, properReason reason.code

def withinStageRecord (limits : DecodeLimits) (r : StageRecord) : Prop :=
  Fits maxListed r.reasons.length ∧
    ∀ reason ∈ r.reasons, Fits limits.maxString reason.detail.length

instance (limits : DecodeLimits) (r : StageRecord) : Decidable (withinStageRecord limits r) :=
  inferInstanceAs (Decidable (_ ∧ _))

theorem reads_stageRecord {r : StageRecord} (h : properStageRecord r) :
    Reads (readStageRecord limits) (writeStageRecord r) (withinStageRecord limits r) r := by
  have hread : Reads (readStageRecord limits) (writeStageRecord r) _ r :=
    .next (reads_getId _) <| .next (reads_getId _) <| .next (reads_getId _) <|
    .next (reads_getId _) <| .next (reads_decision _) <|
    .field (reads_reasonsUpTo h _ _) fun _ => .done _
  exact hread.congr (by simp [withinStageRecord])

/-- The numbers of a plan stand for it: its stage index has 32 bits. -/
def properPlan (plan : RolloutPlan) : Prop :=
  plan.currentStageIndex < 2 ^ 32 ∧ (∀ s ∈ plan.stages, properStage s) ∧
    ∀ r ∈ plan.history, properStageRecord r

def withinPlan (limits : DecodeLimits) (plan : RolloutPlan) : Prop :=
  (Fits limits.maxCohortsPerRollout plan.cohorts.length ∧
      ∀ c ∈ plan.cohorts, withinCohort limits c) ∧
    (Fits limits.maxStagesPerRollout plan.stages.length ∧
      ∀ s ∈ plan.stages, withinStage limits s) ∧
    (Fits limits.maxHistoryPerRollout plan.history.length ∧
      ∀ r ∈ plan.history, withinStageRecord limits r) ∧
    plan.id.valid ∧ plan.generation.valid ∧ plan.candidate.valid

instance (limits : DecodeLimits) (plan : RolloutPlan) : Decidable (withinPlan limits plan) :=
  inferInstanceAs (Decidable (_ ∧ _))

theorem reads_plan {plan : RolloutPlan} (h : properPlan plan) :
    Reads (readPlan limits) (writePlan plan) (withinPlan limits plan) plan := by
  obtain ⟨hindex, hstages, hhistory⟩ := h
  have hcohorts : Reads (counted limits.maxCohortsPerRollout (readCohort limits))
      (putCounted writeCohort plan.cohorts) _ plan.cohorts :=
    Reads.counted (fun c _ => reads_cohort c) (fun c => by simp [writeCohort]) _
  have hstages : Reads (counted limits.maxStagesPerRollout (readStage limits))
      (putCounted writeStage plan.stages) _ plan.stages :=
    Reads.counted (fun s hs => reads_stage (hstages s hs)) (fun s => by simp [writeStage]) _
  have hhistory : Reads (counted limits.maxHistoryPerRollout (readStageRecord limits))
      (putCounted writeStageRecord plan.history) _ plan.history :=
    Reads.counted (fun r hr => reads_stageRecord (hhistory r hr))
      (fun r => by simp [writeStageRecord]) _
  have hnumber : Reads (number 4) (word 4 plan.currentStageIndex) True plan.currentStageIndex :=
    Reads.number_of_lt (by simpa using hindex)
  have hread : Reads (readPlan limits) (writePlan plan) _ plan :=
    .next (reads_getId _) <| .next (reads_getId _) <| .next (reads_getId _) <|
    .next (reads_getId _) <| .next (reads_getId _) <| .next (reads_getId _) <|
    .next (reads_getId _) <| .next (reads_getId _) <| .next (reads_getId _) <|
    .next (reads_getId _) <| .next (reads_getId _) <| .next (reads_getId _) <|
    .next (reads_getId _) <| .next (reads_getId _) <| .next (reads_strategy _) <|
    .next (reads_getId _) <| .next (reads_getId _) <| .next (reads_getId _) <|
    .next (reads_getId _) <| .next (reads_getU32 _) <| .next (reads_getBool _) <|
    .field hcohorts fun _ => .field hstages fun _ => .next hnumber <|
    .next (reads_getId _) <| .next (reads_getBool _) <| .field hhistory fun _ =>
    .next (reads_getBool _) <| .next (reads_getBool _) <| .next (reads_getBool _) <|
    .next (reads_getId _) <| .next (reads_getId _) <| .next (reads_getId _) <|
    .next (reads_getId _) <| .next (reads_provenance _) <| .checked _ _
  exact hread.congr (by simp [withinPlan])

/-! ## Authority, workers, evidence and attempts -/

def withinGrant (b : AuthorityBinding) : Prop :=
  b.scope.valid ∧ b.model.valid ∧ b.version.valid

instance (b : AuthorityBinding) : Decidable (withinGrant b) :=
  inferInstanceAs (Decidable (_ ∧ _))

/-- A live binding is read back. -/
theorem reads_grant {b : AuthorityBinding} (h : b.live = true) :
    Reads readGrant (writeGrant b) (withinGrant b) b := by
  have hlive : b.superseded = false := by simpa [AuthorityBinding.live] using h
  have hread : Reads readGrant (writeGrant b) _ { b with superseded := false } :=
    .next (reads_getId _) <| .next (reads_getId _) <| .next (reads_getId _) <|
    .next (reads_getId _) <| .next (reads_getId _) <| .next (reads_getId _) <|
    .next (reads_getId _) <| .next (reads_lifecycleState _) <| .next (reads_authorityKind _) <|
    .next (reads_getId _) <| .next (reads_getId _) <| .next (reads_getId _) <|
    .next (reads_getId _) <| .next (reads_getId _) <| .next (reads_getId _) <|
    .next (reads_getId _) <| .next (reads_getId _) <| .next (reads_getId _) <|
    .next (reads_getId _) <| .next (reads_getId _) <| .checked _ _
  rw [← hlive] at hread
  exact hread.congr (by simp [withinGrant])

def withinLease (limits : DecodeLimits) (lease : WorkerLease) : Prop :=
  Fits limits.maxScopes lease.scopes.length ∧ Fits limits.maxString lease.detail.length ∧
    lease.id.valid ∧ lease.boot.valid

instance (limits : DecodeLimits) (lease : WorkerLease) : Decidable (withinLease limits lease) :=
  inferInstanceAs (Decidable (_ ∧ _))

theorem reads_lease (lease : WorkerLease) :
    Reads (readLease limits) (writeLease lease) (withinLease limits lease) lease := by
  have hread : Reads (readLease limits) (writeLease lease) _ lease :=
    .next (reads_getId _) <| .next (reads_getId _) <| .next (reads_getId _) <|
    .field (reads_ids _ _) fun _ => .next (reads_getBool _) <| .next (reads_getId _) <|
    .next (reads_getId _) <| .field (reads_string _ _) fun _ => .checked _ _
  exact hread.congr (by simp [withinLease])

theorem reads_subject (s : EvidenceSubject) : Reads readSubject (writeSubject s) True s :=
  .next (reads_getId _) <| .next (reads_getId _) <| .next (reads_getId _) <|
  .next (reads_getId _) <| .next (reads_getId _) <| .next (reads_getId _) <|
  .next (reads_getId _) <| .next (reads_getId _) <| .next (reads_getId _) <|
  .next (reads_getId _) <| .next (reads_getId _) <| .done _

def withinEvidence (limits : DecodeLimits) (r : EvidenceRecord) : Prop :=
  Fits (limits.maxString / 4) r.unit.length ∧
    Fits (sizeWord (limits.maxString * 2)) r.detail.length ∧
    r.subject.version.valid ∧ r.generation.valid

instance (limits : DecodeLimits) (r : EvidenceRecord) : Decidable (withinEvidence limits r) :=
  inferInstanceAs (Decidable (_ ∧ _))

theorem reads_evidence (r : EvidenceRecord) :
    Reads (readEvidence limits) (writeEvidence r) (withinEvidence limits r) r := by
  have hread : Reads (readEvidence limits) (writeEvidence r) _ r :=
    .next (reads_getId _) <| .next (reads_getId _) <| .next (reads_evidenceKind _) <|
    .next (reads_verdict _) <| .next (reads_subject _) <| .next (reads_provenance _) <|
    .next (reads_getId _) <| .next (reads_getId _) <| .next (reads_getId _) <|
    .next (reads_getId _) <| .next (reads_getF64 _) <| .field (reads_string _ _) fun _ =>
    .next (reads_getU64 _) <| .field (reads_string _ _) fun _ => .checked _ _
  exact hread.congr (by simp [withinEvidence])

def withinAttempt (limits : DecodeLimits) (a : Attempt) : Prop :=
  Fits limits.maxString a.detail.length ∧ a.id.valid

instance (limits : DecodeLimits) (a : Attempt) : Decidable (withinAttempt limits a) :=
  inferInstanceAs (Decidable (_ ∧ _))

theorem reads_attempt (a : Attempt) :
    Reads (readAttempt limits) (writeAttempt a) (withinAttempt limits a) a := by
  have hread : Reads (readAttempt limits) (writeAttempt a) _ a :=
    .next (reads_getId _) <| .next (reads_attemptKind _) <| .next (reads_getId _) <|
    .next (reads_getId _) <| .next (reads_getId _) <| .next (reads_getId _) <|
    .next (reads_getId _) <| .next (reads_getId _) <| .next (reads_getId _) <|
    .next (reads_getId _) <| .next (reads_getId _) <| .next (reads_getId _) <|
    .next (reads_getId _) <| .next (reads_getId _) <| .next (reads_getId _) <|
    .next (reads_getId _) <| .next (reads_attemptState _) <| .next (reads_getBool _) <|
    .next (reads_getId _) <| .next (reads_getId _) <| .field (reads_string _ _) fun _ =>
    .checked _ _
  exact hread.congr (by simp [withinAttempt])

end LifecycleFabric.StateFile
