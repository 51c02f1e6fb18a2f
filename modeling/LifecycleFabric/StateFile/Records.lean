import LifecycleFabric.Engine.Snapshot
import LifecycleFabric.Wire.Values

/-!
# Records of the state file

How each durable record is written, and how it is read back within the decode limits. A
record reader checks what concerns the record alone.
-/

namespace LifecycleFabric

/-- What the state file may hold. -/
structure DecodeLimits where
  maxModels : ℕ := 4096
  maxVersions : ℕ := 2 ^ 20
  maxScopes : ℕ := 4096
  maxRollouts : ℕ := 1024
  maxAuthorityBindings : ℕ := 16384
  maxWorkers : ℕ := 256
  maxEvidence : ℕ := 65536
  maxAttempts : ℕ := 8192
  maxCompatibilityFacts : ℕ := 8192
  maxStagesPerRollout : ℕ := 32
  maxCohortsPerRollout : ℕ := 64
  maxHistoryPerRollout : ℕ := 4096
  maxString : ℕ := 256
  maxDigest : ℕ := 128
  maxPayloadBytes : ℕ := 16 * 1024 * 1024
  deriving DecidableEq

/-- The limits that go with the bounds of an engine. -/
def DecodeLimits.fromBounds (bounds : RegistryBounds) : DecodeLimits where
  maxModels := bounds.maxModels
  maxVersions := ByteCodec.sizeWord (bounds.maxModels * bounds.maxVersionsPerModel)
  maxScopes := bounds.maxScopes
  maxRollouts := bounds.maxRollouts
  maxAuthorityBindings := bounds.maxAuthorityBindings
  maxWorkers := bounds.maxWorkers
  maxEvidence := bounds.maxEvidence
  maxAttempts := bounds.maxAttempts
  maxString := ByteCodec.sizeWord (bounds.maxNameLength * 2)
  maxDigest := bounds.maxDigestLength

namespace StateFile

open ByteCodec Wire

/-- A signed byte. -/
def writeI8 (value : Int8) : Bytes := word 1 value.toUInt8.toNat

def readI8 : Reader Int8 := (fun raw => (UInt8.ofNat raw).toInt8) <$> number 1

/-- A list of enumeration values behind its count. -/
def writeKinds {α : Type} (code : α → ℕ) (kinds : List α) : Bytes :=
  putCounted (fun kind => putEnum (code kind)) kinds

def readKinds {α : Type} (limit : ℕ) (all : List α) : Reader (List α) :=
  counted limit (getEnum all)

/-- The most evidence kinds of a list. -/
def maxEvidenceKinds : ℕ := EvidenceKind.count * 4

/-! ## Policies -/

def writePolicy (policy : LifecyclePolicy) : Bytes :=
  [putId policy.generation, putU32 policy.maxActiveGenerationsPerScope,
    putBool policy.allowSplitTraffic, putBool policy.requireRollbackTarget,
    putBool policy.allowAutomaticRollback, putBool policy.requireManualApprovalForPromotion,
    putU32 policy.maxBlastRadiusPercent, putBool policy.requireEvidenceForStageAdvance,
    putU64 policy.maxEvidenceAgeTicks, putBool policy.requireResidencyBeforeStageEntry,
    putBool policy.requireDrainAfterStageCommit, putBool policy.allowImmediateCutover,
    putBool policy.allowRetirementWithoutDrain, putU32 policy.rollbackRetentionGenerations,
    putBool policy.supersedeInflightRolloutOnNewPromotion,
    putBool policy.allowVersionLabelReuseAfterRetirement,
    writeKinds ScopeKind.code policy.promotableScopeKinds,
    writeKinds EvidenceKind.code policy.globallyRequiredEvidence].flatten

def readPolicy (limits : DecodeLimits) : Reader LifecyclePolicy := do
  let generation ← getId
  let maxActiveGenerationsPerScope ← getU32
  let allowSplitTraffic ← getBool
  let requireRollbackTarget ← getBool
  let allowAutomaticRollback ← getBool
  let requireManualApprovalForPromotion ← getBool
  let maxBlastRadiusPercent ← getU32
  let requireEvidenceForStageAdvance ← getBool
  let maxEvidenceAgeTicks ← getU64
  let requireResidencyBeforeStageEntry ← getBool
  let requireDrainAfterStageCommit ← getBool
  let allowImmediateCutover ← getBool
  let allowRetirementWithoutDrain ← getBool
  let rollbackRetentionGenerations ← getU32
  let supersedeInflightRolloutOnNewPromotion ← getBool
  let allowVersionLabelReuseAfterRetirement ← getBool
  let promotableScopeKinds ← readKinds ScopeKind.count ScopeKind.all
  -- the list is held to the limit of a text as well
  let globallyRequiredEvidence ← readKinds (min limits.maxString maxEvidenceKinds)
    EvidenceKind.all
  pure { generation, maxActiveGenerationsPerScope, allowSplitTraffic, requireRollbackTarget
         allowAutomaticRollback, requireManualApprovalForPromotion, maxBlastRadiusPercent
         requireEvidenceForStageAdvance, maxEvidenceAgeTicks, requireResidencyBeforeStageEntry
         requireDrainAfterStageCommit, allowImmediateCutover, allowRetirementWithoutDrain
         rollbackRetentionGenerations, supersedeInflightRolloutOnNewPromotion
         allowVersionLabelReuseAfterRetirement, promotableScopeKinds, globallyRequiredEvidence }

def writeOverride (o : ScopePolicyOverride) : Bytes :=
  [putId o.scope, putBool o.permitsChildOverride, putU32 o.maxActiveGenerationsPerScope,
    writeI8 o.requireRollbackTarget, writeI8 o.requireEvidenceForStageAdvance,
    writeI8 o.requireResidencyBeforeStageEntry,
    writeKinds EvidenceKind.code o.additionalRequiredEvidence,
    writeKinds ScopeKind.code o.additionalPromotableScopeKinds].flatten

def readOverride : Reader ScopePolicyOverride := do
  let scope ← getId
  let permitsChildOverride ← getBool
  let maxActiveGenerationsPerScope ← getU32
  let requireRollbackTarget ← readI8
  let requireEvidenceForStageAdvance ← readI8
  let requireResidencyBeforeStageEntry ← readI8
  let additionalRequiredEvidence ← readKinds maxEvidenceKinds EvidenceKind.all
  let additionalPromotableScopeKinds ← readKinds ScopeKind.count ScopeKind.all
  pure { scope, permitsChildOverride, maxActiveGenerationsPerScope, requireRollbackTarget
         requireEvidenceForStageAdvance, requireResidencyBeforeStageEntry
         additionalRequiredEvidence, additionalPromotableScopeKinds }

/-! ## Scopes, models and versions -/

def writeScope (scope : ScopeRecord) : Bytes :=
  [putId scope.id, putId scope.parent, putEnum scope.kind.code, putStr scope.name,
    putStr scope.path, putId scope.generation, putU32 scope.depth].flatten

def readScope (limits : DecodeLimits) : Reader ScopeRecord := do
  let id ← getId
  let parent ← getId
  let kind ← getEnum ScopeKind.all
  let name ← string limits.maxString
  let path ← string (sizeWord (limits.maxString * 8))
  let generation ← getId
  let depth ← getU32
  pure { id, parent, kind, name, path, generation, depth }

def writeModel (record : ModelRecord) : Bytes :=
  [putId record.id, putStr record.name, putStr record.family, putEnum record.provenance.code,
    putId record.createdSequence].flatten

def readModel (limits : DecodeLimits) : Reader ModelRecord := do
  let id ← getId
  let name ← string limits.maxString
  let family ← string limits.maxString
  let provenance ← getEnum Provenance.all
  let createdSequence ← getId
  check id.valid
  pure { id, name, family, provenance, createdSequence }

def writeVersion (record : ModelVersionRecord) : Bytes :=
  [putId record.model, putId record.version, putStr record.label, putId record.generation,
    putId record.predecessor, putId record.predecessorGeneration, putBinding record.artifact,
    putRequirements record.requirements, putEnum record.state.code,
    putId record.lifecycleGeneration, putId record.lastPromotion,
    putId record.promotionGeneration, putId record.rollout, putId record.rolloutGeneration,
    putId record.currentStage, putId record.currentStageGeneration,
    putId record.compatibilityGeneration, putId record.lastRollback,
    putId record.rollbackGeneration, putEnum record.provenance.code,
    putId record.createdSequence, putId record.updatedSequence].flatten

def readVersion (limits : DecodeLimits) : Reader ModelVersionRecord := do
  let model ← getId
  let version ← getId
  let label ← string limits.maxString
  let generation ← getId
  let predecessor ← getId
  let predecessorGeneration ← getId
  let artifact ← getBindingUpTo limits.maxDigest
  let requirements ← getRequirementsUpTo limits.maxString
  let state ← getEnum LifecycleState.all
  let lifecycleGeneration ← getId
  let lastPromotion ← getId
  let promotionGeneration ← getId
  let rollout ← getId
  let rolloutGeneration ← getId
  let currentStage ← getId
  let currentStageGeneration ← getId
  let compatibilityGeneration ← getId
  let lastRollback ← getId
  let rollbackGeneration ← getId
  let provenance ← getEnum Provenance.all
  let createdSequence ← getId
  let updatedSequence ← getId
  check (model.valid ∧ version.valid ∧ generation.valid ∧ lifecycleGeneration.valid)
  pure { model, version, label, generation, predecessor, predecessorGeneration, artifact
         requirements, state, lifecycleGeneration, lastPromotion, promotionGeneration, rollout
         rolloutGeneration, currentStage, currentStageGeneration, compatibilityGeneration
         lastRollback, rollbackGeneration, provenance, createdSequence, updatedSequence }

def writeFact (fact : CompatibilityFact) : Bytes :=
  [putId fact.model, putId fact.version, putId fact.modelGeneration, putId fact.artifactSet,
    putId fact.artifactGeneration, putId fact.generation, putStr fact.environmentKey,
    putEnum fact.outcome.code, putStr fact.detail, putEnum fact.provenance.code,
    putId fact.sequence].flatten

def readFact (limits : DecodeLimits) : Reader CompatibilityFact := do
  let model ← getId
  let version ← getId
  let modelGeneration ← getId
  let artifactSet ← getId
  let artifactGeneration ← getId
  let generation ← getId
  let environmentKey ← string limits.maxString
  let outcome ← getEnum CompatibilityOutcome.all
  let detail ← string (sizeWord (limits.maxString * 2))
  let provenance ← getEnum Provenance.all
  let sequence ← getId
  check (version.valid ∧ generation.valid ∧ environmentKey ≠ [])
  pure { model, version, modelGeneration, artifactSet, artifactGeneration, generation
         environmentKey, outcome, detail, provenance, sequence }

/-! ## Rollout plans -/

/-- A comparison is written as its byte, which its reader does not check. -/
def readCriterion : Reader Criterion := do
  let kind ← getEnum EvidenceKind.all
  let comparison ← (fun raw => CriterionComparison.ofCode (UInt8.ofNat raw)) <$> number 1
  let threshold ← getF64
  pure { kind, comparison, threshold }

def writeCohort (c : CohortDefinition) : Bytes :=
  [putId c.id, putStr c.name, putCounted putId c.scopes, putU32 c.trafficPercent,
    putU32 c.maxBlastRadiusPercent].flatten

def readCohort (limits : DecodeLimits) : Reader CohortDefinition := do
  let id ← getId
  let name ← string limits.maxString
  let scopes ← counted limits.maxScopes getId
  let trafficPercent ← getPercent
  let maxBlastRadiusPercent ← getPercent
  pure { id, name, scopes, trafficPercent, maxBlastRadiusPercent }

/-- The most criteria of a list, and the most reasons of a stage record. -/
def maxListed : ℕ := 64

def writeStage (s : StageDefinition) : Bytes :=
  [putId s.id, putStr s.name, putCounted putId s.cohorts,
    putCounted putEvidenceRequirement s.requiredEvidence, putCounted putCriterion s.acceptance,
    putCounted putCriterion s.failure, putBool s.requireResidencyBeforeEntry,
    putBool s.requireDrainAfterCommit].flatten

def readStage (limits : DecodeLimits) : Reader StageDefinition := do
  let id ← getId
  let name ← string limits.maxString
  let cohorts ← counted limits.maxCohortsPerRollout getId
  let requiredEvidence ← counted maxEvidenceKinds getEvidenceRequirement
  let acceptance ← counted maxListed readCriterion
  let failure ← counted maxListed readCriterion
  let requireResidencyBeforeEntry ← getBool
  let requireDrainAfterCommit ← getBool
  pure { id, name, cohorts, requiredEvidence, acceptance, failure
         requireResidencyBeforeEntry, requireDrainAfterCommit }

def writeStageRecord (r : StageRecord) : Bytes :=
  [putId r.stage, putId r.generation, putId r.enteredSequence, putId r.decidedSequence,
    putEnum r.decision.code, putCounted putReason r.reasons].flatten

def readStageRecord (limits : DecodeLimits) : Reader StageRecord := do
  let stage ← getId
  let generation ← getId
  let enteredSequence ← getId
  let decidedSequence ← getId
  let decision ← getEnum StageDecision.all
  let reasons ← counted maxListed (getReasonUpTo limits.maxString)
  pure { stage, generation, enteredSequence, decidedSequence, decision, reasons }

def writePlan (plan : RolloutPlan) : Bytes :=
  [putId plan.id, putId plan.generation, putId plan.model, putId plan.candidate,
    putId plan.candidateGeneration, putId plan.candidateArtifactSet,
    putId plan.candidateArtifactGeneration, putId plan.previous, putId plan.previousGeneration,
    putId plan.compatibilityGeneration, putId plan.policyGeneration,
    putId plan.evidenceGeneration, putId plan.rootScope, putId plan.rootScopeGeneration,
    putEnum plan.strategy.code, putId plan.promotion, putId plan.promotionGeneration,
    putId plan.rollbackTarget, putId plan.rollbackTargetGeneration,
    putU32 plan.maxBlastRadiusPercent, putBool plan.manualProgression,
    putCounted writeCohort plan.cohorts, putCounted writeStage plan.stages,
    word 4 plan.currentStageIndex, putId plan.currentStageGeneration,
    putBool plan.stageEntered, putCounted writeStageRecord plan.history,
    putBool plan.completed, putBool plan.failed, putBool plan.superseded,
    putId plan.lastRollback, putId plan.lastRollbackGeneration, putId plan.createdSequence,
    putId plan.updatedSequence, putEnum plan.provenance.code].flatten

def readPlan (limits : DecodeLimits) : Reader RolloutPlan := do
  let id ← getId
  let generation ← getId
  let model ← getId
  let candidate ← getId
  let candidateGeneration ← getId
  let candidateArtifactSet ← getId
  let candidateArtifactGeneration ← getId
  let previous ← getId
  let previousGeneration ← getId
  let compatibilityGeneration ← getId
  let policyGeneration ← getId
  let evidenceGeneration ← getId
  let rootScope ← getId
  let rootScopeGeneration ← getId
  let strategy ← getEnum RolloutStrategy.all
  let promotion ← getId
  let promotionGeneration ← getId
  let rollbackTarget ← getId
  let rollbackTargetGeneration ← getId
  let maxBlastRadiusPercent ← getU32
  let manualProgression ← getBool
  let cohorts ← counted limits.maxCohortsPerRollout (readCohort limits)
  let stages ← counted limits.maxStagesPerRollout (readStage limits)
  let currentStageIndex ← number 4
  let currentStageGeneration ← getId
  let stageEntered ← getBool
  let history ← counted limits.maxHistoryPerRollout (readStageRecord limits)
  let completed ← getBool
  let failed ← getBool
  let superseded ← getBool
  let lastRollback ← getId
  let lastRollbackGeneration ← getId
  let createdSequence ← getId
  let updatedSequence ← getId
  let provenance ← getEnum Provenance.all
  check (id.valid ∧ generation.valid ∧ candidate.valid)
  pure { id, generation, model, candidate, candidateGeneration, candidateArtifactSet
         candidateArtifactGeneration, previous, previousGeneration, compatibilityGeneration
         policyGeneration, evidenceGeneration, rootScope, rootScopeGeneration, strategy
         promotion, promotionGeneration, rollbackTarget, rollbackTargetGeneration
         maxBlastRadiusPercent, manualProgression, cohorts, stages, currentStageIndex
         currentStageGeneration, stageEntered, history, completed, failed, superseded
         lastRollback, lastRollbackGeneration, createdSequence, updatedSequence, provenance }

/-! ## Authority, workers, evidence and attempts -/

def writeGrant (b : AuthorityBinding) : Bytes :=
  [putId b.scope, putId b.scopeGeneration, putId b.model, putId b.version,
    putId b.modelGeneration, putId b.artifactSet, putId b.artifactGeneration,
    putEnum b.lifecycleState.code, putEnum b.kind.code, putId b.rollout,
    putId b.rolloutGeneration, putId b.stage, putId b.stageGeneration, putId b.promotion,
    putId b.promotionGeneration, putId b.rollback, putId b.rollbackGeneration, putId b.epoch,
    putId b.evidenceGeneration, putId b.grantedSequence].flatten

/-- A binding is read back as a live one. -/
def readGrant : Reader AuthorityBinding := do
  let scope ← getId
  let scopeGeneration ← getId
  let model ← getId
  let version ← getId
  let modelGeneration ← getId
  let artifactSet ← getId
  let artifactGeneration ← getId
  let lifecycleState ← getEnum LifecycleState.all
  let kind ← getEnum AuthorityKind.all
  let rollout ← getId
  let rolloutGeneration ← getId
  let stage ← getId
  let stageGeneration ← getId
  let promotion ← getId
  let promotionGeneration ← getId
  let rollback ← getId
  let rollbackGeneration ← getId
  let epoch ← getId
  let evidenceGeneration ← getId
  let grantedSequence ← getId
  check (scope.valid ∧ model.valid ∧ version.valid)
  pure { scope, scopeGeneration, model, version, modelGeneration, artifactSet
         artifactGeneration, lifecycleState, kind, rollout, rolloutGeneration, stage
         stageGeneration, promotion, promotionGeneration, rollback, rollbackGeneration, epoch
         evidenceGeneration, grantedSequence, superseded := false }

def writeLease (lease : WorkerLease) : Bytes :=
  [putId lease.id, putId lease.boot, putId lease.epoch, putCounted putId lease.scopes,
    putBool lease.fenced, putId lease.registeredSequence, putId lease.fencedSequence,
    putStr lease.detail].flatten

def readLease (limits : DecodeLimits) : Reader WorkerLease := do
  let id ← getId
  let boot ← getId
  let epoch ← getId
  let scopes ← counted limits.maxScopes getId
  let fenced ← getBool
  let registeredSequence ← getId
  let fencedSequence ← getId
  let detail ← string limits.maxString
  check (id.valid ∧ boot.valid)
  pure { id, boot, epoch, scopes, fenced, registeredSequence, fencedSequence, detail }

def writeSubject (s : EvidenceSubject) : Bytes :=
  [putId s.model, putId s.version, putId s.modelGeneration, putId s.artifactSet,
    putId s.artifactGeneration, putId s.scope, putId s.rollout, putId s.rolloutGeneration,
    putId s.stage, putId s.stageGeneration, putId s.compatibilityGeneration].flatten

def readSubject : Reader EvidenceSubject := do
  let model ← getId
  let version ← getId
  let modelGeneration ← getId
  let artifactSet ← getId
  let artifactGeneration ← getId
  let scope ← getId
  let rollout ← getId
  let rolloutGeneration ← getId
  let stage ← getId
  let stageGeneration ← getId
  let compatibilityGeneration ← getId
  pure { model, version, modelGeneration, artifactSet, artifactGeneration, scope, rollout
         rolloutGeneration, stage, stageGeneration, compatibilityGeneration }

def writeEvidence (r : EvidenceRecord) : Bytes :=
  [putId r.id, putId r.generation, putEnum r.kind.code, putEnum r.verdict.code,
    writeSubject r.subject, putEnum r.provenance.code, putId r.worker, putId r.boot,
    putId r.epoch, putId r.policyGeneration, putF64 r.value, putStr r.unit, putU64 r.tick,
    putStr r.detail].flatten

def readEvidence (limits : DecodeLimits) : Reader EvidenceRecord := do
  let id ← getId
  let generation ← getId
  let kind ← getEnum EvidenceKind.all
  let verdict ← getEnum EvidenceVerdict.all
  let subject ← readSubject
  let provenance ← getEnum Provenance.all
  let worker ← getId
  let boot ← getId
  let epoch ← getId
  let policyGeneration ← getId
  let value ← getF64
  let unit ← string (limits.maxString / 4)
  let tick ← getU64
  let detail ← string (sizeWord (limits.maxString * 2))
  check (subject.version.valid ∧ generation.valid)
  pure { id, generation, kind, verdict, subject, provenance, worker, boot, epoch
         policyGeneration, value, unit, tick, detail }

def writeAttempt (a : Attempt) : Bytes :=
  [putId a.id, putEnum a.kind.code, putId a.worker, putId a.boot, putId a.epoch, putId a.model,
    putId a.version, putId a.modelGeneration, putId a.artifactGeneration, putId a.scope,
    putId a.scopeGeneration, putId a.rollout, putId a.rolloutGeneration, putId a.stage,
    putId a.stageGeneration, putId a.residencyGeneration, putEnum a.state.code,
    putBool a.idempotent, putId a.issuedSequence, putId a.settledSequence,
    putStr a.detail].flatten

def readAttempt (limits : DecodeLimits) : Reader Attempt := do
  let id ← getId
  let kind ← getEnum AttemptKind.all
  let worker ← getId
  let boot ← getId
  let epoch ← getId
  let model ← getId
  let version ← getId
  let modelGeneration ← getId
  let artifactGeneration ← getId
  let scope ← getId
  let scopeGeneration ← getId
  let rollout ← getId
  let rolloutGeneration ← getId
  let stage ← getId
  let stageGeneration ← getId
  let residencyGeneration ← getId
  let state ← getEnum AttemptState.all
  let idempotent ← getBool
  let issuedSequence ← getId
  let settledSequence ← getId
  let detail ← string limits.maxString
  check id.valid
  pure { id, kind, worker, boot, epoch, model, version, modelGeneration, artifactGeneration
         scope, scopeGeneration, rollout, rolloutGeneration, stage, stageGeneration
         residencyGeneration, state, idempotent, issuedSequence, settledSequence, detail }

end StateFile

end LifecycleFabric
