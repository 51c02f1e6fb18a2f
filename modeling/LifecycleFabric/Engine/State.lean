import LifecycleFabric.Authority
import LifecycleFabric.ModelRecord
import LifecycleFabric.Policy
import LifecycleFabric.Rollout

/-!
# Engine state

All mutable lifecycle state of the engine, its configuration, and the checks every
operation shares.
-/

namespace LifecycleFabric

theorem defaultScopes_lt : 4096 < 2 ^ 64 := by decide

theorem defaultStages_lt : 32 < 2 ^ 64 := by decide

theorem defaultCohorts_lt : 64 < 2 ^ 64 := by decide

/-- Every bounded resource of the runtime. Bounds are machine words; the three that
positions are counted against carry it. -/
structure RegistryBounds where
  maxModels : ℕ := 4096
  maxVersionsPerModel : ℕ := 256
  maxScopes : ℕ := 4096
  maxRollouts : ℕ := 1024
  maxStagesPerRollout : ℕ := 32
  maxCohortsPerRollout : ℕ := 64
  maxWorkers : ℕ := 256
  maxEvidence : ℕ := 65536
  maxAttempts : ℕ := 8192
  maxHistoryPerRollout : ℕ := 4096
  maxAuthorityBindings : ℕ := 16384
  maxPayloadBytes : ℕ := 262144
  maxNameLength : ℕ := 128
  maxDigestLength : ℕ := 128
  maxConnections : ℕ := 64
  maxRequeuedFrames : ℕ := 64
  maxScopes_lt : maxScopes < 2 ^ 64 := by first | exact defaultScopes_lt | decide
  maxStagesPerRollout_lt : maxStagesPerRollout < 2 ^ 64 := by
    first | exact defaultStages_lt | decide
  maxCohortsPerRollout_lt : maxCohortsPerRollout < 2 ^ 64 := by
    first | exact defaultCohorts_lt | decide
  deriving DecidableEq

/-- External side effect a worker may be asked for. -/
inductive AttemptKind
  | warm | activate | drain | rollback | rehydrate | startCanaryReplicas
  | promoteReplicaGroup | evictRetired
  deriving DecidableEq

namespace AttemptKind

/-- Every kind, in order of its number. -/
def all : List AttemptKind :=
  [.warm, .activate, .drain, .rollback, .rehydrate, .startCanaryReplicas,
    .promoteReplicaGroup, .evictRetired]

/-- The number of a kind. -/
def code (kind : AttemptKind) : ℕ := kind.ctorIdx

end AttemptKind

/-- Lifecycle of one external attempt. -/
inductive AttemptState
  | dispatched | completed | failed | outcomeUnknown | reconcileRequired | abandoned
  deriving DecidableEq

namespace AttemptState

/-- Every state, in order of its number. -/
def all : List AttemptState :=
  [.dispatched, .completed, .failed, .outcomeUnknown, .reconcileRequired, .abandoned]

/-- The number of a state. -/
def code (state : AttemptState) : ℕ := state.ctorIdx

end AttemptState

/-- One external side-effect attempt. -/
structure Attempt where
  id : AttemptId := {}
  kind : AttemptKind := .warm
  worker : WorkerId := {}
  boot : WorkerBootId := {}
  epoch : CoordinatorEpoch := {}
  model : ModelId := {}
  version : ModelVersionId := {}
  modelGeneration : ModelGeneration := {}
  artifactGeneration : ArtifactGeneration := {}
  scope : ScopeId := {}
  scopeGeneration : ScopeGeneration := {}
  rollout : RolloutId := {}
  rolloutGeneration : RolloutGeneration := {}
  stage : RolloutStageId := {}
  stageGeneration : RolloutStageGeneration := {}
  residencyGeneration : ResidencyGeneration := {}
  state : AttemptState := .dispatched
  /-- Whether repeating the effect after an unknown outcome is safe. -/
  idempotent : Bool := false
  issuedSequence : Sequence := {}
  settledSequence : Sequence := {}
  detail : Text := []
  deriving DecidableEq

/-- Durable lease of one worker boot. -/
structure WorkerLease where
  id : WorkerId := {}
  boot : WorkerBootId := {}
  epoch : CoordinatorEpoch := {}
  scopes : List ScopeId := []
  fenced : Bool := false
  registeredSequence : Sequence := {}
  fencedSequence : Sequence := {}
  detail : Text := []
  deriving DecidableEq

/-- What an engine is constructed with. -/
structure EngineConfig where
  bounds : RegistryBounds := {}
  policy : LifecyclePolicy := {}
  defaultProvenance : Provenance := .synthetic
  deriving DecidableEq

/-- Versions are stored by model and version. -/
abbrev VersionKey := UInt64 ×ₗ UInt64

/-- The key of a version. -/
def versionKey (model : ModelId) (version : ModelVersionId) : VersionKey :=
  toLex (model.raw, version.raw)

theorem versionKey_inj {m m' : ModelId} {v v' : ModelVersionId} :
    versionKey m v = versionKey m' v' ↔ m = m' ∧ v = v' := by
  simp [versionKey, Ident.ext_iff]

/-- All mutable lifecycle state. -/
structure EngineState where
  scopes : ScopeRegistry := {}
  models : OrdMap UInt64 ModelRecord := OrdMap.empty
  modelNames : OrdMap Text ModelId := OrdMap.empty
  versions : OrdMap VersionKey ModelVersionRecord := OrdMap.empty
  versionLabels : OrdMap (UInt64 ×ₗ Text) ModelVersionId := OrdMap.empty
  /-- Version identities are globally unique; this resolves one to its key. -/
  versionIndex : OrdMap UInt64 VersionKey := OrdMap.empty
  compatibility : CompatibilityRegistry := {}
  evidence : EvidenceStore := {}
  policy : PolicySet := {}
  rollouts : OrdMap UInt64 RolloutPlan := OrdMap.empty
  authority : AuthorityTable := {}
  attempts : OrdMap UInt64 Attempt := OrdMap.empty
  workers : OrdMap UInt64 WorkerLease := OrdMap.empty
  /-- Volatile connection state. -/
  workerLiveness : OrdMap UInt64 Bool := OrdMap.empty
  /-- Volatile affinity from a rollout to the worker boot driving it. -/
  rolloutDriverBoot : OrdMap UInt64 UInt64 := OrdMap.empty
  committedPromotions : OrdMap UInt64 Unit := OrdMap.empty
  committedRollbacks : OrdMap (UInt64 ×ₗ UInt64) Unit := OrdMap.empty
  nextModelId : UInt64 := 1
  nextVersionId : UInt64 := 1
  nextRolloutId : UInt64 := 1
  nextStageId : UInt64 := 1
  nextCohortId : UInt64 := 1
  nextPromotionId : UInt64 := 1
  nextRollbackId : UInt64 := 1
  nextAttemptId : UInt64 := 1
  nextWorkerId : UInt64 := 1
  nextEvidenceId : UInt64 := 1
  nextEvidenceGeneration : UInt64 := 1
  nextCompatibilityGeneration : UInt64 := 1
  sequence : Sequence := ⟨firstGeneration⟩
  epoch : CoordinatorEpoch := ⟨firstGeneration⟩
  snapshotGeneration : SnapshotGeneration := {}
  requeuedFrames : UInt64 := 0
  deriving DecidableEq

namespace EngineState

/-- The state of a constructed engine. -/
def init (cfg : EngineConfig) : EngineState where
  scopes := ({ maxScopes := cfg.bounds.maxScopes } : ScopeRegistry).ensureRoot
  compatibility := { maxFacts := 8192 }
  evidence := { maxRecords := cfg.bounds.maxEvidence }
  authority := { maxBindings := cfg.bounds.maxAuthorityBindings }
  policy := { base := cfg.policy }

/-! ## Lookups -/

/-- The record of a version of a model. -/
def versionOf (s : EngineState) (model : ModelId) (version : ModelVersionId) :
    Option ModelVersionRecord :=
  s.versions.get? (versionKey model version)

/-- The record of a version, by its globally unique identity. -/
def versionOfId (s : EngineState) (version : ModelVersionId) : Option ModelVersionRecord :=
  match s.versionIndex.get? version.raw with
  | none => none
  | some key => s.versions.get? key

/-- A rollout plan. -/
def rolloutOf (s : EngineState) (rollout : RolloutId) : Option RolloutPlan :=
  s.rollouts.get? rollout.raw

/-- The lease of a worker. -/
def workerOf (s : EngineState) (worker : WorkerId) : Option WorkerLease :=
  s.workers.get? worker.raw

/-! ## Updates -/

/-- Advance the event sequence. -/
@[simps authority versions scopes rollouts policy epoch workers attempts evidence]
def bumpSequence (s : EngineState) : EngineState :=
  { s with sequence := s.sequence.nextGeneration }

/-- Rewrite the record of a version. -/
@[simps authority scopes rollouts policy epoch workers attempts evidence]
def modifyVersion (s : EngineState) (model : ModelId) (version : ModelVersionId)
    (f : ModelVersionRecord → ModelVersionRecord) : EngineState :=
  { s with versions := s.versions.modify (versionKey model version) f }

/-- Rewrite a rollout plan. -/
@[simps authority versions scopes]
def modifyRollout (s : EngineState) (rollout : RolloutId) (f : RolloutPlan → RolloutPlan) :
    EngineState :=
  { s with rollouts := s.rollouts.modify rollout.raw f }

/-- Rewrite the authority table. -/
@[simps authority versions scopes rollouts]
def mapAuthority (s : EngineState) (f : AuthorityTable → AuthorityTable) : EngineState :=
  { s with authority := f s.authority }

/-- Advance the generation of a scope. -/
@[simps authority versions scopes rollouts]
def touchScope (s : EngineState) (scope : ScopeId) : EngineState :=
  { s with scopes := s.scopes.touch scope }

/-- Bring a version to a lifecycle state by the shortest legal path, if there is one. -/
def advanceVersion (s : EngineState) (model : ModelId) (version : ModelVersionId)
    (target : LifecycleState) : EngineState :=
  s.modifyVersion model version fun record => (record.advanceLifecycleTo target).1

/-- The decision of bringing a version to a lifecycle state. -/
def advanceDecision (s : EngineState) (model : ModelId) (version : ModelVersionId)
    (target : LifecycleState) : Decision :=
  match s.versionOf model version with
  | none => .because .rejected .unknownVersion []
  | some record => (record.advanceLifecycleTo target).2

/-! ## Shared checks -/

/-- An absent epoch is not checked. -/
def checkEpoch (s : EngineState) (expected : CoordinatorEpoch) : Decision :=
  if expected.valid ∧ expected ≠ s.epoch then
    .because .conflict .coordinatorEpochStale
      (text "frame carries a superseded coordinator epoch")
  else .accepted

/-- An absent policy generation is not checked. -/
def checkPolicyGeneration (s : EngineState) (expected : PolicyGeneration) : Decision :=
  if expected.valid ∧ expected ≠ s.policy.base.generation then
    .because .stalePlan .policyGenerationMismatch
      (text "request cites a superseded lifecycle policy generation")
  else .accepted

/-- A named worker must hold an unfenced lease for the boot it names. -/
def checkWorker (s : EngineState) (worker : WorkerId) (boot : WorkerBootId)
    (expectedEpoch : CoordinatorEpoch) : Decision :=
  if !worker.valid then .accepted
  else
    match s.workerOf worker with
    | none =>
      .because .rejected .workerUnknown (text "worker is not registered with this coordinator")
    | some lease =>
      if lease.fenced then .because .rejected .workerBootStale (text "worker lease is fenced")
      else if !boot.valid ∨ lease.boot ≠ boot then
        .because .rejected .workerBootStale
          (text "worker boot identity is not the current boot for this worker")
      else if expectedEpoch.valid ∧ lease.epoch ≠ expectedEpoch then
        .because .conflict .coordinatorEpochMismatch
          (text "worker lease belongs to a different coordinator epoch")
      else .accepted

/-- True when a boot is the current, unfenced boot of its worker. -/
def workerBootCurrent (s : EngineState) (worker : WorkerId) (boot : WorkerBootId) : Bool :=
  match s.workerOf worker with
  | none => false
  | some lease => !lease.fenced && decide (lease.boot = boot)

end EngineState

/-! ## Bounded texts -/

/-- Longest detail retained on a reason. -/
def maxReasonDetail : ℕ := 160

/-- Longest free text retained on an attempt or record. -/
def maxRecordDetail : ℕ := 256

/-- Cut a detail to a bound. -/
def clampDetail (detail : Text) (maxLength : ℕ) : Text := detail.take maxLength

/-- A bounded token of characters that survive serialization unchanged. -/
def validToken (token : Text) (maxLength : ℕ) : Bool :=
  !token.isEmpty && decide (token.length ≤ maxLength) &&
    token.all fun c => isAlphanumeric c || c == 46 || c == 95 || c == 45 || c == 58 ||
      c == 47 || c == 43 || c == 64

end LifecycleFabric
