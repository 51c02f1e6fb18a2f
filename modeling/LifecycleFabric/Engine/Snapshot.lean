import LifecycleFabric.Engine.Query
import LifecycleFabric.Lib.Validation

/-!
# Export, recovery and restart

The durable view of the engine, its validation and application during recovery, and
the release of volatile state after a restart.
-/

namespace LifecycleFabric

open Validation

/-- Format of the durable state this runtime reads and writes. -/
def stateFormatVersion : UInt16 := 1

/-- Evidence kinds whose value is a durable fact rather than a live reading. -/
def EvidenceKind.isDurable : EvidenceKind → Bool
  | .artifactIntegrity | .runtimeCompatibility | .backendCompatibility | .hardwareCapability
  | .tokenizerMatch | .adapterCompatibility | .testResult | .policyApproval
  | .manualApproval | .signature => true
  | _ => false

/-- An attempt that needs no further settlement. -/
def AttemptState.isSettled : AttemptState → Bool
  | .completed | .failed | .abandoned => true
  | _ => false

/-- Complete durable view of the lifecycle runtime. -/
structure DurableState where
  formatVersion : UInt16 := stateFormatVersion
  generation : SnapshotGeneration := {}
  epoch : CoordinatorEpoch := {}
  sequence : Sequence := ⟨firstGeneration⟩
  models : OrdMap UInt64 ModelRecord := OrdMap.empty
  versions : OrdMap VersionKey ModelVersionRecord := OrdMap.empty
  scopes : List ScopeRecord := []
  rootScope : ScopeId := {}
  policyOverrides : OrdMap UInt64 ScopePolicyOverride := OrdMap.empty
  basePolicy : LifecyclePolicy := {}
  compatibility : OrdMap CompatibilityKey CompatibilityFact := OrdMap.empty
  rollouts : OrdMap UInt64 RolloutPlan := OrdMap.empty
  authority : OrdMap UInt64 (List AuthorityBinding) := OrdMap.empty
  /-- Leases survive only as fenced history. -/
  workerLeases : OrdMap UInt64 WorkerLease := OrdMap.empty
  evidence : List EvidenceRecord := []
  unsettledAttempts : OrdMap UInt64 Attempt := OrdMap.empty
  committedPromotions : OrdMap UInt64 Unit := OrdMap.empty
  committedRollbacks : OrdMap (UInt64 ×ₗ UInt64) Unit := OrdMap.empty
  nextModelId : UInt64 := 1
  nextVersionId : UInt64 := 1
  nextRolloutId : UInt64 := 1
  nextStageId : UInt64 := 1
  nextCohortId : UInt64 := 1
  nextPromotionId : UInt64 := 1
  nextRollbackId : UInt64 := 1
  nextAttemptId : UInt64 := 1
  nextWorkerId : UInt64 := 1
  nextEvidenceId : UInt64 := 1
  nextEvidenceGeneration : UInt64 := 1
  nextCompatibilityGeneration : UInt64 := 1
  deriving DecidableEq

/-- The lease as it is persisted: liveness is volatile. -/
def WorkerLease.persisted (lease : WorkerLease) : WorkerLease :=
  { lease with fenced := true, detail := text "fenced by coordinator restart" }

/-- The bindings of each scope that are still live; superseded history is not durable. -/
def AuthorityTable.durable (table : AuthorityTable) : OrdMap UInt64 (List AuthorityBinding) :=
  table.bindings.filterMap fun _ bindings =>
    let live := bindings.filter AuthorityBinding.live
    if live.isEmpty then none else some live

/-- The durable records of a store, in generation order. -/
def EvidenceStore.durable (store : EvidenceStore) : List EvidenceRecord :=
  EvidenceStore.byGeneration (store.records.values.flatten.filter fun record =>
    record.kind.isDurable)

namespace EngineState

/-- Copy the durable state out of the engine. -/
def exportDurableState (s : EngineState) : DurableState where
  generation := s.snapshotGeneration.nextGeneration
  epoch := s.epoch
  sequence := s.sequence
  models := s.models
  versions := s.versions
  scopes := s.scopes.records
  rootScope := s.scopes.root
  policyOverrides := s.policy.overrides
  basePolicy := s.policy.base
  compatibility := s.compatibility.facts
  rollouts := s.rollouts
  authority := s.authority.durable
  workerLeases := s.workers.mapValues fun _ => WorkerLease.persisted
  evidence := s.evidence.durable
  unsettledAttempts := s.attempts.filter fun _ attempt => !attempt.state.isSettled
  committedPromotions := s.committedPromotions
  committedRollbacks := s.committedRollbacks
  nextModelId := s.nextModelId
  nextVersionId := s.nextVersionId
  nextRolloutId := s.nextRolloutId
  nextStageId := s.nextStageId
  nextCohortId := s.nextCohortId
  nextPromotionId := s.nextPromotionId
  nextRollbackId := s.nextRollbackId
  nextAttemptId := s.nextAttemptId
  nextWorkerId := s.nextWorkerId
  nextEvidenceId := s.nextEvidenceId
  nextEvidenceGeneration := s.nextEvidenceGeneration
  nextCompatibilityGeneration := s.nextCompatibilityGeneration

end EngineState

/-! ## Validation of a durable state -/

namespace DurableState

/-- The durable state must be supported and older than the recovering epoch; an engine
that already holds models takes no older sequence. -/
def checkHeader (s : EngineState) (d : DurableState) (newEpoch : CoordinatorEpoch) :
    Except Decision Unit := do
  ensure (d.formatVersion = stateFormatVersion)
    (.because .rejected .snapshotGenerationStale
      (text "durable state format version is not supported"))
  ensure newEpoch.valid
    (.because .rejected .coordinatorEpochStale (text "a recovery epoch is required"))
  ensure (d.epoch < newEpoch)
    (.because .conflict .coordinatorEpochStale
      (text "recovery must advance the coordinator epoch"))
  ensure (¬(d.sequence ≤ s.sequence ∧ s.sequence.valid ∧ ¬s.models.entries.isEmpty))
    (.because .conflict .sequenceRegression
      (text "durable state is older than the live engine state"))

/-- Rebuild the index of model names. -/
def restoreModelNames : List (UInt64 × ModelRecord) → OrdMap Text ModelId →
    Except Decision (OrdMap Text ModelId)
  | [], names => .ok names
  | (key, record) :: rest, names => do
    ensure (record.id.valid ∧ key = record.id.raw)
      (.because .rejected .duplicateModel (text "durable model identity is inconsistent"))
    ensure (!names.contains record.name)
      (.because .rejected .duplicateModel (text "durable model names are not unique"))
    restoreModelNames rest (names.insert record.name record.id)

/-- The number of versions stored under a model. -/
def versionsUnder (d : DurableState) (model : UInt64) : ℕ :=
  (d.versions.filter fun key _ => (ofLex key).1 == model).size

/-- The checks made on one version before its label is indexed. -/
def checkVersion (d : DurableState) (key : VersionKey) (record : ModelVersionRecord) :
    Except Decision Unit := do
  ensure (key = versionKey record.model record.version)
    (.because .rejected .duplicateVersion (text "durable version key is inconsistent"))
  ensure (d.models.contains record.model.raw)
    (.because .rejected .unknownModel (text "durable version references an unknown model"))
  ensure (record.state.code < LifecycleState.all.length)
    (.because .rejected .invalidLifecycleTransition
      (text "durable version carries an impossible lifecycle state"))
  ensure (record.generation.valid ∧ record.lifecycleGeneration.valid)
    (.because .rejected .modelGenerationMismatch
      (text "durable version carries a zero generation"))

/-- Rebuild the index of version labels. -/
def restoreVersionLabels (d : DurableState) : List (VersionKey × ModelVersionRecord) →
    OrdMap (UInt64 ×ₗ Text) ModelVersionId →
      Except Decision (OrdMap (UInt64 ×ₗ Text) ModelVersionId)
  | [], labels => .ok labels
  | (key, record) :: rest, labels => do
    d.checkVersion key record
    ensure (!labels.contains (toLex (record.model.raw, record.label)))
      (.because .rejected .duplicateVersion
        (text "durable version labels are not unique per model"))
    restoreVersionLabels d rest
      (labels.insert (toLex (record.model.raw, record.label)) record.version)

/-- A compatibility fact must be about a stored version. -/
def checkFact (d : DurableState) (fact : CompatibilityFact) : Except Decision Unit :=
  ensure (d.versions.contains (versionKey fact.model fact.version))
    (.because .rejected .unknownVersion
      (text "durable compatibility fact references an unknown version"))

/-- The rollout a binding names must be stored at the generation it names. -/
def checkBindingRollout (d : DurableState) (binding : AuthorityBinding) :
    Except Decision Unit := do
  let rollout ← need (d.rollouts.get? binding.rollout.raw)
    (.because .rejected .unknownVersion
      (text "durable authority references an unknown rollout"))
  ensure (rollout.generation = binding.rolloutGeneration)
    (.because .rejected .rolloutGenerationMismatch
      (text "durable authority rollout generation does not match the plan"))

/-- The checks made on one authority binding. -/
def checkBinding (d : DurableState) (binding : AuthorityBinding) : Except Decision Unit := do
  let version ← need (d.versions.get? (versionKey binding.model binding.version))
    (.because .rejected .unknownVersion
      (text "durable authority references an unknown version"))
  ensure (¬version.retired)
    (.because .rejected .versionRetired
      (text "durable authority would resurrect a retired generation"))
  ensure (binding.modelGeneration ≤ version.generation)
    (.because .rejected .modelGenerationMismatch
      (text "durable authority cites a future model generation"))
  ensure (¬d.scopes.isEmpty ∧ binding.scope.raw.toNat ≤ d.scopes.length)
    (.because .rejected .unknownScope
      (text "durable authority references an unknown scope"))
  if binding.rollout.valid then d.checkBindingRollout binding
  ensure binding.grantedSequence.valid
    (.because .rejected .sequenceRegression
      (text "durable authority carries no granting sequence"))

/-- Only durable evidence may be recovered. -/
def checkEvidenceRecord (record : EvidenceRecord) : Except Decision Unit :=
  ensure record.kind.isDurable
    (.because .rejected .evidenceStale
      (text "durable state carries a volatile evidence kind"))

/-- The checks made on one rollout plan. -/
def checkPlan (d : DurableState) (key : UInt64) (plan : RolloutPlan) : Except Decision Unit := do
  ensure (key = plan.id.raw)
    (.because .rejected .rolloutGenerationMismatch
      (text "durable rollout key is inconsistent"))
  ensure (d.versions.contains (versionKey plan.model plan.candidate))
    (.because .rejected .unknownVersion
      (text "durable rollout references an unknown candidate"))
  ensure (¬plan.stages.isEmpty)
    (.because .rejected .stageOrderViolation (text "durable rollout has no stages"))
  ensure (plan.live → plan.currentStageIndex < plan.stages.length)
    (.because .rejected .stageOrderViolation
      (text "durable rollout stage index is out of range"))

/-- A policy refinement must be attached to a stored scope. -/
def checkOverride (d : DurableState) (key : UInt64) : Except Decision Unit :=
  ensure (key ≠ 0 ∧ key.toNat ≤ d.scopes.length)
    (.because .rejected .unknownScope
      (text "durable policy override references an unknown scope"))

/-- The greatest of some generations, zero if there are none. -/
def latest (generations : List UInt64) : UInt64 := generations.foldl max 0

/-- The structures a validated state is rebuilt into. -/
structure Recovered where
  scopes : ScopeRegistry
  modelNames : OrdMap Text ModelId
  versionLabels : OrdMap (UInt64 ×ₗ Text) ModelVersionId
  compatibility : CompatibilityRegistry
  authority : AuthorityTable
  evidence : EvidenceStore
  policy : PolicySet

/-- Validate everything before anything is applied, in order. -/
def validate (cfg : EngineConfig) (s : EngineState) (d : DurableState)
    (newEpoch : CoordinatorEpoch) : Except Decision Recovered := do
  d.checkHeader s newEpoch
  let (scopes, accepted) :=
    ({ maxScopes := cfg.bounds.maxScopes } : ScopeRegistry).restore d.scopes d.rootScope
  ensure (accepted = true)
    (.because .rejected .unknownScope (text "durable scope tree is structurally invalid"))
  ensure (d.models.size ≤ cfg.bounds.maxModels)
    (.because .boundsExceeded .boundsModelCount (text "durable model count exceeds bounds"))
  let modelNames ← restoreModelNames d.models.entries OrdMap.empty
  ensure (d.models.keys.all fun model =>
      decide (d.versionsUnder model ≤ cfg.bounds.maxVersionsPerModel))
    (.because .boundsExceeded .boundsVersionCount
      (text "durable per-model version count exceeds bounds"))
  let versionLabels ← d.restoreVersionLabels d.versions.entries OrdMap.empty
  let compatibility ← need (s.compatibility.restore d.compatibility)
    (.because .rejected .compatibilityGenerationMismatch
      (text "durable compatibility facts are inconsistent"))
  each d.checkFact d.compatibility.values
  ensure (latest (d.compatibility.values.map fun fact => fact.generation.raw) <
      d.nextCompatibilityGeneration)
    (.because .rejected .compatibilityGenerationMismatch
      (text "durable compatibility allocator would regress"))
  let authority ← need (s.authority.restore d.authority)
    (.because .rejected .policyDeniesCoexistence
      (text "durable authority table violates the single-exclusive invariant"))
  each d.checkBinding d.authority.values.flatten
  let evidence ← need (s.evidence.restore d.evidence 0)
    (.because .rejected .evidenceGenerationMismatch (text "durable evidence is inconsistent"))
  each checkEvidenceRecord d.evidence
  each (fun e => d.checkPlan e.1 e.2) d.rollouts.entries
  ensure (d.rollouts.size ≤ cfg.bounds.maxRollouts)
    (.because .boundsExceeded .boundsRolloutCount (text "durable rollout count exceeds bounds"))
  ensure (latest (d.rollouts.values.map fun plan => plan.generation.raw) < d.nextRolloutId)
    (.because .rejected .rolloutGenerationMismatch
      (text "durable rollout allocator would regress"))
  let policy ← need (PolicySet.restore d.policyOverrides d.basePolicy)
    (.because .rejected .policyGenerationMismatch
      (text "durable policy structure is invalid"))
  each d.checkOverride d.policyOverrides.keys
  each (fun e => ensure (e.1 = e.2.id.raw)
      (.because .rejected .workerUnknown (text "durable worker lease key is inconsistent")))
    d.workerLeases.entries
  ensure (d.workerLeases.size ≤ cfg.bounds.maxWorkers)
    (.because .boundsExceeded .boundsWorkerCount (text "durable worker count exceeds bounds"))
  each (fun e => ensure (e.1 = e.2.id.raw)
      (.because .rejected .attemptUnknown (text "durable attempt key is inconsistent")))
    d.unsettledAttempts.entries
  ensure (d.unsettledAttempts.size ≤ cfg.bounds.maxAttempts)
    (.because .boundsExceeded .boundsAttemptCount
      (text "durable attempt count exceeds bounds"))
  return { scopes, modelNames, versionLabels, compatibility, authority, evidence, policy }

end DurableState

/-! ## Application of a validated state -/

/-- The lease after a recovery. Recovery never resurrects worker authority. -/
def WorkerLease.recovered (sequence : Sequence) (lease : WorkerLease) : WorkerLease :=
  { lease with
    fenced := true
    fencedSequence := if lease.fencedSequence.raw = 0 then sequence else lease.fencedSequence }

/-- The attempt after a recovery. The fate of one in flight is unknown. -/
def Attempt.recovered (attempt : Attempt) : Attempt :=
  if attempt.state = .dispatched then
    { attempt with
      state := .outcomeUnknown
      detail := text "coordinator restarted while the attempt was in flight" }
  else attempt

/-- Index version records by their identity; of two with one identity the first in key
order is found. -/
def indexVersions (versions : OrdMap VersionKey ModelVersionRecord) : OrdMap UInt64 VersionKey :=
  versions.entries.foldl (fun index e => index.insertNew e.2.version.raw e.1) OrdMap.empty

namespace EngineState

/-- Replace the engine state by a validated durable state. -/
def applyDurableState (s : EngineState) (d : DurableState) (newEpoch : CoordinatorEpoch)
    (recovered : DurableState.Recovered) : EngineState :=
  { s with
    models := d.models
    modelNames := recovered.modelNames
    versions := d.versions
    versionLabels := recovered.versionLabels
    versionIndex := indexVersions d.versions
    scopes := recovered.scopes
    policy := recovered.policy
    compatibility := recovered.compatibility
    authority := recovered.authority
    evidence := recovered.evidence
    rollouts := d.rollouts
    workers := d.workerLeases.mapValues fun _ => WorkerLease.recovered d.sequence
    workerLiveness := d.workerLeases.mapValues fun _ _ => false
    attempts := d.unsettledAttempts.mapValues fun _ => Attempt.recovered
    rolloutDriverBoot := OrdMap.empty
    committedPromotions := d.committedPromotions
    committedRollbacks := d.committedRollbacks
    nextModelId := d.nextModelId
    nextVersionId := d.nextVersionId
    nextRolloutId := d.nextRolloutId
    nextStageId := d.nextStageId
    nextCohortId := d.nextCohortId
    nextPromotionId := d.nextPromotionId
    nextRollbackId := d.nextRollbackId
    nextAttemptId := d.nextAttemptId
    nextWorkerId := d.nextWorkerId
    nextEvidenceId := d.nextEvidenceId
    nextEvidenceGeneration := max d.nextEvidenceGeneration (d.sequence.raw + 1)
    nextCompatibilityGeneration := d.nextCompatibilityGeneration
    sequence := max d.sequence s.sequence
    epoch := newEpoch
    snapshotGeneration := d.generation }.bumpSequence

/-- Replace engine state from a durable view. A refused one changes nothing. -/
def importDurableState (cfg : EngineConfig) (s : EngineState) (d : DurableState)
    (newEpoch : CoordinatorEpoch) : EngineState × Decision :=
  match d.validate cfg s newEpoch with
  | .error refusal => (s, refusal)
  | .ok recovered => (s.applyDurableState d newEpoch recovered, .accepted)

/-! ## Restart -/

/-- The lease fenced by a restart; an earlier reason stays. -/
def fencedLease (cause : Text) (lease : WorkerLease) : WorkerLease :=
  { lease with
    fenced := true
    detail := if lease.detail.isEmpty then cause else lease.detail }

/-- Stamp the live plans that have a stage entered, in key order. A persisted stage does
not imply that its workers are still current. -/
def stampEntered : List UInt64 → EngineState → EngineState
  | [], s => s
  | key :: keys, s =>
    match s.rollouts.get? key with
    | none => stampEntered keys s
    | some plan =>
      if ¬plan.live ∨ ¬plan.stageEntered then stampEntered keys s
      else
        let s := s.bumpSequence
        stampEntered keys
          { s with rollouts := s.rollouts.modify key fun plan =>
              { plan with updatedSequence := s.sequence } }

/-- Release volatile execution state after a restart. -/
def invalidateVolatileState (s : EngineState) (cause : Text) : EngineState :=
  let cause := clampDetail cause maxReasonDetail
  let s :=
    { s with
      workers := s.workers.mapValues fun _ => fencedLease cause
      workerLiveness := s.workerLiveness.mapValues fun _ _ => false
      rolloutDriverBoot := OrdMap.empty
      evidence := s.evidence.removeKinds
        (EvidenceKind.all.filter fun kind => !kind.isDurable) }
  (stampEntered s.rollouts.keys s).bumpSequence

end EngineState

end LifecycleFabric
