import LifecycleFabric.Engine.Query
import Mathlib.Data.List.Destutter

/-!
# Reconciliation

Durable lifecycle truth is compared with what is observed outside. Absent observations are
reported as absent; nothing is changed. The findings are sorted and free of repetitions.
-/

namespace LifecycleFabric

/-- The name of an attempt state. -/
def AttemptState.toText : AttemptState → Text
  | dispatched => text "DISPATCHED"
  | completed => text "COMPLETED"
  | failed => text "FAILED"
  | outcomeUnknown => text "OUTCOME_UNKNOWN"
  | reconcileRequired => text "RECONCILE_REQUIRED"
  | abandoned => text "ABANDONED"

/-- What a finding is about. -/
inductive FindingKind
  | clean | expectedResidentMissing | retiredModelStillResident | rolloutStageWithoutWorkers
  | authorityWithoutReplicas | replicaForNonAuthoritativeGeneration | artifactGenerationChanged
  | compatibilityChanged | unreconciledAttempt | fencedWorkerStillPublishing | stalePlanBinding
  deriving DecidableEq

namespace FindingKind

/-- The number of a kind. -/
def code (kind : FindingKind) : ℕ := kind.ctorIdx

/-- The name of a kind. -/
def toText : FindingKind → Text
  | clean => text "CLEAN"
  | expectedResidentMissing => text "EXPECTED_RESIDENT_MISSING"
  | retiredModelStillResident => text "RETIRED_MODEL_STILL_RESIDENT"
  | rolloutStageWithoutWorkers => text "ROLLOUT_STAGE_WITHOUT_WORKERS"
  | authorityWithoutReplicas => text "AUTHORITY_WITHOUT_REPLICAS"
  | replicaForNonAuthoritativeGeneration => text "REPLICA_FOR_NON_AUTHORITATIVE_GENERATION"
  | artifactGenerationChanged => text "ARTIFACT_GENERATION_CHANGED"
  | compatibilityChanged => text "COMPATIBILITY_CHANGED"
  | unreconciledAttempt => text "UNRECONCILED_ATTEMPT"
  | fencedWorkerStillPublishing => text "FENCED_WORKER_STILL_PUBLISHING"
  | stalePlanBinding => text "STALE_PLAN_BINDING"

end FindingKind

/-- Observation of a serving replica. -/
structure ReplicaObservation where
  model : ModelId := {}
  version : ModelVersionId := {}
  modelGeneration : ModelGeneration := {}
  scope : ScopeId := {}
  resident : Bool := false
  ready : Bool := false
  deriving DecidableEq

/-- Observation of residency for a model generation in a scope. -/
structure ResidencyObservation where
  model : ModelId := {}
  version : ModelVersionId := {}
  modelGeneration : ModelGeneration := {}
  artifactGeneration : ArtifactGeneration := {}
  scope : ScopeId := {}
  generation : ResidencyGeneration := {}
  resident : Bool := false
  ready : Bool := false
  boot : WorkerBootId := {}
  provenance : Provenance := .unknown
  deriving DecidableEq

/-- What is observed outside. -/
structure ReconciliationInput where
  replicas : List ReplicaObservation := []
  residency : List ResidencyObservation := []
  liveWorkers : List WorkerId := []
  /-- Without it no worker is concluded to be dead; the gap is reported. -/
  workerLivenessKnown : Bool := true

/-- One reconciliation finding. -/
structure Finding where
  kind : FindingKind := .clean
  reason : ReasonCode := .none
  scope : ScopeId := {}
  model : ModelId := {}
  version : ModelVersionId := {}
  modelGeneration : ModelGeneration := {}
  detail : Text := []
  deriving DecidableEq

namespace Finding

/-- What findings are ordered by, and told apart by. -/
def key (finding : Finding) :
    ℕ ×ₗ ScopeId ×ₗ ModelId ×ₗ ModelVersionId ×ₗ ModelGeneration ×ₗ Text :=
  toLex (finding.kind.code, toLex (finding.scope, toLex (finding.model, toLex (finding.version,
    toLex (finding.modelGeneration, finding.detail)))))

/-- Findings are ordered by kind, scope, model, version, generation and detail. -/
def le (a b : Finding) : Prop := a.key ≤ b.key

instance decidableLe : DecidableRel le := fun a b => inferInstanceAs (Decidable (a.key ≤ b.key))

/-- Sort findings and drop repetitions. -/
def sortUnique (findings : List Finding) : List Finding :=
  (findings.insertionSort le).destutter fun a b => a.key ≠ b.key

theorem mem_of_mem_sortUnique {findings : List Finding} {found : Finding}
    (h : found ∈ sortUnique findings) : found ∈ findings :=
  (List.mem_insertionSort le).mp ((List.destutter_sublist _ _).subset h)

end Finding

namespace ReconciliationInput

/-- Whether a generation is observed resident and ready in a scope. -/
def resident (input : ReconciliationInput) (model : ModelId) (version : ModelVersionId)
    (generation : ModelGeneration) (scope : ScopeId) : Bool :=
  (input.residency.any fun observation =>
    decide (observation.model = model ∧ observation.version = version) &&
      decide (observation.modelGeneration = generation) && decide (observation.scope = scope) &&
      observation.resident && observation.ready) ||
  input.replicas.any fun observation =>
    decide (observation.model = model ∧ observation.version = version) &&
      decide (observation.modelGeneration = generation) && decide (observation.scope = scope) &&
      observation.resident && observation.ready

end ReconciliationInput

namespace EngineState

variable (s : EngineState) (input : ReconciliationInput)

/-- A finding, with its detail bounded. -/
def finding (kind : FindingKind) (reason : ReasonCode) (scope : ScopeId) (model : ModelId)
    (version : ModelVersionId) (modelGeneration : ModelGeneration) (detail : Text) : Finding :=
  { kind, reason, scope, model, version, modelGeneration
    detail := clampDetail detail maxRecordDetail }

/-- Every live exclusive or canary binding expects a resident, ready generation. -/
def authorityFindings : List Finding :=
  s.authority.bindings.values.flatten.flatMap fun binding =>
    if binding.superseded then []
    else if binding.kind ≠ .exclusive ∧ binding.kind ≠ .canary then []
    else if input.resident binding.model binding.version binding.modelGeneration binding.scope then
      []
    else
      [finding .authorityWithoutReplicas .expectedResidentMissing binding.scope binding.model
        binding.version binding.modelGeneration
        (text ("no resident ready replica or residency observation supports the committed " ++
          "authority"))]

/-- Whether a version is registered and retired. -/
def isRetired (model : ModelId) (version : ModelVersionId) : Bool :=
  (s.versionOf model version).any ModelVersionRecord.retired

/-- A retired generation must not still be resident. -/
def retiredFindings : List Finding :=
  (input.residency.flatMap fun observation =>
    if s.isRetired observation.model observation.version ∧ observation.resident then
      [finding .retiredModelStillResident .retiredModelStillResident observation.scope
        observation.model observation.version observation.modelGeneration
        (text "a retired generation is still reported resident")]
    else []) ++
  input.replicas.flatMap fun observation =>
    if s.isRetired observation.model observation.version ∧ observation.resident then
      [finding .retiredModelStillResident .retiredModelStillResident observation.scope
        observation.model observation.version observation.modelGeneration
        (text "a retired generation is still reported resident by a replica")]
    else []

/-- A live rollout whose stage is entered must have a live worker. -/
def stageFindings : List Finding :=
  s.rollouts.values.flatMap fun plan =>
    if !plan.live || !plan.stageEntered then []
    else if !input.workerLivenessKnown then
      [finding .rolloutStageWithoutWorkers .replicaEvidenceMissing plan.rootScope plan.model
        plan.candidate plan.candidateGeneration
        (text ("worker liveness is unknown: the runtime will not assume the stage is " ++
          "supported"))]
    else if s.workers.values.any fun lease =>
        !lease.fenced && decide (lease.id ∈ input.liveWorkers) then
      []
    else
      [finding .rolloutStageWithoutWorkers .rolloutStageWithoutWorkers plan.rootScope plan.model
        plan.candidate plan.candidateGeneration
        (text "the persisted stage is entered but no live worker supports it")]

/-- The exclusive binding of the nearest scope on the way to the root that holds one. -/
def nearestExclusive (scope : ScopeId) : Option AuthorityBinding :=
  (s.scopes.chain scope).reverse.findSome? fun node =>
    (s.authority.liveBindingsFor node).find? fun binding => decide (binding.kind = .exclusive)

/-- A replica serves a generation that holds no authority where it runs. -/
def replicaFindings : List Finding :=
  input.replicas.flatMap fun observation =>
    if !observation.resident && !observation.ready then []
    else
      match s.nearestExclusive observation.scope with
      | none => []
      | some binding =>
        if binding.model = observation.model ∧ binding.version = observation.version ∧
            binding.modelGeneration = observation.modelGeneration then
          []
        else
          [finding .replicaForNonAuthoritativeGeneration .externalStateDiverged observation.scope
            observation.model observation.version observation.modelGeneration
            (text ("a resident replica serves a generation that is not authoritative in its " ++
              "scope"))]

/-- Attempts that are not settled. -/
def attemptFindings : List Finding :=
  s.attempts.values.flatMap fun attempt =>
    if attempt.state = .dispatched ∨ attempt.state = .outcomeUnknown ∨
        attempt.state = .reconcileRequired then
      [finding .unreconciledAttempt .unreconciledAttempt attempt.scope attempt.model
        attempt.version attempt.modelGeneration
        (text "attempt " ++ attempt.id.toText ++ text " is " ++ attempt.state.toText)]
    else []

/-- The kind of a finding about a stale plan. -/
def stalePlanKind (reason : ReasonCode) : FindingKind :=
  if reason = .artifactGenerationMismatch then .artifactGenerationChanged
  else if reason = .compatibilityStale then .compatibilityChanged
  else .stalePlanBinding

/-- Live plans whose bindings no longer match the registry. -/
def planFindings : List Finding :=
  s.rollouts.values.flatMap fun plan =>
    if !plan.live then []
    else
      match s.checkPlanBindings plan with
      | none => []
      | some (reason, detail) =>
        [finding (stalePlanKind reason) reason plan.rootScope plan.model plan.candidate
          plan.candidateGeneration (text "live rollout plan binding went stale: " ++ detail)]

/-- Evidence of a fenced boot that is still retained. -/
def fencedFindings : List Finding :=
  s.workers.values.flatMap fun lease =>
    if !lease.fenced then []
    else
      s.evidence.records.values.flatten.flatMap fun record =>
        if record.boot ≠ lease.boot then []
        else
          [finding .fencedWorkerStillPublishing .evidencePublisherBootStale record.subject.scope
            record.subject.model record.subject.version record.subject.modelGeneration
            (text "evidence published by a fenced boot is still retained")]

/-- Compare durable lifecycle truth with what is observed. -/
def reconcile : List Finding :=
  Finding.sortUnique
    (s.authorityFindings input ++ s.retiredFindings input ++ s.stageFindings input ++
      s.replicaFindings input ++ s.attemptFindings ++ s.planFindings ++ s.fencedFindings)

end EngineState

end LifecycleFabric
