import LifecycleFabric.Engine.Retirement

/-!
# Compatibility, evidence, workers and attempts

The operations that publish facts, manage worker leases, and track external attempts.
-/

namespace LifecycleFabric

/-- Request to register a worker boot. -/
structure WorkerRegistration where
  id : WorkerId := {}
  boot : WorkerBootId := {}
  epoch : CoordinatorEpoch := {}
  scopes : List ScopeId := []

/-- Request to begin an external attempt. -/
structure AttemptRequest where
  kind : AttemptKind := .warm
  worker : WorkerId := {}
  boot : WorkerBootId := {}
  epoch : CoordinatorEpoch := {}
  model : ModelId := {}
  version : ModelVersionId := {}
  modelGeneration : ModelGeneration := {}
  scope : ScopeId := {}
  rollout : RolloutId := {}
  rolloutGeneration : RolloutGeneration := {}
  stage : RolloutStageId := {}
  stageGeneration : RolloutStageGeneration := {}
  idempotent : Bool := false
  detail : Text := []

/-- A completion reported for an attempt. -/
structure CompletionRecord where
  attempt : AttemptId := {}
  worker : WorkerId := {}
  boot : WorkerBootId := {}
  epoch : CoordinatorEpoch := {}
  success : Bool := false
  /-- Whether the external effect is confirmed. -/
  confirmed : Bool := false
  detail : Text := []

/-- What an operation on an attempt returns. -/
structure AttemptOutcome where
  decision : Decision
  attempt : AttemptId := {}
  reconciliationRequired : Bool := false

namespace EngineState

/-! ## Epoch -/

/-- Advance the coordinator epoch. -/
def advanceEpoch (s : EngineState) (expectedCurrent : CoordinatorEpoch) :
    EngineState × Decision × CoordinatorEpoch :=
  if expectedCurrent.valid ∧ expectedCurrent ≠ s.epoch then
    (s, .because .conflict .coordinatorEpochStale
      (text "epoch precondition does not match the current epoch"), s.epoch)
  else
    let s := ({ s with epoch := s.epoch.nextGeneration }).bumpSequence
    (s, .accepted, s.epoch)

/-! ## Compatibility -/

/-- The first version record with an identity, in key order. -/
def findVersion (s : EngineState) (version : ModelVersionId) :
    Option (VersionKey × ModelVersionRecord) :=
  s.versions.entries.find? fun e => decide (e.2.version = version)

/-- Publish a compatibility fact for a version in an environment. -/
def publishCompatibility (cfg : EngineConfig) (s : EngineState) (version : ModelVersionId)
    (environment : EnvironmentProfile) (outcome : CompatibilityOutcome) (detail : Text)
    (provenance : Provenance) : EngineState × Decision :=
  match s.findVersion version with
  | none =>
    (s, .because .rejected .unknownVersion
      (text "compatibility fact targets an unknown version"))
  | some (key, record) =>
    if record.retired then
      (s, .because .rejected .versionRetired
        (text "compatibility cannot be published for a retired generation"))
    else if !environment.valid then
      (s, .because .rejected .invalidName
        (text "environment key must be a bounded non-empty token"))
    else
      let s := s.bumpSequence
      let assigned : CompatibilityGeneration := ⟨s.nextCompatibilityGeneration⟩
      let fact : CompatibilityFact :=
        { model := record.model
          version := record.version
          modelGeneration := record.generation
          artifactSet := record.artifact.setId
          artifactGeneration := record.artifact.generation
          environmentKey := environment.key
          outcome
          detail := clampDetail detail maxRecordDetail
          provenance := provenance.orDefault cfg.defaultProvenance
          sequence := s.sequence }
      let (registry, published) := s.compatibility.publish fact assigned
      if !published.allowed then
        (s, ({ outcome := published.outcome } : Decision).addAll published.reasons)
      else
        let recorded : ModelVersionRecord :=
          { record with compatibilityGeneration := assigned, updatedSequence := s.sequence }
        let recorded :=
          if record.state = .registered then (recorded.transition .validating).1 else recorded
        ({ s with
            compatibility := registry
            nextCompatibilityGeneration := assigned.raw + 1
            versions := s.versions.modify key fun _ => recorded }, .accepted)

/-! ## Evidence -/

/-- Fill in the model of an evidence subject from its version. -/
def resolveSubjectModel (s : EngineState) (record : EvidenceRecord) : EvidenceRecord :=
  if !record.subject.model.valid ∧ record.subject.version.valid then
    match s.versionOfId record.subject.version with
    | none => record
    | some resolved => { record with subject := { record.subject with model := resolved.model } }
  else record

/-- Fill in the absent generations of an evidence subject from its owner. -/
def completeSubject (subject : EvidenceSubject) (owner : ModelVersionRecord) : EvidenceSubject :=
  { subject with
    modelGeneration :=
      if subject.modelGeneration.valid then subject.modelGeneration else owner.generation
    artifactSet := if subject.artifactSet.valid then subject.artifactSet else owner.artifact.setId
    artifactGeneration :=
      if subject.artifactGeneration.valid then subject.artifactGeneration
      else owner.artifact.generation
    compatibilityGeneration :=
      if subject.compatibilityGeneration.valid then subject.compatibilityGeneration
      else owner.compatibilityGeneration }

/-- The record as the engine stores it: bounded texts, and identity, generation, epoch
and policy assigned by the engine. -/
def assignEvidence (s : EngineState) (record : EvidenceRecord) : EvidenceRecord :=
  { record with
    detail := clampDetail record.detail maxRecordDetail
    unit := clampDetail record.unit maxEvidenceUnit
    id := ⟨s.nextEvidenceId⟩
    generation := ⟨s.nextEvidenceGeneration⟩
    epoch := s.epoch
    policyGeneration :=
      if record.policyGeneration.valid then record.policyGeneration
      else s.policy.base.generation }

/-- Publish evidence. The third component is the caller's record as it is handed back. -/
def publishEvidence (s : EngineState) (record : EvidenceRecord) :
    EngineState × Decision × EvidenceRecord :=
  let record := s.resolveSubjectModel record
  match s.versionOf record.subject.model record.subject.version with
  | none =>
    (s, .because .rejected .unknownVersion
      (text "evidence subject version is not registered"), record)
  | some owner =>
    let record := { record with subject := completeSubject record.subject owner }
    if record.provenance = .unknown then
      (s, .because .rejected .evidenceUnknownProvenance
        (text "evidence must declare REAL, SYNTHETIC or UNSUPPORTED provenance"), record)
    else
      let record := s.assignEvidence record
      let (store, published) := s.evidence.publish record
      if !published.allowed then
        (s, ({ outcome := published.outcome } : Decision).addAll published.reasons,
          { record with id := {}, generation := {} })
      else
        ({ s with
            evidence := store
            nextEvidenceId := record.id.raw + 1
            nextEvidenceGeneration := record.generation.raw + 1 }, .accepted, record)

/-- Look up the evidence that answers a requirement. No publisher is named as current, so
a requirement of a current publisher is met only by what no boot published. -/
def checkEvidence (s : EngineState) (requirement : EvidenceRequirement)
    (subject : EvidenceSubject) : EvidenceLookup :=
  s.evidence.resolve requirement subject {} requirement.requireCurrentPublisher 0
    s.policy.base.maxEvidenceAgeTicks

/-- Forget the evidence a worker boot published. -/
def expirePublisherEvidence (s : EngineState) (boot : WorkerBootId) : EngineState × ℕ :=
  let (evidence, removed) := s.evidence.invalidatePublisherBoot boot
  let s := { s with evidence }
  (if 0 < removed then s.bumpSequence else s, removed)

/-! ## Workers -/

/-- Register a worker boot. An unfenced lease of another boot is not replaced; a fenced
lease is, whatever boot it was for. -/
def registerWorker (cfg : EngineConfig) (s : EngineState) (registration : WorkerRegistration) :
    EngineState × Decision :=
  let existing := s.workerOf registration.id
  if !registration.id.valid ∨ !registration.boot.valid then
    (s, .because .rejected .workerUnknown (text "worker identity and boot must be non-zero"))
  else if registration.epoch.valid ∧ registration.epoch ≠ s.epoch then
    (s, .because .conflict .coordinatorEpochStale
      (text "worker registered against a superseded coordinator epoch"))
  else if registration.scopes.any fun scope => (s.scopes.find scope).isNone then
    (s, .because .rejected .unknownScope (text "worker claims an unregistered scope"))
  else if existing.isNone ∧ cfg.bounds.maxWorkers ≤ s.workers.size then
    (s, .because .boundsExceeded .boundsWorkerCount (text "worker bound reached"))
  else if existing.any fun lease =>
      !lease.fenced && decide (lease.boot ≠ registration.boot) then
    (s, .because .conflict .workerBootStale
      (text ("an unfenced worker boot already holds this worker identity; fence it " ++
        "first so replacement requires an explicit decision")))
  else
    let s := s.bumpSequence
    let lease : WorkerLease :=
      { id := registration.id
        boot := registration.boot
        epoch := s.epoch
        scopes := RolloutPlan.sortUniqueScopes registration.scopes
        registeredSequence := s.sequence }
    ({ s with
        workers := s.workers.insert registration.id.raw lease
        workerLiveness := s.workerLiveness.insert registration.id.raw true }, .accepted)

/-- Leave the dispatched attempts of a fenced boot with an unknown outcome, in key order. -/
def settleFenced (boot : WorkerBootId) : List UInt64 → EngineState → EngineState
  | [], s => s
  | key :: keys, s =>
    match s.attempts.get? key with
    | none => settleFenced boot keys s
    | some attempt =>
      if attempt.boot ≠ boot ∨ attempt.state ≠ .dispatched then settleFenced boot keys s
      else
        let s := s.bumpSequence
        let settled : Attempt :=
          { attempt with
            state := .outcomeUnknown
            detail := text "performer boot was fenced before the attempt settled"
            settledSequence := s.sequence }
        settleFenced boot keys { s with attempts := s.attempts.modify key fun _ => settled }

/-- Fence a worker boot. -/
def fenceWorker (s : EngineState) (id : WorkerId) (boot : WorkerBootId)
    (epoch : CoordinatorEpoch) (reason : Text) : EngineState × Decision :=
  match s.workerOf id with
  | none => (s, .because .rejected .workerUnknown (text "worker is not registered"))
  | some lease =>
    if boot.valid ∧ lease.boot ≠ boot then
      (s, .because .conflict .workerBootStale
        (text "fence targets a boot that is not the registered boot"))
    else if epoch.valid ∧ epoch < s.epoch then
      (s, .because .conflict .coordinatorEpochStale
        (text "fence request originates from a superseded epoch"))
    else if lease.fenced then (s, .accepted)
    else
      let s := s.bumpSequence
      let fenced : WorkerLease :=
        { lease with
          fenced := true
          fencedSequence := s.sequence
          detail := clampDetail reason maxReasonDetail }
      let s :=
        { s with
          workers := s.workers.modify id.raw fun _ => fenced
          workerLiveness := s.workerLiveness.insert id.raw false
          evidence := (s.evidence.invalidatePublisherBoot lease.boot).1 }
      (settleFenced lease.boot s.attempts.keys s, .accepted)

/-- Record the connection state of a worker. -/
def setWorkerLiveness (s : EngineState) (id : WorkerId) (connected : Bool) :
    EngineState × Decision :=
  if !s.workers.contains id.raw then
    (s, .because .rejected .workerUnknown (text "worker is not registered"))
  else
    ({ s with workerLiveness := s.workerLiveness.insert id.raw connected }, .accepted)

/-! ## Attempts -/

/-- Why an attempt on a registered version is refused. -/
def attemptSubjectRefusals (s : EngineState) (request : AttemptRequest)
    (record : ModelVersionRecord) : List Refusal :=
  refuseIf record.retired
    (.because .rejected .versionRetired (text "attempt targets a retired generation")) ++
  refuseIf (request.modelGeneration.valid ∧ request.modelGeneration ≠ record.generation)
    (.because .stalePlan .modelGenerationMismatch
      (text "attempt targets a superseded model generation")) ++
  refuseIf (request.scope.valid ∧ (s.scopes.find request.scope).isNone)
    (.because .rejected .unknownScope (text "attempt targets an unknown scope")) ++
  if !request.rollout.valid then []
  else
    match s.rolloutOf request.rollout with
    | none =>
      [.because .notFound .unknownVersion (text "attempt targets an unknown rollout")]
    | some plan =>
      refuseIf (request.rolloutGeneration.valid ∧ request.rolloutGeneration ≠ plan.generation)
        (.because .stalePlan .rolloutGenerationMismatch
          (text "attempt targets a superseded rollout generation"))

/-- Why an attempt is refused: the first check failed. -/
def attemptRefusal (cfg : EngineConfig) (s : EngineState) (request : AttemptRequest) :
    Option Refusal :=
  firstRefusal <|
    refuseIf (cfg.bounds.maxAttempts ≤ s.attempts.size)
      (.because .boundsExceeded .boundsAttemptCount (text "pending attempt bound reached")) ++
    refusalOf (s.checkEpoch request.epoch) ++
    refusalOf (s.checkWorker request.worker request.boot request.epoch) ++
    match s.versionOf request.model request.version with
    | none =>
      [.because .notFound .unknownVersion (text "attempt targets an unregistered version")]
    | some record => s.attemptSubjectRefusals request record

/-- Dispatch an external attempt. -/
def beginAttempt (cfg : EngineConfig) (s : EngineState) (request : AttemptRequest) :
    EngineState × AttemptOutcome :=
  match s.attemptRefusal cfg request, s.versionOf request.model request.version with
  | some refusal, _ => (s, { decision := refusal.decision })
  | none, none => (s, { decision := .because .notFound .unknownVersion [] })
  | none, some record =>
    let s := s.bumpSequence
    let attempt : Attempt :=
      { id := ⟨s.nextAttemptId⟩
        kind := request.kind
        worker := request.worker
        boot := request.boot
        epoch := s.epoch
        model := record.model
        version := record.version
        modelGeneration := record.generation
        artifactGeneration := record.artifact.generation
        scope := request.scope
        scopeGeneration := ((s.scopes.find request.scope).map ScopeRecord.generation).getD {}
        rollout := request.rollout
        rolloutGeneration := request.rolloutGeneration
        stage := request.stage
        stageGeneration := request.stageGeneration
        residencyGeneration := ⟨s.nextAttemptId⟩
        idempotent := request.idempotent
        issuedSequence := s.sequence
        detail := clampDetail request.detail maxReasonDetail }
    ({ s with
        nextAttemptId := attempt.id.raw + 1
        attempts := s.attempts.insertNew attempt.id.raw attempt },
      { decision := .accepted, attempt := attempt.id })

/-- A completed or failed attempt refuses every further completion. -/
def settledRefusal (completion : CompletionRecord) (attempt : Attempt) : Refusal :=
  .because .conflict
    (if decide (attempt.state = .completed) != completion.success then
      .attemptConflictingCompletion else .attemptAlreadyCompleted)
    (text "attempt already settled")

/-- The refusal of a completion whose performer is gone. -/
def performerRefusal (worker : Decision) : List Refusal :=
  if h : worker.allowed = false then
    [⟨({ outcome := worker.outcome } : Decision).addAll worker.reasons, by
      rw [Decision.allowed, Decision.outcome_addAll]; exact h⟩]
  else []

/-- Why a completion is refused: the first check failed. -/
def completionRefusal (s : EngineState) (completion : CompletionRecord) (attempt : Attempt) :
    Option Refusal :=
  let record := s.versionOf attempt.model attempt.version
  firstRefusal <|
    refuseIf (attempt.state = .completed ∨ attempt.state = .failed)
      (settledRefusal completion attempt) ++
    refuseIf (attempt.state = .abandoned)
      (.because .conflict .attemptAlreadyCompleted (text "attempt was abandoned")) ++
    refuseIf (completion.epoch.valid ∧ completion.epoch ≠ s.epoch)
      (.because .conflict .coordinatorEpochStale
        (text "completion arrives from a superseded coordinator epoch")) ++
    refuseIf (completion.worker.valid ∧
        (completion.worker ≠ attempt.worker ∨ completion.boot ≠ attempt.boot))
      (.because .rejected .workerBootStale
        (text "completion originates from a boot that did not receive the attempt")) ++
    performerRefusal (s.checkWorker attempt.worker attempt.boot {}) ++
    refuseIf (record.all ModelVersionRecord.retired)
      (.because .rejected .versionRetired
        (text "attempt subject is gone or retired; the completion is fenced")) ++
    refuseIf (record.any fun record => decide (record.generation ≠ attempt.modelGeneration))
      (.because .stalePlan .modelGenerationMismatch
        (text "attempt targeted a superseded model generation")) ++
    refuseIf (attempt.rollout.valid ∧ (s.rolloutOf attempt.rollout).all fun plan =>
        decide (plan.generation ≠ attempt.rolloutGeneration))
      (.because .stalePlan .rolloutGenerationMismatch
        (text "attempt targeted a superseded rollout generation"))

/-- Settle an attempt in a state, with a detail. -/
def settleAttempt (s : EngineState) (key : UInt64) (state : AttemptState) (detail : Text) :
    EngineState :=
  let s := s.bumpSequence
  { s with attempts := s.attempts.modify key fun attempt =>
      { attempt with
        state
        settledSequence := s.sequence
        detail := clampDetail detail maxReasonDetail } }

/-- Record the completion of an attempt. An unconfirmed one settles nothing. -/
def completeAttempt (s : EngineState) (completion : CompletionRecord) : EngineState × Decision :=
  match s.attempts.get? completion.attempt.raw with
  | none => (s, .because .notFound .attemptUnknown (text "attempt is not registered"))
  | some attempt =>
    match s.completionRefusal completion attempt with
    | some refusal => (s, refusal.decision)
    | none =>
      if !completion.confirmed then
        (s.settleAttempt completion.attempt.raw .outcomeUnknown
            (if completion.detail.isEmpty then text "acknowledgement lost or unconfirmed"
            else completion.detail),
          .because .outcomeUnknown .attemptOutcomeUnknown
            (text ("external effect completion is unconfirmed; " ++
              "reconciliation is required")))
      else
        (s.settleAttempt completion.attempt.raw
            (if completion.success then .completed else .failed)
            (if completion.detail.isEmpty then attempt.detail else completion.detail),
          .accepted)

/-- Settle an attempt of unknown outcome from what was observed. -/
def reconcileAttempt (s : EngineState) (id : AttemptId) (sideEffectObserved : Bool)
    (epoch : CoordinatorEpoch) (detail : Text) : EngineState × AttemptOutcome :=
  match s.attempts.get? id.raw with
  | none =>
    (s, { decision := .because .notFound .attemptUnknown (text "attempt is not registered") })
  | some attempt =>
    if !attempt.state.isOpen then
      (s, { decision := .because .conflict .attemptAlreadyCompleted
              (text "attempt is already settled") })
    else if attempt.state = .dispatched then
      (s, { decision := .because .conflict .unreconciledAttempt
              (text "attempt is still dispatched; it must be settled or fenced first") })
    else if epoch.valid ∧ epoch < s.epoch then
      (s, { decision := .because .conflict .coordinatorEpochStale
              (text "reconciliation from a superseded epoch") })
    else if sideEffectObserved then
      (s.settleAttempt id.raw .completed detail,
        { decision := .accepted, attempt := attempt.id })
    else if !attempt.idempotent then
      -- Not observed and not safe to repeat: keep demanding reconciliation.
      (s.settleAttempt id.raw .reconcileRequired detail,
        { decision := .because .reconciliationRequired .unreconciledAttempt
            (text "side effect was not observed and the action is not idempotent")
          attempt := attempt.id
          reconciliationRequired := true })
    else
      (s.settleAttempt id.raw .failed detail, { decision := .accepted, attempt := attempt.id })

end EngineState

end LifecycleFabric
