import LifecycleFabric.Engine.Rollout

/-!
# Advancing and ending a rollout

The stage gate, the commit of a stage, the failure of a stage with its automatic
rollback, and the supersession of a plan.
-/

namespace LifecycleFabric

namespace EngineState

/-! ## The stage gate -/

/-- Faults of a plan's progress: it must be live, in the stage and stage generation the
request names, and that generation must be undecided. -/
def progressFaults (request : RolloutProgressRequest) (plan : RolloutPlan) : List Fault :=
  faultIf plan.superseded
    ⟨.stalePlan, .rolloutSuperseded, text "rollout was superseded", refusing⟩ ++
  faultIf (plan.completed ∨ plan.failed)
    ⟨.rejected, .rolloutAlreadyComplete, text "rollout is no longer live", refusing⟩ ++
  faultIf (¬plan.stageEntered)
    ⟨.rejected, .stageOrderViolation, text "no stage is currently entered", refusing⟩ ++
  (match plan.stageAt plan.currentStageIndex with
    | none => [⟨.rejected, .stageOrderViolation, text "current stage index is invalid", refusing⟩]
    | some stage =>
      faultIf (request.stage.valid ∧ request.stage ≠ stage.id)
        ⟨.rejected, .stageOrderViolation,
          text "request names a stage that is not the current stage", refusing⟩) ++
  faultIf (request.stageGeneration.valid ∧
      request.stageGeneration ≠ plan.currentStageGeneration)
    ⟨.stalePlan, .rolloutStageGenerationMismatch,
      text "request cites a superseded stage generation", refusing⟩ ++
  (plan.history.filter fun entry =>
      decide (entry.generation = plan.currentStageGeneration) &&
        decide (entry.decision ≠ .entered)).map fun _ =>
    ⟨.conflict, .stageCompletionDuplicate,
      text "this stage generation already has a committed decision", refusing⟩

/-- Faults of the plan's bindings and of the cited scope generation. -/
def bindingFaults (s : EngineState) (request : RolloutProgressRequest) (plan : RolloutPlan) :
    List Fault :=
  (match s.checkPlanBindings plan with
    | none => []
    | some (_, detail) => [⟨.stalePlan, .rolloutPlanStale, detail, refusing⟩]) ++
  match s.scopes.find plan.rootScope with
  | none => [⟨.notFound, .unknownScope, text "plan root scope no longer exists", refusing⟩]
  | some root =>
    faultIf (request.scopeGeneration.valid ∧ request.scopeGeneration ≠ root.generation)
      ⟨.stalePlan, .scopeGenerationMismatch,
        text "scope generation advanced since the request was formed", refusing⟩

/-- Faults of approval and blast radius. -/
def progressionFaults (s : EngineState) (request : RolloutProgressRequest) (plan : RolloutPlan) :
    List Fault :=
  let effective := s.policy.effective s.scopes plan.rootScope
  faultIf (plan.manualProgression ∧ ¬request.administrativeApproval)
    ⟨.stageAdvanceBlocked, .policyRequiresApproval,
      text "plan requires explicit administrative progression", refusing⟩ ++
  match plan.stageAt plan.currentStageIndex with
  | none => []
  | some stage =>
    let radius := plan.stageBlastRadius stage
    faultIf (plan.maxBlastRadiusPercent < radius ∨ effective.maxBlastRadiusPercent < radius)
      ⟨.stageAdvanceBlocked, .blastRadiusExceeded,
        text "stage blast radius exceeds the authorized ceiling", refusing⟩

/-- The fault of one failure criterion: it lacks evidence, or the evidence trips it. -/
def failureFaults (s : EngineState) (subject : EvidenceSubject) (criterion : Criterion) :
    List Fault :=
  let result := s.evaluateCriterion criterion subject
  if !result.present then
    [⟨.stageAdvanceBlocked, .stageFeedbackIncomplete,
      text "failure criterion " ++ criterion.kind.toText ++ text " has no current evidence",
      refusing⟩]
  else
    faultIf (criterion.holds result.value)
      ⟨.stageAdvanceBlocked, .stageFailureThresholdExceeded,
        text "failure criterion " ++ criterion.kind.toText ++ text " was met", refusing⟩

/-- The fault of one acceptance criterion: it lacks evidence, or is not met. -/
def acceptanceFaults (s : EngineState) (subject : EvidenceSubject) (criterion : Criterion) :
    List Fault :=
  let result := s.evaluateCriterion criterion subject
  if !result.present then
    [⟨.stageAdvanceBlocked, .stageFeedbackIncomplete,
      text "acceptance criterion " ++ criterion.kind.toText ++ text " has no current evidence",
      refusing⟩]
  else
    faultIf (¬result.satisfied)
      ⟨.stageAdvanceBlocked, .stageAcceptanceNotMet,
        text "acceptance criterion " ++ criterion.kind.toText ++ text " was not met", refusing⟩

/-- Faults of the evidence and criteria of a stage in one scope. -/
def stageScopeFaults (s : EngineState) (plan : RolloutPlan) (record : ModelVersionRecord)
    (stage : StageDefinition) (scope : ScopeId) : List Fault :=
  let effective := s.policy.effective s.scopes plan.rootScope
  let subject := stageSubject record plan stage scope
  (if effective.requireEvidenceForStageAdvance then
    faultsOf (s.checkEvidenceList stage.requiredEvidence subject)
  else []) ++
  stage.failure.flatMap (s.failureFaults subject) ++
  stage.acceptance.flatMap (s.acceptanceFaults subject)

/-- Faults of the evidence and criteria of the current stage. -/
def feedbackFaults (s : EngineState) (plan : RolloutPlan) : List Fault :=
  match s.versionOf plan.model plan.candidate with
  | none => [⟨.notFound, .unknownVersion, text "rollout candidate is not registered", refusing⟩]
  | some record =>
    match plan.stageAt plan.currentStageIndex with
    | none => []
    | some stage => (plan.stageScopes stage).flatMap (s.stageScopeFaults plan record stage)

/-- Every fault of a stage advance, in the order of the checks. -/
def stageFaults (s : EngineState) (request : RolloutProgressRequest) (plan : RolloutPlan) :
    List Fault :=
  progressFaults request plan ++
    faultsOf (s.checkEpoch request.epoch) ++
    faultsOf (s.checkWorker request.worker request.boot request.epoch) ++
    s.bindingFaults request plan ++ s.progressionFaults request plan ++ s.feedbackFaults plan

/-- The stage gate. -/
def evaluateStageAdvance (s : EngineState) (request : RolloutProgressRequest) : Decision :=
  match s.rolloutOf request.rollout with
  | none =>
    gateDecision stageRank .stageAdvanceAllowed
      [⟨.notFound, .unknownVersion, text "rollout is not registered", refusing⟩]
  | some plan =>
    if request.rolloutGeneration.valid ∧ request.rolloutGeneration ≠ plan.generation then
      gateDecision stageRank .stageAdvanceAllowed
        [⟨.stalePlan, .rolloutGenerationMismatch,
          text "request cites a superseded rollout generation", refusing⟩]
    else
      (gateDecision stageRank .stageAdvanceAllowed (s.stageFaults request plan)).normalize

/-! ## Stage failure -/

/-- The history entry of a failed stage. -/
def failedRecord (decided : Sequence) (reasons : List Reason) (plan : RolloutPlan) :
    StageRecord where
  stage := plan.currentStage.id
  generation := plan.currentStageGeneration
  enteredSequence := plan.updatedSequence
  decidedSequence := decided
  decision := .failed
  reasons := reasons

/-- The plan failed at its current stage. Only an explicit failure leaves the stage. -/
def failedPlan (decided updated : Sequence) (reasons : List Reason) (leaveStage : Bool)
    (plan : RolloutPlan) : RolloutPlan :=
  { plan with
    history := plan.history ++ [failedRecord decided reasons plan]
    failed := true
    stageEntered := plan.stageEntered && !leaveStage
    updatedSequence := updated }

/-- Commit the failure of a plan's current stage: record it, withdraw what the rollout
granted, and mark the candidate failed in canary. -/
def commitFailure (s : EngineState) (rollout : RolloutId) (plan : RolloutPlan)
    (reasons : List Reason) (leaveStage : Bool) : EngineState :=
  let decided := s.bumpSequence
  let s := decided.bumpSequence
  let s := s.modifyRollout rollout
    (failedPlan decided.sequence s.sequence reasons leaveStage)
  let s := s.mapAuthority (·.supersedeRollout plan.id plan.generation)
  let s := s.advanceVersion plan.model plan.candidate .canaryFailed
  s.stampVersion plan.model plan.candidate

/-- The rollback a policy-authorized automatic rollback asks for. -/
def automaticRollback (s : EngineState) (request : RolloutProgressRequest) (plan : RolloutPlan)
    (record : ModelVersionRecord) : RollbackRequest where
  model := plan.model
  candidate := plan.candidate
  candidateGeneration := record.generation
  rollout := plan.id
  rolloutGeneration := plan.generation
  target := plan.rollbackTarget
  targetGeneration := plan.rollbackTargetGeneration
  scope := plan.rootScope
  scopeGeneration := plan.rootScopeGeneration
  policyGeneration := (s.policy.effective s.scopes plan.rootScope).generation
  epoch := request.epoch
  worker := request.worker
  boot := request.boot
  automatic := true

/-- Commit an automatic rollback. The grant names the candidate's own record. -/
def commitAutomaticRollback (s : EngineState) (rollout : RolloutId) (plan : RolloutPlan)
    (record : ModelVersionRecord) : EngineState :=
  let rollback : RollbackId := ⟨s.nextRollbackId⟩
  let rollbackGeneration := record.rollbackGeneration.nextGeneration
  let s := s.mapAuthority (·.supersedeScope plan.rootScope)
  let s := (s.grantAuthority
    { model := plan.model
      version := plan.candidate
      scope := plan.rootScope
      kind := .exclusive
      rollback
      rollbackGeneration
      supersedeExisting := true
      retentionTarget := plan.rollbackTarget
      retentionGeneration := plan.rollbackTargetGeneration }).1
  let s :=
    match s.versionOf plan.model plan.rollbackTarget with
    | none => s
    | some _ =>
      (s.advanceVersion plan.model plan.rollbackTarget .current).stampVersion plan.model
        plan.rollbackTarget
  let s := s.recordRollback plan.model plan.candidate rollback rollbackGeneration
  let s := s.modifyRollout rollout fun plan =>
    markRollback rollback rollbackGeneration plan.updatedSequence plan
  let s := s.commitRollback plan.id.raw rollback rollbackGeneration
  let s := s.advanceVersion plan.model plan.candidate .rolledBack
  s.touchScope plan.rootScope

/-- The failure path of a stage advance: the failure commits, then the policy decides
whether a rollback follows by itself. -/
def failCurrentStage (s : EngineState) (request : RolloutProgressRequest) (plan : RolloutPlan)
    (gate : Decision) : EngineState × Decision :=
  let s := s.commitFailure request.rollout plan gate.reasons false
  let effective := s.policy.effective s.scopes plan.rootScope
  let blocked := ({ outcome := .stageAdvanceBlocked } : Decision).addAll gate.reasons
  if !effective.allowAutomaticRollback then
    (s, (({ blocked with outcome := .rollbackDecisionRequired } : Decision).add
      ⟨.policyDeniesAutoRollback,
        text "stage failure requires an explicit rollback decision"⟩).normalize)
  else
    match s.versionOf plan.model plan.candidate with
    | none => (s, blocked.normalize)
    | some record =>
      let allowed := s.evaluateRollback (s.automaticRollback request plan record)
      if !allowed.allowed then (s, (blocked.addAll allowed.reasons).normalize)
      else
        match s.versionOf plan.model plan.rollbackTarget with
        | none => (s, blocked.normalize)
        | some _ =>
          (s.commitAutomaticRollback request.rollout plan record,
            ({ blocked with outcome := .rollbackAllowed } : Decision).normalize)

/-! ## Stage commit -/

/-- The plan with its current stage advanced. -/
def advancedPlan (decided updated : Sequence) (plan : RolloutPlan) : RolloutPlan :=
  { plan with
    history := plan.history ++
      [{ stage := plan.currentStage.id
         generation := plan.currentStageGeneration
         enteredSequence := plan.updatedSequence
         decidedSequence := decided
         decision := .advanced }]
    updatedSequence := updated }

/-- Drain the generation a stage displaced in a scope, when draining is required. -/
def drainPrevious (plan : RolloutPlan) (stage : StageDefinition) (scope : ScopeId)
    (s : EngineState) : EngineState :=
  let effective := s.policy.effective s.scopes plan.rootScope
  if stage.requireDrainAfterCommit ∨ effective.requireDrainAfterStageCommit then
    let s := s.mapAuthority (·.markDraining plan.model plan.previous scope)
    match s.versionOf plan.model plan.previous with
    | none => s
    | some previous =>
      if previous.retired then s else s.advanceVersion plan.model plan.previous .draining
  else s

/-- The plan completed by its last stage. -/
def completedPlan (updated : Sequence) (plan : RolloutPlan) : RolloutPlan :=
  { plan with completed := true, stageEntered := false, updatedSequence := updated }

/-- The plan moved to its next stage. -/
def nextStagePlan (stage : StageDefinition) (updated : Sequence) (plan : RolloutPlan) :
    RolloutPlan :=
  enterStage stage updated { plan with currentStageIndex := plan.currentStageIndex + 1 }

/-- Complete the plan after its last stage, or enter the next one. -/
def leaveStage (s : EngineState) (rollout : RolloutId) (plan : RolloutPlan) :
    EngineState × Decision :=
  if plan.stages.length ≤ plan.currentStageIndex + 1 then
    let s := s.bumpSequence
    let s := s.modifyRollout rollout (completedPlan s.sequence)
    (s.advanceVersion plan.model plan.candidate .current, .accepted)
  else
    let stage := plan.nextStage
    let s := s.bumpSequence
    let entered := nextStagePlan stage s.sequence plan
    let s := s.modifyRollout rollout (nextStagePlan stage s.sequence)
    let s := s.advanceVersion plan.model plan.candidate .partiallyPromoted
    let s := s.recordStage plan.model plan.candidate stage.id entered.currentStageGeneration
    grantOver (stageGrant entered stage .canary false) (fun _ s => s)
      (plan.stageScopes stage) s

/-- The success path of a stage advance. -/
def commitStage (s : EngineState) (rollout : RolloutId) (plan : RolloutPlan) :
    EngineState × Decision :=
  let stage := plan.currentStage
  let decided := s.bumpSequence
  let s := decided.bumpSequence
  let advanced := advancedPlan decided.sequence s.sequence plan
  let s := s.modifyRollout rollout (advancedPlan decided.sequence s.sequence)
  let refusal (granted : Decision) : Decision :=
    ({ outcome := granted.outcome } : Decision).addAll granted.reasons
  let (s, granted) :=
    grantOver (stageGrant advanced stage .exclusive true) (drainPrevious plan stage)
      (plan.stageScopes stage) s
  if !granted.allowed then (s, refusal granted)
  else
    let (s, granted) := s.leaveStage rollout advanced
    if !granted.allowed then (s, refusal granted)
    else
      let s := s.refreshRoot rollout plan.rootScope
      (s.stampVersion plan.model plan.candidate, { outcome := .stageAdvanceAllowed })

/-- Advance a plan past its current stage. A tripped failure criterion takes the failure
path, whatever else the gate found. -/
def advanceStage (s : EngineState) (request : RolloutProgressRequest) : EngineState × Decision :=
  let gate := s.evaluateStageAdvance request
  match s.rolloutOf request.rollout with
  | none => (s, gate)
  | some plan =>
    let stageFailed := gate.has .stageFailureThresholdExceeded
    if !gate.allowed ∧ !stageFailed then (s, gate)
    else
      match s.versionOf plan.model plan.candidate with
      | none =>
        (s, .because .notFound .unknownVersion (text "rollout candidate is not registered"))
      | some _ =>
        if stageFailed then s.failCurrentStage request plan gate
        else s.commitStage request.rollout plan

/-! ## Explicit failure and supersession -/

/-- A reason with a clamped detail, when there is a detail. -/
def detailReason (code : ReasonCode) (detail : Text) : List Reason :=
  if detail.isEmpty then [] else [⟨code, clampDetail detail maxReasonDetail⟩]

/-- Why a request to fail a stage is refused: the first check failed. -/
def failRefusal (s : EngineState) (request : RolloutProgressRequest) (plan : RolloutPlan) :
    Option Refusal :=
  firstRefusal <|
    refuseIf (request.rolloutGeneration.valid ∧ request.rolloutGeneration ≠ plan.generation)
      (.because .stalePlan .rolloutGenerationMismatch
        (text "request cites a superseded rollout generation")) ++
    refuseIf (request.stageGeneration.valid ∧
        request.stageGeneration ≠ plan.currentStageGeneration)
      (.because .stalePlan .rolloutStageGenerationMismatch
        (text "request cites a superseded stage generation")) ++
    refusalOf (s.checkEpoch request.epoch) ++
    refusalOf (s.checkWorker request.worker request.boot request.epoch) ++
    refuseIf plan.superseded
      (.because .stalePlan .rolloutSuperseded (text "rollout was superseded")) ++
    refuseIf (plan.completed ∨ plan.failed)
      (.because .rejected .rolloutAlreadyComplete (text "rollout is no longer live")) ++
    refuseIf (!plan.stageEntered)
      (.because .conflict .stageOrderViolation (text "no stage is currently entered")) ++
    refuseIf plan.stageSettled
      (.because .conflict .stageCompletionDuplicate
        (text "this stage generation already has a committed decision"))

/-- Fail the current stage of a plan. -/
def failStage (s : EngineState) (request : RolloutProgressRequest) : EngineState × Decision :=
  match s.rolloutOf request.rollout with
  | none => (s, .because .notFound .unknownVersion (text "rollout is not registered"))
  | some plan =>
    match s.failRefusal request plan with
    | some refusal => (s, refusal.decision)
    | none =>
      match s.versionOf plan.model plan.candidate with
      | none =>
        (s, .because .notFound .unknownVersion (text "rollout candidate is not registered"))
      | some _ =>
        (s.commitFailure request.rollout plan
          (detailReason .stageFailureThresholdExceeded request.detail) true, .accepted)

/-- The history entry of an explicitly superseded plan. -/
def explicitSupersession (decided : Sequence) (detail : Text) (plan : RolloutPlan) : RolloutPlan :=
  { plan with
    superseded := true
    stageEntered := false
    updatedSequence := decided
    history := plan.history ++
      [{ stage := plan.currentStage.id
         generation := plan.currentStageGeneration
         enteredSequence := plan.createdSequence
         decidedSequence := decided
         decision := .superseded
         reasons := detailReason .rolloutSuperseded detail }] }

/-- Supersede a plan. -/
def supersedeRollout (s : EngineState) (rollout : RolloutId) (generation : RolloutGeneration)
    (epoch : CoordinatorEpoch) (detail : Text) : EngineState × Decision :=
  match s.rolloutOf rollout with
  | none => (s, .because .notFound .unknownVersion (text "rollout is not registered"))
  | some plan =>
    if generation.valid ∧ generation ≠ plan.generation then
      (s, .because .stalePlan .rolloutGenerationMismatch
        (text "a superseded generation cannot supersede a newer plan"))
    -- Only an older epoch is refused here; the sibling operations refuse any other one.
    else if epoch.valid ∧ epoch < s.epoch then
      (s, .because .conflict .coordinatorEpochStale
        (text "supersession request originates from a superseded epoch"))
    else if plan.superseded then (s, .accepted)
    else
      let s := s.bumpSequence
      let s := s.modifyRollout rollout (explicitSupersession s.sequence detail)
      let s := s.mapAuthority (·.supersedeRollout plan.id plan.generation)
      match s.versionOf plan.model plan.candidate with
      | none => (s, .accepted)
      | some candidate =>
        if candidate.retired then (s, .accepted)
        else
          ((s.advanceVersion plan.model plan.candidate .draining).stampVersion plan.model
            plan.candidate, .accepted)

end EngineState

end LifecycleFabric
