import LifecycleFabric.Engine.Promotion

/-!
# Rollback

The rollback gate and the operation that restores a previous generation in a scope.
-/

namespace LifecycleFabric

/-- Request to roll a candidate back to a target in a scope. -/
structure RollbackRequest where
  model : ModelId := {}
  candidate : ModelVersionId := {}
  candidateGeneration : ModelGeneration := {}
  rollout : RolloutId := {}
  rolloutGeneration : RolloutGeneration := {}
  target : ModelVersionId := {}
  targetGeneration : ModelGeneration := {}
  targetArtifactGeneration : ArtifactGeneration := {}
  scope : ScopeId := {}
  scopeGeneration : ScopeGeneration := {}
  policyGeneration : PolicyGeneration := {}
  epoch : CoordinatorEpoch := {}
  worker : WorkerId := {}
  boot : WorkerBootId := {}
  /-- Automatic rollback commits only when policy authorizes it. -/
  automatic : Bool := false
  detail : Text := []

/-- What a rollback returns. -/
structure RollbackOutcome where
  decision : Decision
  rollback : RollbackId := {}
  rollbackGeneration : RollbackGeneration := {}
  restoredScopes : List ScopeId := []

/-- Severity of an outcome of the rollback gate. -/
def rollbackRank : OutcomeCode → ℕ
  | .rollbackAllowed => 0
  | .rejected => 1
  | .rollbackBlocked => 2
  | .notFound => 3
  | .conflict => 4
  | .stalePlan => 5
  | .staleEvidence => 6
  | .revalidationRequired => 7
  | .ambiguous => 8
  | .incompatible => 9
  | _ => 2

namespace EngineState

/-- Whether a candidate holds authority in a scope that can be taken away. -/
def candidateHolds (s : EngineState) (request : RollbackRequest)
    (candidate : ModelVersionRecord) : Bool :=
  (s.scopes.find request.scope).isSome &&
    (s.authority.liveBindingsFor request.scope).any fun binding =>
      binding.ofVersion candidate.model candidate.version &&
        decide (binding.kind ≠ .rollbackRetained)

/-- Faults of the rollback scope and of the candidate's authority there. -/
def rollbackScopeFaults (s : EngineState) (request : RollbackRequest)
    (candidate : ModelVersionRecord) : List Fault :=
  (match s.scopes.find request.scope with
    | none => [⟨.notFound, .unknownScope, text "rollback scope is not registered", refusing⟩]
    | some scope =>
      faultIf (request.scopeGeneration.valid ∧ request.scopeGeneration ≠ scope.generation)
        ⟨.stalePlan, .scopeGenerationMismatch,
          text "rollback cites a superseded scope generation", refusing⟩) ++
  faultIf (¬s.candidateHolds request candidate)
    ⟨.rollbackBlocked, .noCurrentAuthority,
      text "the candidate holds no live authority in the rollback scope", refusing⟩

/-- Faults of the rollout a rollback names. -/
def rollbackPlanFaults (s : EngineState) (request : RollbackRequest)
    (candidate : ModelVersionRecord) : List Fault :=
  if !request.rollout.valid then []
  else
    match s.rolloutOf request.rollout with
    | none =>
      [⟨.notFound, .unknownVersion, text "rollback cites an unknown rollout", refusing⟩]
    | some plan =>
      faultIf (request.rolloutGeneration.valid ∧ request.rolloutGeneration ≠ plan.generation)
        ⟨.stalePlan, .rolloutGenerationMismatch,
          text "rollback cites a superseded rollout generation", refusing⟩ ++
      faultIf (plan.candidate ≠ candidate.version)
        ⟨.conflict, .rollbackSupersededByNewerGeneration,
          text "rollback cites a rollout for a different candidate generation", refusing⟩ ++
      faultIf plan.lastRollback.valid
        ⟨.conflict, .rollbackCommitDuplicate,
          text "this rollout already committed a rollback", refusing⟩

/-- Faults of the rollback target. -/
def rollbackDestinationFaults (s : EngineState) (request : RollbackRequest)
    (candidate : ModelVersionRecord) : List Fault :=
  match s.versionOf request.model request.target with
  | none =>
    [⟨.notFound, .rollbackTargetUnknown,
      text "rollback target is not registered for this model", refusing⟩]
  | some target =>
    faultIf target.retired
      ⟨.incompatible, .rollbackTargetRetired,
        text "rollback target is retired and cannot be restored", refusing⟩ ++
    faultIf (¬target.artifact.valid)
      ⟨.incompatible, .rollbackTargetArtifactMissing,
        text "rollback target has no artifact binding", refusing⟩ ++
    faultIf (request.targetArtifactGeneration.valid ∧
        request.targetArtifactGeneration ≠ target.artifact.generation)
      ⟨.stalePlan, .artifactGenerationMismatch,
        text "rollback cites a superseded target artifact generation", refusing⟩ ++
    faultIf (request.targetGeneration.valid ∧ request.targetGeneration ≠ target.generation)
      ⟨.stalePlan, .modelGenerationMismatch,
        text "rollback cites a superseded target model generation", refusing⟩ ++
    faultIf (¬target.hasCompatibility)
      ⟨.incompatible, .rollbackTargetIncompatible,
        text "rollback target has no current compatibility binding", refusing⟩ ++
    faultIf (target.version = candidate.version)
      ⟨.rejected, .rollbackTargetUnknown,
        text "rollback target is the candidate itself", refusing⟩

/-- Faults the policy raises against a rollback. -/
def rollbackPolicyFaults (s : EngineState) (request : RollbackRequest) : List Fault :=
  let effective := s.promotionPolicy request.scope
  faultIf (request.automatic ∧ ¬effective.allowAutomaticRollback)
    ⟨.rollbackBlocked, .policyDeniesAutoRollback,
      text "policy does not authorize automatic rollback", refusing⟩ ++
  faultIf (¬effective.requireRollbackTarget ∧ ¬request.target.valid)
    ⟨.rollbackBlocked, .rollbackTargetRequired,
      text "a rollback requires an explicit target generation", refusing⟩

/-- Every fault of a rollback of a registered candidate, in the order of the checks. -/
def rollbackFaults (s : EngineState) (request : RollbackRequest)
    (candidate : ModelVersionRecord) : List Fault :=
  faultIf (request.candidateGeneration.valid ∧
      request.candidateGeneration ≠ candidate.generation)
    ⟨.stalePlan, .modelGenerationMismatch,
      text "rollback cites a superseded candidate generation", refusing⟩ ++
  s.callerFaults request.epoch request.policyGeneration request.worker request.boot ++
    s.rollbackScopeFaults request candidate ++ s.rollbackPlanFaults request candidate ++
    s.rollbackDestinationFaults request candidate ++ s.rollbackPolicyFaults request

/-- The rollback gate. -/
def evaluateRollback (s : EngineState) (request : RollbackRequest) : Decision :=
  match s.versionOf request.model request.candidate with
  | none =>
    gateDecision rollbackRank .rollbackAllowed
      [⟨.notFound, .unknownVersion, text "rollback candidate is not registered", refusing⟩]
  | some candidate =>
    (gateDecision rollbackRank .rollbackAllowed (s.rollbackFaults request candidate)).normalize

/-- The history entry of a rolled-back plan. -/
def rolledBackRecord (plan : RolloutPlan) (decided : Sequence) : StageRecord where
  stage := ((plan.stages[plan.currentStageIndex]?).map StageDefinition.id).getD {}
  generation := plan.currentStageGeneration
  enteredSequence := plan.createdSequence
  decidedSequence := decided
  decision := .rolledBack
  reasons := [⟨.rolloutSuperseded, text "rollback committed against this rollout"⟩]

/-- The live plan failed because its candidate was rolled back. -/
def rolledBackPlan (decided : Sequence) (plan : RolloutPlan) : RolloutPlan :=
  { plan with
    failed := true
    stageEntered := false
    history := plan.history ++ [rolledBackRecord plan decided] }

/-- The plan with its committed rollback recorded. -/
def markRollback (rollback : RollbackId) (rollbackGeneration : RollbackGeneration)
    (updated : Sequence) (plan : RolloutPlan) : RolloutPlan :=
  { plan with
    lastRollback := rollback
    lastRollbackGeneration := rollbackGeneration
    updatedSequence := updated }

/-- Stop the rollout a rollback names. A late stage completion can no longer commit
because the plan is no longer live. -/
def stopRollout (s : EngineState) (rollout : RolloutId) (rollback : RollbackId)
    (rollbackGeneration : RollbackGeneration) : EngineState :=
  match s.rolloutOf rollout with
  | none => s
  | some plan =>
    let s :=
      if plan.live then
        let s := s.bumpSequence
        s.modifyRollout rollout (rolledBackPlan s.sequence)
      else s
    let s := s.bumpSequence
    s.modifyRollout rollout (markRollback rollback rollbackGeneration s.sequence)

/-- The version with its committed rollback recorded. -/
def recordRollback (s : EngineState) (model : ModelId) (version : ModelVersionId)
    (rollback : RollbackId) (rollbackGeneration : RollbackGeneration) : EngineState :=
  s.modifyVersion model version fun record =>
    { record with lastRollback := rollback, rollbackGeneration }

/-- Stamp a version with the next sequence. -/
def stampVersion (s : EngineState) (model : ModelId) (version : ModelVersionId) : EngineState :=
  let s := s.bumpSequence
  s.modifyVersion model version fun record => { record with updatedSequence := s.sequence }

/-- Spend a rollback identity. -/
def commitRollback (s : EngineState) (rollout : UInt64) (rollback : RollbackId)
    (rollbackGeneration : RollbackGeneration) : EngineState :=
  { s with
    nextRollbackId := rollback.raw + 1
    committedRollbacks :=
      s.committedRollbacks.insert (toLex (rollout, rollbackGeneration.raw)) () }

/-- Bring the restored target into service and take the candidate out of it. -/
def settleRollback (s : EngineState) (request : RollbackRequest) (candidate : ModelVersionRecord)
    (rollback : RollbackId) (rollbackGeneration : RollbackGeneration) : EngineState :=
  let s := s.advanceVersion request.model request.target .current
  let s := s.stampVersion request.model request.target
  let s := s.mapAuthority (·.markDraining candidate.model candidate.version request.scope)
  let s :=
    if !s.holdsLiveAuthority candidate.model candidate.version true then
      s.advanceVersion request.model request.candidate .rolledBack
    else s.advanceVersion request.model request.candidate .partiallyPromoted
  let s := s.recordRollback request.model request.candidate rollback rollbackGeneration
  s.stampVersion request.model request.candidate

/-- Roll a candidate back to a target in a scope. -/
def rollback (s : EngineState) (request : RollbackRequest) : EngineState × RollbackOutcome :=
  let gate := s.evaluateRollback request
  if !gate.allowed then (s, { decision := gate })
  else
    match s.versionOf request.model request.candidate,
        s.versionOf request.model request.target with
    | some candidate, some _ =>
      let rollback : RollbackId := ⟨s.nextRollbackId⟩
      let rollbackGeneration := candidate.rollbackGeneration.nextGeneration
      -- Fence the candidate's authority in the scope, then restore the target's.
      let s := s.mapAuthority (·.supersedeScope request.scope)
      let (s, granted) :=
        s.grantAuthority
          { model := request.model
            version := request.target
            scope := request.scope
            kind := .exclusive
            rollback
            rollbackGeneration
            supersedeExisting := true }
      if !granted.allowed then (s, { decision := granted })
      else
        let s := s.settleRollback request candidate rollback rollbackGeneration
        let s :=
          if request.rollout.valid then s.stopRollout request.rollout rollback rollbackGeneration
          else s
        let s := s.commitRollback
          (if request.rollout.valid then request.rollout.raw else 0) rollback rollbackGeneration
        (s.touchScope request.scope,
          { decision := { outcome := .rollbackAllowed }
            rollback
            rollbackGeneration
            restoredScopes := [request.scope] })
    | _, _ =>
      (s, { decision := .because .notFound .unknownVersion
              (text "rollback participants vanished") })

end EngineState

end LifecycleFabric
