import LifecycleFabric.Engine.Registry

/-!
# Promotion

The promotion gate and the operation that commits a promotion, either at once or by
preparing the candidate for a rollout plan.
-/

namespace LifecycleFabric

/-- Request to promote a version in a scope. -/
structure PromotionRequest where
  model : ModelId := {}
  candidate : ModelVersionId := {}
  candidateGeneration : ModelGeneration := {}
  artifactGeneration : ArtifactGeneration := {}
  compatibilityGeneration : CompatibilityGeneration := {}
  policyGeneration : PolicyGeneration := {}
  epoch : CoordinatorEpoch := {}
  scope : ScopeId := {}
  scopeGeneration : ScopeGeneration := {}
  strategy : RolloutStrategy := .canary
  rollbackTarget : ModelVersionId := {}
  rollbackTargetGeneration : ModelGeneration := {}
  evidenceGeneration : EvidenceGeneration := {}
  worker : WorkerId := {}
  boot : WorkerBootId := {}
  administrativeApproval : Bool := false
  requestImmediateCutover : Bool := false
  environmentKey : Text := []
  environment : Option EnvironmentProfile := none

namespace PromotionRequest

/-- Whether a promotion takes the scope at once. -/
def immediate (request : PromotionRequest) : Bool :=
  request.requestImmediateCutover || decide (request.strategy = .immediateCutover)

/-- The lifecycle state a promotion brings the candidate to. -/
def targetState (request : PromotionRequest) : LifecycleState :=
  if request.immediate then .current else .canaryPending

end PromotionRequest

/-- What a promotion returns. -/
structure PromotionOutcome where
  decision : Decision
  promotion : PromotionId := {}
  promotionGeneration : PromotionGeneration := {}
  immediate : Bool := false

/-- Whether an artifact binding names a set and a generation. -/
def ArtifactBinding.valid (binding : ArtifactBinding) : Bool :=
  binding.setId.valid && binding.generation.valid

/-- Whether compatibility has been established for a version. -/
def ModelVersionRecord.hasCompatibility (record : ModelVersionRecord) : Bool :=
  record.compatibilityGeneration.valid

/-- Whether a binding grants authority to the current generation of a version. -/
def AuthorityBinding.bindsCurrent (binding : AuthorityBinding) (record : ModelVersionRecord) :
    Bool :=
  binding.ofVersion record.model record.version &&
    decide (binding.modelGeneration = record.generation)

/-- Severity of an outcome of the promotion gate. -/
def promotionRank : OutcomeCode → ℕ
  | .promotionAllowed => 0
  | .rejected => 1
  | .promotionBlocked => 2
  | .notFound => 3
  | .conflict => 4
  | .boundsExceeded => 5
  | .stalePlan => 6
  | .staleEvidence => 7
  | .revalidationRequired => 8
  | .ambiguous => 9
  | .incompatible => 10
  | _ => 2

namespace EngineState

/-- Faults of the caller's authority. -/
def callerFaults (s : EngineState) (epoch : CoordinatorEpoch) (policy : PolicyGeneration)
    (worker : WorkerId) (boot : WorkerBootId) : List Fault :=
  faultsOf (s.checkEpoch epoch) ++ faultsOf (s.checkPolicyGeneration policy) ++
    faultsOf (s.checkWorker worker boot epoch)

/-- The policy a promotion is judged by. -/
def promotionPolicy (s : EngineState) (scope : ScopeId) : LifecyclePolicy :=
  match s.scopes.find scope with
  | some _ => s.policy.effective s.scopes scope
  | none => s.policy.base

/-- Faults of the candidate itself. -/
def candidateFaults (request : PromotionRequest) (record : ModelVersionRecord) : List Fault :=
  faultIf record.retired
    ⟨.incompatible, .promotionCandidateRetired,
      text "candidate generation is retired and can never regain authority", refusing⟩ ++
  faultIf (¬record.state.isPromotableFrom)
    ⟨.conflict, .versionNotPromotionEligible,
      text "candidate is in state " ++ record.state.toText, refusing⟩ ++
  faultIf (request.candidateGeneration.valid ∧ request.candidateGeneration ≠ record.generation)
    ⟨.stalePlan, .modelGenerationMismatch,
      text "request cites a superseded model generation", refusing⟩ ++
  faultIf (¬record.artifact.valid)
    ⟨.incompatible, .artifactSetMissing, text "candidate has no artifact-set binding", refusing⟩ ++
  faultIf (request.artifactGeneration.valid ∧
      request.artifactGeneration ≠ record.artifact.generation)
    ⟨.stalePlan, .artifactGenerationMismatch,
      text "request cites a superseded artifact generation", refusing⟩

/-- Faults of the target scope. -/
def targetScopeFaults (s : EngineState) (request : PromotionRequest) : List Fault :=
  let effective := s.promotionPolicy request.scope
  match s.scopes.find request.scope with
  | none => [⟨.notFound, .unknownScope, text "target scope is not registered", refusing⟩]
  | some scope =>
    faultIf (request.scopeGeneration.valid ∧ request.scopeGeneration ≠ scope.generation)
      ⟨.stalePlan, .scopeGenerationMismatch,
        text "target scope generation advanced since the request was formed", refusing⟩ ++
    faultIf (¬effective.promotableScopeKinds.isEmpty ∧
        ¬effective.promotableScopeKinds.contains scope.kind)
      ⟨.incompatible, .policyScopeNotTargetable,
        text "policy does not permit promotion into this scope kind", refusing⟩

/-- Faults of the candidate's compatibility. -/
def compatibilityFaults (s : EngineState) (request : PromotionRequest)
    (record : ModelVersionRecord) : List Fault :=
  let compatibility :=
    s.resolveCompatibilityFor record request.environmentKey request.environment
  let verdict :=
    match compatibility.outcome with
    | .compatible => []
    | .unknown =>
      [⟨.incompatible, .compatibilityUnknown,
        text "compatibility could not be established for the candidate", refusing⟩]
    | .staleEvidence =>
      [⟨.staleEvidence, .compatibilityStale,
        text "published compatibility no longer matches the candidate generation", refusing⟩]
    | outcome =>
      [⟨.incompatible, outcome.reasonFor,
        text "candidate is not compatible with the target environment", refusing⟩]
  verdict ++
  faultIf (request.compatibilityGeneration.valid ∧
      request.compatibilityGeneration ≠ record.compatibilityGeneration)
    ⟨.stalePlan, .compatibilityGenerationMismatch,
      text "request cites a superseded compatibility generation", refusing⟩

/-- Whether a promotion displaces an authoritative generation of its scope. -/
def displacesAuthority (s : EngineState) (scope : ScopeId) (record : ModelVersionRecord) : Bool :=
  (s.authority.liveBindingsFor scope).any fun binding =>
    decide (binding.kind = .exclusive) && !binding.bindsCurrent record

/-- Faults of the declared rollback target, or of its absence. -/
def rollbackTargetFaults (s : EngineState) (request : PromotionRequest)
    (record : ModelVersionRecord) : List Fault :=
  if request.rollbackTarget.valid then
    match s.versionOf request.model request.rollbackTarget with
    | none =>
      [⟨.notFound, .rollbackTargetUnknown,
        text "declared rollback target is not registered", refusing⟩]
    | some rollback =>
      if rollback.retired then
        [⟨.incompatible, .rollbackTargetRetired,
          text "declared rollback target is retired", refusing⟩]
      else if !rollback.artifact.valid then
        [⟨.incompatible, .rollbackTargetArtifactMissing,
          text "declared rollback target has no artifact binding", refusing⟩]
      else if !rollback.hasCompatibility then
        [⟨.incompatible, .rollbackTargetIncompatible,
          text "declared rollback target has no current compatibility", refusing⟩]
      else
        faultIf (request.rollbackTargetGeneration.valid ∧
            request.rollbackTargetGeneration ≠ rollback.generation)
          ⟨.stalePlan, .modelGenerationMismatch,
            text "rollback target generation advanced", refusing⟩
  else
    -- A first deployment displaces nothing and needs no rollback target.
    faultIf (s.displacesAuthority request.scope record ∧
        (s.promotionPolicy request.scope).requireRollbackTarget)
      ⟨.promotionBlocked, .rollbackTargetRequired,
        text "policy requires a valid rollback target when replacing a serving generation",
        refusing⟩

/-- Faults of the evidence and approval the policy asks for. -/
def promotionEvidenceFaults (s : EngineState) (request : PromotionRequest)
    (record : ModelVersionRecord) : List Fault :=
  let effective := s.promotionPolicy request.scope
  faultsOf (s.checkEvidenceList
    (effective.globallyRequiredEvidence.map fun kind => { kind })
    (versionSubject record request.scope)) ++
  faultIf (effective.requireManualApprovalForPromotion ∧ ¬request.administrativeApproval)
    ⟨.promotionBlocked, .policyRequiresApproval,
      text "policy requires an explicit administrative approval for promotion", refusing⟩

/-- The generations a scope would hold after a promotion, retained ones left out. -/
def projectedGenerations (s : EngineState) (scope : ScopeId) (record : ModelVersionRecord) : ℕ :=
  let serving := (s.authority.liveBindingsFor scope).filter fun binding =>
    decide (binding.kind ≠ .rollbackRetained)
  let others := (serving.filter fun binding => !binding.bindsCurrent record).map fun binding =>
    (binding.model.raw, binding.version.raw, binding.modelGeneration.raw)
  let present := serving.any (·.bindsCurrent record)
  others.dedup.length + if present then 0 else 1

/-- Faults of coexistence in the target scope. -/
def coexistenceFaults (s : EngineState) (request : PromotionRequest)
    (record : ModelVersionRecord) : List Fault :=
  let effective := s.promotionPolicy request.scope
  match s.scopes.find request.scope with
  | none => []
  | some _ =>
    let projected := s.projectedGenerations request.scope record
    faultIf (effective.maxActiveGenerationsPerScope.toNat < projected)
      ⟨.conflict, .coexistenceLimitExceeded,
        text "scope would hold more authoritative generations than policy permits", refusing⟩ ++
    faultIf (1 < projected ∧ ¬effective.allowSplitTraffic ∧
        ¬(request.requestImmediateCutover ∧ 1 ≤ effective.maxActiveGenerationsPerScope))
      ⟨.conflict, .policyDeniesCoexistence,
        text "policy forbids split traffic in this scope", refusing⟩

/-- Faults of the requested strategy and of the registry itself. -/
def strategyFaults (cfg : EngineConfig) (s : EngineState) (request : PromotionRequest)
    (record : ModelVersionRecord) : List Fault :=
  let effective := s.promotionPolicy request.scope
  faultIf (request.requestImmediateCutover ∧ ¬effective.allowImmediateCutover)
    ⟨.promotionBlocked, .policyDeniesPromotion,
      text "policy forbids immediate cutover", refusing⟩ ++
  faultIf (request.strategy = .immediateCutover ∧ ¬effective.allowImmediateCutover)
    ⟨.promotionBlocked, .policyDeniesPromotion,
      text "policy forbids the immediate-cutover strategy", refusing⟩ ++
  faultIf (request.model.valid ∧ record.model ≠ request.model)
    ⟨.notFound, .unknownModel,
      text "candidate version does not belong to the requested model", refusing⟩ ++
  faultIf (cfg.bounds.maxModels = 0 ∨ cfg.bounds.maxVersionsPerModel = 0)
    ⟨.boundsExceeded, .boundsModelCount,
      text "registry is configured with zero capacity", refusing⟩

/-- Every fault of a promotion of a registered candidate, in the order of the checks. -/
def promotionFaults (cfg : EngineConfig) (s : EngineState) (request : PromotionRequest)
    (record : ModelVersionRecord) : List Fault :=
  s.callerFaults request.epoch request.policyGeneration request.worker request.boot ++
    candidateFaults request record ++ s.targetScopeFaults request ++
    s.compatibilityFaults request record ++ s.rollbackTargetFaults request record ++
    s.promotionEvidenceFaults request record ++ s.coexistenceFaults request record ++
    strategyFaults cfg s request record

/-- The promotion gate. -/
def evaluatePromotion (cfg : EngineConfig) (s : EngineState) (request : PromotionRequest) :
    Decision :=
  match s.versionOf request.model request.candidate with
  | none =>
    gateDecision promotionRank .promotionAllowed
      (s.callerFaults request.epoch request.policyGeneration request.worker request.boot ++
        [⟨.notFound, .unknownVersion,
          text "candidate version is not registered for this model", refusing⟩])
  | some record =>
    (gateDecision promotionRank .promotionAllowed (s.promotionFaults cfg request record)).normalize

/-- The history entry of a plan that is superseded while in flight. -/
def supersessionRecord (plan : RolloutPlan) (decided : Sequence) (detail : Text) : StageRecord where
  stage := ((plan.stages[plan.currentStageIndex]?).map StageDefinition.id).getD {}
  generation := plan.currentStageGeneration
  enteredSequence := plan.createdSequence
  decidedSequence := decided
  decision := .superseded
  reasons := [⟨.versionSuperseded, detail⟩]

/-- The plan superseded while in flight. -/
def supersededPlan (decided : Sequence) (detail : Text) (plan : RolloutPlan) : RolloutPlan :=
  { plan with
    superseded := true
    stageEntered := false
    updatedSequence := decided
    history := plan.history ++ [supersessionRecord plan decided detail] }

/-- Supersede the live rollouts of the other candidates of a model, in key order. -/
def supersedeInflight (record : ModelVersionRecord) : List UInt64 → EngineState → EngineState
  | [], s => s
  | key :: keys, s =>
    match s.rollouts.get? key with
    | none => supersedeInflight record keys s
    | some plan =>
      if ¬plan.live ∨ plan.model ≠ record.model ∨ plan.candidate = record.version then
        supersedeInflight record keys s
      else
        let s := s.bumpSequence
        let detail := text "a newer promotion superseded this rollout"
        let s :=
          { s with rollouts := s.rollouts.modify key (supersededPlan s.sequence detail) }
        let s := s.mapAuthority (·.supersedeRollout plan.id plan.generation)
        let s :=
          match s.versionOf plan.model plan.candidate with
          | none => s
          | some other =>
            if other.retired then s else s.advanceVersion plan.model plan.candidate .draining
        supersedeInflight record keys s

/-- Supersede the other live rollouts of the model, if the policy asks for it. -/
def clearInflight (s : EngineState) (request : PromotionRequest) (record : ModelVersionRecord) :
    EngineState :=
  if (s.policy.effective s.scopes request.scope).supersedeInflightRolloutOnNewPromotion then
    supersedeInflight record s.rollouts.keys s
  else s

/-- Record the committed promotion on the version and spend its identity. -/
def commitPromotion (s : EngineState) (request : PromotionRequest) (promotion : PromotionId)
    (promotionGeneration : PromotionGeneration) : EngineState :=
  let s := s.bumpSequence
  let s := s.modifyVersion request.model request.candidate fun record =>
    { record with
      lastPromotion := promotion
      promotionGeneration
      updatedSequence := s.sequence }
  { s with
    nextPromotionId := promotion.raw + 1
    committedPromotions := s.committedPromotions.insert promotion.raw () }

/-- Grant the candidate of an immediate promotion the requested scope. -/
def grantPromotion (s : EngineState) (request : PromotionRequest) (promotion : PromotionId)
    (promotionGeneration : PromotionGeneration) : EngineState × Decision :=
  if request.immediate then
    s.grantAuthority
      { model := request.model
        version := request.candidate
        scope := request.scope
        kind := .exclusive
        promotion
        promotionGeneration
        supersedeExisting := true
        retentionTarget := request.rollbackTarget
        retentionGeneration := request.rollbackTargetGeneration }
  else (s, .accepted)

/-- Promote a candidate. -/
def promote (cfg : EngineConfig) (s : EngineState) (request : PromotionRequest) :
    EngineState × PromotionOutcome :=
  let gate := s.evaluatePromotion cfg request
  if !gate.allowed then (s, { decision := gate })
  else
    match s.versionOf request.model request.candidate with
    | none =>
      (s, { decision := .because .notFound .unknownVersion
              (text "candidate vanished during promotion") })
    | some record =>
      if !(s.livePlansFor record.version).isEmpty then
        (s, { decision := .because .conflict .promotionCommitDuplicate
                (text "candidate already has a live rollout under another promotion") })
      else
        let s := s.clearInflight request record
        let promotion : PromotionId := ⟨s.nextPromotionId⟩
        let promotionGeneration := record.promotionGeneration.nextGeneration
        let advanced := s.advanceDecision request.model request.candidate request.targetState
        let s := s.advanceVersion request.model request.candidate request.targetState
        if !advanced.allowed then (s, { decision := advanced })
        else
          let (s, granted) := s.grantPromotion request promotion promotionGeneration
          if !granted.allowed then
            -- A failed promotion never leaves the candidate looking current.
            (s.advanceVersion request.model request.candidate .promotionBlocked,
              { decision := granted })
          else
            (s.commitPromotion request promotion promotionGeneration,
              { decision := { outcome := .promotionAllowed }
                promotion
                promotionGeneration
                immediate := request.immediate })

end EngineState

end LifecycleFabric
