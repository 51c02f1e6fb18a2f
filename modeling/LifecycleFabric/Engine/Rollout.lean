import LifecycleFabric.Engine.Rollback

/-!
# Rollouts

Creation of a plan, entry into its stages, the stage gate, and the ways a plan ends:
its last stage commits, a stage fails, or it is superseded.
-/

namespace LifecycleFabric

/-- A cohort as a plan request describes it. -/
structure CohortSpec where
  name : Text := []
  scopes : List ScopeId := []
  trafficPercent : UInt32 := 0
  maxBlastRadiusPercent : UInt32 := 0

/-- A stage as a plan request describes it. -/
structure StageSpec where
  name : Text := []
  cohortIndices : List ℕ := []
  requiredEvidence : List EvidenceRequirement := []
  acceptance : List Criterion := []
  failure : List Criterion := []
  requireResidencyBeforeEntry : Bool := false
  requireDrainAfterCommit : Bool := false

/-- Request to create a rollout plan. -/
structure RolloutPlanRequest where
  model : ModelId := {}
  candidate : ModelVersionId := {}
  candidateGeneration : ModelGeneration := {}
  artifactGeneration : ArtifactGeneration := {}
  compatibilityGeneration : CompatibilityGeneration := {}
  policyGeneration : PolicyGeneration := {}
  rootScope : ScopeId := {}
  rootScopeGeneration : ScopeGeneration := {}
  strategy : RolloutStrategy := .canary
  /-- The generation the plan replaces; derived when absent. -/
  previous : ModelVersionId := {}
  previousGeneration : ModelGeneration := {}
  rollbackTarget : ModelVersionId := {}
  rollbackTargetGeneration : ModelGeneration := {}
  maxBlastRadiusPercent : UInt32 := 100
  manualProgression : Bool := false
  cohorts : List CohortSpec := []
  stages : List StageSpec := []
  epoch : CoordinatorEpoch := {}
  worker : WorkerId := {}
  boot : WorkerBootId := {}
  promotion : PromotionId := {}
  promotionGeneration : PromotionGeneration := {}

/-- Request about the progress of a plan. -/
structure RolloutProgressRequest where
  rollout : RolloutId := {}
  rolloutGeneration : RolloutGeneration := {}
  stage : RolloutStageId := {}
  stageGeneration : RolloutStageGeneration := {}
  scopeGeneration : ScopeGeneration := {}
  epoch : CoordinatorEpoch := {}
  worker : WorkerId := {}
  boot : WorkerBootId := {}
  administrativeApproval : Bool := false
  detail : Text := []

namespace RolloutPlan

/-- The scopes a stage moves, in order and without repetition. -/
def stageScopes (plan : RolloutPlan) (stage : StageDefinition) : List ScopeId :=
  sortUniqueScopes (plan.cohortScopes stage)

/-- Percentage of the root scope a stage moves; an unset share counts in full. -/
def stageBlastRadius (plan : RolloutPlan) (stage : StageDefinition) : UInt32 :=
  let total := stage.cohorts.foldl (fun (total : UInt32) id =>
    match plan.cohort id with
    | none => total
    | some cohort =>
      total + if cohort.trafficPercent ≠ 0 then cohort.trafficPercent else 100) 0
  if 100 < total then 100 else total

/-- The stage the plan is at; out of range it is the default stage. -/
def currentStage (plan : RolloutPlan) : StageDefinition :=
  (plan.stages[plan.currentStageIndex]?).getD {}

/-- The stage a plan begins with. -/
def firstStage (plan : RolloutPlan) : StageDefinition := (plan.stages[0]?).getD {}

/-- The stage after the current one. -/
def nextStage (plan : RolloutPlan) : StageDefinition :=
  (plan.stages[plan.currentStageIndex + 1]?).getD {}

/-- Whether the current stage generation already has a decision. -/
def stageSettled (plan : RolloutPlan) : Bool :=
  plan.history.any fun entry =>
    decide (entry.generation = plan.currentStageGeneration) && decide (entry.decision ≠ .entered)

end RolloutPlan

/-- Severity of an outcome of the stage gate. -/
def stageRank : OutcomeCode → ℕ
  | .stageAdvanceAllowed | .canaryAllowed => 0
  | .rejected => 1
  | .stageAdvanceBlocked | .canaryBlocked => 2
  | .conflict => 3
  | .boundsExceeded => 4
  | .stalePlan => 5
  | .staleEvidence => 6
  | .revalidationRequired => 7
  | .rollbackDecisionRequired => 8
  | .ambiguous => 9
  | .incompatible => 10
  | _ => 2

namespace EngineState

/-! ## Creating a plan -/

/-- Why a plan request is refused before anything is built: the first check failed. -/
def planRefusal (cfg : EngineConfig) (s : EngineState) (request : RolloutPlanRequest)
    (record : ModelVersionRecord) : Option Refusal :=
  firstRefusal <|
    refuseIf record.retired
      (.because .rejected .promotionCandidateRetired
        (text "cannot plan a rollout for a retired generation")) ++
    refuseIf (request.promotion.valid ∧ record.lastPromotion ≠ request.promotion)
      (.because .conflict .promotionGenerationMismatch
        (text "plan cites a promotion that is not the candidate's current promotion")) ++
    refuseIf (request.promotionGeneration.valid ∧
        record.promotionGeneration ≠ request.promotionGeneration)
      (.because .conflict .promotionGenerationMismatch
        (text "plan cites a superseded promotion generation")) ++
    refuseIf (!record.lastPromotion.valid ∧ !request.promotion.valid)
      (.because .rejected .promotionNotAuthorized
        (text "a rollout plan requires a committed promotion")) ++
    refuseIf (record.state ≠ .canaryPending ∧ record.state ≠ .rolloutActive ∧
        record.state ≠ .partiallyPromoted)
      (.because .conflict .versionNotPromotionEligible
        (text "candidate is not awaiting a canary")) ++
    refuseIf (request.candidateGeneration.valid ∧
        request.candidateGeneration ≠ record.generation)
      (.because .stalePlan .modelGenerationMismatch
        (text "plan cites an old model generation")) ++
    refuseIf (request.artifactGeneration.valid ∧
        request.artifactGeneration ≠ record.artifact.generation)
      (.because .stalePlan .artifactGenerationMismatch
        (text "plan cites an old artifact generation")) ++
    refuseIf (request.compatibilityGeneration.valid ∧
        request.compatibilityGeneration ≠ record.compatibilityGeneration)
      (.because .stalePlan .compatibilityGenerationMismatch
        (text "plan cites an old compatibility generation")) ++
    refusalOf (s.checkPolicyGeneration request.policyGeneration) ++
    refusalOf (s.checkEpoch request.epoch) ++
    refusalOf (s.checkWorker request.worker request.boot request.epoch) ++
    match s.scopes.find request.rootScope with
    | none =>
      [.because .notFound .unknownScope (text "plan root scope is not registered")]
    | some root =>
      let effective := s.policy.effective s.scopes request.rootScope
      refuseIf (request.rootScopeGeneration.valid ∧
          request.rootScopeGeneration ≠ root.generation)
        (.because .stalePlan .scopeGenerationMismatch
          (text "plan root scope generation advanced")) ++
      refuseIf (request.maxBlastRadiusPercent = 0 ∨
          effective.maxBlastRadiusPercent < request.maxBlastRadiusPercent)
        (.because .rejected .blastRadiusExceeded
          (text "plan blast radius exceeds the policy ceiling")) ++
      refuseIf (request.cohorts.isEmpty ∨ request.stages.isEmpty)
        (.because .rejected .stageOrderViolation
          (text "plan requires cohorts and stages")) ++
      refuseIf (cfg.bounds.maxStagesPerRollout < request.stages.length)
        (.because .boundsExceeded .boundsStageCount (text "stage bound reached")) ++
      refuseIf (cfg.bounds.maxCohortsPerRollout < request.cohorts.length)
        (.because .boundsExceeded .boundsCohortCount (text "cohort bound reached")) ++
      refuseIf (cfg.bounds.maxRollouts ≤ s.rollouts.size)
        (.because .boundsExceeded .boundsRolloutCount (text "rollout bound reached")) ++
      refuseIf (!(s.livePlansFor record.version).isEmpty)
        (.because .conflict .promotionCommitDuplicate
          (text "the candidate already has a live rollout plan"))

/-- The generation a plan replaces: the named one, or the first other version of the
model that holds a scope under the root exclusively. -/
def replacedGeneration (s : EngineState) (request : RolloutPlanRequest)
    (record : ModelVersionRecord) : ModelVersionId × ModelGeneration :=
  if request.previous.valid then
    (request.previous,
      ((s.versionOf request.model request.previous).map ModelVersionRecord.generation).getD {})
  else
    match (s.authority.subtreeBindings s.scopes request.rootScope).find? fun binding =>
        decide (binding.kind = .exclusive ∧ binding.model = record.model ∧
          binding.version ≠ record.version) with
    | some binding => (binding.version, binding.modelGeneration)
    | none => ({}, {})

/-- A plan without its cohorts and stages. -/
def planHeader (cfg : EngineConfig) (s : EngineState) (request : RolloutPlanRequest)
    (record : ModelVersionRecord) (rootGeneration : ScopeGeneration) : RolloutPlan where
  id := ⟨s.nextRolloutId⟩
  generation := record.rolloutGeneration.nextGeneration
  model := record.model
  candidate := record.version
  candidateGeneration := record.generation
  candidateArtifactSet := record.artifact.setId
  candidateArtifactGeneration := record.artifact.generation
  previous := (s.replacedGeneration request record).1
  previousGeneration := (s.replacedGeneration request record).2
  compatibilityGeneration := record.compatibilityGeneration
  policyGeneration := (s.policy.effective s.scopes request.rootScope).generation
  evidenceGeneration := s.latestEvidenceGeneration
  rootScope := request.rootScope
  rootScopeGeneration := rootGeneration
  strategy := request.strategy
  promotion := record.lastPromotion
  promotionGeneration := record.promotionGeneration
  rollbackTarget := request.rollbackTarget
  rollbackTargetGeneration := request.rollbackTargetGeneration
  maxBlastRadiusPercent := request.maxBlastRadiusPercent
  manualProgression := request.manualProgression
  provenance := cfg.defaultProvenance
  createdSequence := s.sequence

/-- Why the scopes of a cohort are refused: the first bad one. -/
def cohortScopeRefusal (s : EngineState) (root : ScopeId) : List ScopeId → Option Decision
  | [] => none
  | scope :: scopes =>
    if (s.scopes.find scope).isNone then
      some (.because .rejected .unknownScope (text "cohort references an unregistered scope"))
    else if !s.scopes.isAncestorOrSelf root scope then
      some (.because .rejected .cohortScopeInvalid
        (text "cohort scope lies outside the plan root scope"))
    else cohortScopeRefusal s root scopes

/-- Build the cohorts in order. The first component is the cohort allocator, which
keeps the identities handed out before a refusal. -/
def buildCohorts (cfg : EngineConfig) (s : EngineState) (root : ScopeId) :
    List CohortSpec → UInt64 → List CohortDefinition →
      UInt64 × Except Decision (List CohortDefinition)
  | [], next, built => (next, .ok built)
  | spec :: specs, next, built =>
    if !validToken spec.name cfg.bounds.maxNameLength then
      (next, .error (.because .rejected .invalidName
        (text "cohort name must be a bounded token")))
    else if built.any fun cohort => decide (cohort.name = spec.name) then
      (next, .error (.because .conflict .invalidName
        (text "cohort names must be unique within a plan")))
    else if spec.scopes.isEmpty then
      (next, .error (.because .rejected .cohortScopeInvalid (text "cohort has no scopes")))
    else
      match s.cohortScopeRefusal root spec.scopes with
      | some refusal => (next + 1, .error refusal)
      | none =>
        if 100 < spec.trafficPercent then
          (next + 1, .error (.because .rejected .blastRadiusExceeded
            (text "cohort traffic percent exceeds 100")))
        else
          let cohort : CohortDefinition :=
            { id := ⟨next⟩
              name := spec.name
              scopes := RolloutPlan.sortUniqueScopes spec.scopes
              trafficPercent := spec.trafficPercent
              maxBlastRadiusPercent := spec.maxBlastRadiusPercent }
          buildCohorts cfg s root specs (next + 1) (built ++ [cohort])

/-- Resolve the cohort positions of a stage; a cohort belongs to one stage only. -/
def resolveCohorts (cohorts : List CohortDefinition) :
    List ℕ → List CohortId → List CohortId → Except Decision (List CohortId × List CohortId)
  | [], used, chosen => .ok (used, chosen)
  | index :: indices, used, chosen =>
    match cohorts[index]? with
    | none =>
      .error (.because .rejected .stageOrderViolation
        (text "stage references an unknown cohort"))
    | some cohort =>
      if used.contains cohort.id then
        .error (.because .rejected .stageOrderViolation
          (text "a cohort may belong to exactly one stage"))
      else resolveCohorts cohorts indices (cohort.id :: used) (chosen ++ [cohort.id])

/-- Build the stages in order. The first component is the stage allocator, which keeps
the identities handed out before a refusal. -/
def buildStages (cfg : EngineConfig) (cohorts : List CohortDefinition) :
    List StageSpec → UInt64 → List CohortId → List StageDefinition →
      UInt64 × Except Decision (List StageDefinition)
  | [], next, _, built => (next, .ok built)
  | spec :: specs, next, used, built =>
    if !validToken spec.name cfg.bounds.maxNameLength then
      (next, .error (.because .rejected .invalidName
        (text "stage name must be a bounded token")))
    else if spec.cohortIndices.isEmpty then
      (next, .error (.because .rejected .stageOrderViolation
        (text "stage references no cohort")))
    else
      match resolveCohorts cohorts spec.cohortIndices used [] with
      | .error refusal => (next + 1, .error refusal)
      | .ok (used, chosen) =>
        let stage : StageDefinition :=
          { id := ⟨next⟩
            name := spec.name
            cohorts := chosen
            requiredEvidence := spec.requiredEvidence
            acceptance := spec.acceptance
            failure := spec.failure
            requireResidencyBeforeEntry := spec.requireResidencyBeforeEntry
            requireDrainAfterCommit := spec.requireDrainAfterCommit }
        buildStages cfg cohorts specs (next + 1) used (built ++ [stage])

/-- Store a built plan and bind it to its candidate. -/
def installPlan (s : EngineState) (request : RolloutPlanRequest) (plan : RolloutPlan) :
    EngineState :=
  let s := s.bumpSequence
  let s := s.modifyVersion request.model request.candidate fun record =>
    { record with
      rollout := plan.id
      rolloutGeneration := plan.generation
      updatedSequence := s.sequence }
  { s with
    nextRolloutId := plan.id.raw + 1
    rollouts := s.rollouts.insertNew plan.id.raw plan }

/-- Create a rollout plan for a promoted candidate. A refusal while the cohorts or
stages are built keeps the sequence and the identities spent until then. -/
def createRollout (cfg : EngineConfig) (s : EngineState) (request : RolloutPlanRequest) :
    EngineState × Decision × RolloutId × RolloutGeneration :=
  match s.versionOf request.model request.candidate with
  | none =>
    (s, .because .notFound .unknownVersion (text "rollout candidate is not registered"), {}, {})
  | some record =>
    match s.planRefusal cfg request record with
    | some refusal => (s, refusal.decision, {}, {})
    | none =>
      let rootGeneration :=
        ((s.scopes.find request.rootScope).map ScopeRecord.generation).getD {}
      let s := s.bumpSequence
      let header := s.planHeader cfg request record rootGeneration
      match s.buildCohorts cfg request.rootScope request.cohorts s.nextCohortId [] with
      | (nextCohort, .error refusal) => ({ s with nextCohortId := nextCohort }, refusal, {}, {})
      | (nextCohort, .ok cohorts) =>
        let s := { s with nextCohortId := nextCohort }
        match buildStages cfg cohorts request.stages s.nextStageId [] [] with
        | (nextStage, .error refusal) => ({ s with nextStageId := nextStage }, refusal, {}, {})
        | (nextStage, .ok stages) =>
          let s := { s with nextStageId := nextStage }
          if cfg.bounds.maxRollouts ≤ s.rollouts.size then
            (s, .because .boundsExceeded .boundsRolloutCount (text "rollout bound reached"),
              {}, {})
          else
            let plan := { header with cohorts, stages }
            (s.installPlan request plan, .accepted, plan.id, plan.generation)

/-! ## Entering a stage -/

/-- Grant authority over a list of scopes, stopping at the first refusal. `after` runs
once a scope is granted. -/
def grantOver (grant : ScopeId → GrantRequest) (after : ScopeId → EngineState → EngineState) :
    List ScopeId → EngineState → EngineState × Decision
  | [], s => (s, .accepted)
  | scope :: scopes, s =>
    let (s, granted) := s.grantAuthority (grant scope)
    if !granted.allowed then (s, granted) else grantOver grant after scopes (after scope s)

/-- The grant of a plan's stage in one scope. -/
def stageGrant (plan : RolloutPlan) (stage : StageDefinition) (kind : AuthorityKind)
    (supersedeExisting : Bool) (scope : ScopeId) : GrantRequest where
  model := plan.model
  version := plan.candidate
  scope := scope
  kind := kind
  plan := plan
  stage := stage
  promotion := plan.promotion
  promotionGeneration := plan.promotionGeneration
  supersedeExisting := supersedeExisting
  retentionTarget := plan.rollbackTarget
  retentionGeneration := plan.rollbackTargetGeneration

/-- The evidence that blocks entry into a stage: the first scope that lacks it. -/
def entryBlocked (s : EngineState) (record : ModelVersionRecord) (stage : StageDefinition)
    (residencyRequired : Bool) : List ScopeId → Option Decision
  | [] => none
  | scope :: scopes =>
    let subject := versionSubject record scope
    let blocked : Decision := { outcome := .canaryBlocked }
    let evidence := s.checkEvidenceList stage.requiredEvidence subject
    let residency := s.checkEvidenceList [{ kind := .residencyReady }] subject
    if !evidence.allowed then some (blocked.addAll evidence.reasons).normalize
    else if residencyRequired ∧ ¬residency.allowed then
      some (blocked.addAll
        (residency.reasons.map fun r => ⟨.residencyNotResident, r.detail⟩)).normalize
    else entryBlocked s record stage residencyRequired scopes

/-- Refresh the root binding of a plan, so that its own authorized action does not
make it stale. -/
def refreshRoot (s : EngineState) (rollout : RolloutId) (root : ScopeId) : EngineState :=
  match s.scopes.find root with
  | none => s
  | some record =>
    s.modifyRollout rollout fun plan => { plan with rootScopeGeneration := record.generation }

/-- The plan with a stage entered at the next stage generation. -/
def enterStage (stage : StageDefinition) (updated : Sequence) (plan : RolloutPlan) :
    RolloutPlan :=
  let generation := plan.currentStageGeneration.nextGeneration
  { plan with
    currentStageGeneration := generation
    stageEntered := true
    updatedSequence := updated
    history := plan.history ++
      [{ stage := stage.id, generation, enteredSequence := updated, decision := .entered }] }

/-- The version with its current stage recorded. -/
def recordStage (s : EngineState) (model : ModelId) (version : ModelVersionId)
    (stage : RolloutStageId) (generation : RolloutStageGeneration) : EngineState :=
  s.modifyVersion model version fun record =>
    { record with currentStage := stage, currentStageGeneration := generation }

/-- Why a request to begin a plan is refused: the first check failed. -/
def beginRefusal (s : EngineState) (request : RolloutProgressRequest) (plan : RolloutPlan) :
    Option Refusal :=
  firstRefusal <|
    refuseIf (request.rolloutGeneration.valid ∧ request.rolloutGeneration ≠ plan.generation)
      (.because .stalePlan .rolloutGenerationMismatch
        (text "request cites a superseded rollout generation")) ++
    refusalOf (s.checkEpoch request.epoch) ++
    refusalOf (s.checkWorker request.worker request.boot request.epoch) ++
    refuseIf plan.superseded
      (.because .stalePlan .rolloutSuperseded (text "rollout was superseded")) ++
    refuseIf (plan.completed ∨ plan.failed)
      (.because .rejected .rolloutAlreadyComplete (text "rollout is no longer live")) ++
    refuseIf plan.stageEntered
      (.because .conflict .stageOrderViolation (text "a stage is already entered")) ++
    refuseIf (plan.currentStageIndex ≠ 0)
      (.because .conflict .stageOrderViolation
        (text "rollout did not begin at the first stage")) ++
    match s.checkPlanBindings plan with
    | some (_, detail) => [.because .stalePlan .rolloutPlanStale detail]
    | none => []

/-- Enter the first stage of a plan. -/
def beginRollout (s : EngineState) (request : RolloutProgressRequest) : EngineState × Decision :=
  match s.rolloutOf request.rollout with
  | none => (s, .because .notFound .unknownVersion (text "rollout is not registered"))
  | some plan =>
    match s.beginRefusal request plan with
    | some refusal => (s, refusal.decision)
    | none =>
      match s.versionOf plan.model plan.candidate with
      | none =>
        (s, .because .notFound .unknownVersion (text "rollout candidate is not registered"))
      | some record =>
        let stage := plan.firstStage
        let scopes := plan.stageScopes stage
        let effective := s.policy.effective s.scopes plan.rootScope
        let residencyRequired :=
          stage.requireResidencyBeforeEntry || effective.requireResidencyBeforeStageEntry
        match s.entryBlocked record stage residencyRequired scopes with
        | some refusal => (s, refusal)
        | none =>
          let s := s.bumpSequence
          let entered := enterStage stage s.sequence plan
          let s := s.modifyRollout request.rollout (enterStage stage s.sequence)
          let advanced := s.advanceDecision plan.model plan.candidate .canaryActive
          let s := s.advanceVersion plan.model plan.candidate .canaryActive
          if !advanced.allowed then (s, advanced)
          else
            let s := s.recordStage plan.model plan.candidate stage.id
              entered.currentStageGeneration
            let s := s.stampVersion plan.model plan.candidate
            let (s, granted) :=
              grantOver (stageGrant entered stage .canary false) (fun _ s => s) scopes s
            if !granted.allowed then
              (s, ({ outcome := granted.outcome } : Decision).addAll granted.reasons)
            else (s.refreshRoot request.rollout plan.rootScope, { outcome := .canaryAllowed })

end EngineState

end LifecycleFabric
