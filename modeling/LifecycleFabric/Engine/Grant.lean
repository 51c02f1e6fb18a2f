import LifecycleFabric.Engine.Checks

/-!
# Granting authority

The one routine through which every operation grants authority. It appends a binding
for a version in a scope, moves exclusive authority when asked to, retains the
displaced generation when the caller named it, and advances the scope generation.
-/

namespace LifecycleFabric

/-- What a caller of the grant routine asks for. -/
structure GrantRequest where
  model : ModelId
  version : ModelVersionId
  scope : ScopeId
  kind : AuthorityKind
  plan : Option RolloutPlan := none
  stage : Option StageDefinition := none
  promotion : PromotionId := {}
  promotionGeneration : PromotionGeneration := {}
  rollback : RollbackId := {}
  rollbackGeneration : RollbackGeneration := {}
  /-- Move exclusive authority instead of adding a binding of `kind`. -/
  supersedeExisting : Bool
  retentionTarget : ModelVersionId := {}
  retentionGeneration : ModelGeneration := {}

namespace EngineState

/-- The latest evidence generation handed out. -/
def latestEvidenceGeneration (s : EngineState) : EvidenceGeneration :=
  if 0 < s.nextEvidenceGeneration then ⟨s.nextEvidenceGeneration - 1⟩ else {}

/-- The binding a grant appends. The sequence is the one just handed out. -/
def grantedBinding (s : EngineState) (g : GrantRequest) (record : ModelVersionRecord)
    (scopeGeneration : ScopeGeneration) : AuthorityBinding where
  scope := g.scope
  scopeGeneration := scopeGeneration
  model := record.model
  version := record.version
  modelGeneration := record.generation
  artifactSet := record.artifact.setId
  artifactGeneration := record.artifact.generation
  lifecycleState := record.state
  kind := if g.supersedeExisting then .exclusive else g.kind
  rollout := (g.plan.map RolloutPlan.id).getD {}
  rolloutGeneration := (g.plan.map RolloutPlan.generation).getD {}
  stage := if g.plan.isSome then (g.stage.map StageDefinition.id).getD {} else {}
  stageGeneration :=
    match g.plan, g.stage with
    | some plan, some _ => plan.currentStageGeneration
    | _, _ => {}
  promotion := g.promotion
  promotionGeneration := g.promotionGeneration
  rollback := g.rollback
  rollbackGeneration := g.rollbackGeneration
  epoch := s.epoch
  evidenceGeneration := s.latestEvidenceGeneration
  grantedSequence := s.sequence

/-- The binding that retains a displaced generation for rollback. -/
def retentionBinding (s : EngineState) (scopeGeneration : ScopeGeneration)
    (displaced : AuthorityBinding) (previous : ModelVersionRecord) (scope : ScopeId) :
    AuthorityBinding where
  scope := scope
  scopeGeneration := scopeGeneration
  model := displaced.model
  version := displaced.version
  modelGeneration := displaced.modelGeneration
  artifactSet := displaced.artifactSet
  artifactGeneration := displaced.artifactGeneration
  lifecycleState := previous.state
  kind := .rollbackRetained
  rollout := displaced.rollout
  rolloutGeneration := displaced.rolloutGeneration
  epoch := s.epoch
  grantedSequence := s.sequence

/-- Whether the caller named a displaced generation as the one to retain. -/
def isRetentionTarget (g : GrantRequest) (displaced : AuthorityBinding) : Bool :=
  g.retentionTarget.valid && decide (g.retentionTarget = displaced.version) &&
    (!g.retentionGeneration.valid || decide (g.retentionGeneration = displaced.modelGeneration))

/-- Move a displaced version out of `CURRENT`: to draining when it holds nothing any
more, to partially promoted when it still holds a scope. -/
def demoteDisplaced (s : EngineState) (model : ModelId) (version : ModelVersionId) :
    EngineState :=
  if !s.holdsLiveAuthority model version false then s.advanceVersion model version .draining
  else
    match s.versionOf model version with
    | some record =>
      if record.state = .current then s.advanceVersion model version .partiallyPromoted else s
    | none => s

/-- Retain a displaced generation if the caller named it, then demote it. -/
def settleDisplaced (s : EngineState) (g : GrantRequest) (scopeGeneration : ScopeGeneration)
    (displaced : AuthorityBinding) : EngineState × Decision :=
  match s.versionOf displaced.model displaced.version with
  | none => (s, .accepted)
  | some previous =>
    if previous.retired then (s, .accepted)
    else if isRetentionTarget g displaced then
      let s := s.bumpSequence
      let (table, retained) :=
        s.authority.grant (s.retentionBinding scopeGeneration displaced previous g.scope) true
      if !retained.allowed then
        (s, ({ outcome := retained.outcome } : Decision).addAll retained.reasons)
      else (({ s with authority := table }).demoteDisplaced displaced.model displaced.version,
        .accepted)
    else (s.demoteDisplaced displaced.model displaced.version, .accepted)

/-- Put a binding into the table: move exclusive authority to it, or add it beside the
others as far as the policy permits coexistence. -/
def placeBinding (s : EngineState) (g : GrantRequest) (binding : AuthorityBinding) :
    AuthorityTable × Decision × Option AuthorityBinding :=
  if g.supersedeExisting then s.authority.replaceExclusive binding
  else
    let allowCoexistence := (s.policy.effective s.scopes g.scope).allowSplitTraffic
    let (table, granted) := s.authority.grant binding allowCoexistence
    (table, granted, none)

/-- Grant authority for a version over a scope. -/
def grantAuthority (s : EngineState) (g : GrantRequest) : EngineState × Decision :=
  match s.versionOf g.model g.version with
  | none => (s, .because .rejected .unknownVersion [])
  | some record =>
    if record.retired then
      (s, .because .rejected .promotionCandidateRetired
        (text "a retired generation can never be granted authority"))
    else
      match s.scopes.find g.scope with
      | none =>
        (s, .because .rejected .unknownScope
          (text "authority target scope is not registered"))
      | some scopeRecord =>
        let s := s.bumpSequence
        let (table, granted, displaced) :=
          s.placeBinding g (s.grantedBinding g record scopeRecord.generation)
        if !granted.allowed then
          (s, ({ outcome := granted.outcome } : Decision).addAll granted.reasons)
        else
          let s := { s with authority := table }
          match displaced with
          | some displaced =>
            if !displaced.version.valid then (s.touchScope g.scope, .accepted)
            else
              let (s, settled) := s.settleDisplaced g scopeRecord.generation displaced
              if !settled.allowed then (s, settled) else (s.touchScope g.scope, .accepted)
          | none => (s.touchScope g.scope, .accepted)

end EngineState

end LifecycleFabric
