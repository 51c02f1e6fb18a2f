import LifecycleFabric.Engine.Grant

/-!
# Registry operations

Registration of models, versions and scopes, revision of a version's content, and
policy changes.
-/

namespace LifecycleFabric

/-- Request to register a version. -/
structure RegisterVersionRequest where
  model : ModelId := {}
  label : Text := []
  artifact : ArtifactBinding := {}
  requirements : ModelRequirements := {}
  predecessor : ModelVersionId := {}
  provenance : Provenance := .unknown

/-- Request to revise the content of a version. -/
structure ReviseVersionRequest where
  model : ModelId := {}
  version : ModelVersionId := {}
  expectedGeneration : ModelGeneration := {}
  artifact : ArtifactBinding := {}
  requirements : ModelRequirements := {}

namespace EngineState

/-- Register a model family. -/
def registerModel (cfg : EngineConfig) (s : EngineState) (name family : Text)
    (provenance : Provenance) : EngineState × Decision × ModelId :=
  if !validToken name cfg.bounds.maxNameLength then
    (s, .because .rejected .invalidName (text "model name must be a bounded token"), {})
  else if !family.isEmpty ∧ !validToken family cfg.bounds.maxNameLength then
    (s, .because .rejected .invalidName (text "model family must be a bounded token"), {})
  else if s.modelNames.contains name then
    (s, .because .conflict .duplicateModel name, {})
  else if cfg.bounds.maxModels ≤ s.models.size then
    (s, .because .boundsExceeded .boundsModelCount (text "model registry bound reached"), {})
  else
    let id : ModelId := ⟨s.nextModelId⟩
    let s := ({ s with nextModelId := s.nextModelId + 1 }).bumpSequence
    let record : ModelRecord :=
      { id, name, family
        provenance := provenance.orDefault cfg.defaultProvenance
        createdSequence := s.sequence }
    ({ s with
        modelNames := s.modelNames.insertNew name id
        models := s.models.insertNew id.raw record }, .accepted, id)

/-- The number of versions of a model. -/
def versionCount (s : EngineState) (model : ModelId) : ℕ :=
  (s.versions.filter fun key _ => (ofLex key).1 == model.raw).size

/-- Why a declared predecessor is refused. -/
def predecessorRefusal (cfg : EngineConfig) (s : EngineState) (request : RegisterVersionRequest) :
    Option Decision :=
  if !request.predecessor.valid then none
  else
    match s.versionOf request.model request.predecessor with
    | none =>
      some (.because .rejected .parentVersionMissing
        (text "declared predecessor is not registered for this model"))
    | some predecessor =>
      if predecessor.retired ∧ ¬cfg.policy.allowVersionLabelReuseAfterRetirement then
        some (.because .rejected .versionRetired
          (text "predecessor is retired; policy forbids extending a retired lineage"))
      else none

/-- The record of a newly registered version. -/
def newVersion (cfg : EngineConfig) (s : EngineState) (request : RegisterVersionRequest)
    (version : ModelVersionId) : ModelVersionRecord where
  model := request.model
  version := version
  label := request.label
  predecessor := request.predecessor
  predecessorGeneration :=
    if request.predecessor.valid then
      ((s.versionOf request.model request.predecessor).map ModelVersionRecord.generation).getD {}
    else {}
  artifact := request.artifact
  requirements := request.requirements
  provenance := request.provenance.orDefault cfg.defaultProvenance
  createdSequence := s.sequence
  updatedSequence := s.sequence

/-- Register a version of a model. -/
def registerVersion (cfg : EngineConfig) (s : EngineState) (request : RegisterVersionRequest) :
    EngineState × Decision × ModelVersionId :=
  let labelKey := toLex (request.model.raw, request.label)
  if !s.models.contains request.model.raw then
    (s, .because .rejected .unknownModel (text "model is not registered"), {})
  else if !validToken request.label cfg.bounds.maxNameLength then
    (s, .because .rejected .invalidVersionLabel
      (text "version label must be a bounded token"), {})
  else if !request.artifact.setId.valid ∨ !request.artifact.generation.valid then
    (s, .because .rejected .artifactSetMissing
      (text "version must bind a concrete artifact set and generation"), {})
  else if !validDigest request.artifact.digest cfg.bounds.maxDigestLength then
    (s, .because .rejected .invalidDigest (text "artifact digest is empty or malformed"), {})
  else if s.versionLabels.contains labelKey then
    (s, .because .conflict .duplicateVersion request.label, {})
  else if cfg.bounds.maxVersionsPerModel ≤ s.versionCount request.model then
    (s, .because .boundsExceeded .boundsVersionCount
      (text "per-model version bound reached"), {})
  else
    match s.predecessorRefusal cfg request with
    | some refusal => (s, refusal, {})
    | none =>
      let version : ModelVersionId := ⟨s.nextVersionId⟩
      let key := versionKey request.model version
      let s := ({ s with nextVersionId := s.nextVersionId + 1 }).bumpSequence
      ({ s with
          versionLabels := s.versionLabels.insertNew labelKey version
          versionIndex := s.versionIndex.insertNew version.raw key
          versions := s.versions.insertNew key (s.newVersion cfg request version) },
        .accepted, version)

/-- Whether a revision leaves the compared content as it is. -/
def sameContent (record : ModelVersionRecord) (request : ReviseVersionRequest) : Bool :=
  decide (request.artifact = record.artifact) &&
  decide (request.requirements.runtime = record.requirements.runtime) &&
  decide (request.requirements.backend = record.requirements.backend) &&
  decide (request.requirements.architecture = record.requirements.architecture) &&
  decide (request.requirements.precision = record.requirements.precision) &&
  decide (request.requirements.tokenizerGeneration = record.requirements.tokenizerGeneration) &&
  decide (request.requirements.adapterSet = record.requirements.adapterSet)

/-- The record with revised content, at its next generation. -/
def revisedRecord (record : ModelVersionRecord) (request : ReviseVersionRequest)
    (updated : Sequence) : ModelVersionRecord :=
  { record with
    generation := record.generation.nextGeneration
    artifact := request.artifact
    requirements := request.requirements
    compatibilityGeneration := {}
    updatedSequence := updated }

/-- The plan superseded because its candidate was revised. -/
def revisedPlan (updated : Sequence) (plan : RolloutPlan) : RolloutPlan :=
  { plan with superseded := true, updatedSequence := updated }

/-- Supersede the live plans of a candidate whose content moved on, in key order. -/
def supersedeRevisedPlans (candidate : ModelVersionId) : List UInt64 → EngineState → EngineState
  | [], s => s
  | key :: keys, s =>
    match s.rollouts.get? key with
    | none => supersedeRevisedPlans candidate keys s
    | some plan =>
      if plan.candidate ≠ candidate ∨ ¬plan.live then supersedeRevisedPlans candidate keys s
      else
        let s := s.bumpSequence
        let s := { s with rollouts := s.rollouts.modify key (revisedPlan s.sequence) }
        let s := s.mapAuthority (·.supersedeRollout plan.id plan.generation)
        supersedeRevisedPlans candidate keys s

/-- The lifecycle states a revision leaves alone. -/
def keepsStateOnRevision : LifecycleState → Bool
  | .registered | .validating | .revalidationRequired | .promotionBlocked => true
  | _ => false

/-- Revise the declared content of a version. -/
def reviseVersion (cfg : EngineConfig) (s : EngineState) (request : ReviseVersionRequest) :
    EngineState × Decision :=
  match s.versionOf request.model request.version with
  | none => (s, .because .rejected .unknownVersion (text "version is not registered"))
  | some record =>
    if record.retired then
      (s, .because .rejected .versionRetired (text "a retired generation cannot be revised"))
    else if request.expectedGeneration.valid ∧
        request.expectedGeneration ≠ record.generation then
      (s, .because .conflict .modelGenerationMismatch
        (text "revision expected a different model generation"))
    else if !request.artifact.setId.valid ∨ !request.artifact.generation.valid then
      (s, .because .rejected .artifactSetMissing (text "revision requires a concrete artifact"))
    else if !validDigest request.artifact.digest cfg.bounds.maxDigestLength then
      (s, .because .rejected .invalidDigest (text "artifact digest is empty or malformed"))
    -- Nothing material changed: no new generation.
    else if sameContent record request then (s, .accepted)
    else
      let s := s.bumpSequence
      let revised := revisedRecord record request s.sequence
      let s := s.modifyVersion request.model request.version fun _ => revised
      let s :=
        { s with
          compatibility := s.compatibility.invalidateVersion record.version
          evidence := s.evidence.invalidateModelGeneration record.version revised.generation }
      if revised.state.isTerminal then
        (s, .because .rejected .versionRetired (text "cannot revise a terminal generation"))
      else
        let s := supersedeRevisedPlans record.version s.rollouts.keys s
        if keepsStateOnRevision revised.state then (s, .accepted)
        else
          (s.modifyVersion request.model request.version fun record =>
            (record.transition .revalidationRequired).1, .accepted)

/-- Register every missing scope along a path. -/
def registerScope (s : EngineState) (path : Text) : EngineState × Decision × ScopeId :=
  let (scopes, decision, id) := s.scopes.ensurePath path
  ({ s with scopes }, decision, id)

/-- Replace the base policy by a later revision. -/
def setPolicy (s : EngineState) (policy : LifecyclePolicy) : EngineState × Decision :=
  if !policy.generation.valid then
    (s, .because .rejected .policyGenerationMismatch
      (text "policy generation must be non-zero"))
  else if policy.maxActiveGenerationsPerScope = 0 ∨
      64 < policy.maxActiveGenerationsPerScope then
    (s, .because .rejected .boundsModelCount
      (text "max active generations per scope must be 1..64"))
  else if policy.maxBlastRadiusPercent = 0 ∨ 100 < policy.maxBlastRadiusPercent then
    (s, .because .rejected .blastRadiusExceeded (text "blast radius must be 1..100 percent"))
  else if policy.generation ≤ s.policy.base.generation then
    (s, .because .conflict .policyGenerationMismatch
      (text "policy generations must strictly increase"))
  else (({ s with policy := { s.policy with base := policy } }).bumpSequence, .accepted)

/-- Attach a policy refinement to a registered scope. -/
def setScopePolicy (s : EngineState) (refinement : ScopePolicyOverride) :
    EngineState × Decision :=
  match s.scopes.find refinement.scope with
  | none =>
    (s, .because .rejected .unknownScope (text "policy override targets an unknown scope"))
  | some _ =>
    let (policy, applied) := s.policy.setOverride refinement
    if !applied.allowed then (s, applied)
    else (({ s with policy }).bumpSequence, .accepted)

end EngineState

end LifecycleFabric
