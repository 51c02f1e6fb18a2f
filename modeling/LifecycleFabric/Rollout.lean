import LifecycleFabric.Evidence
import LifecycleFabric.Scope

/-!
# Rollout plans

A plan binds a candidate to an ordered list of stages over cohorts of scopes, with
its progress and an append-only history of stage decisions.
-/

namespace LifecycleFabric

/-- Rollout strategy. -/
inductive RolloutStrategy
  | canary | percentage | scopeByScope | blueGreen | manualStages | immediateCutover
  deriving DecidableEq

namespace RolloutStrategy

/-- Every strategy, in order of its number. -/
def all : List RolloutStrategy :=
  [.canary, .percentage, .scopeByScope, .blueGreen, .manualStages, .immediateCutover]

/-- The number of a strategy. -/
def code (strategy : RolloutStrategy) : ℕ := strategy.ctorIdx

end RolloutStrategy

/-- Outcome recorded for a stage. -/
inductive StageDecision
  | pending | entered | advanced | failed | rolledBack | superseded
  deriving DecidableEq

namespace StageDecision

/-- Every decision, in order of its number. -/
def all : List StageDecision :=
  [.pending, .entered, .advanced, .failed, .rolledBack, .superseded]

/-- The number of a decision. -/
def code (decision : StageDecision) : ℕ := decision.ctorIdx

end StageDecision

/-- Direction of a criterion. The state file stores it as a byte its reader does not
check; every value but zero compares as `atMost`. -/
inductive CriterionComparison
  | atLeast | atMost
  | outOfRange (raw : UInt8)
  deriving DecidableEq

namespace CriterionComparison

/-- The number of a comparison. -/
def code : CriterionComparison → UInt8
  | atLeast => 0
  | atMost => 1
  | outOfRange raw => raw

/-- The comparison cast from a byte. -/
def ofCode (raw : UInt8) : CriterionComparison :=
  if raw = 0 then atLeast else if raw = 1 then atMost else outOfRange raw

/-- Whether a comparison is one of the named ones. -/
def isNamed : CriterionComparison → Bool
  | outOfRange _ => false
  | _ => true

end CriterionComparison

/-- A numeric criterion over a piece of evidence. -/
structure Criterion where
  kind : EvidenceKind := .healthCheck
  comparison : CriterionComparison := .atLeast
  threshold : F64 := {}
  deriving DecidableEq

/-- Whether a value meets a criterion. -/
def Criterion.holds (criterion : Criterion) (value : F64) : Bool :=
  if criterion.comparison = .atLeast then F64.le criterion.threshold value
  else F64.le value criterion.threshold

/-- Record of one stage entry or decision. -/
structure StageRecord where
  stage : RolloutStageId := {}
  generation : RolloutStageGeneration := {}
  enteredSequence : Sequence := {}
  decidedSequence : Sequence := {}
  decision : StageDecision := .pending
  reasons : List Reason := []
  deriving DecidableEq

/-- A named set of scopes a stage may move. -/
structure CohortDefinition where
  id : CohortId := {}
  name : Text := []
  scopes : List ScopeId := []
  trafficPercent : UInt32 := 0
  /-- Zero inherits the plan's blast radius. -/
  maxBlastRadiusPercent : UInt32 := 0
  deriving DecidableEq

/-- One ordered stage of a plan. -/
structure StageDefinition where
  id : RolloutStageId := {}
  name : Text := []
  cohorts : List CohortId := []
  requiredEvidence : List EvidenceRequirement := []
  acceptance : List Criterion := []
  failure : List Criterion := []
  requireResidencyBeforeEntry : Bool := false
  requireDrainAfterCommit : Bool := false
  deriving DecidableEq

/-- A rollout plan with its durable progress. -/
structure RolloutPlan where
  id : RolloutId := {}
  generation : RolloutGeneration := {}
  model : ModelId := {}
  candidate : ModelVersionId := {}
  candidateGeneration : ModelGeneration := {}
  candidateArtifactSet : ArtifactSetId := {}
  candidateArtifactGeneration : ArtifactGeneration := {}
  previous : ModelVersionId := {}
  previousGeneration : ModelGeneration := {}
  compatibilityGeneration : CompatibilityGeneration := {}
  policyGeneration : PolicyGeneration := {}
  evidenceGeneration : EvidenceGeneration := {}
  rootScope : ScopeId := {}
  rootScopeGeneration : ScopeGeneration := {}
  strategy : RolloutStrategy := .canary
  promotion : PromotionId := {}
  promotionGeneration : PromotionGeneration := {}
  cohorts : List CohortDefinition := []
  stages : List StageDefinition := []
  rollbackTarget : ModelVersionId := {}
  rollbackTargetGeneration : ModelGeneration := {}
  maxBlastRadiusPercent : UInt32 := 100
  manualProgression : Bool := false
  currentStageIndex : ℕ := 0
  currentStageGeneration : RolloutStageGeneration := {}
  stageEntered : Bool := false
  history : List StageRecord := []
  completed : Bool := false
  failed : Bool := false
  superseded : Bool := false
  lastRollback : RollbackId := {}
  lastRollbackGeneration : RollbackGeneration := {}
  createdSequence : Sequence := {}
  updatedSequence : Sequence := {}
  provenance : Provenance := .unknown
  deriving DecidableEq

namespace RolloutPlan

/-- The stage at a position. -/
def stageAt (plan : RolloutPlan) (index : ℕ) : Option StageDefinition := plan.stages[index]?

/-- The first cohort with an identity. -/
def cohort (plan : RolloutPlan) (id : CohortId) : Option CohortDefinition :=
  plan.cohorts.find? fun cohort => decide (cohort.id = id)

/-- A plan that has neither completed, failed nor been superseded. -/
def live (plan : RolloutPlan) : Bool := !plan.completed && !plan.failed && !plan.superseded

/-- Sort scopes and drop repetitions. -/
def sortUniqueScopes (scopes : List ScopeId) : List ScopeId :=
  (scopes.insertionSort (· ≤ ·)).dedup

@[simp] theorem mem_sortUniqueScopes {scopes : List ScopeId} {scope : ScopeId} :
    scope ∈ sortUniqueScopes scopes ↔ scope ∈ scopes := by
  rw [sortUniqueScopes, List.mem_dedup, List.mem_insertionSort]

/-- The scopes of a stage's cohorts, in order and with repetitions. -/
def cohortScopes (plan : RolloutPlan) (stage : StageDefinition) : List ScopeId :=
  stage.cohorts.flatMap fun id =>
    match plan.cohort id with
    | none => []
    | some cohort => cohort.scopes

/-- Scopes the plan has committed to so far. -/
def committedScopes (plan : RolloutPlan) : List ScopeId :=
  sortUniqueScopes (plan.history.flatMap fun record =>
    if record.decision ≠ .advanced then []
    else (plan.stages.filter fun stage => decide (stage.id = record.stage)).flatMap
      plan.cohortScopes)

end RolloutPlan

end LifecycleFabric
