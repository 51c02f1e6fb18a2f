import LifecycleFabric.Engine.State

/-!
# Gates and staleness checks

A gate collects the faults of a request and reports the most severe outcome with
every reason. This file also resolves compatibility, evaluates criteria, and checks
that a rollout plan still matches the registry.
-/

namespace LifecycleFabric

/-! ## Faults of a gate -/

/-- What a refusing outcome comes to when it is asked whether it is positive. -/
theorem refusing : false = false := rfl

/-- One failed hard check. Its outcome refuses the request. -/
structure Fault where
  outcome : OutcomeCode
  code : ReasonCode
  detail : Text
  refuses : outcome.isPositive = false := by exact refusing

/-- A fault raised when a condition holds. -/
def faultIf (condition : Prop) [Decidable condition] (fault : Fault) : List Fault :=
  if condition then [fault] else []

@[simp] theorem faultIf_eq_nil {condition : Prop} [Decidable condition] {fault : Fault} :
    faultIf condition fault = [] ↔ ¬condition := by
  unfold faultIf
  split_ifs with h <;> simp [h]

/-- The faults carried over from a refused decision. -/
def faultsOf (d : Decision) : List Fault :=
  if h : d.allowed = false then
    d.reasons.map fun reason => ⟨d.outcome, reason.code, reason.detail, h⟩
  else []

/-- Raise an outcome to a more severe one. -/
def Decision.raise (d : Decision) (rank : OutcomeCode → ℕ) (outcome : OutcomeCode) : Decision :=
  if rank d.outcome < rank outcome then { d with outcome } else d

/-- Report one fault. -/
def Decision.fault (rank : OutcomeCode → ℕ) (d : Decision) (fault : Fault) : Decision :=
  (d.raise rank fault.outcome).add ⟨fault.code, clampDetail fault.detail maxReasonDetail⟩

/-- The decision of a gate that found these faults, in the order they were found. -/
def gateDecision (rank : OutcomeCode → ℕ) (positive : OutcomeCode) (faults : List Fault) :
    Decision :=
  faults.foldl (Decision.fault rank) { outcome := positive }

private theorem foldl_fault_refuses {rank : OutcomeCode → ℕ} {faults : List Fault} {d : Decision}
    (h : d.allowed = false) : (faults.foldl (Decision.fault rank) d).allowed = false := by
  induction faults generalizing d with
  | nil => exact h
  | cons fault faults ih =>
    refine ih ?_
    unfold Decision.fault Decision.raise
    simp only [Decision.allowed, Decision.outcome_add]
    split_ifs
    · exact fault.refuses
    · exact h

/-- A gate whose ranking puts every refusal above the positive outcome permits the
request exactly when it finds no fault. -/
theorem gateDecision_allowed_iff {rank : OutcomeCode → ℕ} {positive : OutcomeCode}
    (hpositive : positive.isPositive = true)
    (hrank : ∀ code : OutcomeCode, code.isPositive = false → rank positive < rank code)
    {faults : List Fault} :
    (gateDecision rank positive faults).allowed = true ↔ faults = [] := by
  cases faults with
  | nil => simpa [gateDecision, Decision.allowed] using hpositive
  | cons fault faults =>
    have hraised : (Decision.fault rank { outcome := positive } fault).allowed = false := by
      simp [Decision.fault, Decision.raise, Decision.allowed, hrank _ fault.refuses, fault.refuses]
    simp [gateDecision, foldl_fault_refuses hraised]

/-- The refusing decisions of the shared checks carry a reason. -/
theorem faultsOf_because {outcome : OutcomeCode} {code : ReasonCode} {detail : Text}
    (hrefuses : outcome.isPositive = false) (hcode : code ≠ .none) :
    faultsOf (.because outcome code detail) ≠ [] := by
  simp [faultsOf, Decision.because, Decision.add, hcode, Decision.allowed, hrefuses]

@[simp] theorem faultsOf_accepted : faultsOf .accepted = [] := rfl

/-! ## Refusals -/

/-- A decision that refuses. -/
structure Refusal where
  decision : Decision
  refuses : decision.allowed = false

/-- A refusal with one reason. -/
def Refusal.because (outcome : OutcomeCode) (code : ReasonCode) (detail : Text)
    (h : outcome.isPositive = false := by exact refusing) : Refusal :=
  ⟨.because outcome code detail, by simp [h]⟩

/-- A refusal made when a condition holds. -/
def refuseIf (condition : Prop) [Decidable condition] (refusal : Refusal) : List Refusal :=
  if condition then [refusal] else []

/-- The refusal of a shared check, when it failed. -/
def refusalOf (d : Decision) : List Refusal :=
  if h : d.allowed = false then [⟨d, h⟩] else []

/-- An operation that checks in order reports the first refusal. -/
def firstRefusal (refusals : List Refusal) : Option Refusal := refusals.head?

@[simp] theorem refuseIf_eq_nil {condition : Prop} [Decidable condition] {refusal : Refusal} :
    refuseIf condition refusal = [] ↔ ¬condition := by
  unfold refuseIf
  split_ifs with h <;> simp [h]

@[simp] theorem refusalOf_eq_nil {d : Decision} : refusalOf d = [] ↔ d.allowed = true := by
  unfold refusalOf
  split_ifs with h <;> simp [h]

theorem firstRefusal_eq_none {refusals : List Refusal} :
    firstRefusal refusals = none ↔ refusals = [] := List.head?_eq_none_iff

namespace EngineState

/-! ## Evidence -/

/-- Subject of version-level evidence in a scope. -/
def versionSubject (record : ModelVersionRecord) (scope : ScopeId) : EvidenceSubject where
  model := record.model
  version := record.version
  modelGeneration := record.generation
  artifactSet := record.artifact.setId
  artifactGeneration := record.artifact.generation
  scope := scope
  compatibilityGeneration := record.compatibilityGeneration

/-- Subject of stage-level evidence in a scope. -/
def stageSubject (record : ModelVersionRecord) (plan : RolloutPlan) (stage : StageDefinition)
    (scope : ScopeId) : EvidenceSubject :=
  { versionSubject record scope with
    rollout := plan.id
    rolloutGeneration := plan.generation
    stage := stage.id
    stageGeneration := plan.currentStageGeneration }

/-- The outcome and reason one unmet evidence requirement gives. -/
def evidenceComplaint (requirement : EvidenceRequirement) (lookup : EvidenceLookup) :
    Option (OutcomeCode × ReasonCode × Text) :=
  let kind := requirement.kind.toText
  match lookup.currentness with
  | .current =>
    match lookup.record with
    | none => none
    | some record =>
      if record.verdict ≠ requirement.requiredVerdict then
        some (.staleEvidence, .evidenceUnsatisfiedCriteria,
          kind ++ text " verdict is " ++ record.verdict.toText)
      else none
  | .missing => some (.staleEvidence, .evidenceMissing, kind)
  | .subjectMismatch => some (.staleEvidence, .evidenceSubjectMismatch, kind)
  | .generationStale => some (.staleEvidence, .evidenceSubjectModelGenerationMismatch, kind)
  | .publisherStale => some (.staleEvidence, .evidencePublisherBootStale, kind)
  | .expired => some (.staleEvidence, .evidenceStale, kind)
  | .conflicting => some (.ambiguous, .evidenceConflicting, kind)
  | .unknownProvenance => some (.staleEvidence, .evidenceUnknownProvenance, kind)

/-- Check every requirement of a list; the last complaint sets the outcome. -/
def checkEvidenceList (s : EngineState) (requirements : List EvidenceRequirement)
    (subject : EvidenceSubject) : Decision :=
  (requirements.foldl (fun (d : Decision) requirement =>
    let lookup := s.evidence.resolve requirement subject {} requirement.requireCurrentPublisher 0
      s.policy.base.maxEvidenceAgeTicks
    match evidenceComplaint requirement lookup with
    | none => d
    | some (outcome, code, detail) => ({ d with outcome } : Decision).add ⟨code, detail⟩)
    .accepted).normalize

/-! ## Compatibility -/

/-- Resolve the compatibility that governs a version: a published fact first, then a
structural evaluation of the supplied environment. -/
def resolveCompatibilityFor (s : EngineState) (record : ModelVersionRecord)
    (environmentKey : Text) (environment : Option EnvironmentProfile) : CompatibilityResult :=
  let key :=
    if environmentKey.isEmpty then (environment.map EnvironmentProfile.key).getD []
    else environmentKey
  let fact := if key.isEmpty then none else s.compatibility.lookup record.version key
  match fact with
  | some fact =>
    if fact.modelGeneration ≠ record.generation ∨
        fact.artifactGeneration ≠ record.artifact.generation then
      { outcome := .staleEvidence
        decision := .because .staleEvidence .compatibilityStale
          (text "published compatibility targets an older model or artifact generation") }
    else
      { outcome := fact.outcome
        decision :=
          if fact.outcome.isServingCompatible then { outcome := .ok }
          else .because .incompatible fact.outcome.reasonFor fact.detail }
  | none =>
    match environment with
    | some environment => evaluateRequirements record.requirements environment
    | none =>
      { outcome := .unknown
        decision := .because .staleEvidence .compatibilityMissing
          (if key.isEmpty then text "no compatibility fact and no environment profile supplied"
          else text "no compatibility fact published for environment " ++ key) }

/-! ## Criteria -/

/-- Result of evaluating a criterion. -/
structure CriterionResult where
  satisfied : Bool := false
  present : Bool := false
  value : F64 := {}
  detail : Text := []
  deriving DecidableEq

/-- Evaluate one numeric criterion against current evidence. -/
def evaluateCriterion (s : EngineState) (criterion : Criterion) (subject : EvidenceSubject) :
    CriterionResult :=
  let lookup := s.evidence.resolve { kind := criterion.kind } subject {} false 0
    s.policy.base.maxEvidenceAgeTicks
  match lookup.currentness, lookup.record with
  | .current, some record =>
    { present := true
      value := record.value
      satisfied := criterion.holds record.value }
  | currentness, _ => { detail := currentness.toText }

/-! ## Plan staleness -/

/-- Why a plan no longer matches the registry: the first mismatch found. -/
def checkPlanBindings (s : EngineState) (plan : RolloutPlan) : Option (ReasonCode × Text) :=
  match s.versionOf plan.model plan.candidate with
  | none => some (.unknownVersion, text "plan candidate no longer exists")
  | some record =>
    if record.retired then
      some (.promotionCandidateRetired, text "plan candidate was retired")
    else if record.generation ≠ plan.candidateGeneration then
      some (.modelGenerationMismatch, text "candidate model generation advanced")
    else if record.artifact.setId ≠ plan.candidateArtifactSet ∨
        record.artifact.generation ≠ plan.candidateArtifactGeneration then
      some (.artifactGenerationMismatch, text "candidate artifact generation advanced")
    else if record.compatibilityGeneration ≠ plan.compatibilityGeneration then
      some (.compatibilityStale, text "compatibility generation advanced or was invalidated")
    else if s.policy.base.generation ≠ plan.policyGeneration then
      some (.policyGenerationMismatch, text "lifecycle policy generation advanced")
    else
      match s.scopes.find plan.rootScope with
      | none => some (.unknownScope, text "plan root scope no longer exists")
      | some root =>
        if root.generation ≠ plan.rootScopeGeneration then
          some (.scopeGenerationMismatch, text "plan root scope generation advanced")
        else none

/-! ## Authority of versions -/

/-- Whether a version holds live serving authority somewhere. -/
def holdsLiveAuthority (s : EngineState) (model : ModelId) (version : ModelVersionId)
    (includeCanary : Bool) : Bool :=
  (s.authority.bindingsForVersion model version).any fun binding =>
    binding.live && (decide (binding.kind = .exclusive) ||
      includeCanary && (decide (binding.kind = .canary) || decide (binding.kind = .splitTraffic) ||
        decide (binding.kind = .draining)))

/-- The live plans of a candidate. -/
def livePlansFor (s : EngineState) (version : ModelVersionId) : List RolloutPlan :=
  s.rollouts.values.filter fun plan => decide (plan.candidate = version) && plan.live

end EngineState

end LifecycleFabric
