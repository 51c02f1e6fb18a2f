import LifecycleFabric.Engine.StageAdvance

/-!
# Retirement and revalidation

The retirement gate, the operation that retires a version for good, and the withdrawal
of a version's standing when it has to be revalidated.
-/

namespace LifecycleFabric

/-- Request to retire a version. -/
structure RetirementRequest where
  model : ModelId := {}
  version : ModelVersionId := {}
  generation : ModelGeneration := {}
  policyGeneration : PolicyGeneration := {}
  epoch : CoordinatorEpoch := {}

/-- Request to withdraw the standing of a version. -/
structure RevalidationRequest where
  model : ModelId := {}
  version : ModelVersionId := {}
  generation : ModelGeneration := {}
  cause : ReasonCode := .compatibilityStale
  detail : Text := []

/-- Severity of an outcome of the retirement gate. -/
def retirementRank : OutcomeCode → ℕ
  | .retirementAllowed => 0
  | .rejected => 1
  | .retirementBlocked => 2
  | .notFound => 3
  | .conflict => 4
  | .stalePlan => 5
  | .staleEvidence => 6
  | _ => 2

/-- An attempt whose effect is still open. -/
def AttemptState.isOpen : AttemptState → Bool
  | .dispatched | .outcomeUnknown | .reconcileRequired => true
  | _ => false

namespace EngineState

/-- Faults of the rollouts that still need a version. -/
def retirementRolloutFaults (s : EngineState) (record : ModelVersionRecord) : List Fault :=
  faultIf (record.rollout.valid ∧ (s.rolloutOf record.rollout).any RolloutPlan.live)
    ⟨.retirementBlocked, .retirementRolloutActive,
      text "the generation still has a live rollout", refusing⟩ ++
  s.rollouts.values.flatMap fun plan =>
    if !plan.live then []
    else
      faultIf (plan.candidate = record.version)
        ⟨.retirementBlocked, .retirementRolloutActive,
          text "a live rollout still targets this generation", refusing⟩ ++
      faultIf (plan.rollbackTarget = record.version)
        ⟨.retirementBlocked, .retirementRetentionUnsatisfied,
          text "a live rollout still names this generation as its rollback target", refusing⟩

/-- Whether a version has a live binding of one of the kinds. -/
def holdsKind (s : EngineState) (record : ModelVersionRecord) (kinds : List AuthorityKind) : Bool :=
  (s.authority.bindingsForVersion record.model record.version).any fun binding =>
    binding.live && kinds.contains binding.kind

/-- Faults of the bindings a version still holds. -/
def retirementBindingFaults (s : EngineState) (record : ModelVersionRecord) : List Fault :=
  faultIf (s.holdsKind record [.exclusive, .canary, .splitTraffic])
    ⟨.retirementBlocked, .retirementScopeDependency,
      text "the generation still holds live authoritative scope bindings", refusing⟩ ++
  faultIf (s.holdsKind record [.draining])
    ⟨.retirementBlocked, .retirementDrainIncomplete,
      text "the generation is still draining in at least one scope", refusing⟩ ++
  faultIf (s.holdsKind record [.rollbackRetained] ∧
      ¬s.policy.base.allowRetirementWithoutDrain)
    ⟨.retirementBlocked, .retirementDrainIncomplete,
      text "rollback retention is still outstanding in at least one scope", refusing⟩

/-- Faults of the external attempts against a version that have not settled. -/
def retirementAttemptFaults (s : EngineState) (record : ModelVersionRecord) : List Fault :=
  (s.attempts.values.filter fun attempt =>
      decide (attempt.version = record.version) && attempt.state.isOpen).map fun _ =>
    ⟨.retirementBlocked, .retirementDependencyUnresolved,
      text "an external attempt against this generation has not settled", refusing⟩

/-- Every fault of retiring a registered version, in the order of the checks. -/
def retirementFaults (s : EngineState) (request : RetirementRequest)
    (record : ModelVersionRecord) : List Fault :=
  faultIf record.retired
    ⟨.conflict, .retirementAlreadyRetired, text "generation is already retired", refusing⟩ ++
  faultIf (request.generation.valid ∧ request.generation ≠ record.generation)
    ⟨.stalePlan, .modelGenerationMismatch,
      text "retirement cites a superseded model generation", refusing⟩ ++
  faultsOf (s.checkEpoch request.epoch) ++
  faultsOf (s.checkPolicyGeneration request.policyGeneration) ++
  s.retirementRolloutFaults record ++ s.retirementBindingFaults record ++
  s.retirementAttemptFaults record

/-- The retirement gate. -/
def evaluateRetirement (s : EngineState) (request : RetirementRequest) : Decision :=
  match s.versionOf request.model request.version with
  | none =>
    gateDecision retirementRank .retirementAllowed
      [⟨.notFound, .unknownVersion, text "version is not registered", refusing⟩]
  | some record =>
    (gateDecision retirementRank .retirementAllowed
      (s.retirementFaults request record)).normalize

/-- The plan withdrawn because its candidate is retired. -/
def retiredPlan (updated : Sequence) (plan : RolloutPlan) : RolloutPlan :=
  { plan with superseded := true, stageEntered := false, updatedSequence := updated }

/-- Withdraw every plan of a retired candidate, live or not, in key order. -/
def withdrawPlans (candidate : ModelVersionId) : List UInt64 → EngineState → EngineState
  | [], s => s
  | key :: keys, s =>
    match s.rollouts.get? key with
    | none => withdrawPlans candidate keys s
    | some plan =>
      if plan.candidate ≠ candidate then withdrawPlans candidate keys s
      else
        let s := s.bumpSequence
        withdrawPlans candidate keys
          { s with rollouts := s.rollouts.modify key (retiredPlan s.sequence) }

/-- Fence every remaining binding of a version, then force the generations of their scopes
on and withdraw its plans. -/
def fenceVersion (s : EngineState) (record : ModelVersionRecord) : EngineState :=
  let s := s.mapAuthority (·.supersedeVersion record.model record.version)
  let touched := (s.authority.bindingsForVersion record.model record.version).map
    AuthorityBinding.scope
  let s := touched.foldl touchScope s
  withdrawPlans record.version s.rollouts.keys s

/-- Retire a version. -/
def retire (s : EngineState) (request : RetirementRequest) : EngineState × Decision :=
  let gate := s.evaluateRetirement request
  if !gate.allowed then (s, gate)
  else
    match s.versionOf request.model request.version with
    | none =>
      (s, .because .notFound .unknownVersion (text "version vanished during retirement"))
    | some record =>
      let s := s.fenceVersion record
      let advanced := s.advanceDecision request.model request.version .retired
      let s := s.advanceVersion request.model request.version .retired
      if !advanced.allowed then (s, advanced)
      else (s.stampVersion request.model request.version, { outcome := .retirementAllowed })

/-- Withdraw the compatibility and the evidence of a version. The successor generation
as the floor removes every record at or below the current one. -/
def withdrawStanding (s : EngineState) (request : RevalidationRequest)
    (record : ModelVersionRecord) : EngineState :=
  let s :=
    { s with compatibility := s.compatibility.invalidateVersion record.version }
  let s := s.modifyVersion request.model request.version fun record =>
    { record with compatibilityGeneration := {} }
  { s with
    evidence :=
      s.evidence.invalidateModelGeneration record.version record.generation.nextGeneration }

/-- Withdraw the standing of a version until it is validated again. -/
def revalidate (s : EngineState) (request : RevalidationRequest) : EngineState × Decision :=
  match s.versionOf request.model request.version with
  | none => (s, .because .notFound .unknownVersion (text "version is not registered"))
  | some record =>
    if record.retired then
      (s, .because .rejected .versionRetired
        (text "a retired generation cannot be revalidated"))
    else if request.generation.valid ∧ request.generation ≠ record.generation then
      (s, .because .stalePlan .modelGenerationMismatch
        (text "revalidation cites a superseded model generation"))
    else
      let s := s.withdrawStanding request record
      -- Every scope where the version holds a live binding that is not exclusive is
      -- superseded as a whole; superseding a scope twice changes nothing more.
      let withdrawn := (s.authority.bindingsForVersion record.model record.version).filter
        fun binding => binding.live && decide (binding.kind ≠ .exclusive)
      let s := withdrawn.foldl (fun s binding =>
        s.mapAuthority (·.supersedeScope binding.scope)) s
      let s := s.advanceVersion request.model request.version .revalidationRequired
      let s := s.stampVersion request.model request.version
      (s, ({ outcome := .revalidationRequired } : Decision).add
        ⟨request.cause, clampDetail request.detail maxReasonDetail⟩)

end EngineState

end LifecycleFabric
