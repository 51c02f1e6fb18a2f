import LifecycleFabric.Identity
import LifecycleFabric.Lib.OrdMap

/-!
# Structured outcomes and named reasons

Callers never parse prose. A decision is one enumerated outcome with a list of
named reasons; each reason carries a bounded detail that has no meaning of its own.
-/

namespace LifecycleFabric

/-- Coarse decision outcome. -/
inductive OutcomeCode
  | ok | accepted | rejected | promotionAllowed | promotionBlocked | canaryAllowed
  | canaryBlocked | stageAdvanceAllowed | stageAdvanceBlocked | rollbackAllowed
  | rollbackBlocked | retirementAllowed | retirementBlocked | revalidationRequired
  | rollbackDecisionRequired | stalePlan | staleEvidence | incompatible
  | noAuthoritativeModel | ambiguous | outcomeUnknown | reconciliationRequired | conflict
  | boundsExceeded | notFound | unsupported
  deriving DecidableEq

/-- The outcomes that permit the requested step. -/
def OutcomeCode.isPositive : OutcomeCode → Bool
  | .ok | .accepted | .promotionAllowed | .canaryAllowed | .stageAdvanceAllowed
  | .rollbackAllowed | .retirementAllowed => true
  | _ => false

/-- Named reason of a decision. The state file stores a reason as a 16-bit number
that its reader does not check, so a value outside the named range can exist. -/
inductive ReasonCode
  | none | duplicateModel | duplicateVersion | unknownModel | unknownVersion | unknownScope
  | invalidName | invalidVersionLabel | invalidDigest | parentVersionMissing | predecessorCycle
  | versionSuperseded | boundsModelCount | boundsVersionCount | boundsScopeCount
  | boundsRolloutCount | boundsStageCount | boundsCohortCount | boundsWorkerCount
  | boundsEvidenceCount | boundsAttemptCount | boundsHistoryCount | boundsPayloadSize
  | boundsStringLength | invalidLifecycleTransition | lifecycleGenerationMismatch
  | versionRetired | versionFailed | versionNotPromotionEligible | versionAlreadyCurrent
  | artifactSetMissing | artifactGenerationMismatch | artifactDigestMismatch
  | artifactIntegrityStale | compatibilityMissing | compatibilityStale
  | compatibilityGenerationMismatch | incompatibleArtifact | incompatibleRuntime
  | incompatibleBackend | incompatibleArchitecture | incompatiblePrecision
  | incompatibleTokenizer | incompatibleAdapter | incompatiblePolicy | compatibilityUnknown
  | compatibilityRequiresRebuild | compatibilityRequiresRecompile
  | compatibilityRequiresConversion | hardwareCapabilityInsufficient | policyGenerationMismatch
  | policyDeniesPromotion | policyDeniesCoexistence | policyDeniesAutoRollback
  | policyRequiresRollbackTarget | policyScopeNotTargetable | policyRequiresEvidence
  | policyRequiresDrain | policyRequiresApproval | coexistenceLimitExceeded | blastRadiusExceeded
  | evidenceMissing | evidenceStale | evidenceSubjectMismatch | evidenceGenerationMismatch
  | evidencePublisherUnknown | evidencePublisherBootStale
  | evidenceSubjectModelGenerationMismatch | evidenceSubjectArtifactMismatch
  | evidenceSubjectCompatibilityMismatch | evidenceUnsatisfiedCriteria | evidenceConflicting
  | evidenceUnknownProvenance | modelGenerationMismatch | scopeGenerationMismatch
  | rolloutGenerationMismatch | rolloutStageGenerationMismatch | promotionGenerationMismatch
  | coordinatorEpochStale | snapshotGenerationStale | sequenceRegression | promotionNotAuthorized
  | promotionCommitDuplicate | promotionCandidateRetired | promotionScopeInvalid
  | promotionRequiresRolloutPlan | rolloutPlanStale | rolloutNotActive | rolloutAlreadyComplete
  | stageOrderViolation | stageEntryConditionUnmet | stageAcceptanceNotMet
  | stageFailureThresholdExceeded | stageSkipped | cohortUnknown | cohortScopeInvalid
  | stageCompletionDuplicate | rolloutSuperseded | stageFeedbackIncomplete | drainRequired
  | rollbackTargetRequired | rollbackTargetUnknown | rollbackTargetRetired
  | rollbackTargetArtifactMissing | rollbackTargetIncompatible | rollbackCommitDuplicate
  | rollbackGenerationMismatch | noCurrentAuthority | rollbackNotAuthorized
  | rollbackSupersededByNewerGeneration | retirementScopeDependency | retirementRolloutActive
  | retirementRetentionUnsatisfied | retirementDrainIncomplete | retirementDependencyUnresolved
  | retirementAlreadyRetired | residencyIntentMissing | residencyGenerationMismatch
  | residencyNotResident | readinessMissing | readinessStale | readinessSubjectMismatch
  | warmupIncomplete | workerUnknown | workerBootStale | workerNotRegistered | workerNotCurrent
  | workerScopeNotOwned | coordinatorEpochMismatch | attemptUnknown | attemptAlreadyCompleted
  | attemptConflictingCompletion | attemptOutcomeUnknown | replicaEvidenceMissing
  | externalStateDiverged | expectedResidentMissing | retiredModelStillResident
  | rolloutStageWithoutWorkers | unreconciledAttempt | protocolWrongMagic
  | protocolUnsupportedVersion | protocolUnknownType | protocolOversized | protocolTruncated
  | protocolIntegrityFailure | protocolDuplicateHello | protocolInvalidScope
  | protocolInvalidTransition | protocolDecodeFailure | transactionRolledBack
  | unsupportedCapability
  | outOfRange (raw : UInt16)
  deriving DecidableEq

namespace ReasonCode

/-- The named reasons, in order of their numbers. -/
def named : List ReasonCode :=
  [.none, .duplicateModel, .duplicateVersion, .unknownModel, .unknownVersion, .unknownScope,
    .invalidName, .invalidVersionLabel, .invalidDigest, .parentVersionMissing, .predecessorCycle,
    .versionSuperseded, .boundsModelCount, .boundsVersionCount, .boundsScopeCount,
    .boundsRolloutCount, .boundsStageCount, .boundsCohortCount, .boundsWorkerCount,
    .boundsEvidenceCount, .boundsAttemptCount, .boundsHistoryCount, .boundsPayloadSize,
    .boundsStringLength, .invalidLifecycleTransition, .lifecycleGenerationMismatch,
    .versionRetired, .versionFailed, .versionNotPromotionEligible, .versionAlreadyCurrent,
    .artifactSetMissing, .artifactGenerationMismatch, .artifactDigestMismatch,
    .artifactIntegrityStale, .compatibilityMissing, .compatibilityStale,
    .compatibilityGenerationMismatch, .incompatibleArtifact, .incompatibleRuntime,
    .incompatibleBackend, .incompatibleArchitecture, .incompatiblePrecision,
    .incompatibleTokenizer, .incompatibleAdapter, .incompatiblePolicy, .compatibilityUnknown,
    .compatibilityRequiresRebuild, .compatibilityRequiresRecompile,
    .compatibilityRequiresConversion, .hardwareCapabilityInsufficient, .policyGenerationMismatch,
    .policyDeniesPromotion, .policyDeniesCoexistence, .policyDeniesAutoRollback,
    .policyRequiresRollbackTarget, .policyScopeNotTargetable, .policyRequiresEvidence,
    .policyRequiresDrain, .policyRequiresApproval, .coexistenceLimitExceeded,
    .blastRadiusExceeded, .evidenceMissing, .evidenceStale, .evidenceSubjectMismatch,
    .evidenceGenerationMismatch, .evidencePublisherUnknown, .evidencePublisherBootStale,
    .evidenceSubjectModelGenerationMismatch, .evidenceSubjectArtifactMismatch,
    .evidenceSubjectCompatibilityMismatch, .evidenceUnsatisfiedCriteria, .evidenceConflicting,
    .evidenceUnknownProvenance, .modelGenerationMismatch, .scopeGenerationMismatch,
    .rolloutGenerationMismatch, .rolloutStageGenerationMismatch, .promotionGenerationMismatch,
    .coordinatorEpochStale, .snapshotGenerationStale, .sequenceRegression,
    .promotionNotAuthorized, .promotionCommitDuplicate, .promotionCandidateRetired,
    .promotionScopeInvalid, .promotionRequiresRolloutPlan, .rolloutPlanStale, .rolloutNotActive,
    .rolloutAlreadyComplete, .stageOrderViolation, .stageEntryConditionUnmet,
    .stageAcceptanceNotMet, .stageFailureThresholdExceeded, .stageSkipped, .cohortUnknown,
    .cohortScopeInvalid, .stageCompletionDuplicate, .rolloutSuperseded, .stageFeedbackIncomplete,
    .drainRequired, .rollbackTargetRequired, .rollbackTargetUnknown, .rollbackTargetRetired,
    .rollbackTargetArtifactMissing, .rollbackTargetIncompatible, .rollbackCommitDuplicate,
    .rollbackGenerationMismatch, .noCurrentAuthority, .rollbackNotAuthorized,
    .rollbackSupersededByNewerGeneration, .retirementScopeDependency, .retirementRolloutActive,
    .retirementRetentionUnsatisfied, .retirementDrainIncomplete, .retirementDependencyUnresolved,
    .retirementAlreadyRetired, .residencyIntentMissing, .residencyGenerationMismatch,
    .residencyNotResident, .readinessMissing, .readinessStale, .readinessSubjectMismatch,
    .warmupIncomplete, .workerUnknown, .workerBootStale, .workerNotRegistered, .workerNotCurrent,
    .workerScopeNotOwned, .coordinatorEpochMismatch, .attemptUnknown, .attemptAlreadyCompleted,
    .attemptConflictingCompletion, .attemptOutcomeUnknown, .replicaEvidenceMissing,
    .externalStateDiverged, .expectedResidentMissing, .retiredModelStillResident,
    .rolloutStageWithoutWorkers, .unreconciledAttempt, .protocolWrongMagic,
    .protocolUnsupportedVersion, .protocolUnknownType, .protocolOversized, .protocolTruncated,
    .protocolIntegrityFailure, .protocolDuplicateHello, .protocolInvalidScope,
    .protocolInvalidTransition, .protocolDecodeFailure, .transactionRolledBack,
    .unsupportedCapability]

/-- The number of a reason. -/
def code : ReasonCode → ℕ
  | .outOfRange raw => raw.toNat
  | reason => reason.ctorIdx

/-- The reason cast from a 16-bit number. -/
def ofCode (raw : UInt16) : ReasonCode := (named[raw.toNat]?).getD (.outOfRange raw)

end ReasonCode

/-- A named reason with bounded detail. -/
@[ext]
structure Reason where
  code : ReasonCode := .none
  detail : Text := []
  deriving DecidableEq

namespace Reason

/-- Reasons are ordered by number, then by detail. -/
def le (a b : Reason) : Prop :=
  a.code.code < b.code.code ∨ a.code.code = b.code.code ∧ a.detail ≤ b.detail

instance : DecidableRel le := fun _ _ => inferInstanceAs (Decidable (_ ∨ _))

end Reason

/-- Canonical ordering of a reason list: sorted, without repetition. Equal reasons
are adjacent after sorting, so dropping repetitions is `std::unique`. -/
def normalizeReasons (reasons : List Reason) : List Reason :=
  (reasons.insertionSort Reason.le).dedup

/-- A structured decision. -/
structure Decision where
  outcome : OutcomeCode := .rejected
  reasons : List Reason := []
  deriving DecidableEq

namespace Decision

/-- A decision that permits the step. -/
def allowed (d : Decision) : Bool := d.outcome.isPositive

/-- Whether a reason was given. -/
def has (d : Decision) (code : ReasonCode) : Bool := d.reasons.any fun r => decide (r.code = code)

/-- Append a reason; the absent reason is dropped. -/
def add (d : Decision) (reason : Reason) : Decision :=
  if reason.code = .none then d else { d with reasons := d.reasons ++ [reason] }

/-- Append every reason of a list. -/
def addAll (d : Decision) (reasons : List Reason) : Decision := reasons.foldl add d

/-- Canonical ordering of the reasons. -/
def normalize (d : Decision) : Decision := { d with reasons := normalizeReasons d.reasons }

/-- A decision for the step, without reasons. -/
def accepted : Decision := { outcome := .accepted }

/-- A decision with one reason. -/
def because (outcome : OutcomeCode) (code : ReasonCode) (detail : Text) : Decision :=
  ({ outcome } : Decision).add ⟨code, detail⟩

@[simp] theorem allowed_accepted : accepted.allowed = true := rfl

@[simp] theorem outcome_add (d : Decision) (reason : Reason) :
    (d.add reason).outcome = d.outcome := by
  unfold add
  split_ifs <;> rfl

@[simp] theorem outcome_addAll (d : Decision) (reasons : List Reason) :
    (d.addAll reasons).outcome = d.outcome := by
  induction reasons generalizing d with
  | nil => rfl
  | cons reason reasons ih => simpa [addAll] using ih (d.add reason)

@[simp] theorem outcome_normalize (d : Decision) : d.normalize.outcome = d.outcome := rfl

@[simp] theorem outcome_because (outcome : OutcomeCode) (code : ReasonCode) (detail : Text) :
    (because outcome code detail).outcome = outcome := by
  simp [because]

@[simp] theorem allowed_because (outcome : OutcomeCode) (code : ReasonCode) (detail : Text) :
    (because outcome code detail).allowed = outcome.isPositive := by
  simp [allowed]

end Decision

/-- Ordered key and value bindings that describe why an outcome holds. -/
structure Explanation where
  outcome : OutcomeCode := .rejected
  bindings : List (Text × Text) := []
  reasons : List Reason := []
  deriving DecidableEq

namespace Explanation

/-- Bind a key, replacing the value it was first bound to. -/
def set (e : Explanation) (key value : Text) : Explanation :=
  { e with
    bindings :=
      if e.bindings.any fun kv => decide (kv.1 = key) then
        e.bindings.map fun kv => if kv.1 = key then (key, value) else kv
      else e.bindings ++ [(key, value)] }

end Explanation

end LifecycleFabric
