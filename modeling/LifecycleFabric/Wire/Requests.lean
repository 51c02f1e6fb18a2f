import LifecycleFabric.Wire.Messages

/-!
# Request and reply codecs

The messages that carry a request of the engine, the queries, and the reply.
-/

namespace LifecycleFabric

/-- Every outcome, in order of its number. -/
def OutcomeCode.all : List OutcomeCode :=
  [.ok, .accepted, .rejected, .promotionAllowed, .promotionBlocked, .canaryAllowed,
    .canaryBlocked, .stageAdvanceAllowed, .stageAdvanceBlocked, .rollbackAllowed,
    .rollbackBlocked, .retirementAllowed, .retirementBlocked, .revalidationRequired,
    .rollbackDecisionRequired, .stalePlan, .staleEvidence, .incompatible,
    .noAuthoritativeModel, .ambiguous, .outcomeUnknown, .reconciliationRequired, .conflict,
    .boundsExceeded, .notFound, .unsupported]

/-- The number of an outcome. -/
def OutcomeCode.code (outcome : OutcomeCode) : ℕ := outcome.ctorIdx

namespace Wire

open ByteCodec

/-! ## Queries -/

/-- The payload of QUERY_STATE. -/
structure QueryStateMessage where
  model : ModelId := {}
  version : ModelVersionId := {}
  scope : ScopeId := {}

def putQueryState (m : QueryStateMessage) : Bytes :=
  [putId m.model, putId m.version, putId m.scope].flatten

def getQueryState : Reader QueryStateMessage := do
  let model ← getId
  let version ← getId
  let scope ← getId
  pure { model, version, scope }

/-- The payload of QUERY_AUTHORITY. -/
structure QueryAuthorityMessage where
  scope : ScopeId := {}

def putQueryAuthority (m : QueryAuthorityMessage) : Bytes := [putId m.scope].flatten

def getQueryAuthority : Reader QueryAuthorityMessage := do
  let scope ← getId
  pure { scope }

/-- The payload of RECONCILE. -/
structure ReconcileMessage where
  flags : UInt32 := 0

def putReconcile (m : ReconcileMessage) : Bytes := [putU32 m.flags].flatten

def getReconcile : Reader ReconcileMessage := do
  let flags ← getU32
  pure { flags }

/-! ## Promotions -/

def putPromotion (r : PromotionRequest) : Bytes :=
  [putId r.model, putId r.candidate, putId r.candidateGeneration, putId r.artifactGeneration,
    putId r.compatibilityGeneration, putId r.policyGeneration, putId r.epoch, putId r.scope,
    putId r.scopeGeneration, putEnum r.strategy.code, putId r.rollbackTarget,
    putId r.rollbackTargetGeneration, putId r.evidenceGeneration, putId r.worker, putId r.boot,
    putBool r.administrativeApproval, putBool r.requestImmediateCutover,
    putStr r.environmentKey, putBool r.environment.isSome,
    r.environment.elim [] putEnvironment].flatten

/-- What follows the flag that says whether an environment is present. -/
def getPresent {α : Type} (present : Bool) (reader : Reader α) : Reader (Option α) :=
  if present then some <$> reader else pure none

def getPromotion (limits : ProtocolLimits) : Reader PromotionRequest := do
  let model ← getId
  let candidate ← getId
  let candidateGeneration ← getId
  let artifactGeneration ← getId
  let compatibilityGeneration ← getId
  let policyGeneration ← getId
  let epoch ← getId
  let scope ← getId
  let scopeGeneration ← getId
  let strategy ← getEnum RolloutStrategy.all
  let rollbackTarget ← getId
  let rollbackTargetGeneration ← getId
  let evidenceGeneration ← getId
  let worker ← getId
  let boot ← getId
  let administrativeApproval ← getBool
  let requestImmediateCutover ← getBool
  let environmentKey ← string limits.maxString
  let hasEnvironment ← getBool
  let environment ← getPresent hasEnvironment (getEnvironment limits)
  pure { model, candidate, candidateGeneration, artifactGeneration, compatibilityGeneration
         policyGeneration, epoch, scope, scopeGeneration, strategy, rollbackTarget
         rollbackTargetGeneration, evidenceGeneration, worker, boot, administrativeApproval
         requestImmediateCutover, environmentKey, environment }

/-! ## Rollout plans -/

/-- The comparisons a message can carry, in order of their numbers. -/
def comparisons : List CriterionComparison := [.atLeast, .atMost]

def getCriterion : Reader Criterion := do
  let kind ← getEnum EvidenceKind.all
  let comparison ← getEnum comparisons
  let threshold ← getF64
  pure { kind, comparison, threshold }

def putCohort (c : CohortSpec) : Bytes :=
  [putStr c.name, putCounted putId c.scopes, putU32 c.trafficPercent,
    putU32 c.maxBlastRadiusPercent].flatten

def getCohort (limits : ProtocolLimits) : Reader CohortSpec := do
  let name ← string limits.maxString
  let scopes ← counted (sizeWord (limits.maxValues * 16)) getId
  let trafficPercent ← getPercent
  let maxBlastRadiusPercent ← getPercent
  pure { name, scopes, trafficPercent, maxBlastRadiusPercent }

/-- The most requirements, and the most criteria of either list, of a stage. -/
def maxStageChecks : ℕ := 64

/-- A cohort index is written as its low 32 bits. -/
def putIndex (index : ℕ) : Bytes := word 4 index

def putStage (s : StageSpec) : Bytes :=
  [putStr s.name, putCounted putIndex s.cohortIndices,
    putCounted putEvidenceRequirement s.requiredEvidence, putCounted putCriterion s.acceptance,
    putCounted putCriterion s.failure, putBool s.requireResidencyBeforeEntry,
    putBool s.requireDrainAfterCommit].flatten

def getStage (limits : ProtocolLimits) : Reader StageSpec := do
  let name ← string limits.maxString
  let cohortIndices ← counted (sizeWord (limits.maxValues * 8)) (number 4)
  let requiredEvidence ← counted maxStageChecks getEvidenceRequirement
  let acceptance ← counted maxStageChecks getCriterion
  let failure ← counted maxStageChecks getCriterion
  let requireResidencyBeforeEntry ← getBool
  let requireDrainAfterCommit ← getBool
  pure { name, cohortIndices, requiredEvidence, acceptance, failure
         requireResidencyBeforeEntry, requireDrainAfterCommit }

def putRolloutPlan (r : RolloutPlanRequest) : Bytes :=
  [putId r.model, putId r.candidate, putId r.candidateGeneration, putId r.artifactGeneration,
    putId r.compatibilityGeneration, putId r.policyGeneration, putId r.rootScope,
    putId r.rootScopeGeneration, putEnum r.strategy.code, putId r.previous,
    putId r.previousGeneration, putId r.rollbackTarget, putId r.rollbackTargetGeneration,
    putU32 r.maxBlastRadiusPercent, putBool r.manualProgression, putId r.epoch, putId r.worker,
    putId r.boot, putId r.promotion, putId r.promotionGeneration,
    putCounted putCohort r.cohorts, putCounted putStage r.stages].flatten

def getRolloutPlan (limits : ProtocolLimits) : Reader RolloutPlanRequest := do
  let model ← getId
  let candidate ← getId
  let candidateGeneration ← getId
  let artifactGeneration ← getId
  let compatibilityGeneration ← getId
  let policyGeneration ← getId
  let rootScope ← getId
  let rootScopeGeneration ← getId
  let strategy ← getEnum RolloutStrategy.all
  let previous ← getId
  let previousGeneration ← getId
  let rollbackTarget ← getId
  let rollbackTargetGeneration ← getId
  let maxBlastRadiusPercent ← getU32
  let manualProgression ← getBool
  let epoch ← getId
  let worker ← getId
  let boot ← getId
  let promotion ← getId
  let promotionGeneration ← getId
  let cohorts ← counted (sizeWord (limits.maxValues * 8)) (getCohort limits)
  let stages ← counted limits.maxValues (getStage limits)
  pure { model, candidate, candidateGeneration, artifactGeneration, compatibilityGeneration
         policyGeneration, rootScope, rootScopeGeneration, strategy, previous
         previousGeneration, rollbackTarget, rollbackTargetGeneration, maxBlastRadiusPercent
         manualProgression, cohorts, stages, epoch, worker, boot, promotion
         promotionGeneration }

/-! ## Other requests -/

def putProgress (r : RolloutProgressRequest) : Bytes :=
  [putId r.rollout, putId r.rolloutGeneration, putId r.stage, putId r.stageGeneration,
    putId r.scopeGeneration, putId r.epoch, putId r.worker, putId r.boot,
    putBool r.administrativeApproval, putStr r.detail].flatten

def getProgress (limits : ProtocolLimits) : Reader RolloutProgressRequest := do
  let rollout ← getId
  let rolloutGeneration ← getId
  let stage ← getId
  let stageGeneration ← getId
  let scopeGeneration ← getId
  let epoch ← getId
  let worker ← getId
  let boot ← getId
  let administrativeApproval ← getBool
  let detail ← string limits.maxString
  pure { rollout, rolloutGeneration, stage, stageGeneration, scopeGeneration, epoch, worker
         boot, administrativeApproval, detail }

def putRetire (r : RetirementRequest) : Bytes :=
  [putId r.model, putId r.version, putId r.generation, putId r.policyGeneration,
    putId r.epoch].flatten

def getRetire : Reader RetirementRequest := do
  let model ← getId
  let version ← getId
  let generation ← getId
  let policyGeneration ← getId
  let epoch ← getId
  pure { model, version, generation, policyGeneration, epoch }

def putRevalidate (r : RevalidationRequest) : Bytes :=
  [putId r.model, putId r.version, putId r.generation, putReasonCode r.cause,
    putStr r.detail].flatten

def getRevalidate (limits : ProtocolLimits) : Reader RevalidationRequest := do
  let model ← getId
  let version ← getId
  let generation ← getId
  let cause ← getReasonCode
  let detail ← string limits.maxString
  pure { model, version, generation, cause, detail }

def putRollback (r : RollbackRequest) : Bytes :=
  [putId r.model, putId r.candidate, putId r.candidateGeneration, putId r.rollout,
    putId r.rolloutGeneration, putId r.target, putId r.targetGeneration,
    putId r.targetArtifactGeneration, putId r.scope, putId r.scopeGeneration,
    putId r.policyGeneration, putId r.epoch, putId r.worker, putId r.boot, putBool r.automatic,
    putStr r.detail].flatten

def getRollback (limits : ProtocolLimits) : Reader RollbackRequest := do
  let model ← getId
  let candidate ← getId
  let candidateGeneration ← getId
  let rollout ← getId
  let rolloutGeneration ← getId
  let target ← getId
  let targetGeneration ← getId
  let targetArtifactGeneration ← getId
  let scope ← getId
  let scopeGeneration ← getId
  let policyGeneration ← getId
  let epoch ← getId
  let worker ← getId
  let boot ← getId
  let automatic ← getBool
  let detail ← string limits.maxString
  pure { model, candidate, candidateGeneration, rollout, rolloutGeneration, target
         targetGeneration, targetArtifactGeneration, scope, scopeGeneration, policyGeneration
         epoch, worker, boot, automatic, detail }

/-- The payload of SUPERSEDE_ROLLOUT. -/
structure SupersedeMessage where
  rollout : RolloutId := {}
  generation : RolloutGeneration := {}
  detail : Text := []

def putSupersede (m : SupersedeMessage) : Bytes :=
  [putId m.rollout, putId m.generation, putStr m.detail].flatten

def getSupersede (limits : ProtocolLimits) : Reader SupersedeMessage := do
  let rollout ← getId
  let generation ← getId
  let detail ← string limits.maxString
  pure { rollout, generation, detail }

/-! ## Replies -/

/-- A structured outcome, named reasons, and bounded typed values. -/
structure Reply where
  outcome : OutcomeCode := .rejected
  reasons : List Reason := []
  values : List (Text × Text) := []

def getReason (limits : ProtocolLimits) : Reader Reason := getReasonUpTo limits.maxString

def putValue (value : Text × Text) : Bytes := [putStr value.1, putStr value.2].flatten

def getValue (limits : ProtocolLimits) : Reader (Text × Text) := do
  let key ← string limits.maxString
  let entry ← string limits.maxString
  pure (key, entry)

/-- An outcome is read as a 16-bit number up to that of the last one. -/
def getOutcome : Reader OutcomeCode := do
  let outcome ← number 2
  oneOf OutcomeCode.all outcome

def putReply (m : Reply) : Bytes :=
  [word 2 m.outcome.code, putCounted putReason m.reasons, putCounted putValue m.values].flatten

def getReply (limits : ProtocolLimits) : Reader Reply := do
  let outcome ← getOutcome
  let reasons ← counted limits.maxReasons (getReason limits)
  let values ← counted limits.maxValues (getValue limits)
  pure { outcome, reasons, values }

/-- A reply is counted before it is written. -/
def encodeReply (limits : ProtocolLimits) (m : Reply) : Except ProtocolStatus Bytes :=
  if limits.maxReasons < m.reasons.length ∨ limits.maxValues < m.values.length then
    .error .oversized
  else encodePayload limits (putReply m)

/-! ## All messages -/

/-- The messages that have a codec. -/
inductive MessageKind
  | hello | helloAck | registerModel | registerVersion | publishCompatibility | publishEvidence
  | attemptRequest | completion | fence | command | queryState | queryAuthority | promotion
  | rolloutPlan | progress | retire | revalidate | rollback | supersede | reconcile
  | registerScope | reply
  deriving DecidableEq

namespace MessageKind

/-- The value a message carries. -/
def Payload : MessageKind → Type
  | hello => HelloMessage
  | helloAck => HelloAckMessage
  | registerModel => RegisterModelMessage
  | registerVersion => RegisterVersionMessage
  | publishCompatibility => PublishCompatibilityMessage
  | publishEvidence => PublishEvidenceMessage
  | attemptRequest => AttemptRequestMessage
  | completion => CompletionMessage
  | fence => FenceMessage
  | command => CommandMessage
  | queryState => QueryStateMessage
  | queryAuthority => QueryAuthorityMessage
  | promotion => PromotionRequest
  | rolloutPlan => RolloutPlanRequest
  | progress => RolloutProgressRequest
  | retire => RetirementRequest
  | revalidate => RevalidationRequest
  | rollback => RollbackRequest
  | supersede => SupersedeMessage
  | reconcile => ReconcileMessage
  | registerScope => RegisterScopeMessage
  | reply => Reply

/-- What is written of a message. -/
def put : (kind : MessageKind) → kind.Payload → Bytes
  | hello => putHello
  | helloAck => putHelloAck
  | registerModel => putRegisterModel
  | registerVersion => putRegisterVersion
  | publishCompatibility => putPublishCompatibility
  | publishEvidence => putPublishEvidence
  | attemptRequest => putAttemptRequest
  | completion => putCompletion
  | fence => putFence
  | command => putCommand
  | queryState => putQueryState
  | queryAuthority => putQueryAuthority
  | promotion => putPromotion
  | rolloutPlan => putRolloutPlan
  | progress => putProgress
  | retire => putRetire
  | revalidate => putRevalidate
  | rollback => putRollback
  | supersede => putSupersede
  | reconcile => putReconcile
  | registerScope => putRegisterScope
  | reply => putReply

/-- The reader of a message. -/
def get (limits : ProtocolLimits) : (kind : MessageKind) → Reader kind.Payload
  | hello => getHello limits
  | helloAck => getHelloAck limits
  | registerModel => getRegisterModel limits
  | registerVersion => getRegisterVersion limits
  | publishCompatibility => getPublishCompatibility limits
  | publishEvidence => getPublishEvidence limits
  | attemptRequest => getAttemptRequest limits
  | completion => getCompletion limits
  | fence => getFence limits
  | command => getCommand limits
  | queryState => getQueryState
  | queryAuthority => getQueryAuthority
  | promotion => getPromotion limits
  | rolloutPlan => getRolloutPlan limits
  | progress => getProgress limits
  | retire => getRetire
  | revalidate => getRevalidate limits
  | rollback => getRollback limits
  | supersede => getSupersede limits
  | reconcile => getReconcile
  | registerScope => getRegisterScope limits
  | reply => getReply limits

/-- Encode a message under limits. -/
def encode (limits : ProtocolLimits) :
    (kind : MessageKind) → kind.Payload → Except ProtocolStatus Bytes
  | reply, message => encodeReply limits message
  | kind, message => encodePayload limits (kind.put message)

/-- Decode a message under limits. -/
def decode (limits : ProtocolLimits) (kind : MessageKind) (payload : Bytes) :
    Except ProtocolStatus kind.Payload :=
  decodeOr (kind.get limits) payload

end MessageKind

end Wire

end LifecycleFabric
