import LifecycleFabric.Engine.Snapshot
import LifecycleFabric.Lib.Runs

/-!
# The engine as a transition system

The public operations of the engine, and its runs.
-/

namespace LifecycleFabric

open Runs

/-- A call of a public operation that may change the engine. -/
inductive Operation
  | registerModel (name family : Text) (provenance : Provenance)
  | registerVersion (request : RegisterVersionRequest)
  | reviseVersion (request : ReviseVersionRequest)
  | registerScope (path : Text)
  | setPolicy (policy : LifecyclePolicy)
  | setScopePolicy (refinement : ScopePolicyOverride)
  | publishCompatibility (version : ModelVersionId) (environment : EnvironmentProfile)
      (outcome : CompatibilityOutcome) (detail : Text) (provenance : Provenance)
  | publishEvidence (record : EvidenceRecord)
  | expirePublisherEvidence (boot : WorkerBootId)
  | registerWorker (registration : WorkerRegistration)
  | fenceWorker (worker : WorkerId) (boot : WorkerBootId) (epoch : CoordinatorEpoch)
      (reason : Text)
  | setWorkerLiveness (worker : WorkerId) (connected : Bool)
  | promote (request : PromotionRequest)
  | createRollout (request : RolloutPlanRequest)
  | beginRollout (request : RolloutProgressRequest)
  | advanceStage (request : RolloutProgressRequest)
  | failStage (request : RolloutProgressRequest)
  | supersedeRollout (rollout : RolloutId) (generation : RolloutGeneration)
      (epoch : CoordinatorEpoch) (detail : Text)
  | rollback (request : RollbackRequest)
  | retire (request : RetirementRequest)
  | revalidate (request : RevalidationRequest)
  | beginAttempt (request : AttemptRequest)
  | completeAttempt (completion : CompletionRecord)
  | reconcileAttempt (attempt : AttemptId) (sideEffectObserved : Bool)
      (epoch : CoordinatorEpoch) (detail : Text)
  | advanceEpoch (expectedCurrent : CoordinatorEpoch)
  | importDurableState (state : DurableState) (newEpoch : CoordinatorEpoch)
  | invalidateVolatileState (cause : Text)

/-- Whether an operation replaces the state by a durable one. -/
def Operation.isImport : Operation → Bool
  | .importDurableState _ _ => true
  | _ => false

namespace EngineState

/-- Perform an operation. The two operations that report no decision count as accepted. -/
def perform (cfg : EngineConfig) (s : EngineState) : Operation → EngineState × Decision
  | .registerModel name family provenance =>
    let (s, decision, _) := s.registerModel cfg name family provenance
    (s, decision)
  | .registerVersion request =>
    let (s, decision, _) := s.registerVersion cfg request
    (s, decision)
  | .reviseVersion request => s.reviseVersion cfg request
  | .registerScope path =>
    let (s, decision, _) := s.registerScope path
    (s, decision)
  | .setPolicy policy => s.setPolicy policy
  | .setScopePolicy refinement => s.setScopePolicy refinement
  | .publishCompatibility version environment outcome detail provenance =>
    s.publishCompatibility cfg version environment outcome detail provenance
  | .publishEvidence record =>
    let (s, decision, _) := s.publishEvidence record
    (s, decision)
  | .expirePublisherEvidence boot => ((s.expirePublisherEvidence boot).1, .accepted)
  | .registerWorker registration => s.registerWorker cfg registration
  | .fenceWorker worker boot epoch reason => s.fenceWorker worker boot epoch reason
  | .setWorkerLiveness worker connected => s.setWorkerLiveness worker connected
  | .promote request =>
    let (s, outcome) := s.promote cfg request
    (s, outcome.decision)
  | .createRollout request =>
    let (s, decision, _) := s.createRollout cfg request
    (s, decision)
  | .beginRollout request => s.beginRollout request
  | .advanceStage request => s.advanceStage request
  | .failStage request => s.failStage request
  | .supersedeRollout rollout generation epoch detail =>
    s.supersedeRollout rollout generation epoch detail
  | .rollback request =>
    let (s, outcome) := s.rollback request
    (s, outcome.decision)
  | .retire request => s.retire request
  | .revalidate request => s.revalidate request
  | .beginAttempt request =>
    let (s, outcome) := s.beginAttempt cfg request
    (s, outcome.decision)
  | .completeAttempt completion => s.completeAttempt completion
  | .reconcileAttempt attempt sideEffectObserved epoch detail =>
    let (s, outcome) := s.reconcileAttempt attempt sideEffectObserved epoch detail
    (s, outcome.decision)
  | .advanceEpoch expectedCurrent =>
    let (s, decision, _) := s.advanceEpoch expectedCurrent
    (s, decision)
  | .importDurableState state newEpoch => s.importDurableState cfg state newEpoch
  | .invalidateVolatileState cause => (s.invalidateVolatileState cause, .accepted)

/-- The state after an operation. -/
def step (cfg : EngineConfig) (s : EngineState) (op : Operation) : EngineState :=
  (s.perform cfg op).1

/-- The state after a list of operations. -/
def runOps (cfg : EngineConfig) (s : EngineState) (ops : List Operation) : EngineState :=
  run (step cfg) s ops

/-- The states operations lead to from a constructed engine. -/
def ReachableState (cfg : EngineConfig) (s : EngineState) : Prop :=
  Reachable (step cfg) (init cfg) s

end EngineState

end LifecycleFabric
