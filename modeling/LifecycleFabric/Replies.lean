import LifecycleFabric.Engine.Reconcile
import LifecycleFabric.Wire.Requests

/-!
# The replies of a coordinator

Every request frame is answered by one reply: what the engine decided, with its reasons, and
a few bounded values. The reply is encoded under the limits of the control plane, and sent as
a frame.
-/

namespace LifecycleFabric

open EngineState

/-- The name of an outcome. -/
def OutcomeCode.toText : OutcomeCode → Text
  | ok => text "OK"
  | accepted => text "ACCEPTED"
  | rejected => text "REJECTED"
  | promotionAllowed => text "PROMOTION_ALLOWED"
  | promotionBlocked => text "PROMOTION_BLOCKED"
  | canaryAllowed => text "CANARY_ALLOWED"
  | canaryBlocked => text "CANARY_BLOCKED"
  | stageAdvanceAllowed => text "STAGE_ADVANCE_ALLOWED"
  | stageAdvanceBlocked => text "STAGE_ADVANCE_BLOCKED"
  | rollbackAllowed => text "ROLLBACK_ALLOWED"
  | rollbackBlocked => text "ROLLBACK_BLOCKED"
  | retirementAllowed => text "RETIREMENT_ALLOWED"
  | retirementBlocked => text "RETIREMENT_BLOCKED"
  | revalidationRequired => text "REVALIDATION_REQUIRED"
  | rollbackDecisionRequired => text "ROLLBACK_DECISION_REQUIRED"
  | stalePlan => text "STALE_PLAN"
  | staleEvidence => text "STALE_EVIDENCE"
  | incompatible => text "INCOMPATIBLE"
  | noAuthoritativeModel => text "NO_AUTHORITATIVE_MODEL"
  | ambiguous => text "AMBIGUOUS"
  | outcomeUnknown => text "OUTCOME_UNKNOWN"
  | reconciliationRequired => text "RECONCILIATION_REQUIRED"
  | conflict => text "CONFLICT"
  | boundsExceeded => text "BOUNDS_EXCEEDED"
  | notFound => text "NOT_FOUND"
  | unsupported => text "UNSUPPORTED"

namespace Wire.Reply

/-- Longest detail a reply adds. -/
def maxDetail : ℕ := 160

/-- Longest value a reply sets. -/
def maxValue : ℕ := 256

/-- Add a reason; the absent reason is dropped and the detail cut. -/
def add (reply : Reply) (code : ReasonCode) (detail : Text) : Reply :=
  if code = .none then reply
  else { reply with reasons := reply.reasons ++ [⟨code, detail.take maxDetail⟩] }

/-- Set a value, cut, replacing what its key was set to. -/
def set (reply : Reply) (key value : Text) : Reply :=
  { reply with
    values :=
      if reply.values.any fun entry => decide (entry.1 = key) then
        reply.values.map fun entry =>
          if entry.1 = key then (key, value.take maxValue) else entry
      else reply.values ++ [(key, value.take maxValue)] }

/-- Set a text under a literal key. -/
def setText (key : String) (value : Text) (reply : Reply) : Reply := reply.set (text key) value

/-- Set a number. -/
def setNumber (key : String) (value : ℕ) (reply : Reply) : Reply :=
  reply.set (text key) (decimal value)

/-- Set an identity or a generation. -/
def setId {tag : IdTag} (key : String) (value : Ident tag) (reply : Reply) : Reply :=
  reply.setNumber key value.raw.toNat

/-- What the engine decided. -/
def ofDecision (decision : Decision) : Reply :=
  { outcome := decision.outcome, reasons := decision.reasons }

/-- A refusal of the coordinator itself. -/
def refused (outcome : OutcomeCode) (code : ReasonCode) (detail : Text) : Reply :=
  ({ outcome } : Reply).add code detail

/-- The reply to an allowed decision carries values. -/
def withValues (decision : Decision) (values : Reply → Reply) : Reply :=
  if decision.allowed then values (ofDecision decision) else ofDecision decision

end Wire.Reply

open Wire (Reply ProtocolStatus encodeReply encodeFrame)
open Wire.Reply

/-! ## Queries -/

namespace EngineState

/-- The values QUERY_STATE answers about a version. -/
def versionValues (record : ModelVersionRecord) (reply : Reply) : Reply :=
  reply |> setId "model_id" record.model
    |> setId "version_id" record.version
    |> setText "label" record.label
    |> setId "model_generation" record.generation
    |> setText "lifecycle_state" record.state.toText
    |> setId "lifecycle_generation" record.lifecycleGeneration
    |> setId "artifact_generation" record.artifact.generation
    |> setText "artifact_digest" record.artifact.digest
    |> setId "compatibility_generation" record.compatibilityGeneration
    |> setId "promotion_id" record.lastPromotion
    |> setId "rollout_id" record.rollout
    |> setId "rollout_generation" record.rolloutGeneration
    |> setId "current_stage_id" record.currentStage
    |> setId "current_stage_generation" record.currentStageGeneration

/-- The values QUERY_STATE answers about a scope. -/
def scopeValues (s : EngineState) (scope : ScopeId) (reply : Reply) : Reply :=
  let authority := s.queryAuthority scope
  let reply := reply |> setText "scope" (s.scopes.pathOf scope)
    |> setText "authority_outcome" authority.outcome.toText
  match authority.binding with
  | none => reply
  | some binding =>
    reply |> setId "authoritative_version_id" binding.version
      |> setId "authoritative_model_generation" binding.modelGeneration

/-- The counts QUERY_STATE answers. -/
def storeValues (s : EngineState) (reply : Reply) : Reply :=
  reply |> setNumber "models" s.models.size
    |> setNumber "versions" s.versions.size
    |> setNumber "scopes" s.scopes.records.length
    |> setNumber "rollouts" s.rollouts.size
    |> setNumber "evidence_records" s.evidence.size
    |> setNumber "evidence_dropped" s.evidence.dropped
    |> setNumber "authority_bindings" s.authority.bindings.values.flatten.length
    |> setNumber "compatibility_facts" s.compatibility.facts.size
    |> setNumber "workers" s.workers.size
    |> setNumber "attempts" s.attempts.size
    |> setNumber "committed_promotions" s.committedPromotions.size
    |> setNumber "committed_rollbacks" s.committedRollbacks.size
    |> setId "policy_generation" s.policy.base.generation

/-- The answer to QUERY_STATE. -/
def stateReply (s : EngineState) (version : ModelVersionId) (scope : ScopeId) : Reply :=
  let reply := ({ outcome := .ok } : Reply) |> setId "coordinator_epoch" s.epoch
    |> setId "sequence" s.sequence
    |> setId "snapshot_generation" s.snapshotGeneration
  let reply :=
    if version.valid then
      match s.versions.values.find? fun record => decide (record.version = version) with
      | none => reply
      | some record => versionValues record reply
    else reply
  let reply := if scope.valid then s.scopeValues scope reply else reply
  s.storeValues reply

/-- The answer to QUERY_AUTHORITY. -/
def authorityReply (s : EngineState) (scope : ScopeId) : Reply :=
  let authority := s.queryAuthority scope
  let reply := ({ outcome := authority.outcome } : Reply)
    |> setText "scope" (s.scopes.pathOf scope)
    |> setId "scope_generation" authority.scopeGeneration
    |> setText "inherited" (if authority.inherited then text "yes" else text "no")
  let reply :=
    match authority.binding with
    | none => reply
    | some binding =>
      reply |> setId "model_id" binding.model
        |> setId "version_id" binding.version
        |> setId "model_generation" binding.modelGeneration
        |> setId "artifact_set_id" binding.artifactSet
        |> setId "artifact_generation" binding.artifactGeneration
        |> setText "authority_kind" binding.kind.toText
        |> setId "rollout_id" binding.rollout
        |> setId "rollout_generation" binding.rolloutGeneration
        |> setId "granted_sequence" binding.grantedSequence
  let reply := reply |> setNumber "canary_overlays" authority.overlays.length
    |> setNumber "rollback_retained" authority.retained.length
  authority.explanation.reasons.foldl (fun reply reason => reply.add reason.code reason.detail)
    reply

end EngineState

/-! ## Reconciliation -/

/-- What a record of readiness or residency observes. -/
def EvidenceRecord.observation (record : EvidenceRecord) : ResidencyObservation :=
  { model := record.subject.model
    version := record.subject.version
    modelGeneration := record.subject.modelGeneration
    artifactGeneration := record.subject.artifactGeneration
    scope := record.subject.scope
    generation := ⟨record.generation.raw⟩
    resident := decide (record.verdict = .satisfied)
    ready := decide (record.verdict = .satisfied)
    boot := record.boot
    provenance := record.provenance }

namespace Process

variable (cfg : CoordinatorConfig) (limits : ProtocolLimits)

/-- What the coordinator reconciles against: the evidence workers have published, and the
registered sessions. -/
def reconciliationInput (p : Process) : ReconciliationInput :=
  { residency :=
      ((EvidenceStore.byGeneration p.engine.evidence.records.values.flatten).filter fun record =>
        decide (record.kind = .readiness ∨ record.kind = .residencyReady)).map
          EvidenceRecord.observation
    liveWorkers := (p.sessions.filter Session.registered).map Session.worker
    workerLivenessKnown := !p.sessions.isEmpty }

/-- The findings RECONCILE answers. -/
def findings (p : Process) : List Finding := p.engine.reconcile p.reconciliationInput

/-- Number the first findings of a list. -/
def setFindings (findings : List Finding) (reply : Reply) : Reply :=
  ((findings.take 16).zipIdx).foldl (fun reply e =>
    reply.set (text "finding_" ++ decimal e.2) e.1.kind.toText) reply

/-- The answer to RECONCILE. -/
def reconcileReply (p : Process) : Reply :=
  let findings := p.findings
  let reply : Reply :=
    { outcome := if findings.isEmpty then .ok else .reconciliationRequired }
  let reply := reply |> setNumber "findings" findings.length |> setFindings findings
  findings.foldl (fun reply finding => reply.add finding.reason finding.detail) reply

/-! ## Sessions -/

/-- The answer to HELLO. -/
def helloReply (p : Process) (session : Session) (hello : HelloMessage) : Reply :=
  if session.helloSeen then
    refused .conflict .protocolDuplicateHello
      (text "HELLO was already received on this connection")
  else if hello.protocolVersion ≠ limits.version then
    refused .rejected .protocolUnsupportedVersion (text "protocol version is not supported")
  else
    ({ outcome := .accepted } : Reply) |> setId "coordinator_epoch" p.engine.epoch
      |> setNumber "protocol_version" limits.version.toNat
      |> setText "role" (if hello.worker.valid then text "worker" else text "client")

/-- The answer to REGISTER_WORKER. -/
def registrationReply (p : Process) (session : Session) (message : HelloMessage) : Reply :=
  if !session.helloSeen then
    refused .rejected .protocolInvalidTransition (text "REGISTER_WORKER before HELLO")
  else
    let (engine, decision) := p.engine.registerWorker cfg.engine
      { id := message.worker
        boot := message.boot
        epoch := p.engine.epoch
        scopes := message.scopes }
    withValues decision fun reply =>
      reply |> setId "worker_id" message.worker
        |> setId "worker_boot_id" message.boot
        |> setId "coordinator_epoch" engine.epoch

/-! ## All requests -/

/-- The answer to a publication of evidence. -/
def evidenceReply (p : Process) (record : EvidenceRecord) : Reply :=
  let (_, decision, record) := p.engine.publishEvidence record
  withValues decision fun reply =>
    reply |> setId "evidence_id" record.id |> setId "evidence_generation" record.generation

/-- The answer to a request, unless the frame carries none. -/
def reply (p : Process) (session : Session) : Frame → Option Reply
  | .hello message => some (p.helloReply limits session message)
  | .registerWorker message => some (p.registrationReply cfg session message)
  | .registerScope path =>
    let (engine, decision, scope) := p.engine.registerScope path
    some (withValues decision fun reply =>
      let reply := reply |> setId "scope_id" scope |> setText "scope_path" path
      match engine.scopes.find scope with
      | none => reply
      | some record =>
        reply |> setId "scope_generation" record.generation
          |> setNumber "scope_depth" record.depth.toNat)
  | .registerModel name family provenance =>
    let (_, decision, model) := p.engine.registerModel cfg.engine name family provenance
    some (withValues decision (setId "model_id" model))
  | .registerVersion request =>
    let (_, decision, version) := p.engine.registerVersion cfg.engine request
    some (withValues decision (setId "version_id" version))
  | .publishCompatibility version environment outcome detail provenance =>
    some (ofDecision
      (p.engine.publishCompatibility cfg.engine version environment outcome detail provenance).2)
  | .publishReadiness message => some (p.evidenceReply (session.evidence message))
  | .publishHealth message =>
    some (p.evidenceReply (session.evidence { message with kind := .residencyReady }))
  | .requestAttempt kind message =>
    let (_, outcome) := p.engine.beginAttempt cfg.engine (p.attemptRequest session kind message)
    some (withValues outcome.decision (setId "attempt_id" outcome.attempt))
  | .publishCompletion message =>
    some (ofDecision (p.engine.completeAttempt (session.completion message)).2)
  | .fence worker boot reason =>
    some (ofDecision (p.engine.fenceWorker worker boot p.engine.epoch reason).2)
  | .promote request =>
    let (_, outcome) := p.engine.promote cfg.engine
      { request with
        epoch := p.orEpoch request.epoch
        boot := p.orConnectedBoot request.worker request.boot }
    some (withValues outcome.decision fun reply =>
      reply |> setId "promotion_id" outcome.promotion
        |> setId "promotion_generation" outcome.promotionGeneration)
  | .registerRolloutPlan request =>
    let (_, decision, rollout, generation) := p.engine.createRollout cfg.engine
      { request with epoch := p.orEpoch request.epoch }
    some (withValues decision fun reply =>
      reply |> setId "rollout_id" rollout |> setId "rollout_generation" generation)
  | .beginRollout request => some (ofDecision (p.engine.beginRollout (p.progressRequest request)).2)
  | .advanceStage request => some (ofDecision (p.engine.advanceStage (p.progressRequest request)).2)
  | .failStage request => some (ofDecision (p.engine.failStage (p.progressRequest request)).2)
  | .retire request =>
    some (ofDecision (p.engine.retire { request with epoch := p.orEpoch request.epoch }).2)
  | .revalidate request => some (ofDecision (p.engine.revalidate request).2)
  | .rollback request =>
    let (_, outcome) := p.engine.rollback { request with epoch := p.orEpoch request.epoch }
    some (withValues outcome.decision fun reply =>
      reply |> setId "rollback_id" outcome.rollback
        |> setId "rollback_generation" outcome.rollbackGeneration)
  | .supersedeRollout rollout generation detail =>
    some (ofDecision (p.engine.supersedeRollout rollout generation p.engine.epoch detail).2)
  | .queryState version scope => some (p.engine.stateReply version scope)
  | .queryAuthority scope => some (p.engine.authorityReply scope)
  | .reconcile => some p.reconcileReply
  | .malformed | .unhandled => none

/-- The bytes of a REPLY frame, when the reply can be encoded. -/
def encodeReplyFrame (reply : Reply) : Except ProtocolStatus ByteCodec.Bytes :=
  match encodeReply limits reply with
  | .error status => .error status
  | .ok payload => encodeFrame limits { type := .reply, payload }

/-- The REPLY frames that are sent for a request, when saves and writes succeed: the one of
its reply, unless the reply cannot be encoded. -/
def sentReplies (p : Process) (session : Session) (frame : Frame) : List ByteCodec.Bytes :=
  match p.reply cfg limits session frame with
  | none => []
  | some reply =>
    match encodeReplyFrame limits reply with
    | .error _ => []
    | .ok bytes => [bytes]

end Process

end LifecycleFabric
