import LifecycleFabric.Wire.Frames
import LifecycleFabric.Wire.Values

/-!
# Message codecs

Each message is written field by field, and read back field by field by a reader that bounds
every count. Once a read fails the reader stays failed, and a decode that did not read the
whole payload fails too, so a reader is one that takes its fields off the payload or refuses.
-/

namespace LifecycleFabric.Wire

open ByteCodec

/-! ## Payload codec -/

/-- Encode what was written, unless it exceeds the payload bound. -/
def encodePayload (limits : ProtocolLimits) (payload : Bytes) : Except ProtocolStatus Bytes :=
  if limits.maxPayloadBytes < payload.length then .error .oversized else .ok payload

/-- The value read, if the whole payload was read. -/
def decodeOr {α : Type} (reader : Reader α) (payload : Bytes) : Except ProtocolStatus α :=
  match whole reader payload with
  | none => .error .decodeFailure
  | some value => .ok value

/-! ## Shared parts -/

def getBinding (limits : ProtocolLimits) : Reader ArtifactBinding :=
  getBindingUpTo limits.maxDigest

def getRequirements (limits : ProtocolLimits) : Reader ModelRequirements :=
  getRequirementsUpTo limits.maxString

/-- The members of an ordered set of texts, after texts were inserted into it. -/
def textSet (texts : List Text) : List Text := (texts.insertionSort (· ≤ ·)).dedup

def putEnvironment (e : EnvironmentProfile) : Bytes :=
  [putStr e.key, putStr e.runtime, putStr e.runtimeVersion, putStr e.backend,
    putStr e.backendVersion, putStr e.architecture, putCounted putStr e.precisions,
    putStr e.tokenizerGeneration, putStr e.adapterSet, putU32 e.computeCapability,
    putEnum e.provenance.code].flatten

/-- The most precisions of an environment. -/
def maxPrecisions : ℕ := 64

def getEnvironment (limits : ProtocolLimits) : Reader EnvironmentProfile := do
  let key ← string limits.maxString
  let runtime ← string limits.maxString
  let runtimeVersion ← string limits.maxString
  let backend ← string limits.maxString
  let backendVersion ← string limits.maxString
  let architecture ← string limits.maxString
  let precisions ← counted maxPrecisions (string limits.maxString)
  let tokenizerGeneration ← string limits.maxString
  let adapterSet ← string limits.maxString
  let computeCapability ← getU32
  let provenance ← getEnum Provenance.all
  pure { key, runtime, runtimeVersion, backend, backendVersion, architecture
         precisions := textSet precisions, tokenizerGeneration, adapterSet, computeCapability
         provenance }

/-! ## Sessions -/

def putHello (m : HelloMessage) : Bytes :=
  [putU16 m.protocolVersion, putId m.worker, putId m.boot, putId m.epoch,
    putCounted putId m.scopes, putStr m.detail].flatten

def getHello (limits : ProtocolLimits) : Reader HelloMessage := do
  let protocolVersion ← getU16
  let worker ← getId
  let boot ← getId
  let epoch ← getId
  let scopes ← counted (sizeWord (limits.maxConnections * 4)) getId
  let detail ← string limits.maxString
  pure { protocolVersion, worker, boot, epoch, scopes, detail }

/-- The payload of HELLO_ACK. -/
structure HelloAckMessage where
  protocolVersion : UInt16 := kProtocolVersion
  epoch : CoordinatorEpoch := {}
  worker : WorkerId := {}
  boot : WorkerBootId := {}
  accepted : Bool := false
  scopes : List ScopeId := []
  detail : Text := []

def putHelloAck (m : HelloAckMessage) : Bytes :=
  [putU16 m.protocolVersion, putId m.epoch, putId m.worker, putId m.boot, putBool m.accepted,
    putCounted putId m.scopes, putStr m.detail].flatten

def getHelloAck (limits : ProtocolLimits) : Reader HelloAckMessage := do
  let protocolVersion ← getU16
  let epoch ← getId
  let worker ← getId
  let boot ← getId
  let accepted ← getBool
  let scopes ← counted (sizeWord (limits.maxConnections * 4)) getId
  let detail ← string limits.maxString
  pure { protocolVersion, epoch, worker, boot, accepted, scopes, detail }

/-- The payload of FENCE. -/
structure FenceMessage where
  worker : WorkerId := {}
  boot : WorkerBootId := {}
  reason : Text := []

def putFence (m : FenceMessage) : Bytes :=
  [putId m.worker, putId m.boot, putStr m.reason].flatten

def getFence (limits : ProtocolLimits) : Reader FenceMessage := do
  let worker ← getId
  let boot ← getId
  let reason ← string limits.maxString
  pure { worker, boot, reason }

/-! ## Registry -/

/-- The payload of REGISTER_MODEL. -/
structure RegisterModelMessage where
  name : Text := []
  family : Text := []
  provenance : Provenance := .unknown

def putRegisterModel (m : RegisterModelMessage) : Bytes :=
  [putStr m.name, putStr m.family, putEnum m.provenance.code].flatten

def getRegisterModel (limits : ProtocolLimits) : Reader RegisterModelMessage := do
  let name ← string limits.maxString
  let family ← string limits.maxString
  let provenance ← getEnum Provenance.all
  pure { name, family, provenance }

/-- The payload of REGISTER_VERSION. -/
structure RegisterVersionMessage where
  model : ModelId := {}
  label : Text := []
  artifact : ArtifactBinding := {}
  requirements : ModelRequirements := {}
  predecessor : ModelVersionId := {}
  provenance : Provenance := .unknown

def putRegisterVersion (m : RegisterVersionMessage) : Bytes :=
  [putId m.model, putStr m.label, putBinding m.artifact, putRequirements m.requirements,
    putId m.predecessor, putEnum m.provenance.code].flatten

def getRegisterVersion (limits : ProtocolLimits) : Reader RegisterVersionMessage := do
  let model ← getId
  let label ← string limits.maxString
  let artifact ← getBinding limits
  let requirements ← getRequirements limits
  let predecessor ← getId
  let provenance ← getEnum Provenance.all
  pure { model, label, artifact, requirements, predecessor, provenance }

/-- The payload of PUBLISH_COMPATIBILITY. -/
structure PublishCompatibilityMessage where
  version : ModelVersionId := {}
  environment : EnvironmentProfile := {}
  outcome : CompatibilityOutcome := .unknown
  detail : Text := []
  provenance : Provenance := .unknown

def putPublishCompatibility (m : PublishCompatibilityMessage) : Bytes :=
  [putId m.version, putEnvironment m.environment, putEnum m.outcome.code, putStr m.detail,
    putEnum m.provenance.code].flatten

def getPublishCompatibility (limits : ProtocolLimits) : Reader PublishCompatibilityMessage := do
  let version ← getId
  let environment ← getEnvironment limits
  let outcome ← getEnum CompatibilityOutcome.all
  let detail ← string limits.maxString
  let provenance ← getEnum Provenance.all
  pure { version, environment, outcome, detail, provenance }

/-- The longest unit of a value. -/
def maxUnit : ℕ := 32

def putPublishEvidence (m : PublishEvidenceMessage) : Bytes :=
  [putId m.version, putId m.modelGeneration, putId m.artifactGeneration, putId m.scope,
    putId m.rollout, putId m.stage, putEnum m.kind.code, putEnum m.verdict.code, putF64 m.value,
    putStr m.unit, putU64 m.tick, putStr m.detail, putEnum m.provenance.code].flatten

def getPublishEvidence (limits : ProtocolLimits) : Reader PublishEvidenceMessage := do
  let version ← getId
  let modelGeneration ← getId
  let artifactGeneration ← getId
  let scope ← getId
  let rollout ← getId
  let stage ← getId
  let kind ← getEnum EvidenceKind.all
  let verdict ← getEnum EvidenceVerdict.all
  let value ← getF64
  let unit ← string maxUnit
  let tick ← getU64
  let detail ← string limits.maxString
  let provenance ← getEnum Provenance.all
  pure { version, modelGeneration, artifactGeneration, scope, rollout, stage, kind, verdict
         value, unit, tick, detail, provenance }

/-- The payload of REGISTER_SCOPE. -/
structure RegisterScopeMessage where
  path : Text := []

def putRegisterScope (m : RegisterScopeMessage) : Bytes := [putStr m.path].flatten

def getRegisterScope (limits : ProtocolLimits) : Reader RegisterScopeMessage := do
  let path ← string (sizeWord (limits.maxString * 8))
  pure { path }

/-! ## Attempts -/

def putAttemptRequest (m : AttemptRequestMessage) : Bytes :=
  [putEnum m.kind.code, putId m.worker, putId m.boot, putId m.model, putId m.version,
    putId m.modelGeneration, putId m.scope, putId m.rollout, putId m.rolloutGeneration,
    putId m.stage, putId m.stageGeneration, putBool m.idempotent, putStr m.detail].flatten

def getAttemptRequest (limits : ProtocolLimits) : Reader AttemptRequestMessage := do
  let kind ← getEnum AttemptKind.all
  let worker ← getId
  let boot ← getId
  let model ← getId
  let version ← getId
  let modelGeneration ← getId
  let scope ← getId
  let rollout ← getId
  let rolloutGeneration ← getId
  let stage ← getId
  let stageGeneration ← getId
  let idempotent ← getBool
  let detail ← string limits.maxString
  pure { kind, worker, boot, model, version, modelGeneration, scope, rollout
         rolloutGeneration, stage, stageGeneration, idempotent, detail }

def putCompletion (m : CompletionMessage) : Bytes :=
  [putId m.attempt, putBool m.success, putBool m.confirmed, putStr m.detail].flatten

def getCompletion (limits : ProtocolLimits) : Reader CompletionMessage := do
  let attempt ← getId
  let success ← getBool
  let confirmed ← getBool
  let detail ← string limits.maxString
  pure { attempt, success, confirmed, detail }

def putCommand (m : CommandMessage) : Bytes :=
  [putEnum m.kind.code, putId m.attempt, putId m.model, putId m.version,
    putId m.modelGeneration, putId m.artifactGeneration, putId m.scope, putId m.rollout,
    putId m.rolloutGeneration, putStr m.detail].flatten

def getCommand (limits : ProtocolLimits) : Reader CommandMessage := do
  let kind ← getEnum AttemptKind.all
  let attempt ← getId
  let model ← getId
  let version ← getId
  let modelGeneration ← getId
  let artifactGeneration ← getId
  let scope ← getId
  let rollout ← getId
  let rolloutGeneration ← getId
  let detail ← string limits.maxString
  pure { kind, attempt, model, version, modelGeneration, artifactGeneration, scope, rollout
         rolloutGeneration, detail }

end LifecycleFabric.Wire
