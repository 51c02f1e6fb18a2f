import LifecycleFabric.Backend
import LifecycleFabric.Decimals
import LifecycleFabric.Wire.Handling

/-!
# Lifecycle workers

A worker greets the coordinator, registers and publishes what its backend observes. Then it
executes the commands that arrive. It waits for a reply to each frame that it sends, and takes
the next frame that arrives for the reply.
-/

namespace LifecycleFabric

open Wire (MessageType MessageKind Reply encodeReply)
open Wire.Reply

/-- Whether a worker handles the frames of a type as commands. -/
def Wire.MessageType.isCommand : MessageType → Bool
  | .requestWarm | .requestActivate | .requestDrain | .requestRollback | .command => true
  | _ => false

/-- What a worker takes the next frame for. -/
inductive WorkerPhase
  /-- The reply to its HELLO. -/
  | greeting
  /-- The reply to its registration. -/
  | registering
  /-- The reply to an observation, after which the rest of them are published. -/
  | publishing (rest : List Wire.Frame)
  /-- The reply to a completion. -/
  | completing
  | serving
  | stopped
  deriving DecidableEq

/-- A worker, with the frames it handed to its channel and the commands it executed. -/
structure LifecycleWorker where
  config : WorkerConfig := {}
  id : WorkerId := {}
  scopes : List ScopeId := []
  boot : WorkerBootId := {}
  epoch : CoordinatorEpoch := {}
  backend : SyntheticLifecycleBackend := {}
  phase : WorkerPhase := .greeting
  sent : List Wire.Frame := []
  executed : List CommandMessage := []

/-- Evidence of what is observed of a replica. -/
def SyntheticReplica.readinessFor (replica : SyntheticReplica) (kind : EvidenceKind) :
    PublishEvidenceMessage :=
  let serves := replica.ready && replica.healthy
  { version := replica.version
    modelGeneration := replica.modelGeneration
    artifactGeneration := replica.artifactGeneration
    scope := replica.scope
    kind
    verdict := if serves then .satisfied else .unsatisfied
    value := ⟨if serves then 0x3FF0000000000000 else 0⟩
    unit := text "boolean"
    tick := 0
    detail :=
      if kind = .readiness then text "synthetic replica reports ready"
      else text "synthetic replica reports resident"
    provenance := .synthetic }

namespace LifecycleWorker

/-- Hand a frame to the channel, and wait. -/
def send (worker : LifecycleWorker) (frame : Wire.Frame) (phase : WorkerPhase) :
    LifecycleWorker :=
  { worker with sent := worker.sent ++ [frame], phase }

def stop (worker : LifecycleWorker) : LifecycleWorker := { worker with phase := .stopped }

/-- Send a reply and go on serving. A worker that cannot encode its reply stops. -/
def sendReply (worker : LifecycleWorker) (reply : Reply) : LifecycleWorker :=
  match encodeReply worker.config.limits reply with
  | .error _ => worker.stop
  | .ok payload => worker.send { type := .reply, payload } .serving

/-- The frames that publish what the backend observes. An observation that cannot be encoded is
left out. -/
def observations (worker : LifecycleWorker) : List Wire.Frame :=
  (worker.backend.replicas.values.filter SyntheticReplica.resident).flatMap fun replica =>
    [(EvidenceKind.readiness, MessageType.publishReadiness),
      (.residencyReady, .publishHealth)].filterMap fun (kind, type) =>
        match MessageKind.publishEvidence.encode worker.config.limits
          (replica.readinessFor kind) with
        | .error _ => none
        | .ok payload => some { type, payload }

/-- Publish the first of some observations, or go on serving. -/
def publish (worker : LifecycleWorker) : List Wire.Frame → LifecycleWorker
  | [] => { worker with phase := .serving }
  | frame :: rest => worker.send frame (.publishing rest)

/-- What a worker says of itself. -/
def hello (worker : LifecycleWorker) (epoch : CoordinatorEpoch) (detail : Text) : HelloMessage :=
  { protocolVersion := worker.config.limits.version
    worker := worker.id
    boot := worker.boot
    epoch
    scopes := worker.scopes
    detail }

/-- Own the backend and send a HELLO or a registration. -/
def introduce (worker : LifecycleWorker) (type : MessageType) (hello : HelloMessage)
    (phase : WorkerPhase) : LifecycleWorker :=
  let worker :=
    { worker with backend := { worker.backend with owner := worker.id, boot := worker.boot } }
  match MessageKind.hello.encode worker.config.limits hello with
  | .error _ => worker.stop
  | .ok payload => worker.send { type, payload } phase

/-- Greet the coordinator, once connected. -/
def start (worker : LifecycleWorker) : LifecycleWorker :=
  worker.introduce .hello
    (worker.hello {} (text "worker boot " ++ decimal worker.boot.raw.toNat)) .greeting

/-- Register at the epoch of the coordinator. -/
def register (worker : LifecycleWorker) (epoch : CoordinatorEpoch) : LifecycleWorker :=
  { worker with epoch }.introduce .registerWorker
    (worker.hello epoch (text "worker registration")) .registering

/-- Execute a command and report its completion. The effect of a command is applied also where
no completion is sent. -/
def handleCommand (worker : LifecycleWorker) (command : CommandMessage) : LifecycleWorker :=
  let (backend, completion) := worker.config.handleCommand worker.backend command
  let worker := { worker with backend, executed := worker.executed ++ [command] }
  match completion with
  | none => worker.stop
  | some completion =>
    worker.send
      { type := .publishCompletion, payload := MessageKind.completion.put completion } .completing

/-- Handle a frame that is no reply. -/
def handleFrame (worker : LifecycleWorker) (frame : Wire.Frame) : LifecycleWorker :=
  if frame.type.isCommand then
    match MessageKind.command.decode worker.config.limits frame.payload with
    | .error _ =>
      worker.sendReply (refused .rejected .protocolDecodeFailure
        (text "command frame could not be decoded"))
    | .ok command => worker.handleCommand command
  else if frame.type = .fence then
    match MessageKind.fence.decode worker.config.limits frame.payload with
    | .error _ => worker
    | .ok (fence : Wire.FenceMessage) =>
      if fence.worker ≠ worker.id ∨ fence.boot ≠ worker.boot then
        worker.sendReply (refused .rejected .workerBootStale
          (text "fence targets a different boot"))
      else
        (worker.sendReply
          (({ outcome := .accepted } : Reply).setText "fenced" (text "yes"))).stop
  else worker.sendReply (refused .rejected .protocolUnknownType frame.type.toText)

/-- Go on with a reply, if the frame carries one. -/
def onReply (worker : LifecycleWorker) (frame : Wire.Frame) (next : Reply → LifecycleWorker) :
    LifecycleWorker :=
  match MessageKind.reply.decode worker.config.limits frame.payload with
  | .error _ => worker.stop
  | .ok reply => next reply

/-- Take the next frame that arrives. -/
def receive (worker : LifecycleWorker) (frame : Wire.Frame) : LifecycleWorker :=
  match worker.phase with
  | .greeting =>
    if frame.type ≠ .reply then worker.stop
    else
      worker.onReply frame fun reply =>
        if reply.outcome.isPositive then
          worker.register ⟨reply.u64 (text "coordinator_epoch") 0⟩
        else worker.stop
  | .registering =>
    worker.onReply frame fun reply =>
      if reply.outcome.isPositive then worker.publish worker.observations else worker.stop
  | .publishing rest => worker.publish rest
  | .completing => worker.onReply frame fun _ => worker.publish worker.observations
  | .serving => worker.handleFrame frame
  | .stopped => worker

end LifecycleWorker

end LifecycleFabric
