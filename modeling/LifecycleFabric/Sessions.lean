import LifecycleFabric.Coordinator

/-!
# The sessions of a coordinator

A running coordinator serves connections. A session carries the identity its HELLO claims
or its registration was granted; the coordinator answers the frames of a session, sends the
attempts in flight to the sessions of their workers, and fences the worker of a session
that ends.
-/

namespace LifecycleFabric

open EngineState Runs

/-- Wire protocol version. -/
def kProtocolVersion : UInt16 := 1

/-- Limits of the control plane. -/
structure ProtocolLimits where
  version : UInt16 := kProtocolVersion
  maxPayloadBytes : ℕ := 262144
  maxPendingFrames : ℕ := 64
  maxConnections : ℕ := 64
  maxString : ℕ := 256
  maxDigest : ℕ := 128
  maxReasons : ℕ := 32
  maxValues : ℕ := 64
  deriving DecidableEq

/-! ## Frames -/

/-- The payload of HELLO and of REGISTER_WORKER. -/
structure HelloMessage where
  protocolVersion : UInt16 := kProtocolVersion
  worker : WorkerId := {}
  boot : WorkerBootId := {}
  epoch : CoordinatorEpoch := {}
  scopes : List ScopeId := []
  detail : Text := []

/-- The payload of PUBLISH_READINESS and of PUBLISH_HEALTH. -/
structure PublishEvidenceMessage where
  version : ModelVersionId := {}
  modelGeneration : ModelGeneration := {}
  artifactGeneration : ArtifactGeneration := {}
  scope : ScopeId := {}
  rollout : RolloutId := {}
  stage : RolloutStageId := {}
  kind : EvidenceKind := .healthCheck
  verdict : EvidenceVerdict := .unknown
  value : F64 := {}
  unit : Text := []
  tick : UInt64 := 0
  detail : Text := []
  provenance : Provenance := .unknown

/-- The payload of a request for an external attempt. -/
structure AttemptRequestMessage where
  kind : AttemptKind := .warm
  worker : WorkerId := {}
  boot : WorkerBootId := {}
  model : ModelId := {}
  version : ModelVersionId := {}
  modelGeneration : ModelGeneration := {}
  scope : ScopeId := {}
  rollout : RolloutId := {}
  rolloutGeneration : RolloutGeneration := {}
  stage : RolloutStageId := {}
  stageGeneration : RolloutStageGeneration := {}
  idempotent : Bool := false
  detail : Text := []

/-- The payload of PUBLISH_COMPLETION and of ACK_ATTEMPT. -/
structure CompletionMessage where
  attempt : AttemptId := {}
  success : Bool := false
  confirmed : Bool := false
  detail : Text := []
  deriving DecidableEq

/-- What a worker is sent for an attempt. -/
structure CommandMessage where
  kind : AttemptKind := .warm
  attempt : AttemptId := {}
  model : ModelId := {}
  version : ModelVersionId := {}
  modelGeneration : ModelGeneration := {}
  artifactGeneration : ArtifactGeneration := {}
  scope : ScopeId := {}
  rollout : RolloutId := {}
  rolloutGeneration : RolloutGeneration := {}
  detail : Text := []
  deriving DecidableEq

/-- A frame with the message it carries. -/
inductive Frame
  | hello (message : HelloMessage)
  | registerWorker (message : HelloMessage)
  | registerScope (path : Text)
  | registerModel (name family : Text) (provenance : Provenance)
  | registerVersion (request : RegisterVersionRequest)
  | publishCompatibility (version : ModelVersionId) (environment : EnvironmentProfile)
      (outcome : CompatibilityOutcome) (detail : Text) (provenance : Provenance)
  | publishReadiness (message : PublishEvidenceMessage)
  | publishHealth (message : PublishEvidenceMessage)
  /-- REQUEST_WARM, REQUEST_ACTIVATE, REQUEST_DRAIN or REQUEST_ROLLBACK: its type is the
  kind of the attempt. -/
  | requestAttempt (kind : AttemptKind) (message : AttemptRequestMessage)
  /-- PUBLISH_COMPLETION or ACK_ATTEMPT. -/
  | publishCompletion (message : CompletionMessage)
  | fence (worker : WorkerId) (boot : WorkerBootId) (reason : Text)
  | promote (request : PromotionRequest)
  | registerRolloutPlan (request : RolloutPlanRequest)
  | beginRollout (request : RolloutProgressRequest)
  | advanceStage (request : RolloutProgressRequest)
  | failStage (request : RolloutProgressRequest)
  | retire (request : RetirementRequest)
  | revalidate (request : RevalidationRequest)
  | rollback (request : RollbackRequest)
  | supersedeRollout (rollout : RolloutId) (generation : RolloutGeneration) (detail : Text)
  | queryState (version : ModelVersionId) (scope : ScopeId)
  | queryAuthority (scope : ScopeId)
  | reconcile
  /-- The payload could not be decoded. -/
  | malformed
  /-- A type the coordinator does not handle. -/
  | unhandled

/-- What a read of a connection returns. -/
inductive Arrival
  /-- The peer closed the connection. -/
  | closed
  /-- The read failed. -/
  | failed
  /-- Bytes that complete some frames, and then perhaps violate the framing. -/
  | data (frames : List Frame) (violation : Bool)

/-! ## State -/

/-- A connection of the coordinator. -/
structure Session where
  /-- Whether the socket is open. -/
  connected : Bool := true
  worker : WorkerId := {}
  boot : WorkerBootId := {}
  epoch : CoordinatorEpoch := {}
  helloSeen : Bool := false
  registered : Bool := false
  /-- The registrations that were accepted on the session. The coordinator does not keep
  them; they are what is said about a session. -/
  accepted : List (WorkerId × WorkerBootId) := []
  deriving DecidableEq

/-- A COMMAND frame that was sent on a session. -/
structure SentCommand where
  message : CommandMessage
  session : Session
  deriving DecidableEq

/-- A coordinator with its connections. -/
structure Process extends Coordinator where
  sessions : List Session := []
  /-- The attempts that were sent to their workers. -/
  dispatched : List AttemptId := []
  /-- The frames that were sent. The coordinator does not keep them. -/
  sent : List SentCommand := []
  deriving DecidableEq

/-- The open session of a worker, at a boot if one is named. -/
def sessionForWorker (sessions : List Session) (worker : WorkerId) (boot : WorkerBootId) :
    Option Session :=
  if !worker.valid then none
  else
    sessions.find? fun session =>
      session.connected && decide (session.worker = worker) &&
        (!boot.valid || decide (session.boot = boot))

namespace Session

/-- The evidence a message publishes on the session. -/
def evidence (session : Session) (message : PublishEvidenceMessage) : EvidenceRecord :=
  { kind := message.kind
    verdict := message.verdict
    subject :=
      { version := message.version
        modelGeneration := message.modelGeneration
        artifactGeneration := message.artifactGeneration
        scope := message.scope
        rollout := message.rollout
        stage := message.stage }
    provenance := message.provenance
    value := message.value
    unit := message.unit
    tick := message.tick
    detail := message.detail
    worker := session.worker
    boot := session.boot
    epoch := session.epoch }

/-- The completion a message reports on the session. -/
def completion (session : Session) (message : CompletionMessage) : CompletionRecord :=
  { attempt := message.attempt
    worker := session.worker
    boot := session.boot
    epoch := session.epoch
    success := message.success
    confirmed := message.confirmed
    detail := message.detail }

end Session

/-- The command that asks for an attempt. -/
def Attempt.command (attempt : Attempt) : CommandMessage :=
  { kind := attempt.kind
    attempt := attempt.id
    model := attempt.model
    version := attempt.version
    modelGeneration := attempt.modelGeneration
    artifactGeneration := attempt.artifactGeneration
    scope := attempt.scope
    rollout := attempt.rollout
    rolloutGeneration := attempt.rolloutGeneration
    detail := attempt.detail }

namespace Process

variable (cfg : CoordinatorConfig) (limits : ProtocolLimits)

/-- Start on what the state file holds, with no connection. -/
def start (file : Option DurableState) : Option Process :=
  (Coordinator.start cfg file).map fun coordinator => { toCoordinator := coordinator }

/-- Ask the engine for an operation. -/
def ask (p : Process) (op : Operation) : Process :=
  { p with toCoordinator := p.toCoordinator.handle cfg op }

/-- Update a session. -/
def setSession (p : Process) (i : ℕ) (f : Session → Session) : Process :=
  { p with sessions := p.sessions.modify i f }

/-! ## Handling of frames -/

/-- An absent epoch is the epoch of the engine. -/
def orEpoch (p : Process) (epoch : CoordinatorEpoch) : CoordinatorEpoch :=
  if epoch.valid then epoch else p.engine.epoch

/-- An absent boot is the one at which a worker is connected, if it is. -/
def orConnectedBoot (p : Process) (worker : WorkerId) (boot : WorkerBootId) : WorkerBootId :=
  if worker.valid ∧ !boot.valid then
    match sessionForWorker p.sessions worker {} with
    | none => boot
    | some owner => owner.boot
  else boot

/-- The attempt a session requests. An explicit performer wins; otherwise the request is
routed to the requesting session's own worker lease. -/
def attemptRequest (p : Process) (session : Session) (kind : AttemptKind)
    (message : AttemptRequestMessage) : AttemptRequest :=
  { kind
    worker := if message.worker.valid then message.worker else session.worker
    boot :=
      if message.worker.valid then p.orConnectedBoot message.worker message.boot
      else session.boot
    epoch := p.orEpoch session.epoch
    model := message.model
    version := message.version
    modelGeneration := message.modelGeneration
    scope := message.scope
    rollout := message.rollout
    rolloutGeneration := message.rolloutGeneration
    stage := message.stage
    stageGeneration := message.stageGeneration
    idempotent := message.idempotent
    detail := message.detail }

/-- The progress request as it is passed on. -/
def progressRequest (p : Process) (request : RolloutProgressRequest) : RolloutProgressRequest :=
  { request with
    epoch := p.orEpoch request.epoch
    boot := p.orConnectedBoot request.worker request.boot }

/-- The operation a frame of a session asks the engine for, if it asks for one. HELLO only
changes the session; queries, a reconciliation and frames that are refused are answered. -/
def requested (p : Process) (session : Session) : Frame → Option Operation
  | .hello _ | .queryState _ _ | .queryAuthority _ | .reconcile | .malformed | .unhandled => none
  | .registerWorker message =>
    if !session.helloSeen then none
    else
      some (.registerWorker
        { id := message.worker
          boot := message.boot
          epoch := p.engine.epoch
          scopes := message.scopes })
  | .registerScope path => some (.registerScope path)
  | .registerModel name family provenance => some (.registerModel name family provenance)
  | .registerVersion request => some (.registerVersion request)
  | .publishCompatibility version environment outcome detail provenance =>
    some (.publishCompatibility version environment outcome detail provenance)
  | .publishReadiness message => some (.publishEvidence (session.evidence message))
  | .publishHealth message =>
    some (.publishEvidence (session.evidence { message with kind := .residencyReady }))
  | .requestAttempt kind message => some (.beginAttempt (p.attemptRequest session kind message))
  | .publishCompletion message => some (.completeAttempt (session.completion message))
  | .fence worker boot reason => some (.fenceWorker worker boot p.engine.epoch reason)
  | .promote request =>
    some (.promote
      { request with
        epoch := p.orEpoch request.epoch
        boot := p.orConnectedBoot request.worker request.boot })
  | .registerRolloutPlan request =>
    some (.createRollout { request with epoch := p.orEpoch request.epoch })
  | .beginRollout request => some (.beginRollout (p.progressRequest request))
  | .advanceStage request => some (.advanceStage (p.progressRequest request))
  | .failStage request => some (.failStage (p.progressRequest request))
  | .retire request => some (.retire { request with epoch := p.orEpoch request.epoch })
  | .revalidate request => some (.revalidate request)
  | .rollback request => some (.rollback { request with epoch := p.orEpoch request.epoch })
  | .supersedeRollout rollout generation detail =>
    some (.supersedeRollout rollout generation p.engine.epoch detail)

/-- Fence the worker whose identity a session carries, and close the session. -/
def fenceSession (p : Process) (i : ℕ) (reason : Text) : Process :=
  match p.sessions[i]? with
  | none => p
  | some session =>
    let p :=
      if session.worker.valid ∧ session.boot.valid then
        p.ask cfg (.fenceWorker session.worker session.boot session.epoch reason)
      else p
    p.setSession i fun session => { session with connected := false, registered := false }

/-- Close a session. -/
def closeSession (p : Process) (i : ℕ) (reason : Text) : Process := p.fenceSession cfg i reason

/-- Take the identity a peer claims. A session says HELLO once, in the version the
coordinator speaks. -/
def handleHello (p : Process) (i : ℕ) (session : Session) (hello : HelloMessage) : Process :=
  if session.helloSeen then p
  else if hello.protocolVersion ≠ limits.version then
    p.closeSession cfg i (text "unsupported protocol version")
  else
    p.setSession i fun session =>
      { session with
        helloSeen := true
        worker := hello.worker
        boot := hello.boot
        epoch := p.engine.epoch }

/-- What an accepted operation makes of the sessions: a registration gives its session the
registered identity, and a fence closes the sessions of its worker without fencing again. -/
def settleSessions (p : Process) (i : ℕ) : Frame → Process
  | .registerWorker message =>
    p.setSession i fun session =>
      { session with
        worker := message.worker
        boot := message.boot
        registered := true
        accepted := session.accepted ++ [(message.worker, message.boot)] }
  | .fence worker _ _ =>
    { p with
      sessions := p.sessions.map fun session =>
        if session.worker = worker then { session with connected := false } else session }
  | _ => p

/-- Handle a frame of a session. -/
def handleFrame (p : Process) (i : ℕ) (session : Session) (frame : Frame) : Process :=
  match frame with
  | .hello message => p.handleHello cfg limits i session message
  | frame =>
    match p.requested session frame with
    | none => p
    | some op =>
      if (p.engine.perform cfg.engine op).2.allowed then (p.ask cfg op).settleSessions i frame
      else p.ask cfg op

/-- Handle the frames of a session, as long as it is open. -/
def handleFrames (p : Process) (i : ℕ) : List Frame → Process
  | [] => p
  | frame :: frames =>
    match p.sessions[i]? with
    | none => p
    | some session =>
      if !session.connected then p
      else handleFrames (p.handleFrame cfg limits i session frame) i frames

/-- Whether a session is open. -/
def isOpen (p : Process) (i : ℕ) : Bool := p.sessions[i]?.any Session.connected

/-- Serve what arrived on a session. -/
def serviceSession (p : Process) (i : ℕ) (arrival : Arrival) : Process :=
  if !p.isOpen i then p
  else
    match arrival with
    | .closed => p.closeSession cfg i (text "peer closed the connection")
    | .failed => p.closeSession cfg i (text "read error")
    | .data frames violation =>
      let p := p.handleFrames cfg limits i frames
      if violation && p.isOpen i then p.closeSession cfg i (text "framing violation") else p

/-! ## Connections and dispatch -/

/-- Accept a connection. Excess peers are closed rather than queued without limit. -/
def accept (p : Process) : Process :=
  if limits.maxConnections ≤ p.sessions.length then p
  else { p with sessions := p.sessions ++ [{}] }

/-- Forget the sessions that are closed. -/
def sweep (p : Process) : Process :=
  { p with sessions := p.sessions.filter Session.connected }

/-- Send a dispatched attempt to its worker, unless it was sent before, the worker is not
connected, or the frame is not delivered. -/
def dispatchAttempt (delivers : Attempt → Session → Bool) (p : Process) (attempt : Attempt) :
    Process :=
  if attempt.state ≠ .dispatched then p
  else if attempt.id ∈ p.dispatched then p
  else
    match sessionForWorker p.sessions attempt.worker attempt.boot with
    | none => p
    | some session =>
      if !delivers attempt session then p
      else
        { p with
          dispatched := p.dispatched ++ [attempt.id]
          sent := p.sent ++ [{ message := attempt.command, session }] }

/-- Send the attempts that wait for their workers. -/
def dispatchPending (delivers : Attempt → Session → Bool) (p : Process) : Process :=
  p.engine.attempts.values.foldl (dispatchAttempt delivers) p

end Process

/-! ## Runs -/

/-- What a coordinator does between two waits. -/
inductive ProcessEvent
  | accept
  | service (i : ℕ) (arrival : Arrival)
  | sweep
  /-- `delivers` says which commands can be encoded and sent. -/
  | dispatch (delivers : Attempt → Session → Bool)
  /-- The durable write before a reply or at the end of an iteration. -/
  | persist

namespace Process

/-- The process after an event. -/
def step (cfg : CoordinatorConfig) (limits : ProtocolLimits) (p : Process) :
    ProcessEvent → Process
  | .accept => p.accept limits
  | .service i arrival => p.serviceSession cfg limits i arrival
  | .sweep => p.sweep
  | .dispatch delivers => p.dispatchPending delivers
  | .persist => { p with toCoordinator := p.toCoordinator.persist.1 }

/-- The process after a list of events. -/
def runEvents (cfg : CoordinatorConfig) (limits : ProtocolLimits) (p : Process)
    (events : List ProcessEvent) : Process :=
  run (step cfg limits) p events

/-- One iteration of the poll loop: the connections that wait, what arrived on the ready
sessions, and which commands are delivered. -/
def pollOnce (cfg : CoordinatorConfig) (limits : ProtocolLimits) (p : Process)
    (connections : ℕ) (arrivals : List (ℕ × Arrival)) (delivers : Attempt → Session → Bool) :
    Process :=
  let p := p.runEvents cfg limits (List.replicate connections .accept)
  let p := p.runEvents cfg limits (arrivals.map fun e => .service e.1 e.2)
  let p := (p.sweep).dispatchPending delivers
  if p.toCoordinator.changed cfg then { p with toCoordinator := p.toCoordinator.persist.1 } else p

/-- The processes a coordinator started on a file can come to. -/
def Serving (cfg : CoordinatorConfig) (limits : ProtocolLimits) (file : Option DurableState)
    (p : Process) : Prop :=
  ∃ first, start cfg file = some first ∧ Reachable (step cfg limits) first p

end Process

end LifecycleFabric
