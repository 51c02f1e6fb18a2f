import LifecycleFabric.Wire.Requests

/-!
# The synthetic backend and its worker

The backend keeps replicas and executes the commands of the coordinator against them. A
worker executes a command and reports its completion.
-/

namespace LifecycleFabric

/-- One synthetic replica. -/
structure SyntheticReplica where
  id : ReplicaId := {}
  generation : ReplicaGeneration := ⟨firstGeneration⟩
  scope : ScopeId := {}
  model : ModelId := {}
  version : ModelVersionId := {}
  modelGeneration : ModelGeneration := {}
  artifactGeneration : ArtifactGeneration := {}
  warm : Bool := false
  resident : Bool := false
  ready : Bool := false
  healthy : Bool := true
  draining : Bool := false
  residencyGeneration : ResidencyGeneration := ⟨firstGeneration⟩
  owner : WorkerId := {}
  boot : WorkerBootId := {}
  deriving DecidableEq

/-- Result of executing one command. A caller that never receives it must treat the effect as
possibly applied. -/
structure CommandResult where
  decision : Decision := {}
  effectApplied : Bool := false
  detail : Text := []
  deriving DecidableEq

/-- Deterministic synthetic lifecycle backend. -/
structure SyntheticLifecycleBackend where
  replicas : OrdMap UInt64 SyntheticReplica := OrdMap.empty
  nextReplicaId : UInt64 := 1
  maxReplicas : ℕ := 4096
  ambiguousCompletion : Bool := false
  tick : UInt64 := 0
  owner : WorkerId := {}
  boot : WorkerBootId := {}

namespace SyntheticReplica

/-- The replica serves the model generation a command names. -/
def serves (replica : SyntheticReplica) (command : CommandMessage) : Bool :=
  decide (replica.model = command.model ∧ replica.version = command.version ∧
    replica.modelGeneration = command.modelGeneration)

/-- The replica serves it in the scope of the command. -/
def servesIn (replica : SyntheticReplica) (command : CommandMessage) : Bool :=
  replica.serves command && decide (replica.scope = command.scope)

/-- The replica after warmup. -/
def warmed (replica : SyntheticReplica) : SyntheticReplica :=
  { replica with
    warm := true
    resident := true
    residencyGeneration := replica.residencyGeneration.nextGeneration }

/-- The replica after a command made it ready. -/
def activated (replica : SyntheticReplica) : SyntheticReplica :=
  { replica with
    warm := true
    resident := true
    ready := true
    draining := false
    generation := replica.generation.nextGeneration
    residencyGeneration := replica.residencyGeneration.nextGeneration }

/-- The replica after it was told to drain. -/
def drained (replica : SyntheticReplica) : SyntheticReplica :=
  { replica with
    ready := false
    draining := true
    generation := replica.generation.nextGeneration }

end SyntheticReplica

namespace SyntheticLifecycleBackend

variable (backend : SyntheticLifecycleBackend) (command : CommandMessage)

/-- A cold replica of what a command names. -/
def replicaFor : SyntheticReplica :=
  { id := ⟨backend.nextReplicaId⟩
    scope := command.scope
    model := command.model
    version := command.version
    modelGeneration := command.modelGeneration
    artifactGeneration := command.artifactGeneration
    owner := backend.owner
    boot := backend.boot }

/-- The backend with a replica added under the next identity. -/
def addReplica (replica : SyntheticReplica) : SyntheticLifecycleBackend :=
  { backend with
    replicas := backend.replicas.insertNew backend.nextReplicaId replica
    nextReplicaId := backend.nextReplicaId + 1 }

/-- What a command without room for another replica returns. -/
def replicaBoundReached : CommandResult :=
  { decision := .because .boundsExceeded .boundsModelCount (text "replica bound reached") }

/-- Warm a stored replica, unless it is unhealthy. -/
def warmReplica (key : UInt64) : SyntheticLifecycleBackend × CommandResult :=
  match backend.replicas.get? key with
  | some replica =>
    if !replica.healthy then
      (backend,
        { decision :=
            .because .rejected .warmupIncomplete (text "replica is unhealthy") })
    else
      ({ backend with
          replicas := backend.replicas.modify key SyntheticReplica.warmed
          tick := backend.tick + 1 },
        { effectApplied := true, detail := text "replica warmed and resident" })
  | none => (backend, {})

/-- The first replica a warmup is for. -/
def warmTarget : Option (UInt64 × SyntheticReplica) :=
  backend.replicas.entries.find? fun e =>
    e.2.servesIn command && decide (e.2.artifactGeneration = command.artifactGeneration)

/-- Warm the replica a command is for, adding one when there is none. -/
def executeWarm : SyntheticLifecycleBackend × CommandResult :=
  match backend.warmTarget command with
  | some e => backend.warmReplica e.1
  | none =>
    if backend.maxReplicas ≤ backend.replicas.size then (backend, replicaBoundReached)
    else (backend.addReplica (backend.replicaFor command)).warmReplica backend.nextReplicaId

/-- Change the replicas a test takes; the effect is applied where there is one. -/
def executeOn (takes : SyntheticReplica → Bool) (change : SyntheticReplica → SyntheticReplica)
    (applied idle : Text) : SyntheticLifecycleBackend × CommandResult :=
  let touched := backend.replicas.values.any takes
  ({ backend with
      replicas := backend.replicas.mapValues fun _ replica =>
        if takes replica then change replica else replica
      tick := backend.tick + 1 },
    { effectApplied := touched, detail := if touched then applied else idle })

/-- The replicas that can be made ready for a command. -/
def activatable (replica : SyntheticReplica) : Bool := replica.servesIn command && replica.healthy

/-- Start a canary replica. -/
def executeStart : SyntheticLifecycleBackend × CommandResult :=
  if backend.maxReplicas ≤ backend.replicas.size then (backend, replicaBoundReached)
  else
    let replica := { backend.replicaFor command with warm := true, resident := true, ready := true }
    let started := backend.addReplica replica
    ({ started with tick := started.tick + 1 },
      { effectApplied := true, detail := text "canary replica started" })

/-- Remove the replicas of a retired generation, in every scope. -/
def executeEvict : SyntheticLifecycleBackend × CommandResult :=
  let removed := backend.replicas.filter fun _ replica => replica.serves command
  ({ backend with
      replicas := backend.replicas.filter fun _ replica => !replica.serves command
      tick := backend.tick + 1 },
    { effectApplied := decide (0 < removed.size)
      detail := text "evicted " ++ decimal removed.size ++ text " retired replicas" })

/-- Execute a command, by its kind. -/
def executeKind : SyntheticLifecycleBackend × CommandResult :=
  match command.kind with
  | .warm => backend.executeWarm command
  | .activate | .promoteReplicaGroup =>
    backend.executeOn (activatable command) SyntheticReplica.activated
      (text "replicas activated") (text "no matching replica was activatable")
  | .drain =>
    backend.executeOn (fun replica => replica.servesIn command) SyntheticReplica.drained
      (text "replicas drained") (text "no matching replica needed draining")
  | .rollback | .rehydrate =>
    backend.executeOn (activatable command) SyntheticReplica.activated
      (text "previous generation restored") (text "no replica to restore")
  | .startCanaryReplicas => backend.executeStart command
  | .evictRetired => backend.executeEvict command

/-- Execute a lifecycle command issued by the coordinator. A result that was not refused says
when its completion is left unconfirmed. -/
def execute : SyntheticLifecycleBackend × CommandResult :=
  let (after, result) := backend.executeKind command
  if backend.ambiguousCompletion ∧ result.decision.reasons = [] then
    (after, { result with
      detail := result.detail ++ text " (completion deliberately left unconfirmed)" })
  else (after, result)

end SyntheticLifecycleBackend

/-! ## The worker -/

/-- What the handling of a command depends on in the configuration of a worker. -/
structure WorkerConfig where
  limits : ProtocolLimits := {}
  unconfirmedCompletions : Bool := false
  dieOnActivate : Bool := false

/-- The completion a worker reports for a command. -/
def WorkerConfig.completion (config : WorkerConfig) (backend : SyntheticLifecycleBackend)
    (command : CommandMessage) (result : CommandResult) : CompletionMessage :=
  { attempt := command.attempt
    success := result.decision.allowed && result.effectApplied
    confirmed := !config.unconfirmedCompletions && !backend.ambiguousCompletion
    detail := result.detail }

/-- Execute a command and report its completion. Nothing is reported by a worker that dies on
an activation, or whose completion cannot be encoded. -/
def WorkerConfig.handleCommand (config : WorkerConfig) (backend : SyntheticLifecycleBackend)
    (command : CommandMessage) : SyntheticLifecycleBackend × Option CompletionMessage :=
  let (after, result) := backend.execute command
  if command.kind = .activate ∧ config.dieOnActivate then (after, none)
  else
    let completion := config.completion backend command result
    match Wire.MessageKind.completion.encode config.limits completion with
    | .error _ => (after, none)
    | .ok _ => (after, some completion)

end LifecycleFabric
