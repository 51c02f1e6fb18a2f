import LifecycleFabric.Backend

/-!
# Direct calls on the synthetic backend

Beside the commands of the coordinator, the backend has an interface of direct calls on
single replicas. A backend is driven by any sequence of both.
-/

namespace LifecycleFabric

namespace SyntheticReplica

/-- The replica with another health; an unhealthy one is not ready. -/
def withHealth (healthy : Bool) (replica : SyntheticReplica) : SyntheticReplica :=
  { replica with healthy, ready := if healthy then replica.ready else false }

/-- The replica after a direct call made it ready. -/
def madeReady (replica : SyntheticReplica) : SyntheticReplica :=
  { replica with
    resident := true
    ready := true
    draining := false
    generation := replica.generation.nextGeneration
    residencyGeneration := replica.residencyGeneration.nextGeneration }

end SyntheticReplica

namespace SyntheticLifecycleBackend

namespace Direct

variable (backend : SyntheticLifecycleBackend)

/-- Create a cold replica in a scope. -/
def addReplica (scope : ScopeId) (model : ModelId) (version : ModelVersionId)
    (modelGeneration : ModelGeneration) (artifactGeneration : ArtifactGeneration) :
    SyntheticLifecycleBackend × Decision × ReplicaId :=
  if !scope.valid ∨ !model.valid ∨ !version.valid then
    (backend, .because .rejected .unknownScope
      (text "replica needs scope, model and version"), {})
  else if backend.maxReplicas ≤ backend.replicas.size then
    (backend, .because .boundsExceeded .boundsModelCount
      (text "synthetic replica bound reached"), {})
  else
    let replica : SyntheticReplica :=
      { id := ⟨backend.nextReplicaId⟩, scope, model, version, modelGeneration, artifactGeneration
        owner := backend.owner
        boot := backend.boot }
    (backend.addReplica replica, .accepted, replica.id)

/-- What a call for a replica that is not stored returns. -/
def notRegistered : Decision :=
  .because .notFound .unknownVersion (text "synthetic replica is not registered")

/-- Remove a replica. -/
def removeReplica (id : ReplicaId) : SyntheticLifecycleBackend × Decision :=
  match backend.replicas.get? id.raw with
  | none => (backend, notRegistered)
  | some _ => ({ backend with replicas := backend.replicas.erase id.raw }, .accepted)

/-- A replica disappears without a drain. -/
def loseReplica (id : ReplicaId) : SyntheticLifecycleBackend × Decision :=
  removeReplica backend id

/-- Change one stored replica. -/
def onReplica (id : ReplicaId) (change : SyntheticReplica → SyntheticReplica) :
    SyntheticLifecycleBackend × Decision :=
  ({ backend with
      replicas := backend.replicas.modify id.raw change
      tick := backend.tick + 1 }, .accepted)

/-- Set the health of a replica. -/
def setHealthy (id : ReplicaId) (healthy : Bool) : SyntheticLifecycleBackend × Decision :=
  match backend.replicas.get? id.raw with
  | none => (backend, notRegistered)
  | some _ => onReplica backend id (SyntheticReplica.withHealth healthy)

/-- Warm a healthy replica. -/
def warm (id : ReplicaId) : SyntheticLifecycleBackend × Decision :=
  match backend.replicas.get? id.raw with
  | none => (backend, notRegistered)
  | some replica =>
    if !replica.healthy then
      (backend, .because .rejected .warmupIncomplete (text "replica is not healthy"))
    else onReplica backend id SyntheticReplica.warmed

/-- Make a warm replica ready. -/
def activate (id : ReplicaId) : SyntheticLifecycleBackend × Decision :=
  match backend.replicas.get? id.raw with
  | none => (backend, notRegistered)
  | some replica =>
    if !replica.warm then
      (backend, .because .rejected .readinessMissing
        (text "a cold replica cannot become ready; warm it first"))
    else onReplica backend id SyntheticReplica.madeReady

/-- Drain a replica. -/
def drain (id : ReplicaId) : SyntheticLifecycleBackend × Decision :=
  match backend.replicas.get? id.raw with
  | none => (backend, notRegistered)
  | some _ => onReplica backend id SyntheticReplica.drained

/-- Evict a replica. -/
def evict (id : ReplicaId) : SyntheticLifecycleBackend × Decision :=
  match backend.replicas.get? id.raw with
  | none => (backend, notRegistered)
  | some replica =>
    ({ backend with
        replicas := backend.replicas.erase replica.id.raw
        tick := backend.tick + 1 }, .accepted)

/-- Remove the replicas that serve a model generation in a scope; returns how many. -/
def loseGenerationInScope (model : ModelId) (version : ModelVersionId)
    (generation : ModelGeneration) (scope : ScopeId) : SyntheticLifecycleBackend × ℕ :=
  let lost (replica : SyntheticReplica) : Bool :=
    decide (replica.model = model ∧ replica.version = version ∧
      replica.modelGeneration = generation ∧ replica.scope = scope)
  ({ backend with
      replicas := backend.replicas.filter fun _ replica => !lost replica
      tick := backend.tick + 1 },
    (backend.replicas.filter fun _ replica => lost replica).size)

end Direct

end SyntheticLifecycleBackend

/-- A call on the backend: a direct one, a setting, or the execution of a command. -/
inductive BackendCall
  | addReplica (scope : ScopeId) (model : ModelId) (version : ModelVersionId)
      (modelGeneration : ModelGeneration) (artifactGeneration : ArtifactGeneration)
  | removeReplica (id : ReplicaId)
  | loseReplica (id : ReplicaId)
  | setHealthy (id : ReplicaId) (healthy : Bool)
  | warm (id : ReplicaId)
  | activate (id : ReplicaId)
  | drain (id : ReplicaId)
  | evict (id : ReplicaId)
  | loseGenerationInScope (model : ModelId) (version : ModelVersionId)
      (generation : ModelGeneration) (scope : ScopeId)
  | execute (command : CommandMessage)
  | setOwner (worker : WorkerId) (boot : WorkerBootId)
  | clearOwner
  | setAmbiguousCompletion (enabled : Bool)
  | setMaxReplicas (value : ℕ)
  | setTick (value : UInt64)

namespace BackendCall

open SyntheticLifecycleBackend

/-- The backend after a call. -/
def apply (backend : SyntheticLifecycleBackend) : BackendCall → SyntheticLifecycleBackend
  | addReplica scope model version modelGeneration artifactGeneration =>
    (Direct.addReplica backend scope model version modelGeneration artifactGeneration).1
  | removeReplica id => (Direct.removeReplica backend id).1
  | loseReplica id => (Direct.loseReplica backend id).1
  | setHealthy id healthy => (Direct.setHealthy backend id healthy).1
  | warm id => (Direct.warm backend id).1
  | activate id => (Direct.activate backend id).1
  | drain id => (Direct.drain backend id).1
  | evict id => (Direct.evict backend id).1
  | loseGenerationInScope model version generation scope =>
    (Direct.loseGenerationInScope backend model version generation scope).1
  | execute command => (backend.execute command).1
  | setOwner worker boot => { backend with owner := worker, boot }
  | clearOwner => { backend with owner := {}, boot := {} }
  | setAmbiguousCompletion enabled => { backend with ambiguousCompletion := enabled }
  | setMaxReplicas value => { backend with maxReplicas := value }
  | setTick value => { backend with tick := value }

/-- The replica a warm command is for: a stored one, or the one it adds. -/
def warmKey (backend : SyntheticLifecycleBackend) (command : CommandMessage) : UInt64 :=
  ((backend.warmTarget command).map Prod.fst).getD backend.nextReplicaId

/-- The replicas that were warmed, after a call. A warmup adds its replica, a canary starts
warm, and a new cold replica has not been warmed. -/
def noteWarmed (backend : SyntheticLifecycleBackend) (warmed : Finset UInt64) :
    BackendCall → Finset UInt64
  | addReplica .. =>
    if backend.replicas.contains backend.nextReplicaId then warmed
    else warmed.erase backend.nextReplicaId
  | warm id => if (Direct.warm backend id).2.allowed then insert id.raw warmed else warmed
  | execute command =>
    if (backend.execute command).2.effectApplied then
      match command.kind with
      | .warm => insert (warmKey backend command) warmed
      | .startCanaryReplicas =>
        if backend.replicas.contains backend.nextReplicaId then warmed
        else insert backend.nextReplicaId warmed
      | _ => warmed
    else warmed
  | _ => warmed

end BackendCall

/-- A backend and the replicas of it that were ever warmed. -/
structure BackendHistory where
  backend : SyntheticLifecycleBackend := {}
  warmed : Finset UInt64 := ∅

/-- One call on the backend. -/
def BackendHistory.step (h : BackendHistory) (call : BackendCall) : BackendHistory where
  backend := call.apply h.backend
  warmed := call.noteWarmed h.backend h.warmed

end LifecycleFabric
