import LifecycleFabric.Host
import LifecycleFabric.Workers

/-!
# A coordinator and its workers

The coordinator sends commands to the sessions of its workers. A command is in flight until it
arrives or is lost with its connection; other frames reach the workers as they will. Workers
start at any time, and the coordinator can crash and start again.
-/

namespace LifecycleFabric

open Wire (MessageKind)

/-- The frame of a command. -/
def SentCommand.frame (command : SentCommand) : Wire.Frame :=
  { type := .command, payload := MessageKind.command.put command.message }

/-- A host, the workers that were started, and the commands in flight. -/
structure Fabric where
  host : Host := {}
  workers : List LifecycleWorker := []
  flying : List SentCommand := []

/-- What can happen to a fabric. -/
inductive FabricEvent
  | host (event : HostEvent)
  /-- A worker process starts. -/
  | boot (config : WorkerConfig) (id : WorkerId) (scopes : List ScopeId) (boot : WorkerBootId)
      (backend : SyntheticLifecycleBackend)
  /-- A command in flight arrives at the worker whose session it was sent on. -/
  | arrive (j k : ℕ)
  | lose (k : ℕ)
  /-- A frame arrives that is no command. -/
  | frame (j : ℕ) (frame : Wire.Frame)
  /-- The connection of a worker breaks. -/
  | disconnect (j : ℕ)

namespace Fabric

/-- The fabric after an event. -/
def step (cfg : HostConfig) (limits : ProtocolLimits) (fabric : Fabric) : FabricEvent → Fabric
  | .host event =>
    { fabric with
      host := fabric.host.step cfg limits event
      flying := fabric.flying ++ fabric.host.sends event }
  | .boot config id scopes boot backend =>
    { fabric with
      workers := fabric.workers ++
        [LifecycleWorker.start { config, id, scopes, boot, backend }] }
  | .arrive j k =>
    match fabric.workers[j]?, fabric.flying[k]? with
    | some worker, some command =>
      if command.session.worker = worker.id ∧ command.session.boot = worker.boot then
        { fabric with
          workers := fabric.workers.modify j fun worker => worker.receive command.frame
          flying := fabric.flying.eraseIdx k }
      else fabric
    | _, _ => fabric
  | .lose k => { fabric with flying := fabric.flying.eraseIdx k }
  | .frame j frame =>
    if frame.type.isCommand then fabric
    else { fabric with workers := fabric.workers.modify j fun worker => worker.receive frame }
  | .disconnect j =>
    { fabric with workers := fabric.workers.modify j LifecycleWorker.stop }

/-- The commands that the workers executed. -/
def executed (fabric : Fabric) : List CommandMessage :=
  fabric.workers.flatMap LifecycleWorker.executed

end Fabric

end LifecycleFabric
