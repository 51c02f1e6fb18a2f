import LifecycleFabric.Engine.Step

/-!
# The coordinator and its state file

A coordinator process owns one engine. It recovers the engine from the state file when it
starts, handles frames, and saves the durable state. A crash loses everything but the file.
-/

namespace LifecycleFabric

open EngineState Runs

/-- What a coordinator is started with. The state file is always named. -/
structure CoordinatorConfig where
  engine : EngineConfig := {}
  /-- Persist after a poll iteration in which the engine sequence advanced. -/
  persistOnChange : Bool := true
  deriving DecidableEq

/-- The operations a frame or the end of a session asks the engine for. -/
def Operation.carried : Operation → Bool
  | .registerModel _ _ _ | .registerVersion _ | .registerScope _
  | .publishCompatibility _ _ _ _ _ | .publishEvidence _ | .registerWorker _
  | .fenceWorker _ _ _ _ | .promote _ | .createRollout _ | .beginRollout _ | .advanceStage _
  | .failStage _ | .supersedeRollout _ _ _ _ | .rollback _ | .retire _ | .revalidate _
  | .beginAttempt _ | .completeAttempt _ => true
  | _ => false

/-- A running coordinator. -/
structure Coordinator where
  engine : EngineState
  lastSavedSequence : Sequence
  deriving DecidableEq

namespace Coordinator

/-- Start on what the state file holds. A coordinator whose durable state is rejected does
not start; without a file this is a first start. -/
def start (cfg : CoordinatorConfig) : Option DurableState → Option Coordinator
  | none => some { engine := init cfg.engine, lastSavedSequence := (init cfg.engine).sequence }
  | some loaded =>
    let (engine, restored) :=
      (init cfg.engine).importDurableState cfg.engine loaded loaded.epoch.nextGeneration
    if !restored.allowed then none
    else
      let engine := engine.invalidateVolatileState (text "coordinator restart")
      some { engine, lastSavedSequence := engine.sequence }

/-- Handle one frame. -/
def handle (cfg : CoordinatorConfig) (coordinator : Coordinator) (op : Operation) : Coordinator :=
  if op.carried then { coordinator with engine := step cfg.engine coordinator.engine op }
  else coordinator

/-- Save the durable state, and note what was saved. -/
def persist (coordinator : Coordinator) : Coordinator × DurableState :=
  ({ coordinator with lastSavedSequence := coordinator.engine.sequence },
    coordinator.engine.exportDurableState)

/-- Whether the engine moved since the last save. -/
def changed (cfg : CoordinatorConfig) (coordinator : Coordinator) : Bool :=
  cfg.persistOnChange && decide (coordinator.engine.sequence ≠ coordinator.lastSavedSequence)

end Coordinator

/-- One life of the coordinator: the epoch it started with, and whether it recovered that
from the file. -/
structure Incarnation where
  recovered : Bool
  epoch : CoordinatorEpoch
  deriving DecidableEq

/-- The state file, the process, and the lives of the process so far. -/
structure Deployment where
  file : Option DurableState := none
  running : Option Coordinator := none
  incarnations : List Incarnation := []
  /-- An incarnation has recovered from the file, and nothing was saved since. -/
  unsaved : Bool := false
  deriving DecidableEq

/-- What can happen to a deployment. -/
inductive DeploymentEvent
  | start
  | frame (op : Operation)
  | persist
  | persistIfChanged
  | crash

namespace Deployment

/-- Write the durable state to the file. -/
def save (w : Deployment) (coordinator : Coordinator) : Deployment :=
  { w with
    file := some coordinator.persist.2
    running := some coordinator.persist.1
    unsaved := false }

/-- The deployment after an event. -/
def step (cfg : CoordinatorConfig) (w : Deployment) : DeploymentEvent → Deployment
  | .start =>
    if w.running.isSome then w
    else
      match Coordinator.start cfg w.file with
      | none => w
      | some coordinator =>
        { w with
          running := some coordinator
          incarnations :=
            w.incarnations ++ [⟨w.file.isSome, coordinator.engine.epoch⟩]
          unsaved := w.unsaved || w.file.isSome }
  | .frame op => { w with running := w.running.map fun coordinator => coordinator.handle cfg op }
  | .persist =>
    match w.running with
    | none => w
    | some coordinator => w.save coordinator
  | .persistIfChanged =>
    match w.running with
    | none => w
    | some coordinator => if coordinator.changed cfg then w.save coordinator else w
  | .crash => { w with running := none }

/-- Whether an event recovers an incarnation from the file. -/
def recovers (cfg : CoordinatorConfig) (w : Deployment) : DeploymentEvent → Bool
  | .start => w.running.isNone && w.file.isSome && (Coordinator.start cfg w.file).isSome
  | _ => false

/-- The deployment after a list of events. -/
def runEvents (cfg : CoordinatorConfig) (w : Deployment) (events : List DeploymentEvent) :
    Deployment :=
  run (step cfg) w events

end Deployment

end LifecycleFabric
