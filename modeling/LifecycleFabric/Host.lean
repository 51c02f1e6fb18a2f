import LifecycleFabric.StateFile.Save
import LifecycleFabric.Wire.Handling

/-!
# A coordinator on its disk

A coordinator recovers from its state file when it starts, makes a change durable before the
reply that acknowledges it leaves, and saves what changed at the end of each iteration. A save
can fail, and the process can crash, also in the middle of a save.
-/

namespace LifecycleFabric

open EngineState Runs Wire.Reply
open AtomicReplace (Disk)
open StateFile (SaveAnswers SaveRun LoadAnswers saveDurableState loadDurableState)

/-- What a coordinator on a disk is started with. -/
structure HostConfig extends CoordinatorConfig where
  /-- Refuse to start when the state file does not read back. -/
  refuseStartOnCorruptState : Bool := true

/-- The limits under which the state file is written and read. -/
def CoordinatorConfig.fileLimits (cfg : CoordinatorConfig) : DecodeLimits :=
  .fromBounds cfg.engine.bounds

/-- The reply to a change that could not be made durable. -/
def Wire.Reply.undurable : Wire.Reply :=
  refused .rejected .transactionRolledBack
    (text "the change was applied in memory but could not be made durable")

/-! ## The process -/

namespace Process

section Saving

variable (cfg : CoordinatorConfig)

/-- Recover from what the state file holds, or start anew. -/
def boot (cfg : HostConfig) (file : Option ByteCodec.Bytes) (answers : LoadAnswers) :
    Option Process :=
  match loadDurableState cfg.fileLimits file answers with
  | .ok loaded => start cfg.toCoordinatorConfig (some loaded)
  | .error refusal =>
    if refusal.unread then start cfg.toCoordinatorConfig none
    else if cfg.refuseStartOnCorruptState then none
    else start cfg.toCoordinatorConfig none

/-- Save the durable state. Only a save that succeeds is noted. -/
def persist (p : Process) (answers : SaveAnswers) : Process × SaveRun :=
  let saving := saveDurableState cfg.fileLimits p.engine.exportDurableState answers
  match saving.result with
  | .ok _ => ({ p with toCoordinator := p.toCoordinator.persist.1 }, saving)
  | .error _ => (p, saving)

/-- Save the durable state if the engine moved since the last save. -/
def persistIfChanged (p : Process) (answers : SaveAnswers) : Process × SaveRun :=
  if p.toCoordinator.changed cfg then p.persist cfg answers else (p, {})

end Saving

variable (cfg : CoordinatorConfig) (limits : ProtocolLimits)

/-- A frame that was served: the process, the save made for its reply, whether the reply
acknowledges it, and the reply. -/
structure Served where
  process : Process
  saving : SaveRun := {}
  acknowledged : Bool := true
  reply : Wire.Reply

/-- Send a reply. A mutation is acknowledged only after it is durable. -/
def sendReply (p : Process) (pending : Bool) (reply : Wire.Reply) (answers : SaveAnswers) :
    Served :=
  if pending then
    let (saved, saving) := p.persistIfChanged cfg answers
    match saving.result with
    | .ok _ => { process := saved, saving, reply }
    | .error _ => { process := saved, saving, acknowledged := false, reply := .undurable }
  else { process := p, reply }

/-- Handle a frame of a session and answer it. -/
def serveFrame (p : Process) (i : ℕ) (session : Session) (frame : Wire.Frame)
    (answers : SaveAnswers) : Served :=
  (p.handleFrame cfg limits i session (frame.carried limits)).sendReply cfg frame.type.mutates
    (p.answer cfg limits session frame) answers

/-- The commands that a dispatch sends. -/
def sending (p : Process) (delivers : Attempt → Session → Bool) : List SentCommand :=
  (p.dispatchPending delivers).sent.drop p.sent.length

end Process

/-! ## The host -/

/-- The disk, and the coordinator that runs on it. -/
structure Host where
  disk : Disk UInt8 := {}
  running : Option Process := none
  deriving DecidableEq

/-- What can happen to a host. -/
inductive HostEvent
  | start (answers : LoadAnswers)
  | crash
  | accept
  /-- The peer closed a session, or it could not be read. -/
  | close (i : ℕ) (reason : Text)
  /-- A frame arrived on a session. If `cut` is given the process dies in the save that goes
  before the reply, after so many of its effects. -/
  | frame (i : ℕ) (frame : Wire.Frame) (answers : SaveAnswers) (cut : Option ℕ)
  | sweep
  | dispatch (delivers : Attempt → Session → Bool)
  /-- The save at the end of an iteration. -/
  | poll (answers : SaveAnswers) (cut : Option ℕ)

namespace Host

variable (cfg : HostConfig) (limits : ProtocolLimits)

/-- The host after a save: the process goes on, or dies after some of the effects. -/
def afterSave (w : Host) (saving : SaveRun) (p : Process) : Option ℕ → Host
  | none => { disk := run Disk.apply w.disk saving.effects, running := some p }
  | some effects =>
    { disk := run Disk.apply w.disk (saving.effects.take effects), running := none }

/-- The host after an event. -/
def step (w : Host) : HostEvent → Host
  | .start answers =>
    if w.running.isSome then w
    else { w with running := Process.boot cfg w.disk.destination answers }
  | .crash => { w with running := none }
  | .accept => { w with running := w.running.map fun p => p.accept limits }
  | .close i reason =>
    { w with
      running := w.running.map fun p =>
        if p.isOpen i then p.closeSession cfg.toCoordinatorConfig i reason else p }
  | .frame i frame answers cut =>
    match w.running with
    | none => w
    | some p =>
      match p.sessions[i]? with
      | none => w
      | some session =>
        if !session.connected then w
        else
          let served := p.serveFrame cfg.toCoordinatorConfig limits i session frame answers
          w.afterSave served.saving served.process cut
  | .sweep => { w with running := w.running.map Process.sweep }
  | .dispatch delivers => { w with running := w.running.map (Process.dispatchPending delivers) }
  | .poll answers cut =>
    match w.running with
    | none => w
    | some p =>
      let (saved, saving) := p.persistIfChanged cfg.toCoordinatorConfig answers
      w.afterSave saving saved cut

/-- The commands that an event sends. -/
def sends (w : Host) : HostEvent → List SentCommand
  | .dispatch delivers => w.running.elim [] fun p => p.sending delivers
  | _ => []

end Host

end LifecycleFabric
