import LifecycleFabric.Fabric
import LifecycleFabric.Lib.Deliveries
import LifecycleFabric.Properties.Commands
import LifecycleFabric.Properties.Messages

/-!
# Commands are executed at most once

No attempt is commanded twice, a command that is sent arrives at most once, and a worker
executes a command that arrives at most once. So no two executions on any backends are of one
attempt, whatever else the workers receive and however often the coordinator crashes.
-/

namespace LifecycleFabric

open EngineState Runs Wire Deliveries
open AtomicReplace (Disk)
open StateFile (loadDurableState fileBytes)

variable {cfg : HostConfig} {limits : ProtocolLimits} {worker after : LifecycleWorker}
  {fabric : Fabric} {sent : List SentCommand} {p : Process}

/-! ## Workers -/

namespace LifecycleWorker

/-- A worker that is still the same one, and executed nothing. -/
structure Keeps (worker after : LifecycleWorker) : Prop where
  config : after.config = worker.config
  id : after.id = worker.id
  boot : after.boot = worker.boot
  executed : after.executed = worker.executed

theorem Keeps.refl (worker : LifecycleWorker) : worker.Keeps worker := ⟨rfl, rfl, rfl, rfl⟩

theorem keeps_stop (worker : LifecycleWorker) : worker.Keeps worker.stop := ⟨rfl, rfl, rfl, rfl⟩

theorem keeps_publish (worker : LifecycleWorker) (frames : List Wire.Frame) :
    worker.Keeps (worker.publish frames) := by
  cases frames with
  | nil => exact ⟨rfl, rfl, rfl, rfl⟩
  | cons frame rest => exact ⟨rfl, rfl, rfl, rfl⟩

theorem keeps_introduce (worker : LifecycleWorker) (type : MessageType) (hello : HelloMessage)
    (phase : WorkerPhase) : worker.Keeps (worker.introduce type hello phase) := by
  unfold introduce
  dsimp only
  split
  · exact ⟨rfl, rfl, rfl, rfl⟩
  · exact ⟨rfl, rfl, rfl, rfl⟩

theorem keeps_register (worker : LifecycleWorker) (epoch : CoordinatorEpoch) :
    worker.Keeps (worker.register epoch) := by
  obtain ⟨hconfig, hid, hboot, hexecuted⟩ := keeps_introduce { worker with epoch } .registerWorker
    (worker.hello epoch (text "worker registration")) .registering
  exact ⟨hconfig, hid, hboot, hexecuted⟩

theorem keeps_sendReply (worker : LifecycleWorker) (reply : Reply) :
    worker.Keeps (worker.sendReply reply) := by
  unfold sendReply
  split
  · exact worker.keeps_stop
  · exact ⟨rfl, rfl, rfl, rfl⟩

theorem keeps_onReply {frame : Wire.Frame} {next : Reply → LifecycleWorker}
    (h : ∀ reply, worker.Keeps (next reply)) : worker.Keeps (worker.onReply frame next) := by
  unfold onReply
  split
  · exact worker.keeps_stop
  · exact h _

/-- A worker that executes at most the command that a frame carries. -/
structure Takes (worker : LifecycleWorker) (frame : Wire.Frame) (after : LifecycleWorker) :
    Prop where
  config : after.config = worker.config
  id : after.id = worker.id
  boot : after.boot = worker.boot
  executed : after.executed = worker.executed ∨
    frame.type.isCommand = true ∧
      ∃ command : CommandMessage,
        MessageKind.command.decode worker.config.limits frame.payload = .ok command ∧
          after.executed = worker.executed ++ [command]

theorem Keeps.takes (h : worker.Keeps after) (frame : Wire.Frame) : worker.Takes frame after :=
  ⟨h.config, h.id, h.boot, .inl h.executed⟩

theorem handleFrame_takes (worker : LifecycleWorker) (frame : Wire.Frame) :
    worker.Takes frame (worker.handleFrame frame) := by
  unfold handleFrame
  split_ifs with hcommand hfence
  · split
    · exact (worker.keeps_sendReply _).takes frame
    · rename_i command hdecoded
      unfold handleCommand
      dsimp only
      split
      · exact ⟨rfl, rfl, rfl, .inr ⟨hcommand, command, hdecoded, rfl⟩⟩
      · exact ⟨rfl, rfl, rfl, .inr ⟨hcommand, command, hdecoded, rfl⟩⟩
  · split
    · exact (Keeps.refl worker).takes frame
    · split_ifs
      · exact (worker.keeps_sendReply _).takes frame
      · obtain ⟨hconfig, hid, hboot, hexecuted⟩ :=
          worker.keeps_sendReply (({ outcome := .accepted } : Reply).setText "fenced" (text "yes"))
        exact ⟨hconfig, hid, hboot, .inl hexecuted⟩
  · exact (worker.keeps_sendReply _).takes frame

/-- Whatever a worker waits for, the arrival of a frame executes at most the command that the
frame carries. -/
theorem receive_takes (worker : LifecycleWorker) (frame : Wire.Frame) :
    worker.Takes frame (worker.receive frame) := by
  unfold receive
  split
  · split_ifs
    · exact worker.keeps_stop.takes frame
    · refine (keeps_onReply fun reply => ?_).takes frame
      split_ifs
      · exact worker.keeps_register _
      · exact worker.keeps_stop
  · refine (keeps_onReply fun reply => ?_).takes frame
    split_ifs
    · exact worker.keeps_publish _
    · exact worker.keeps_stop
  · exact (worker.keeps_publish _).takes frame
  · exact (keeps_onReply fun reply => worker.keeps_publish _).takes frame
  · exact worker.handleFrame_takes frame
  · exact (Keeps.refl worker).takes frame

/-- A frame that is no command executes nothing. -/
theorem receive_keeps (worker : LifecycleWorker) {frame : Wire.Frame}
    (h : frame.type.isCommand = false) : worker.Keeps (worker.receive frame) := by
  obtain ⟨hconfig, hid, hboot, hexecuted⟩ := worker.receive_takes frame
  refine ⟨hconfig, hid, hboot, hexecuted.resolve_right ?_⟩
  rw [h]
  exact fun hcommand => absurd hcommand.1 Bool.false_ne_true

end LifecycleWorker

/-! ## What is sent -/

def SentCommand.attempt (command : SentCommand) : AttemptId := command.message.attempt

/-- A command that its frame carries whole. -/
def SentCommand.Encoded (limits : ProtocolLimits) (command : SentCommand) : Prop :=
  ∃ payload, MessageKind.command.encode limits command.message = .ok payload

/-- A worker that decodes the frame of a command decodes the command. -/
theorem SentCommand.decode_frame {command : SentCommand} (hencoded : command.Encoded limits)
    (hlimits : limits.maxPayloadBytes < 2 ^ 32) {readLimits : ProtocolLimits}
    {message : CommandMessage}
    (h : MessageKind.command.decode readLimits command.frame.payload = .ok message) :
    message = command.message := by
  obtain ⟨payload, hpayload⟩ := hencoded
  by_cases hwithin : MessageKind.command.Within readLimits command.message
  · have hread : MessageKind.command.decode readLimits command.frame.payload =
        .ok command.message := MessageKind.decode_put trivial hwithin
    exact Except.ok.inj (h.symm.trans hread)
  · have hlength : (MessageKind.command.put command.message).length < 2 ^ 32 := by
      change encodePayload limits (MessageKind.command.put _) = _ at hpayload
      unfold encodePayload at hpayload
      split_ifs at hpayload
      omega
    have hread : MessageKind.command.decode readLimits command.frame.payload =
        .error .decodeFailure := by
      apply MessageKind.decode_put_eq_error _ hwithin hlength
      exact trivial
    exact absurd (h.symm.trans hread) nofun

/-- What is asked of an event: the commands that it sends were encoded. -/
def HostEvent.Encoded (limits : ProtocolLimits) (w : Host) (event : HostEvent) : Prop :=
  ∀ command ∈ w.sends event, command.Encoded limits

/-! ## Fabrics -/

/-- What is asked of an event of a fabric. -/
def FabricEvent.Sound (cfg : HostConfig) (limits : ProtocolLimits) (fabric : Fabric) :
    FabricEvent → Prop
  | .host event =>
    event.Sound cfg limits fabric.host ∧ event.Secured cfg limits fabric.host ∧
      event.Encoded limits fabric.host
  | _ => True

/-- The commands that an event of a fabric sends. -/
def Fabric.sends (fabric : Fabric) : FabricEvent → List SentCommand
  | .host event => fabric.host.sends event
  | _ => []

/-- A worker executed only commands that were sent to it. -/
def LifecycleWorker.Commanded (sent : List SentCommand) (worker : LifecycleWorker) : Prop :=
  ∀ message ∈ worker.executed, ∃ command ∈ sent, command.message = message ∧
    command.session.worker = worker.id ∧ command.session.boot = worker.boot

theorem LifecycleWorker.Commanded.mono {new : List SentCommand} (h : worker.Commanded sent) :
    worker.Commanded (sent ++ new) := by
  intro message hmessage
  obtain ⟨command, hcommand, haddressed⟩ := h message hmessage
  exact ⟨command, List.mem_append_left new hcommand, haddressed⟩

theorem LifecycleWorker.Keeps.commanded (hkeeps : worker.Keeps after)
    (h : worker.Commanded sent) : after.Commanded sent := by
  rw [Commanded, hkeeps.executed, hkeeps.id, hkeeps.boot]
  exact h

namespace Fabric

/-- What is carried of a fabric along with the commands that were sent: none of them was
repeated, each is executed or in flight at most once, and each was executed by a worker that it
was sent to. -/
structure Carried (cfg : HostConfig) (limits : ProtocolLimits) (fabric : Fabric)
    (sent : List SentCommand) : Prop where
  synced : fabric.host.Synced cfg
  unrepeated : fabric.host.Unrepeated cfg (sent.map SentCommand.attempt)
  once : Once (sent.map SentCommand.attempt) (fabric.flying.map SentCommand.attempt)
    (fabric.executed.map CommandMessage.attempt)
  flying : ∀ command ∈ fabric.flying, command ∈ sent ∧ command.Encoded limits
  commanded : ∀ worker ∈ fabric.workers, worker.Commanded sent

/-- The fabric with a worker changed. -/
def withWorker (fabric : Fabric) (j : ℕ) (change : LifecycleWorker → LifecycleWorker) : Fabric :=
  { fabric with workers := fabric.workers.modify j change }

theorem executed_withWorker {j : ℕ} (change : LifecycleWorker → LifecycleWorker)
    {new : List CommandMessage} (hworker : fabric.workers[j]? = some worker)
    (hnew : (change worker).executed = worker.executed ++ new) :
    (fabric.withWorker j change).executed.Perm (fabric.executed ++ new) :=
  flatMap_modify_perm hworker hnew

theorem executed_withWorker_same {j : ℕ} (change : LifecycleWorker → LifecycleWorker)
    (hworker : fabric.workers[j]? = some worker)
    (hsame : (change worker).executed = worker.executed) :
    (fabric.withWorker j change).executed.Perm fabric.executed := by
  have hperm := executed_withWorker change hworker (hsame.trans (List.append_nil _).symm)
  rw [List.append_nil] at hperm
  exact hperm

/-- A worker that executes nothing leaves what is carried as it is. -/
theorem Carried.keep (h : fabric.Carried cfg limits sent) (j : ℕ)
    {change : LifecycleWorker → LifecycleWorker}
    (hkeeps : ∀ worker : LifecycleWorker, worker.Keeps (change worker)) :
    (fabric.withWorker j change).Carried cfg limits sent where
  synced := h.synced
  unrepeated := h.unrepeated
  flying := h.flying
  once := by
    cases hworker : fabric.workers[j]? with
    | none =>
      have hsame : fabric.withWorker j change = fabric := by
        rw [withWorker, List.modify_eq_self (List.getElem?_eq_none_iff.mp hworker)]
      rw [hsame]
      exact h.once
    | some worker =>
      have hperm := executed_withWorker_same change hworker (hkeeps worker).executed
      exact h.once.perm (hperm.map CommandMessage.attempt)
  commanded worker hworker := by
    rcases mem_modify hworker with hsame | ⟨before, hbefore, rfl⟩
    · exact h.commanded worker hsame
    · exact (hkeeps before).commanded (h.commanded before (List.mem_of_getElem? hbefore))

/-- A command that arrives is executed once at most, by the worker that it was sent to. -/
theorem Carried.arrive (hlimits : limits.maxPayloadBytes < 2 ^ 32)
    (h : fabric.Carried cfg limits sent) {j k : ℕ} {command : SentCommand}
    (hworker : fabric.workers[j]? = some worker) (hcommand : fabric.flying[k]? = some command)
    (hid : command.session.worker = worker.id) (hboot : command.session.boot = worker.boot) :
    Carried cfg limits
      { fabric.withWorker j fun worker => worker.receive command.frame with
        flying := fabric.flying.eraseIdx k } sent := by
  obtain ⟨hsent, hencoded⟩ := h.flying command (List.mem_of_getElem? hcommand)
  have htakes := worker.receive_takes command.frame
  have hexecuted : (worker.receive command.frame).executed = worker.executed ∨
      (worker.receive command.frame).executed = worker.executed ++ [command.message] := by
    refine htakes.executed.imp_right ?_
    rintro ⟨_, message, hdecoded, hlast⟩
    rw [hlast, command.decode_frame hencoded hlimits hdecoded]
  constructor
  · exact h.synced
  · exact h.unrepeated
  · have hattempt : (fabric.flying.map SentCommand.attempt)[k]? = some command.attempt := by
      rw [List.getElem?_map, hcommand, Option.map_some]
    rw [← List.eraseIdx_map]
    rcases hexecuted with hsame | hlast
    · have hperm := executed_withWorker_same (fun worker => worker.receive command.frame) hworker
        hsame
      exact (h.once.lose k).perm (hperm.map CommandMessage.attempt)
    · have hperm := (executed_withWorker (fun worker => worker.receive command.frame) hworker
        hlast).map CommandMessage.attempt
      rw [List.map_append] at hperm
      exact (h.once.deliver hattempt).perm hperm
  · intro other hother
    exact h.flying other (List.mem_of_mem_eraseIdx hother)
  · intro other hother
    rcases mem_modify hother with hsame | ⟨before, hbefore, rfl⟩
    · exact h.commanded other hsame
    · obtain rfl := Option.some.inj (hworker.symm.trans hbefore)
      have hcommanded := h.commanded worker (List.mem_of_getElem? hworker)
      rw [LifecycleWorker.Commanded, htakes.id, htakes.boot]
      rcases hexecuted with hsame | hlast
      · rw [hsame]
        exact hcommanded
      · rw [hlast]
        intro message hmessage
        rcases List.mem_append.mp hmessage with hold | hnow
        · exact hcommanded message hold
        · rw [List.mem_singleton.mp hnow]
          exact ⟨command, hsent, rfl, hid, hboot⟩

/-- What the coordinator does sends commands that were not sent before, and executes none. -/
theorem Carried.host (hpersist : cfg.persistOnChange = true) (h : fabric.Carried cfg limits sent)
    {event : HostEvent} (hsound : FabricEvent.Sound cfg limits fabric (.host event)) :
    (fabric.step cfg limits (.host event)).Carried cfg limits
      (sent ++ fabric.host.sends event) := by
  obtain ⟨hevent, hsecured, hencoded⟩ := hsound
  have hunrepeated := h.unrepeated.step hpersist h.synced hevent hsecured
  have hcommands : fabric.host.commands event = (fabric.host.sends event).map SentCommand.attempt :=
    rfl
  rw [hcommands] at hunrepeated
  constructor
  · exact (h.synced.step hpersist hevent).1
  · rw [List.map_append]
    exact hunrepeated
  · have honce := h.once.send hunrepeated.nodup
    rw [← List.map_append, ← List.map_append] at honce
    exact honce
  · intro command hcommand
    rcases List.mem_append.mp hcommand with hold | hnow
    · obtain ⟨hsent, hcarries⟩ := h.flying command hold
      exact ⟨List.mem_append_left _ hsent, hcarries⟩
    · exact ⟨List.mem_append_right _ hnow, hencoded command hnow⟩
  · exact fun worker hworker => (h.commanded worker hworker).mono

/-- Whatever happens, no attempt is commanded, in flight and executed more than once. -/
theorem Carried.step (hpersist : cfg.persistOnChange = true)
    (hlimits : limits.maxPayloadBytes < 2 ^ 32) (h : fabric.Carried cfg limits sent)
    {event : FabricEvent} (hsound : event.Sound cfg limits fabric) :
    (fabric.step cfg limits event).Carried cfg limits (sent ++ fabric.sends event) := by
  cases event with
  | host event => exact h.host hpersist hsound
  | boot config id scopes boot backend =>
    have hkeeps := LifecycleWorker.keeps_introduce { config, id, scopes, boot, backend } .hello
      (LifecycleWorker.hello { config, id, scopes, boot, backend } {}
        (text "worker boot " ++ decimal boot.raw.toNat)) .greeting
    simp only [sends, List.append_nil]
    refine ⟨h.synced, h.unrepeated, ?_, h.flying, ?_⟩
    · have hexecuted : (fabric.step cfg limits (.boot config id scopes boot backend)).executed =
          fabric.executed := by
        unfold executed
        simp only [Fabric.step, List.flatMap_append, List.flatMap_cons, List.flatMap_nil]
        rw [LifecycleWorker.start, hkeeps.executed, List.append_nil, List.append_nil]
      rw [hexecuted]
      exact h.once
    · intro worker hworker
      rcases List.mem_append.mp hworker with hold | hnew
      · exact h.commanded worker hold
      · rw [List.mem_singleton.mp hnew]
        exact hkeeps.commanded (List.forall_mem_nil _)
  | arrive j k =>
    simp only [sends, List.append_nil, Fabric.step]
    split
    · rename_i worker command hworker hcommand
      split_ifs with haddressed
      · exact h.arrive hlimits hworker hcommand haddressed.1 haddressed.2
      · exact h
    · exact h
  | lose k =>
    simp only [sends, List.append_nil]
    refine ⟨h.synced, h.unrepeated, ?_, ?_, h.commanded⟩
    · have honce := h.once.lose k
      rw [List.eraseIdx_map] at honce
      exact honce
    · intro command hcommand
      exact h.flying command (List.mem_of_mem_eraseIdx hcommand)
  | frame j frame =>
    simp only [sends, List.append_nil, Fabric.step]
    split_ifs with hcommand
    · exact h
    · exact h.keep j fun worker => worker.receive_keeps (by simpa using hcommand)
  | disconnect j =>
    simp only [sends, List.append_nil]
    exact h.keep j LifecycleWorker.keeps_stop

end Fabric

/-- From a disk whose state file is loaded, if there is one: in every run of a coordinator and
its workers whose frames are acknowledged once they are saved, no two executions are of one
attempt, and a worker executes only commands that were sent to the session of its boot. It does
not matter which commands are lost or overtake each other, what else the workers receive, and
how often the coordinator crashes. -/
theorem attempts_executed_once (hpersist : cfg.persistOnChange = true)
    (hlimits : limits.maxPayloadBytes < 2 ^ 32) {disk : Disk UInt8}
    (hdisk : disk.destination = none ∨
      ∃ d, loadDurableState cfg.fileLimits disk.destination {} = .ok d) {events : List FabricEvent}
    (hevents : Along (Fabric.step cfg limits) (FabricEvent.Sound cfg limits)
      { host := { disk } } events) :
    let fabric := run (Fabric.step cfg limits) { host := { disk } } events
    (fabric.executed.map CommandMessage.attempt).Nodup ∧
      ∀ worker ∈ fabric.workers, worker.Commanded
        (outputs (Fabric.step cfg limits) Fabric.sends { host := { disk } } events) := by
  have hidle : ∀ {P : Process → Prop}, ∀ p, ({ disk } : Host).running = some p → P p :=
    fun p hp => absurd hp.symm (Option.some_ne_none p)
  have hstart : Fabric.Carried cfg limits { host := { disk } } [] :=
    ⟨⟨hdisk, hidle⟩, ⟨List.nodup_nil, List.forall_mem_nil _, hidle⟩, once_nil,
      List.forall_mem_nil _, List.forall_mem_nil _⟩
  have hrun := outputs_preserves (Fabric.step cfg limits) Fabric.sends
    (P := Fabric.Carried cfg limits)
    (fun fabric event sent hfabric hevent => hfabric.step hpersist hlimits hevent) hevents hstart
  rw [List.nil_append] at hrun
  exact ⟨hrun.once.delivered_nodup, hrun.commanded⟩

/-! ### Two incarnations and a worker -/

/-- What is computed of a command to see that it is encoded. -/
def SentCommand.encodes (limits : ProtocolLimits) (command : SentCommand) : Bool :=
  (MessageKind.command.encode limits command.message).toBool

theorem SentCommand.encoded_of_check {command : SentCommand}
    (h : command.encodes limits = true) : command.Encoded limits := by
  unfold encodes at h
  cases hencode : MessageKind.command.encode limits command.message with
  | error _ =>
    rw [hencode] at h
    cases h
  | ok payload => exact ⟨payload, hencode⟩

/-- What is computed of an event of a fabric to see that it is sound. -/
def FabricEvent.sound (cfg : HostConfig) (limits : ProtocolLimits) (fabric : Fabric) :
    FabricEvent → Bool
  | .host event =>
    event.sound cfg limits fabric.host && event.secured cfg limits fabric.host &&
      (fabric.host.sends event).all fun command => command.encodes limits
  | _ => true

theorem FabricEvent.sound_of_check {event : FabricEvent}
    (h : event.sound cfg limits fabric = true) : event.Sound cfg limits fabric := by
  cases event with
  | host event =>
    simp only [FabricEvent.sound, Bool.and_eq_true, List.all_eq_true] at h
    obtain ⟨⟨hsound, hsecured⟩, hencodes⟩ := h
    exact ⟨event.sound_of_check hsound, event.secured_of_check hsecured,
      fun command hcommand => SentCommand.encoded_of_check (hencodes command hcommand)⟩
  | _ => exact trivial

/-- A frame with an empty positive reply. -/
def acceptedFrame : Wire.Frame :=
  { type := .reply, payload := MessageKind.reply.put { outcome := .accepted } }

/-- A worker registers, and executes the commands of two incarnations of the coordinator, the
first of which arrives when the second one is running. -/
def executedLife : List FabricEvent :=
  [.boot {} ⟨1⟩ [] ⟨7⟩ {}, .frame 0 acceptedFrame, .frame 0 acceptedFrame] ++
    (commandedLife {} ++ commandedLife {}).map .host ++
    [.arrive 0 0, .frame 0 acceptedFrame, .frame 0 acceptedFrame, .frame 0 acceptedFrame,
      .arrive 0 0]

theorem attempts_executed_once_witness :
    let fabric := run (Fabric.step {} {}) { host := { disk := versionDisk } } executedLife
    (fabric.executed.map CommandMessage.attempt).Nodup ∧
      fabric.executed.map CommandMessage.attempt = [⟨1⟩, ⟨2⟩] := by
  have hchecked : Along (Fabric.step {} {})
      (fun fabric event => event.sound {} {} fabric = true) { host := { disk := versionDisk } }
      executedLife := by
    decide +kernel
  have hevents := hchecked.imp _ fun fabric event h => event.sound_of_check h
  have hload : ∃ d, loadDurableState ({} : HostConfig).fileLimits versionDisk.destination {} =
      .ok d := ⟨oneVersion, by decide +kernel⟩
  have honce := attempts_executed_once rfl (by decide) (.inr hload) hevents
  exact ⟨honce.1, by decide +kernel⟩

end LifecycleFabric
