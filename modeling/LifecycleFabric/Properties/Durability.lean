import LifecycleFabric.Host
import LifecycleFabric.Properties.Descents
import LifecycleFabric.Properties.Saves

/-!
# Acknowledged changes are durable

A reply acknowledges a change only when the state file holds it, or when the engine has not
moved since it was recovered from the file. So whatever happens after an acknowledgement, a
crash in the middle of a save included, every later engine of the host descends from the one
that was acknowledged.
-/

namespace LifecycleFabric

open EngineState Runs
open AtomicReplace (Disk)
open StateFile (SaveAnswers SaveRun LoadAnswers Storable fileBytes saveDurableState
  loadDurableState)

variable {cfg : HostConfig} {limits : ProtocolLimits} {w : Host} {p : Process}
  {e s s' : EngineState}

/-! ## What a restart finds -/

section Files

open ByteCodec (Bytes)

variable {file : Option Bytes}

/-- The durable state of an engine is in the state file, or is what a restart makes of it. -/
def Holds (cfg : HostConfig) (file : Option Bytes) (e : EngineState) : Prop :=
  (∃ d, loadDurableState cfg.fileLimits file {} = .ok d ∧ d.view = e.durableView) ∨
    ∃ q, Process.boot cfg file {} = some q ∧ q.engine.durableView = e.durableView

/-- A coordinator has moved since its last save, or a restart finds what is durable of it. -/
structure Process.Synced (cfg : HostConfig) (file : Option Bytes) (p : Process) : Prop where
  reachable : ReachableState cfg.engine p.engine
  saved : p.lastSavedSequence ≤ p.engine.sequence
  holds : p.engine.sequence = p.lastSavedSequence → Holds cfg file p.engine

theorem Holds.of_view (h : Holds cfg file s) (hview : s'.durableView = s.durableView) :
    Holds cfg file s' := by
  unfold Holds
  rw [hview]
  exact h

theorem boot_of_load {d : DurableState} (h : loadDurableState cfg.fileLimits file {} = .ok d) :
    Process.boot cfg file {} = Process.start cfg.toCoordinatorConfig (some d) := by
  unfold Process.boot
  rw [h]

/-- Where the state file can be read, if there is one, the coordinator starts on what it holds. -/
theorem boot_whole {answers : LoadAnswers} (hwhole : file.isSome = true → answers = {})
    {q : Process} (h : Process.boot cfg file answers = some q) :
    Process.boot cfg file {} = some q := by
  cases file with
  | none => exact h
  | some bytes =>
    rw [hwhole rfl] at h
    exact h

/-- A process that was just started has an engine that operations lead to, and nothing to save. -/
theorem boot_started {answers : LoadAnswers} {q : Process}
    (h : Process.boot cfg file answers = some q) :
    ReachableState cfg.engine q.engine ∧ q.lastSavedSequence = q.engine.sequence := by
  have hstart : ∃ found, Process.start cfg.toCoordinatorConfig found = some q := by
    unfold Process.boot at h
    split at h
    · exact ⟨_, h⟩
    · split_ifs at h
      · exact ⟨_, h⟩
      · exact ⟨_, h⟩
  obtain ⟨found, hfound⟩ := hstart
  obtain ⟨coordinator, hcoordinator, rfl⟩ := Option.map_eq_some_iff.mp hfound
  refine ⟨start_reachable hcoordinator, ?_⟩
  unfold Coordinator.start at hcoordinator
  cases found with
  | none =>
    obtain rfl := Option.some.inj hcoordinator
    rfl
  | some d =>
    dsimp only at hcoordinator
    split_ifs at hcoordinator
    obtain rfl := Option.some.inj hcoordinator
    rfl

/-- A restart finds what it gives. -/
theorem synced_of_boot {q : Process} (h : Process.boot cfg file {} = some q) :
    q.Synced cfg file where
  reachable := (boot_started h).1
  saved := (boot_started h).2.le
  holds _ := .inr ⟨q, h, rfl⟩

/-- A restart on the durable state of an engine descends from the engine. -/
theorem Descends.boot {d : DurableState} {q : Process}
    (h : Descends cfg.toCoordinatorConfig e s)
    (hload : loadDurableState cfg.fileLimits file {} = .ok d) (hview : d.view = s.durableView)
    (hboot : Process.boot cfg file {} = some q) :
    Descends cfg.toCoordinatorConfig e q.engine := by
  rw [boot_of_load hload] at hboot
  obtain ⟨coordinator, hstart, rfl⟩ := Option.map_eq_some_iff.mp hboot
  exact h.restart hview hstart

/-- What a restart finds of an engine, every engine it gives descends from. -/
theorem Holds.restart (h : Holds cfg file e) {q : Process}
    (hboot : Process.boot cfg file {} = some q) :
    Descends cfg.toCoordinatorConfig e q.engine := by
  rcases h with ⟨d, hload, hview⟩ | ⟨q', hboot', hview⟩
  · exact Descends.refl.boot hload hview hboot
  · obtain rfl := Option.some.inj (hboot.symm.trans hboot')
    exact Descends.refl.unchanged hview (boot_started hboot).1

/-- A coordinator that moves on without a change of its sequence changes nothing durable. -/
theorem Process.Synced.moved {p' : Process} (h : p.Synced cfg file)
    (hmoved : p.toCoordinator.Moved cfg.toCoordinatorConfig p'.toCoordinator) :
    p'.Synced cfg file where
  reachable := hmoved.reachable
  saved := by
    rw [hmoved.saved]
    exact h.saved.trans hmoved.sequence
  holds hsame := by
    rw [hmoved.saved] at hsame
    have hback : p'.engine.sequence ≤ p.engine.sequence := hsame.le.trans h.saved
    have hbefore : p.engine.sequence = p.lastSavedSequence :=
      le_antisymm (hmoved.sequence.trans hsame.le) h.saved
    have hview : p'.engine.durableView = p.engine.durableView := by
      by_contra hne
      exact absurd hback (not_le.mpr (hmoved.recorded hne))
    exact (h.holds hbefore).of_view hview

end Files

/-! ## Saves -/

section Saves

variable {answers : SaveAnswers} {disk : Disk UInt8}

/-- A save that loses no state file leaves the one of before or the one that is saved, wherever
it is interrupted. -/
theorem saving_destination (hstorable : Storable cfg.fileLimits p.engine.exportDurableState)
    (hloses : answers.loses = false) {before : List (AtomicReplace.DiskEffect UInt8)}
    (hbefore : before <+: (p.persistIfChanged cfg.toCoordinatorConfig answers).2.effects) :
    (run Disk.apply disk before).destination = disk.destination ∨
      (run Disk.apply disk before).destination =
        some (fileBytes p.engine.exportDurableState) := by
  have hencoded := StateFile.serialize_eq_ok_iff.mpr ⟨hstorable.counts, hstorable.payload, rfl⟩
  have halways := StateFile.always_save hencoded answers disk
  rw [hloses] at halways
  unfold Process.persistIfChanged Process.persist at hbefore
  split_ifs at hbefore
  · have hsave : before <+: (saveDurableState cfg.fileLimits p.engine.exportDurableState
        answers).effects := by
      dsimp only at hbefore
      split at hbefore <;> exact hbefore
    rcases halways before hsave with hsame | hsaved | ⟨⟨_, hlost⟩, _⟩
    · exact .inl hsame
    · exact .inr hsaved
    · exact absurd hlost Bool.false_ne_true
  · rw [List.prefix_nil.mp hbefore]
    exact .inl rfl

/-- What was saved of a coordinator's state that the decoder allows is loaded. -/
theorem load_saved (h : Storable cfg.fileLimits d) :
    loadDurableState cfg.fileLimits (some (fileBytes d)) {} = .ok d := by
  refine StateFile.load_fileBytes ?_ h
  change 16 * 1024 * 1024 + 12 + 4 < 2 ^ 64
  decide

/-- A save keeps a coordinator in step with its state file, and one that is reported as a success
leaves what is durable of the coordinator where a restart finds it. -/
theorem persistIfChanged_synced (hpersist : cfg.persistOnChange = true)
    (h : p.Synced cfg disk.destination)
    (hstorable : Storable cfg.fileLimits p.engine.exportDurableState)
    (hloses : answers.loses = false) :
    let saved := p.persistIfChanged cfg.toCoordinatorConfig answers
    saved.1.engine = p.engine ∧
      saved.1.Synced cfg (run Disk.apply disk saved.2.effects).destination ∧
      (saved.2.result = .ok () →
        Holds cfg (run Disk.apply disk saved.2.effects).destination p.engine) := by
  have hencoded := StateFile.serialize_eq_ok_iff.mpr ⟨hstorable.counts, hstorable.payload, rfl⟩
  have hrun := StateFile.run_save hencoded answers disk
  rw [hloses, Bool.and_false] at hrun
  dsimp only
  unfold Process.persistIfChanged Process.persist
  split_ifs with hchanged
  · dsimp only
    generalize saveDurableState cfg.fileLimits p.engine.exportDurableState answers = saving
      at hrun ⊢
    rcases hrun with ⟨hok, hdone⟩ | ⟨hfails, hleft⟩
    · have hfound : Holds cfg (run Disk.apply disk saving.effects).destination p.engine := by
        rw [hdone]
        exact .inl ⟨_, load_saved hstorable, rfl⟩
      rw [hok]
      exact ⟨rfl, ⟨h.reachable, le_rfl, fun _ => hfound⟩, fun _ => hfound⟩
    · have hkept : (run Disk.apply disk saving.effects).destination = disk.destination := hleft
      cases hresult : saving.result with
      | ok _ => exact absurd hresult hfails
      | error fault =>
        dsimp only
        rw [hkept]
        exact ⟨rfl, h, fun hok => by rw [hresult] at hok; cases hok⟩
  · have hsame : p.engine.sequence = p.lastSavedSequence := by
      simpa [Coordinator.changed, hpersist] using hchanged
    exact ⟨rfl, h, fun _ => h.holds hsame⟩

end Saves

/-! ## Hosts -/

/-- The state file is loaded if there is one, and the running coordinator is in step with it. -/
structure Host.Synced (cfg : HostConfig) (w : Host) : Prop where
  readable : w.disk.destination = none ∨
    ∃ d, loadDurableState cfg.fileLimits w.disk.destination {} = .ok d
  running : ∀ p, w.running = some p → p.Synced cfg w.disk.destination

/-- Every engine that runs, or that a restart gives, descends from an engine. -/
structure Host.Keeps (cfg : HostConfig) (e : EngineState) (w : Host) : Prop where
  running : ∀ p, w.running = some p → Descends cfg.toCoordinatorConfig e p.engine
  restart : ∀ q, Process.boot cfg w.disk.destination {} = some q →
    Descends cfg.toCoordinatorConfig e q.engine

/-- What is asked of an event: a state file that is there can be read when the coordinator
starts; what a frame requests is recorded, at a sequence that can still grow; a state that is
saved is one the decoder allows; and no save removes the state file before it has replaced it. -/
def HostEvent.Sound (cfg : HostConfig) (limits : ProtocolLimits) (w : Host) : HostEvent → Prop
  | .start answers => w.disk.destination.isSome = true → answers = {}
  | .close _ _ => ∀ p, w.running = some p → ¬p.engine.sequence.Saturated
  | .frame i received answers _ =>
    answers.loses = false ∧
      ∀ p session, w.running = some p → p.sessions[i]? = some session →
        ¬p.engine.sequence.Saturated ∧
          (∀ op, p.requested session (received.carried limits) = some op →
            op.unrecorded p.engine = false) ∧
          Storable cfg.fileLimits (p.handleFrame cfg.toCoordinatorConfig limits i session
            (received.carried limits)).engine.exportDurableState
  | .poll answers _ =>
    answers.loses = false ∧
      ∀ p, w.running = some p → Storable cfg.fileLimits p.engine.exportDurableState
  | _ => True

/-- What is computed of an event to see that it is sound, as long as there are no plans. -/
def HostEvent.sound (cfg : HostConfig) (limits : ProtocolLimits) (w : Host) : HostEvent → Bool
  | .start answers => w.disk.destination.isNone || decide (answers = {})
  | .close _ _ => w.running.all fun p => !decide p.engine.sequence.Saturated
  | .frame i received answers _ =>
    !answers.loses && w.running.all fun p =>
      (p.sessions[i]?).all fun session =>
        !decide p.engine.sequence.Saturated &&
          ((p.requested session (received.carried limits)).all fun op =>
            !op.unrecorded p.engine) &&
          StateFile.storable cfg.fileLimits (p.handleFrame cfg.toCoordinatorConfig limits i session
            (received.carried limits)).engine.exportDurableState
  | .poll answers _ =>
    !answers.loses && w.running.all fun p =>
      StateFile.storable cfg.fileLimits p.engine.exportDurableState
  | _ => true

theorem HostEvent.sound_of_check {event : HostEvent} (h : event.sound cfg limits w = true) :
    event.Sound cfg limits w := by
  cases event with
  | start answers =>
    simp only [HostEvent.sound, Bool.or_eq_true, decide_eq_true_eq] at h
    intro hfile
    rcases h with hnone | hwhole
    · rw [Option.isNone_iff_eq_none.mp hnone] at hfile
      cases hfile
    · exact hwhole
  | close i reason =>
    intro p hp
    simpa [HostEvent.sound, hp] using h
  | frame i received answers cut =>
    simp only [HostEvent.sound, Bool.and_eq_true, Bool.not_eq_true', Option.all_eq_true,
      decide_eq_false_iff_not] at h
    obtain ⟨hloses, hrunning⟩ := h
    refine ⟨hloses, ?_⟩
    intro p session hp hsession
    obtain ⟨⟨hseq, hrecorded⟩, hstorable⟩ := hrunning p hp session hsession
    exact ⟨hseq, hrecorded, StateFile.storable_of_check hstorable⟩
  | poll answers cut =>
    simp only [HostEvent.sound, Bool.and_eq_true, Bool.not_eq_true', Option.all_eq_true] at h
    obtain ⟨hloses, hrunning⟩ := h
    exact ⟨hloses, fun p hp => StateFile.storable_of_check (hrunning p hp)⟩
  | _ => exact trivial

/-- A host whose coordinator moves on and leaves the disk alone. -/
theorem Host.Synced.moved (h : w.Synced cfg) {f : Process → Process}
    (hmoved : ∀ p, w.running = some p →
      p.toCoordinator.Moved cfg.toCoordinatorConfig (f p).toCoordinator) :
    Host.Synced cfg { w with running := w.running.map f } where
  readable := h.readable
  running q hq := by
    obtain ⟨p, hp, rfl⟩ := Option.map_eq_some_iff.mp hq
    exact (h.running p hp).moved (hmoved p hp)

theorem Host.Keeps.moved (h : w.Keeps cfg e) {f : Process → Process}
    (hmoved : ∀ p, w.running = some p →
      p.toCoordinator.Moved cfg.toCoordinatorConfig (f p).toCoordinator) :
    Host.Keeps cfg e { w with running := w.running.map f } where
  running q hq := by
    obtain ⟨p, hp, rfl⟩ := Option.map_eq_some_iff.mp hq
    exact (hmoved p hp).descends e (h.running p hp)
  restart := h.restart

section Saving

variable {saving : SaveRun} {q : Process}

/-- What holds of the state file at every moment of a save holds of it afterwards. -/
theorem Host.afterSave_destination {P : Option ByteCodec.Bytes → Prop}
    (h : Always Disk.apply (fun disk => P disk.destination) w.disk saving.effects)
    (cut : Option ℕ) : P (w.afterSave saving q cut).disk.destination := by
  cases cut with
  | none => exact h _ List.prefix_rfl
  | some effects => exact h _ (List.take_prefix _ _)

/-- The process runs on after a save it is not interrupted in. -/
theorem Host.afterSave_running {cut : Option ℕ}
    (h : (w.afterSave saving q cut).running = some p) :
    p = q ∧ (w.afterSave saving q cut).disk = run Disk.apply w.disk saving.effects := by
  cases cut with
  | none => exact ⟨(Option.some.inj h).symm, rfl⟩
  | some effects => exact absurd h.symm (Option.some_ne_none p)

/-- A host is in step after a save that leaves its process in step and the state file readable
at every moment. -/
theorem Host.Synced.afterSave
    (hreadable : Always Disk.apply (fun disk => disk.destination = none ∨
      ∃ d, loadDurableState cfg.fileLimits disk.destination {} = .ok d) w.disk saving.effects)
    (hq : q.Synced cfg (run Disk.apply w.disk saving.effects).destination) (cut : Option ℕ) :
    (w.afterSave saving q cut).Synced cfg where
  readable := Host.afterSave_destination
    (P := fun file => file = none ∨ ∃ d, loadDurableState cfg.fileLimits file {} = .ok d)
    hreadable cut
  running p hp := by
    obtain ⟨rfl, hdisk⟩ := Host.afterSave_running hp
    rw [hdisk]
    exact hq

theorem Host.Keeps.afterSave
    (hrestart : Always Disk.apply (fun disk => ∀ next, Process.boot cfg disk.destination {} =
      some next → Descends cfg.toCoordinatorConfig e next.engine) w.disk saving.effects)
    (hq : Descends cfg.toCoordinatorConfig e q.engine) (cut : Option ℕ) :
    (w.afterSave saving q cut).Keeps cfg e where
  running p hp := by
    obtain ⟨rfl, _⟩ := Host.afterSave_running hp
    exact hq
  restart := Host.afterSave_destination
    (P := fun file => ∀ next, Process.boot cfg file {} = some next →
      Descends cfg.toCoordinatorConfig e next.engine) hrestart cut

/-- The save of a process leaves a host in step, and only descendants of what it kept if the
process is one, wherever it is interrupted. -/
theorem Host.Synced.save (hpersist : cfg.persistOnChange = true) (h : w.Synced cfg)
    (hp : p.Synced cfg w.disk.destination)
    (hstorable : Storable cfg.fileLimits p.engine.exportDurableState) {answers : SaveAnswers}
    (hloses : answers.loses = false) (cut : Option ℕ) :
    let saved := p.persistIfChanged cfg.toCoordinatorConfig answers
    (w.afterSave saved.2 saved.1 cut).Synced cfg ∧
      ∀ e, w.Keeps cfg e → Descends cfg.toCoordinatorConfig e p.engine →
        (w.afterSave saved.2 saved.1 cut).Keeps cfg e := by
  have hdestination (before : List (AtomicReplace.DiskEffect UInt8)) :=
    @saving_destination cfg p answers w.disk hstorable hloses before
  have hload := load_saved hstorable
  obtain ⟨hengine, hsynced, _⟩ := persistIfChanged_synced hpersist hp hstorable hloses
  dsimp only
  generalize p.persistIfChanged cfg.toCoordinatorConfig answers = saved
    at hdestination hengine hsynced ⊢
  constructor
  · refine Host.Synced.afterSave ?_ hsynced cut
    intro before hbefore
    rcases hdestination before hbefore with hsame | hsaved
    · rw [hsame]
      exact h.readable
    · rw [hsaved]
      exact .inr ⟨_, hload⟩
  · intro e hkeeps hdescends
    refine Host.Keeps.afterSave ?_ (by rwa [hengine]) cut
    intro before hbefore next hnext
    rcases hdestination before hbefore with hsame | hsaved
    · rw [hsame] at hnext
      exact hkeeps.restart next hnext
    · rw [hsaved] at hnext
      exact hdescends.boot hload rfl hnext

/-- Nothing is saved, and the process is in step. -/
theorem Host.Synced.unsaved (h : w.Synced cfg) (hp : p.Synced cfg w.disk.destination)
    (cut : Option ℕ) :
    (w.afterSave {} p cut).Synced cfg ∧
      ∀ e, w.Keeps cfg e → Descends cfg.toCoordinatorConfig e p.engine →
        (w.afterSave {} p cut).Keeps cfg e := by
  constructor
  · exact Host.Synced.afterSave ((always_nil Disk.apply).mpr h.readable) hp cut
  · intro e hkeeps hdescends
    exact Host.Keeps.afterSave ((always_nil Disk.apply).mpr hkeeps.restart) hdescends cut

end Saving

/-! ## Frames -/

/-- The state a frame leaves the host in. -/
theorem step_frame {i : ℕ} {session : Session} (hp : w.running = some p)
    (hsession : p.sessions[i]? = some session) (hopen : session.connected = true)
    (frame : Wire.Frame) (answers : SaveAnswers) (cut : Option ℕ) :
    Host.step cfg limits w (.frame i frame answers cut) =
      let served := p.serveFrame cfg.toCoordinatorConfig limits i session frame answers
      w.afterSave served.saving served.process cut := by
  simp only [Host.step, hp, hsession, hopen, Bool.not_true, Bool.false_eq_true, if_false]

/-- What serving a frame leaves: the save of a mutation, and nothing on the disk otherwise. -/
theorem serveFrame_eq (cfg : HostConfig) (limits : ProtocolLimits) (p : Process) (i : ℕ)
    (session : Session) (frame : Wire.Frame) (answers : SaveAnswers) :
    let handled := p.handleFrame cfg.toCoordinatorConfig limits i session (frame.carried limits)
    let served := p.serveFrame cfg.toCoordinatorConfig limits i session frame answers
    if frame.type.mutates then
      served.process = (handled.persistIfChanged cfg.toCoordinatorConfig answers).1 ∧
        served.saving = (handled.persistIfChanged cfg.toCoordinatorConfig answers).2 ∧
        (served.acknowledged = true →
          (handled.persistIfChanged cfg.toCoordinatorConfig answers).2.result = .ok ())
    else served.process = handled ∧ served.saving = {} := by
  dsimp only
  unfold Process.serveFrame Process.sendReply
  split_ifs
  · dsimp only
    split
    · rename_i hresult
      exact ⟨rfl, rfl, fun _ => hresult⟩
    · exact ⟨rfl, rfl, nofun⟩
  · exact ⟨rfl, rfl⟩

/-- A sound frame leaves a host in step, and only descendants of what it kept. -/
theorem Host.Synced.frame (hpersist : cfg.persistOnChange = true) (h : w.Synced cfg) {i : ℕ}
    {session : Session} (hp : w.running = some p) (hsession : p.sessions[i]? = some session)
    {frame : Wire.Frame} {answers : SaveAnswers} {cut : Option ℕ}
    (hsound : HostEvent.Sound cfg limits w (.frame i frame answers cut)) :
    let served := p.serveFrame cfg.toCoordinatorConfig limits i session frame answers
    (w.afterSave served.saving served.process cut).Synced cfg ∧
      ∀ e, w.Keeps cfg e → (w.afterSave served.saving served.process cut).Keeps cfg e := by
  obtain ⟨hloses, hframe⟩ := hsound
  obtain ⟨hseq, hrecorded, hstorable⟩ := hframe p session hp hsession
  have hsynced := h.running p hp
  have hmoved := handleFrame_moved limits hsynced.reachable hseq i hrecorded
  have hhandled := hsynced.moved hmoved
  have hserved := serveFrame_eq cfg limits p i session frame answers
  dsimp only at hserved ⊢
  split_ifs at hserved
  · obtain ⟨hprocess, hsaving, _⟩ := hserved
    rw [hprocess, hsaving]
    obtain ⟨hafter, hkept⟩ := h.save hpersist hhandled hstorable hloses cut
    exact ⟨hafter, fun e hkeeps =>
      hkept e hkeeps (hmoved.descends e (hkeeps.running p hp))⟩
  · obtain ⟨hprocess, hsaving⟩ := hserved
    rw [hprocess, hsaving]
    obtain ⟨hafter, hkept⟩ := h.unsaved hhandled cut
    exact ⟨hafter, fun e hkeeps =>
      hkept e hkeeps (hmoved.descends e (hkeeps.running p hp))⟩

/-- A sound event leaves a host in step, and only descendants of what it kept. -/
theorem Host.Synced.step (hpersist : cfg.persistOnChange = true) (h : w.Synced cfg)
    {event : HostEvent} (hsound : event.Sound cfg limits w) :
    (Host.step cfg limits w event).Synced cfg ∧
      ∀ e, w.Keeps cfg e → (Host.step cfg limits w event).Keeps cfg e := by
  have hidle : ∀ f : Process → Process, (∀ p, (f p).toCoordinator = p.toCoordinator) →
      ∀ p, w.running = some p →
        p.toCoordinator.Moved cfg.toCoordinatorConfig (f p).toCoordinator := by
    intro f hf p hp
    rw [hf]
    exact .refl (h.running p hp).reachable
  cases event with
  | start answers =>
    simp only [Host.step]
    split_ifs with hrunning
    · exact ⟨h, fun _ hkeeps => hkeeps⟩
    · exact ⟨⟨h.readable, fun q hq => synced_of_boot (boot_whole hsound hq)⟩,
        fun _ hkeeps => ⟨fun q hq => hkeeps.restart q (boot_whole hsound hq), hkeeps.restart⟩⟩
  | crash =>
    have hdead : ∀ p, (Host.step cfg limits w .crash).running ≠ some p := fun p hp =>
      absurd hp.symm (Option.some_ne_none p)
    exact ⟨⟨h.readable, fun p hp => absurd hp (hdead p)⟩,
      fun _ hkeeps => ⟨fun p hp => absurd hp (hdead p), hkeeps.restart⟩⟩
  | accept =>
    have haccept := hidle (fun p => p.accept limits) fun p => by
      unfold Process.accept
      split_ifs <;> rfl
    exact ⟨h.moved haccept, fun _ hkeeps => hkeeps.moved haccept⟩
  | close i reason =>
    have hclose : ∀ p, w.running = some p → p.toCoordinator.Moved cfg.toCoordinatorConfig
        (if p.isOpen i then p.closeSession cfg.toCoordinatorConfig i reason
          else p).toCoordinator := by
      intro p hp
      split_ifs
      · exact closeSession_moved (h.running p hp).reachable (hsound p hp) i reason
      · exact .refl (h.running p hp).reachable
    exact ⟨h.moved hclose, fun _ hkeeps => hkeeps.moved hclose⟩
  | frame i frame answers cut =>
    cases hrunning : w.running with
    | none =>
      simp only [Host.step, hrunning]
      exact ⟨h, fun _ hkeeps => hkeeps⟩
    | some p =>
      cases hsession : p.sessions[i]? with
      | none =>
        simp only [Host.step, hrunning, hsession]
        exact ⟨h, fun _ hkeeps => hkeeps⟩
      | some session =>
        cases hopen : session.connected with
        | false =>
          simp only [Host.step, hrunning, hsession, hopen, Bool.not_false, if_true]
          exact ⟨h, fun _ hkeeps => hkeeps⟩
        | true =>
          rw [step_frame hrunning hsession hopen]
          exact h.frame hpersist hrunning hsession hsound
  | sweep =>
    have hsweep := hidle Process.sweep fun _ => rfl
    exact ⟨h.moved hsweep, fun _ hkeeps => hkeeps.moved hsweep⟩
  | dispatch delivers =>
    have hdispatch := hidle (Process.dispatchPending delivers) fun p =>
      (Process.dispatchPending_kept delivers p).1
    exact ⟨h.moved hdispatch, fun _ hkeeps => hkeeps.moved hdispatch⟩
  | poll answers cut =>
    cases hrunning : w.running with
    | none =>
      simp only [Host.step, hrunning]
      exact ⟨h, fun _ hkeeps => hkeeps⟩
    | some p =>
      obtain ⟨hloses, hstorable⟩ := hsound
      simp only [Host.step, hrunning]
      obtain ⟨hafter, hkept⟩ :=
        h.save hpersist (h.running p hrunning) (hstorable p hrunning) hloses cut
      exact ⟨hafter, fun e hkeeps => hkept e hkeeps (hkeeps.running p hrunning)⟩

/-! ## Runs -/

theorem Host.Synced.run (hpersist : cfg.persistOnChange = true) (h : w.Synced cfg)
    {events : List HostEvent}
    (hsound : Along (Host.step cfg limits) (fun w event => event.Sound cfg limits w) w events) :
    (run (Host.step cfg limits) w events).Synced cfg :=
  run_preserves (P := fun w => w.Synced cfg) (Host.step cfg limits)
    (fun _ _ hw hevent => (hw.step hpersist hevent).1) hsound h

theorem Host.Keeps.run (hpersist : cfg.persistOnChange = true) (h : w.Synced cfg)
    (hkeeps : w.Keeps cfg e) {events : List HostEvent}
    (hsound : Along (Host.step cfg limits) (fun w event => event.Sound cfg limits w) w events) :
    (Runs.run (Host.step cfg limits) w events).Keeps cfg e := by
  refine (run_preserves (P := fun w => w.Synced cfg ∧ w.Keeps cfg e) (Host.step cfg limits) ?_
    hsound ⟨h, hkeeps⟩).2
  rintro w event ⟨hw, hkept⟩ hevent
  obtain ⟨hafter, hall⟩ := hw.step hpersist hevent
  exact ⟨hafter, hall e hkept⟩

/-- A change that is acknowledged is where a restart finds it. -/
theorem Host.Synced.acknowledged (hpersist : cfg.persistOnChange = true) (h : w.Synced cfg)
    {i : ℕ} {session : Session} (hp : w.running = some p) (hsession : p.sessions[i]? = some session)
    (hopen : session.connected = true) {frame : Wire.Frame} {answers : SaveAnswers}
    (hsound : HostEvent.Sound cfg limits w (.frame i frame answers none))
    (hmutates : frame.type.mutates = true)
    (hacknowledged : (p.serveFrame cfg.toCoordinatorConfig limits i session frame
      answers).acknowledged = true) :
    (Host.step cfg limits w (.frame i frame answers none)).Keeps cfg
      (p.handleFrame cfg.toCoordinatorConfig limits i session (frame.carried limits)).engine := by
  obtain ⟨hloses, hframe⟩ := hsound
  obtain ⟨hseq, hrecorded, hstorable⟩ := hframe p session hp hsession
  have hmoved := handleFrame_moved limits (h.running p hp).reachable hseq i hrecorded
  have hserved := serveFrame_eq cfg limits p i session frame answers
  obtain ⟨hengine, hsynced, hholds⟩ := persistIfChanged_synced hpersist
    ((h.running p hp).moved hmoved) hstorable hloses
  rw [step_frame hp hsession hopen]
  dsimp only at hserved ⊢
  rw [if_pos hmutates] at hserved
  obtain ⟨hprocess, hsaving, hdurable⟩ := hserved
  rw [hprocess, hsaving]
  have hfound := hholds (hdurable hacknowledged)
  refine ⟨?_, fun q hq => hfound.restart hq⟩
  rintro q hq
  obtain rfl := Option.some.inj hq
  rw [hengine]
  exact .refl

/-! ## After an acknowledgement -/

/-- From a disk whose state file is loaded, if there is one: when a reply has acknowledged a
mutation, every engine that ever runs on the host afterwards, and every one that a restart would
give, descends from the engine the mutation left, and remembers its versions and plans. The
coordinator may crash at any moment, also in the middle of a save, and saves may fail. -/
theorem acknowledged_kept (hpersist : cfg.persistOnChange = true) {disk : Disk UInt8}
    (hdisk : disk.destination = none ∨
      ∃ d, loadDurableState cfg.fileLimits disk.destination {} = .ok d)
    (before after : List HostEvent) {i : ℕ} {frame : Wire.Frame} {answers : SaveAnswers}
    (hsound : Along (Host.step cfg limits) (fun w event => event.Sound cfg limits w) { disk }
      (before ++ .frame i frame answers none :: after))
    {p : Process} {session : Session}
    (hp : (run (Host.step cfg limits) { disk } before).running = some p)
    (hsession : p.sessions[i]? = some session) (hopen : session.connected = true)
    (hmutates : frame.type.mutates = true)
    (hacknowledged : (p.serveFrame cfg.toCoordinatorConfig limits i session frame
      answers).acknowledged = true) {q : Process} :
    let acknowledged :=
      (p.handleFrame cfg.toCoordinatorConfig limits i session (frame.carried limits)).engine
    let w := run (Host.step cfg limits) { disk } (before ++ .frame i frame answers none :: after)
    w.running = some q ∨ Process.boot cfg w.disk.destination {} = some q →
      Descends cfg.toCoordinatorConfig acknowledged q.engine ∧
        Remembers acknowledged q.engine := by
  obtain ⟨hbefore, hframe, hafter⟩ := (along_append (Host.step cfg limits)).mp hsound
  have hstart : Host.Synced cfg { disk } :=
    ⟨hdisk, fun p hp => absurd hp.symm (Option.some_ne_none p)⟩
  have hreached := hstart.run hpersist hbefore
  have hkeeps := Host.Keeps.run hpersist (hreached.step hpersist hframe).1
    (hreached.acknowledged hpersist hp hsession hopen hframe hmutates hacknowledged) hafter
  obtain ⟨hseq, hrecorded, _⟩ := hframe.2 p session hp hsession
  have hmoved := handleFrame_moved limits (hreached.running p hp).reachable hseq i hrecorded
  dsimp only
  rw [run_append, run_cons]
  intro hq
  have hdescends : Descends cfg.toCoordinatorConfig _ q.engine :=
    hq.elim (hkeeps.running q) (hkeeps.restart q)
  exact ⟨hdescends, (hdescends.remembers hmoved.reachable).2⟩

/-- A coordinator that started without a state file and accepted a connection. -/
def acceptedProcess : Process :=
  { engine := init {}, lastSavedSequence := (init {}).sequence, sessions := [{}] }

/-- The frame that registers a model. -/
def modelFrame : Wire.Frame :=
  { type := .registerModel
    payload := Wire.putRegisterModel { name := text "m", provenance := .synthetic } }

/-- A model is registered, the process crashes as soon as it has replied, and starts again. -/
def crashedAfterReply : List HostEvent :=
  [.start {}, .accept] ++ .frame 0 modelFrame {} none :: [.crash, .start {}]

theorem crashedAfterReply_sound :
    Along (Host.step {} {}) (fun w event => event.Sound {} {} w) {} crashedAfterReply := by
  have hchecked : Along (Host.step {} {}) (fun w event => event.sound {} {} w = true) {}
      crashedAfterReply := by
    decide +kernel
  exact hchecked.imp _ fun w event => event.sound_of_check

theorem acknowledged_kept_witness :
    ∃ q, (run (Host.step {} {}) {} crashedAfterReply).running = some q ∧
      Remembers
        (acceptedProcess.handleFrame {} {} 0 {} (modelFrame.carried {})).engine q.engine := by
  obtain ⟨q, hq⟩ := Option.isSome_iff_exists.mp
    (show (run (Host.step {} {}) {} crashedAfterReply).running.isSome = true by decide +kernel)
  have hempty : ({} : Disk UInt8).destination = none := rfl
  have hkept := acknowledged_kept (show ({} : HostConfig).persistOnChange = true from rfl)
    (.inl hempty) [.start {}, .accept] [.crash, .start {}] crashedAfterReply_sound rfl rfl rfl rfl
    (by decide +kernel) (.inl hq)
  exact ⟨q, hq, hkept.2⟩

end LifecycleFabric
