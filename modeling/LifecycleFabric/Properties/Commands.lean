import LifecycleFabric.Engine.Spending
import LifecycleFabric.Lib.Outputs
import LifecycleFabric.Properties.Dispatch
import LifecycleFabric.Properties.Durability
import LifecycleFabric.Properties.Identities

/-!
# No command is repeated by a later incarnation

The identity of an attempt is in the state file before the request of the attempt is answered,
and a restart recovers no attempt as dispatched. So an attempt is commanded at most once,
whichever incarnation of the coordinator sends the command.
-/

namespace LifecycleFabric

open EngineState Runs Allocators
open AtomicReplace (Disk)
open StateFile (SaveAnswers SaveRun LoadAnswers Storable fileBytes saveDurableState
  loadDurableState)

variable {cfg : HostConfig} {limits : ProtocolLimits} {w : Host} {p q : Process}
  {s s' : EngineState} {sent : List AttemptId}

/-! ## New attempts -/

/-- The allocator of attempts does not go back, and an attempt that is dispatched was dispatched
before, or is filed where the allocator has passed. -/
structure AttemptsAdvance (s s' : EngineState) : Prop where
  next : s.nextAttemptId ≤ s'.nextAttemptId
  dispatched : ∀ key attempt, s'.attempts.get? key = some attempt → attempt.state = .dispatched →
    (∃ before, s.attempts.get? key = some before ∧ before.state = .dispatched) ∨
      s.nextAttemptId ≤ key ∧ key < s'.nextAttemptId

theorem AttemptsAdvance.refl (s : EngineState) : AttemptsAdvance s s where
  next := le_rfl
  dispatched _ attempt hattempt hstate := .inl ⟨attempt, hattempt, hstate⟩

/-- An operation with room hands out what it dispatches. -/
theorem step_attemptsAdvance {c : EngineConfig} (hreach : ReachableState c s) {op : Operation}
    (hop : op.carried = true) (hroom : op.HasRoom s) :
    AttemptsAdvance s (EngineState.step c s op) := by
  have himport := Operation.native_of_carried hop
  have hissues := step_issues (c := c) hreach.coherent hreach.standing himport hroom
  refine ⟨hissues.advances .attempt, ?_⟩
  intro key attempt hattempt hstate
  rcases hissues.held .attempt key (OrdMap.mem_keys_iff.mpr ⟨attempt, hattempt⟩) with
    hheld | hissued
  · obtain ⟨before, hbefore⟩ := OrdMap.mem_keys_iff.mp hheld
    obtain ⟨later, hlater, hnext⟩ :=
      (step_attempts (c := c) hreach.coherent op).next himport key before hbefore
    obtain rfl := Option.some.inj (hlater.symm.trans hattempt)
    refine .inl ⟨before, hbefore, ?_⟩
    by_contra hlanded
    exact hnext.landed hlanded hstate
  · exact .inr hissued

/-- What the engine hands out after an operation that it is asked for. -/
theorem Coordinator.handle_advance {c : CoordinatorConfig} {coordinator : Coordinator}
    (hreach : ReachableState c.engine coordinator.engine) {op : Operation}
    (hroom : op.HasRoom coordinator.engine) :
    AttemptsAdvance coordinator.engine (coordinator.handle c op).engine := by
  unfold Coordinator.handle
  split_ifs with hcarried
  · exact step_attemptsAdvance hreach hcarried hroom
  · exact .refl _

/-- A fence hands out nothing. -/
theorem Coordinator.fence_nextAttemptId (c : CoordinatorConfig) (coordinator : Coordinator)
    (worker : WorkerId) (boot : WorkerBootId) (epoch : CoordinatorEpoch) (reason : Text) :
    (coordinator.handle c (.fenceWorker worker boot epoch reason)).engine.nextAttemptId =
      coordinator.engine.nextAttemptId := by
  have hadds : Adds (fun _ _ => False) coordinator.engine _ :=
    adds_fenceWorker coordinator.engine worker boot epoch reason
  exact congrFun hadds.next .attempt

theorem fence_hasRoom (s : EngineState) (worker : WorkerId) (boot : WorkerBootId)
    (epoch : CoordinatorEpoch) (reason : Text) :
    Operation.HasRoom s (.fenceWorker worker boot epoch reason) := by
  intro kind hkind
  cases hkind

theorem closeSession_advance {c : CoordinatorConfig} (hreach : ReachableState c.engine p.engine)
    (i : ℕ) (reason : Text) :
    AttemptsAdvance p.engine (p.closeSession c i reason).engine ∧
      (p.closeSession c i reason).engine.nextAttemptId = p.engine.nextAttemptId := by
  rcases closeSession_asks c p i reason with hsame | ⟨worker, boot, epoch, hfence⟩
  · rw [hsame]
    exact ⟨.refl _, rfl⟩
  · rw [hfence]
    exact ⟨Coordinator.handle_advance hreach (fence_hasRoom _ _ _ _ _),
      Coordinator.fence_nextAttemptId c _ _ _ _ _⟩

/-- A frame hands out what it requests. One that requests nothing hands out nothing. -/
theorem handleFrame_advance {c : CoordinatorConfig} (limits : ProtocolLimits)
    (hreach : ReachableState c.engine p.engine) (i : ℕ) {session : Session} {frame : Frame}
    (hroom : ∀ op, p.requested session frame = some op → op.HasRoom p.engine) :
    AttemptsAdvance p.engine (p.handleFrame c limits i session frame).engine ∧
      (p.requested session frame = none →
        (p.handleFrame c limits i session frame).engine.nextAttemptId =
          p.engine.nextAttemptId) := by
  rcases handleFrame_asks c limits p i session frame with
    hsame | ⟨op, hop, hasked⟩ | ⟨_, worker, boot, epoch, reason, hfence⟩
  · rw [hsame]
    exact ⟨.refl _, fun _ => rfl⟩
  · rw [hasked]
    refine ⟨Coordinator.handle_advance hreach (hroom op hop), fun hnone => ?_⟩
    rw [hop] at hnone
    cases hnone
  · rw [hfence]
    exact ⟨Coordinator.handle_advance hreach (fence_hasRoom _ _ _ _ _),
      fun _ => Coordinator.fence_nextAttemptId c _ _ _ _ _⟩

/-- A frame of a type that changes nothing durable requests nothing. -/
theorem requested_of_reads {session : Session} {frame : Wire.Frame}
    (hreads : frame.type.mutates = false) :
    p.requested session (frame.carried limits) = none := by
  obtain ⟨type, payload⟩ := frame
  unfold Wire.Frame.carried
  cases type with
  | hello | queryState | queryAuthority =>
    dsimp only [Wire.MessageType.handler]
    split <;> rfl
  | reconcile | helloAck | reply | command | invalid => rfl
  | _ => cases hreads

/-! ## Restarts -/

section Files

open ByteCodec (Bytes)

variable {file : Option Bytes}

/-- The identity of the next attempt after a restart. -/
def resumed (cfg : HostConfig) (file : Option Bytes) : UInt64 :=
  match loadDurableState cfg.fileLimits file {} with
  | .ok d => d.nextAttemptId
  | .error _ => (init cfg.engine).nextAttemptId

theorem resumed_of_load {d : DurableState} (h : loadDurableState cfg.fileLimits file {} = .ok d) :
    resumed cfg file = d.nextAttemptId := by
  unfold resumed
  rw [h]

/-- A coordinator that starts has dispatched nothing, and hands out attempts from where the
allocator was saved. -/
theorem start_resumes {c : CoordinatorConfig} {found : Option DurableState}
    (h : Process.start c found = some q) :
    q.engine.nextAttemptId =
        found.elim (init c.engine).nextAttemptId DurableState.nextAttemptId ∧
      (∀ key attempt, q.engine.attempts.get? key = some attempt → attempt.state ≠ .dispatched) ∧
      q.sent = [] ∧ q.dispatched = [] := by
  obtain ⟨coordinator, hstart, rfl⟩ := Option.map_eq_some_iff.mp h
  cases found with
  | none =>
    obtain rfl := Option.some.inj hstart
    refine ⟨rfl, ?_, rfl, rfl⟩
    intro key attempt hattempt
    cases hattempt
  | some d =>
    have hattempts := (start_attempts hstart).2
    refine ⟨?_, ?_, rfl, rfl⟩
    · unfold Coordinator.start at hstart
      dsimp only at hstart
      split_ifs at hstart with hrestored
      obtain rfl := Option.some.inj hstart
      rcases importDurableState_cases c.engine (init c.engine) d d.epoch.nextGeneration with
        ⟨_, hrefused⟩ | ⟨recovered, hsound, heq⟩
      · rw [hrefused] at hrestored
        exact absurd rfl hrestored
      · have hadds : Adds (fun _ _ => False)
            ((init c.engine).applyDurableState d d.epoch.nextGeneration recovered) _ :=
          adds_invalidateVolatileState _ (text "coordinator restart")
        dsimp only
        rw [heq]
        exact congrFun hadds.next .attempt
    · intro key attempt hattempt
      have hfound : coordinator.engine.attempts.get? key = some attempt := hattempt
      rw [hattempts, OrdMap.get?_mapValues, Option.map_eq_some_iff] at hfound
      obtain ⟨before, _, rfl⟩ := hfound
      exact before.recovered_ne_dispatched

theorem boot_resumes (h : Process.boot cfg file {} = some q) :
    q.engine.nextAttemptId = resumed cfg file ∧
      (∀ key attempt, q.engine.attempts.get? key = some attempt → attempt.state ≠ .dispatched) ∧
      q.sent = [] ∧ q.dispatched = [] := by
  unfold Process.boot at h
  unfold resumed
  cases hload : loadDurableState cfg.fileLimits file {} with
  | ok d =>
    rw [hload] at h
    exact start_resumes h
  | error refusal =>
    rw [hload] at h
    dsimp only at h
    split_ifs at h
    · exact start_resumes h
    · exact start_resumes h

/-- A restart hands out attempts from where the engine does that it finds. -/
theorem Holds.resumed {e : EngineState} (h : Holds cfg file e) :
    e.nextAttemptId = resumed cfg file := by
  rcases h with ⟨d, hload, hview⟩ | ⟨q, hboot, hview⟩
  · have hnext : d.nextAttemptId = e.nextAttemptId := congrArg DurableState.nextAttemptId hview
    rw [resumed_of_load hload, hnext]
  · have hnext : q.engine.nextAttemptId = e.nextAttemptId :=
      congrArg DurableState.nextAttemptId hview
    rw [← hnext, (boot_resumes hboot).1]

end Files

/-! ## Processes -/

/-- What was sent so far a coordinator does not send again: it has identities that were handed
out, and none that is still dispatched unless the coordinator noted it. -/
structure Process.Unrepeated (p : Process) (sent : List AttemptId) : Prop where
  recorded : p.Recorded
  issued : ∀ id ∈ sent, id.raw < p.engine.nextAttemptId
  dispatched : ∀ key attempt, p.engine.attempts.get? key = some attempt →
    attempt.state = .dispatched →
      key < p.engine.nextAttemptId ∧ (⟨key⟩ ∈ sent → ⟨key⟩ ∈ p.dispatched)

namespace Process

theorem Unrepeated.advance (h : p.Unrepeated sent) (hadvance : AttemptsAdvance p.engine q.engine)
    (hdispatched : q.dispatched = p.dispatched) (hsent : q.sent = p.sent) : q.Unrepeated sent where
  recorded := by
    constructor
    · rw [hsent, hdispatched]
      exact h.recorded.noted
    · rw [hdispatched]
      exact h.recorded.once
  issued id hid := (h.issued id hid).trans_le hadvance.next
  dispatched key attempt hattempt hstate := by
    rcases hadvance.dispatched key attempt hattempt hstate with
      ⟨before, hbefore, hflight⟩ | ⟨hfrom, hbelow⟩
    · obtain ⟨hlt, hnoted⟩ := h.dispatched key before hbefore hflight
      rw [hdispatched]
      exact ⟨hlt.trans_le hadvance.next, hnoted⟩
    · refine ⟨hbelow, fun hmem => ?_⟩
      exact absurd (h.issued _ hmem) (not_lt.mpr hfrom)

/-- The attempts that a dispatch commands. -/
def commanded (p : Process) (delivers : Attempt → Session → Bool) : List AttemptId :=
  (p.sending delivers).map fun command => command.message.attempt

/-- A dispatch commands nothing that was sent before. -/
theorem Unrepeated.dispatch (haddressed : p.engine.Addressed) (hsent : sent.Nodup)
    (h : p.Unrepeated sent) (delivers : Attempt → Session → Bool) :
    (sent ++ p.commanded delivers).Nodup ∧
      (p.dispatchPending delivers).Unrepeated (sent ++ p.commanded delivers) := by
  have hdispatching := dispatchPending_dispatching delivers haddressed h.recorded
  have hengine : (p.dispatchPending delivers).engine = p.engine :=
    congrArg Coordinator.engine hdispatching.coordinator
  obtain ⟨new, hnew, hdue⟩ := hdispatching.due
  have hcommanded : p.commanded delivers = new.map fun command => command.message.attempt := by
    rw [commanded, sending, hnew, List.drop_left]
  have hnoted : (p.dispatchPending delivers).dispatched = p.dispatched ++ p.commanded delivers := by
    rw [← hdispatching.recorded.noted, hnew, List.map_append, h.recorded.noted, hcommanded]
  have honce := hdispatching.recorded.once
  rw [hnoted, List.nodup_append] at honce
  obtain ⟨_, hnodup, hapart⟩ := honce
  have hfresh : ∀ id ∈ p.commanded delivers, id.raw < p.engine.nextAttemptId ∧ id ∉ sent := by
    intro id hid
    have hunsent : id ∉ p.dispatched := fun hmem => hapart id hmem id hid rfl
    rw [hcommanded] at hid
    obtain ⟨command, hcommand, rfl⟩ := List.mem_map.mp hid
    obtain ⟨attempt, hattempt, hstate, hmessage, _⟩ := hdue command hcommand
    rw [hmessage] at hunsent ⊢
    obtain ⟨hlt, hbefore⟩ := h.dispatched _ attempt hattempt hstate
    exact ⟨hlt, fun hmem => hunsent (hbefore hmem)⟩
  refine ⟨?_, hdispatching.recorded, ?_, ?_⟩
  · refine List.nodup_append.mpr ⟨hsent, hnodup, ?_⟩
    rintro id hid other hother rfl
    exact (hfresh id hother).2 hid
  · rw [hengine]
    intro id hid
    rcases List.mem_append.mp hid with hold | hnow
    · exact h.issued id hold
    · exact (hfresh id hnow).1
  · rw [hengine, hnoted]
    intro key attempt hattempt hstate
    obtain ⟨hlt, hbefore⟩ := h.dispatched key attempt hattempt hstate
    refine ⟨hlt, fun hmem => List.mem_append.mpr ?_⟩
    exact (List.mem_append.mp hmem).imp_left hbefore

/-- A save changes what is noted as saved only. -/
theorem persistIfChanged_kept {c : CoordinatorConfig} (p : Process) (answers : SaveAnswers) :
    (p.persistIfChanged c answers).1.engine = p.engine ∧
      (p.persistIfChanged c answers).1.dispatched = p.dispatched ∧
      (p.persistIfChanged c answers).1.sent = p.sent := by
  unfold persistIfChanged persist
  split_ifs
  · dsimp only
    split <;> exact ⟨rfl, rfl, rfl⟩
  · exact ⟨rfl, rfl, rfl⟩

end Process

/-! ## Hosts -/

/-- The attempts that an event commands. -/
def Host.commands (w : Host) (event : HostEvent) : List AttemptId :=
  (w.sends event).map fun command => command.message.attempt

/-- What is asked of a frame: no allocator that it reads is at its end, and it is not refused for
a save that failed, unless the process dies in the save. -/
def HostEvent.Secured (cfg : HostConfig) (limits : ProtocolLimits) (w : Host) : HostEvent → Prop
  | .frame i received answers cut =>
    ∀ p session, w.running = some p → p.sessions[i]? = some session →
      (∀ op, p.requested session (received.carried limits) = some op → op.HasRoom p.engine) ∧
        (cut = none → (p.serveFrame cfg.toCoordinatorConfig limits i session received
          answers).acknowledged = true)
  | _ => True

/-- No attempt was commanded twice, and the state file and the coordinator hand out none that
was. -/
structure Host.Unrepeated (cfg : HostConfig) (w : Host) (sent : List AttemptId) : Prop where
  nodup : sent.Nodup
  issued : ∀ id ∈ sent, id.raw < resumed cfg w.disk.destination
  running : ∀ p, w.running = some p →
    p.Unrepeated sent ∧ p.engine.nextAttemptId = resumed cfg w.disk.destination

/-- A host whose coordinator hands out nothing and sends nothing. -/
theorem Host.Unrepeated.moved (h : w.Unrepeated cfg sent) {f : Process → Process}
    (hmoved : ∀ p, w.running = some p →
      (AttemptsAdvance p.engine (f p).engine ∧
        (f p).engine.nextAttemptId = p.engine.nextAttemptId) ∧
      (f p).dispatched = p.dispatched ∧ (f p).sent = p.sent) :
    Host.Unrepeated cfg { w with running := w.running.map f } sent where
  nodup := h.nodup
  issued := h.issued
  running q hq := by
    obtain ⟨p, hp, rfl⟩ := Option.map_eq_some_iff.mp hq
    obtain ⟨⟨hadvance, hnext⟩, hdispatched, hsent⟩ := hmoved p hp
    obtain ⟨hprocess, hresumed⟩ := h.running p hp
    exact ⟨hprocess.advance hadvance hdispatched hsent, hnext.trans hresumed⟩

section Saving

variable {answers : SaveAnswers}

/-- Wherever a save is interrupted, a restart hands out attempts from where it did before, or
from where the coordinator that is saved does. -/
theorem resumed_saving (hstorable : Storable cfg.fileLimits p.engine.exportDurableState)
    (hloses : answers.loses = false) {disk : Disk UInt8}
    {before : List (AtomicReplace.DiskEffect UInt8)}
    (hbefore : before <+: (p.persistIfChanged cfg.toCoordinatorConfig answers).2.effects) :
    resumed cfg (run Disk.apply disk before).destination = resumed cfg disk.destination ∨
      resumed cfg (run Disk.apply disk before).destination = p.engine.nextAttemptId := by
  rcases saving_destination hstorable hloses hbefore with hsame | hsaved
  · exact .inl (by rw [hsame])
  · right
    rw [hsaved]
    exact resumed_of_load (load_saved hstorable)

/-- The save of a coordinator repeats nothing, if a restart hands out attempts from where the
coordinator does once the save is done. -/
theorem Host.Unrepeated.save (h : w.Unrepeated cfg sent) (hp : p.Unrepeated sent)
    (hstorable : Storable cfg.fileLimits p.engine.exportDurableState)
    (hloses : answers.loses = false) {cut : Option ℕ}
    (hdone : cut = none → p.engine.nextAttemptId = resumed cfg (run Disk.apply w.disk
      (p.persistIfChanged cfg.toCoordinatorConfig answers).2.effects).destination) :
    let saved := p.persistIfChanged cfg.toCoordinatorConfig answers
    (w.afterSave saved.2 saved.1 cut).Unrepeated cfg sent := by
  have hissued : Always Disk.apply
      (fun disk => ∀ id ∈ sent, id.raw < resumed cfg disk.destination) w.disk
      (p.persistIfChanged cfg.toCoordinatorConfig answers).2.effects := by
    intro before hbefore id hid
    rcases resumed_saving hstorable hloses hbefore with hsame | hsaved
    · rw [hsame]
      exact h.issued id hid
    · rw [hsaved]
      exact hp.issued id hid
  obtain ⟨hengine, hdispatched, hsent⟩ := p.persistIfChanged_kept answers
    (c := cfg.toCoordinatorConfig)
  constructor
  · exact h.nodup
  · exact Host.afterSave_destination
      (P := fun file => ∀ id ∈ sent, id.raw < resumed cfg file) hissued cut
  · intro q hq
    cases cut with
    | some effects => exact absurd hq.symm (Option.some_ne_none q)
    | none =>
      obtain rfl := Option.some.inj hq
      have hadvance : AttemptsAdvance p.engine
          (p.persistIfChanged cfg.toCoordinatorConfig answers).1.engine := by
        rw [hengine]
        exact .refl _
      refine ⟨hp.advance hadvance hdispatched hsent, ?_⟩
      rw [hengine]
      exact hdone rfl

end Saving

/-- A secured frame repeats nothing. -/
theorem Host.Unrepeated.frame (hpersist : cfg.persistOnChange = true) (hsynced : w.Synced cfg)
    (h : w.Unrepeated cfg sent) {i : ℕ} {session : Session} (hp : w.running = some p)
    (hsession : p.sessions[i]? = some session) {frame : Wire.Frame} {answers : SaveAnswers}
    {cut : Option ℕ} (hsound : HostEvent.Sound cfg limits w (.frame i frame answers cut))
    (hsecured : HostEvent.Secured cfg limits w (.frame i frame answers cut)) :
    let served := p.serveFrame cfg.toCoordinatorConfig limits i session frame answers
    (w.afterSave served.saving served.process cut).Unrepeated cfg sent := by
  obtain ⟨hloses, hframe⟩ := hsound
  obtain ⟨hseq, hrecorded, hstorable⟩ := hframe p session hp hsession
  obtain ⟨hroom, hacknowledged⟩ := hsecured p session hp hsession
  obtain ⟨hprocess, hresumed⟩ := h.running p hp
  have hreach := (hsynced.running p hp).reachable
  obtain ⟨hadvance, hreads⟩ := handleFrame_advance limits hreach i hroom
  have hserves : p.Serves cfg.toCoordinatorConfig (p.handleFrame cfg.toCoordinatorConfig limits i
      session (frame.carried limits)) := Process.handleFrame_serves p i session _
  have hhandled := hprocess.advance hadvance hserves.dispatched hserves.sent
  have hserved := serveFrame_eq cfg limits p i session frame answers
  dsimp only at hserved ⊢
  split_ifs at hserved with hmutates
  · obtain ⟨hsaved, hsaving, hdurable⟩ := hserved
    rw [hsaved, hsaving]
    refine h.save hhandled hstorable hloses ?_
    intro hwhole
    have hmoved := handleFrame_moved limits hreach hseq i hrecorded
    obtain ⟨_, _, hholds⟩ := persistIfChanged_synced hpersist
      ((hsynced.running p hp).moved hmoved) hstorable hloses
    exact (hholds (hdurable (hacknowledged hwhole))).resumed
  · obtain ⟨hsaved, hsaving⟩ := hserved
    rw [hsaved, hsaving]
    have hnext := hreads (requested_of_reads (by simpa using hmutates))
    constructor
    · exact h.nodup
    · exact Host.afterSave_destination
        (P := fun file => ∀ id ∈ sent, id.raw < resumed cfg file)
        ((always_nil Disk.apply).mpr h.issued) cut
    · intro q hq
      obtain ⟨rfl, hdisk⟩ := Host.afterSave_running hq
      rw [hdisk]
      exact ⟨hhandled, hnext.trans hresumed⟩

/-- A sound and secured event repeats nothing. -/
theorem Host.Unrepeated.step (hpersist : cfg.persistOnChange = true) (hsynced : w.Synced cfg)
    (h : w.Unrepeated cfg sent) {event : HostEvent} (hsound : event.Sound cfg limits w)
    (hsecured : event.Secured cfg limits w) :
    (Host.step cfg limits w event).Unrepeated cfg (sent ++ w.commands event) := by
  cases event with
  | start answers =>
    simp only [Host.commands, Host.sends, List.map_nil, List.append_nil]
    simp only [Host.step]
    split_ifs with hrunning
    · exact h
    · refine ⟨h.nodup, h.issued, ?_⟩
      intro q hq
      obtain ⟨hnext, hlanded, hsent, hdispatched⟩ := boot_resumes (boot_whole hsound hq)
      refine ⟨⟨⟨?_, ?_⟩, ?_, ?_⟩, hnext⟩
      · rw [hsent, hdispatched]
        rfl
      · rw [hdispatched]
        exact List.nodup_nil
      · rw [hnext]
        exact h.issued
      · intro key attempt hattempt hstate
        exact absurd hstate (hlanded key attempt hattempt)
  | crash =>
    simp only [Host.commands, Host.sends, List.map_nil, List.append_nil]
    exact ⟨h.nodup, h.issued, fun p hp => absurd hp.symm (Option.some_ne_none p)⟩
  | accept =>
    simp only [Host.commands, Host.sends, List.map_nil, List.append_nil]
    refine h.moved fun p _ => ?_
    unfold Process.accept
    split_ifs <;> exact ⟨⟨.refl _, rfl⟩, rfl, rfl⟩
  | close i reason =>
    simp only [Host.commands, Host.sends, List.map_nil, List.append_nil]
    refine h.moved fun p hp => ?_
    split_ifs
    · have hserves : p.Serves cfg.toCoordinatorConfig _ := Process.closeSession_serves p i reason
      exact ⟨closeSession_advance (hsynced.running p hp).reachable i reason, hserves.dispatched,
        hserves.sent⟩
    · exact ⟨⟨.refl _, rfl⟩, rfl, rfl⟩
  | frame i frame answers cut =>
    simp only [Host.commands, Host.sends, List.map_nil, List.append_nil]
    cases hrunning : w.running with
    | none =>
      simp only [Host.step, hrunning]
      exact h
    | some p =>
      cases hsession : p.sessions[i]? with
      | none =>
        simp only [Host.step, hrunning, hsession]
        exact h
      | some session =>
        cases hopen : session.connected with
        | false =>
          simp only [Host.step, hrunning, hsession, hopen, Bool.not_false, if_true]
          exact h
        | true =>
          rw [step_frame hrunning hsession hopen]
          exact h.frame hpersist hsynced hrunning hsession hsound hsecured
  | sweep =>
    simp only [Host.commands, Host.sends, List.map_nil, List.append_nil]
    exact h.moved fun p _ => ⟨⟨.refl _, rfl⟩, rfl, rfl⟩
  | dispatch delivers =>
    cases hrunning : w.running with
    | none =>
      simp only [Host.commands, Host.sends, Host.step, hrunning, Option.elim_none, List.map_nil,
        List.append_nil]
      exact ⟨h.nodup, h.issued, fun p hp => absurd hp.symm (Option.some_ne_none p)⟩
    | some p =>
      obtain ⟨hprocess, hresumed⟩ := h.running p hrunning
      have haddressed := reachable_addressed (hsynced.running p hrunning).reachable
      have hengine : (p.dispatchPending delivers).engine = p.engine :=
        congrArg Coordinator.engine (Process.dispatchPending_kept delivers p).1
      obtain ⟨hnodup, hdispatched⟩ := hprocess.dispatch haddressed h.nodup delivers
      have hcommands : w.commands (.dispatch delivers) = p.commanded delivers := by
        simp only [Host.commands, Host.sends, hrunning, Option.elim_some]
        rfl
      simp only [hcommands, Host.step, hrunning, Option.map_some]
      refine ⟨hnodup, ?_, ?_⟩
      · rw [← hresumed, ← hengine]
        exact hdispatched.issued
      · intro q hq
        obtain rfl := Option.some.inj hq
        exact ⟨hdispatched, by rw [hengine, hresumed]⟩
  | poll answers cut =>
    simp only [Host.commands, Host.sends, List.map_nil, List.append_nil]
    cases hrunning : w.running with
    | none =>
      simp only [Host.step, hrunning]
      exact h
    | some p =>
      obtain ⟨hloses, hstorable⟩ := hsound
      obtain ⟨hprocess, hresumed⟩ := h.running p hrunning
      simp only [Host.step, hrunning]
      refine h.save hprocess (hstorable p hrunning) hloses fun _ => ?_
      rcases resumed_saving (hstorable p hrunning) hloses List.prefix_rfl with hsame | hsaved
      · rw [hsame, hresumed]
      · exact hsaved.symm

/-! ## Runs -/

/-- From a disk whose state file is loaded, if there is one: in every run whose frames are
acknowledged once they are saved, no attempt is commanded twice, also by coordinators that
started after a crash, and a restart hands out none of those that were commanded. -/
theorem attempts_commanded_once (hpersist : cfg.persistOnChange = true) {disk : Disk UInt8}
    (hdisk : disk.destination = none ∨
      ∃ d, loadDurableState cfg.fileLimits disk.destination {} = .ok d) {events : List HostEvent}
    (hevents : Along (Host.step cfg limits)
      (fun w event => event.Sound cfg limits w ∧ event.Secured cfg limits w) { disk } events) :
    let sent := outputs (Host.step cfg limits) Host.commands { disk } events
    sent.Nodup ∧
      ∀ id ∈ sent, id.raw <
        resumed cfg (run (Host.step cfg limits) { disk } events).disk.destination := by
  have hstart : Host.Synced cfg { disk } ∧ Host.Unrepeated cfg { disk } [] := by
    refine ⟨⟨hdisk, fun p hp => absurd hp.symm (Option.some_ne_none p)⟩, List.nodup_nil,
      List.forall_mem_nil _, fun p hp => absurd hp.symm (Option.some_ne_none p)⟩
  have hrun := outputs_preserves (Host.step cfg limits) Host.commands
    (P := fun w sent => w.Synced cfg ∧ w.Unrepeated cfg sent)
    (fun w event sent hw hevent => ⟨(hw.1.step hpersist hevent.1).1,
      hw.2.step hpersist hw.1 hevent.1 hevent.2⟩) hevents hstart
  rw [List.nil_append] at hrun
  exact ⟨hrun.2.nodup, hrun.2.issued⟩

/-! ### An attempt of two incarnations -/

/-- What is computed of an operation to see that it has room. -/
def Operation.hasRoom (s : EngineState) : Operation → Bool
  | .createRollout request =>
    decide (s.nextRolloutId.toNat + 1 < 2 ^ 64) &&
      decide (s.nextStageId.toNat + request.stages.length < 2 ^ 64) &&
      decide (s.nextCohortId.toNat + request.cohorts.length < 2 ^ 64)
  | op => op.spends.all fun kind => decide ((s.nextId kind).toNat + 1 < 2 ^ 64)

theorem Operation.hasRoom_of_check {op : Operation} (h : op.hasRoom s = true) : op.HasRoom s := by
  cases op with
  | createRollout request =>
    simp only [Operation.hasRoom, Bool.and_eq_true, decide_eq_true_eq] at h
    obtain ⟨⟨hrollouts, hstages⟩, hcohorts⟩ := h
    exact ⟨hrollouts, hstages, hcohorts⟩
  | _ =>
    simp only [Operation.hasRoom, Option.all_eq_true, decide_eq_true_eq] at h
    exact h

/-- What is computed of an event to see that it is secured. -/
def HostEvent.secured (cfg : HostConfig) (limits : ProtocolLimits) (w : Host) : HostEvent → Bool
  | .frame i received answers cut =>
    w.running.all fun p =>
      (p.sessions[i]?).all fun session =>
        ((p.requested session (received.carried limits)).all fun op => op.hasRoom p.engine) &&
          (cut.isSome ||
            (p.serveFrame cfg.toCoordinatorConfig limits i session received answers).acknowledged)
  | _ => true

theorem HostEvent.secured_of_check {event : HostEvent} (h : event.secured cfg limits w = true) :
    event.Secured cfg limits w := by
  cases event with
  | frame i received answers cut =>
    simp only [HostEvent.secured, Bool.and_eq_true, Bool.or_eq_true, Option.all_eq_true] at h
    intro p session hp hsession
    obtain ⟨hroom, hdone⟩ := h p hp session hsession
    refine ⟨fun op hop => Operation.hasRoom_of_check (hroom op hop), ?_⟩
    rintro rfl
    exact hdone.resolve_left Bool.false_ne_true
  | _ => exact trivial

/-- A worker asks for an attempt, which is commanded, and the coordinator crashes and starts
again. -/
def commandedLife (answers : SaveAnswers) : List HostEvent :=
  [.start {}, .accept,
    .frame 0 { type := .hello, payload := Wire.putHello { worker := ⟨1⟩, boot := ⟨7⟩ } } answers
      none,
    .frame 0 { type := .registerWorker, payload := Wire.putHello { worker := ⟨1⟩, boot := ⟨7⟩ } }
      answers none,
    .frame 0
      { type := .requestWarm, payload := Wire.putAttemptRequest { model := ⟨1⟩, version := ⟨1⟩ } }
      answers none,
    .dispatch fun _ _ => true, .crash]

/-- A disk that holds a model with a version. -/
def versionDisk : Disk UInt8 := { destination := some (fileBytes oneVersion) }

theorem attempts_commanded_once_witness :
    (outputs (Host.step {} {}) Host.commands { disk := versionDisk }
        (commandedLife {} ++ commandedLife {})).Nodup ∧
      outputs (Host.step {} {}) Host.commands { disk := versionDisk }
        (commandedLife {} ++ commandedLife {}) = [⟨1⟩, ⟨2⟩] := by
  have hchecked : Along (Host.step {} {})
      (fun w event => event.sound {} {} w = true ∧ event.secured {} {} w = true)
      { disk := versionDisk } (commandedLife {} ++ commandedLife {}) := by
    decide +kernel
  have hevents := hchecked.imp _ fun w event h =>
    And.intro (event.sound_of_check h.1) (event.secured_of_check h.2)
  have hload : ∃ d, loadDurableState ({} : HostConfig).fileLimits versionDisk.destination {} =
      .ok d := ⟨oneVersion, by decide +kernel⟩
  exact ⟨(attempts_commanded_once rfl (.inr hload) hevents).1, by decide +kernel⟩

-- Without the saves the second incarnation commands the identity of the first one's attempt.
example :
    outputs (Host.step {} {}) Host.commands { disk := versionDisk }
      (commandedLife { flushed := false } ++ commandedLife {}) = [⟨1⟩, ⟨1⟩] := by
  decide +kernel

end LifecycleFabric
