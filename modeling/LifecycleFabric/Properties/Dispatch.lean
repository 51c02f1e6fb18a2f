import LifecycleFabric.Properties.Sessions
import LifecycleFabric.Properties.Attempts

/-!
# Commands are sent once

A process sends at most one command for an attempt, while the attempt is dispatched and on
a session of its worker at its boot. What the state file holds is never sent again.
-/

namespace LifecycleFabric

open EngineState Runs

variable {c : EngineConfig} {s : EngineState} {cfg : CoordinatorConfig} {limits : ProtocolLimits}
  {file : Option DurableState} {p q : Process}

/-! ## The attempt table -/

/-- Every attempt is filed under its identity, and one that is dispatched to a worker names
the boot of the worker. -/
structure EngineState.Addressed (s : EngineState) : Prop where
  filed : ∀ key attempt, s.attempts.get? key = some attempt → attempt.id.raw = key
  booted : ∀ key attempt, s.attempts.get? key = some attempt → attempt.state = .dispatched →
    attempt.worker.valid = true → attempt.boot.valid = true

theorem boot_valid_of_checkWorker {worker : WorkerId} {boot : WorkerBootId}
    {epoch : CoordinatorEpoch} (hallowed : (s.checkWorker worker boot epoch).allowed = true)
    (hvalid : worker.valid = true) : boot.valid = true := by
  unfold checkWorker at hallowed
  cases hlease : s.workerOf worker with
  | none => simp [hvalid, hlease, OutcomeCode.isPositive] at hallowed
  | some lease =>
    by_contra hboot
    have hnone : boot.valid = false := Bool.eq_false_iff.mpr hboot
    by_cases hfenced : lease.fenced = true
    · simp [hvalid, hlease, hfenced, OutcomeCode.isPositive] at hallowed
    · simp [hvalid, hlease, hfenced, hnone, OutcomeCode.isPositive] at hallowed

theorem Attempt.recovered_id (attempt : Attempt) : attempt.recovered.id = attempt.id := by
  unfold Attempt.recovered
  split_ifs
  · rfl
  · rfl

theorem AttemptsCase.filed {op : Operation} {after : OrdMap UInt64 Attempt}
    (h : AttemptsCase c s op after)
    (hs : ∀ key attempt, s.attempts.get? key = some attempt → attempt.id.raw = key) :
    ∀ key attempt, after.get? key = some attempt → attempt.id.raw = key := by
  intro key attempt hattempt
  cases h with
  | kept => exact hs key attempt hattempt
  | fenced worker boot epoch reason lease after hlease hswept =>
    have hkey := hswept key
    rw [hattempt] at hkey
    cases hbefore : s.attempts.get? key with
    | none =>
      rw [hbefore] at hkey
      cases hkey
    | some before =>
      rw [hbefore] at hkey
      have hfiled := hs key before hbefore
      cases hkey with
      | some hsame =>
        cases hsame with
        | kept => exact hfiled
        | left => exact hfiled
  | begun request new hid =>
    rw [OrdMap.get?_insertNew] at hattempt
    split_ifs at hattempt with hkey
    · cases hbefore : s.attempts.get? new.id.raw with
      | none =>
        rw [hbefore, Option.getD_none] at hattempt
        obtain rfl := Option.some.inj hattempt
        exact hkey.symm
      | some before =>
        rw [hbefore, Option.getD_some] at hattempt
        rw [hkey]
        exact hs _ attempt (hbefore.trans hattempt)
    · exact hs key attempt hattempt
  | completed completion settled sequence detail =>
    rw [OrdMap.get?_modify, Option.map_eq_some_iff] at hattempt
    obtain ⟨before, hbefore, rfl⟩ := hattempt
    have hfiled := hs key before hbefore
    split_ifs
    · exact hfiled
    · exact hfiled
  | reconciled id sideEffectObserved epoch detail settled =>
    rw [OrdMap.get?_modify, Option.map_eq_some_iff] at hattempt
    obtain ⟨before, hbefore, rfl⟩ := hattempt
    have hfiled := hs key before hbefore
    split_ifs
    · exact hfiled
    · exact hfiled
  | recovered d newEpoch recovered hsound =>
    rw [OrdMap.get?_mapValues, Option.map_eq_some_iff] at hattempt
    obtain ⟨before, hbefore, rfl⟩ := hattempt
    rw [before.recovered_id]
    exact (hsound.attempts _ (OrdMap.get?_eq_some_iff.mp hbefore)).symm

theorem step_addressed (hs : Coherent s) (haddressed : s.Addressed) (op : Operation) :
    (EngineState.step c s op).Addressed where
  filed := (step_attempts hs op).filed haddressed.filed
  booted key attempt hattempt hstate hvalid := by
    rcases (step_attempts hs op).dispatched hattempt hstate with
      hbefore | ⟨request, _, hworker, hboot, hchecked⟩
    · exact haddressed.booted key attempt hbefore hstate hvalid
    · rw [hboot]
      exact boot_valid_of_checkWorker hchecked (hworker ▸ hvalid)

theorem reachable_addressed (h : ReachableState c s) : s.Addressed := by
  have hboth : Coherent s ∧ s.Addressed := by
    refine reachable_invariant (EngineState.step c) (P := fun t => Coherent t ∧ t.Addressed)
      ?_ ?_ h
    · rintro t op ⟨hcoherent, haddressed⟩
      exact ⟨(step_cases hcoherent op).coherent hcoherent, step_addressed hcoherent haddressed op⟩
    · refine ⟨coherent_init c, ?_, ?_⟩
      · intro key attempt hattempt
        cases hattempt
      · intro key attempt hattempt
        cases hattempt
  exact hboth.2

/-! ## A dispatch -/

/-- A command may be sent: it asks for an attempt that is dispatched, on an open session of
the worker of the attempt at its boot. -/
def SentCommand.Due (p : Process) (command : SentCommand) : Prop :=
  ∃ attempt, p.engine.attempts.get? attempt.id.raw = some attempt ∧
    attempt.state = .dispatched ∧ command.message = attempt.command ∧
    command.session ∈ p.sessions ∧ command.session.connected = true ∧
    command.session.worker = attempt.worker ∧ command.session.boot = attempt.boot

theorem sessionForWorker_spec {sessions : List Session} {worker : WorkerId} {boot : WorkerBootId}
    {session : Session} (h : sessionForWorker sessions worker boot = some session) :
    worker.valid = true ∧ session ∈ sessions ∧ session.connected = true ∧
      session.worker = worker ∧ (boot.valid = true → session.boot = boot) := by
  unfold sessionForWorker at h
  split_ifs at h with hvalid
  have hfound := List.find?_some h
  simp only [Bool.and_eq_true, Bool.or_eq_true, Bool.not_eq_true', decide_eq_true_eq] at hfound
  obtain ⟨⟨hopen, hworker⟩, hboot⟩ := hfound
  refine ⟨by simpa using hvalid, List.mem_of_find?_eq_some h, hopen, hworker, ?_⟩
  intro hnamed
  rcases hboot with hnone | hsame
  · rw [hnamed] at hnone
    cases hnone
  · exact hsame

/-- What was sent is what is noted as dispatched, each attempt once. -/
structure Process.Recorded (p : Process) : Prop where
  noted : p.sent.map (fun command => command.message.attempt) = p.dispatched
  once : p.dispatched.Nodup

/-- A process that dispatches: it has sent more commands, all of them due. -/
structure Process.Dispatching (p q : Process) : Prop where
  coordinator : q.toCoordinator = p.toCoordinator
  sessions : q.sessions = p.sessions
  recorded : q.Recorded
  due : ∃ new, q.sent = p.sent ++ new ∧ ∀ command ∈ new, command.Due p

namespace Process

theorem dispatchAttempt_dispatching {delivers : Attempt → Session → Bool} {attempt : Attempt}
    (haddressed : p.engine.Addressed)
    (hattempt : p.engine.attempts.get? attempt.id.raw = some attempt) (hq : p.Dispatching q) :
    p.Dispatching (dispatchAttempt delivers q attempt) := by
  rcases dispatchAttempt_cases delivers q attempt with
    hsame | ⟨hstate, hunsent, session, hsession, hsent⟩
  · rw [hsame]
    exact hq
  · obtain ⟨hvalid, hmem, hopen, hworker, hboot⟩ := sessionForWorker_spec hsession
    rw [hq.sessions] at hmem
    have hnamed := haddressed.booted _ attempt hattempt hstate hvalid
    rw [hsent]
    constructor
    · exact hq.coordinator
    · exact hq.sessions
    · constructor
      · rw [List.map_append, hq.recorded.noted]
        rfl
      · refine List.nodup_append.mpr ⟨hq.recorded.once, List.nodup_singleton _, ?_⟩
        intro id hid other hother
        rw [List.mem_singleton.mp hother]
        rintro rfl
        exact hunsent hid
    · obtain ⟨new, hnew, hdue⟩ := hq.due
      refine ⟨new ++ [{ message := attempt.command, session }], ?_, ?_⟩
      · rw [← List.append_assoc, ← hnew]
      · intro command hcommand
        rcases List.mem_append.mp hcommand with hold | hlast
        · exact hdue command hold
        · rw [List.mem_singleton.mp hlast]
          exact ⟨attempt, hattempt, hstate, rfl, hmem, hopen, hworker, hboot hnamed⟩

theorem dispatchPending_dispatching (delivers : Attempt → Session → Bool)
    (haddressed : p.engine.Addressed) (hp : p.Recorded) :
    p.Dispatching (p.dispatchPending delivers) := by
  have hfold : ∀ attempts : List Attempt,
      (∀ attempt ∈ attempts, p.engine.attempts.get? attempt.id.raw = some attempt) →
        ∀ q : Process, p.Dispatching q →
          p.Dispatching (attempts.foldl (dispatchAttempt delivers) q) := by
    intro attempts
    induction attempts with
    | nil => exact fun _ q hq => hq
    | cons attempt attempts ih =>
      intro hattempts q hq
      obtain ⟨hattempt, hrest⟩ := List.forall_mem_cons.mp hattempts
      exact ih hrest _ (dispatchAttempt_dispatching haddressed hattempt hq)
  refine hfold _ ?_ p ⟨rfl, rfl, hp, [], (List.append_nil _).symm, List.forall_mem_nil _⟩
  intro attempt hattempt
  obtain ⟨key, hkey⟩ := OrdMap.mem_values_iff.mp hattempt
  rw [haddressed.filed key attempt hkey]
  exact hkey

/-- An event sends due commands only, each attempt once. -/
theorem step_sends (haddressed : p.engine.Addressed) (hp : p.Recorded) (event : ProcessEvent) :
    (step cfg limits p event).Recorded ∧
      ∃ new, (step cfg limits p event).sent = p.sent ++ new ∧ ∀ command ∈ new, command.Due p := by
  have hquiet : ∀ q : Process, q.sent = p.sent → q.dispatched = p.dispatched →
      q.Recorded ∧ ∃ new, q.sent = p.sent ++ new ∧ ∀ command ∈ new, command.Due p := by
    intro q hsent hdispatched
    refine ⟨⟨?_, ?_⟩, [], ?_, List.forall_mem_nil _⟩
    · rw [hsent, hdispatched]
      exact hp.noted
    · rw [hdispatched]
      exact hp.once
    · rw [hsent, List.append_nil]
  cases event with
  | accept =>
    have hserves : p.Serves cfg (p.accept limits) := accept_serves p
    exact hquiet _ hserves.sent hserves.dispatched
  | service i arrival =>
    have hserves : p.Serves cfg (p.serviceSession cfg limits i arrival) :=
      serviceSession_serves p i arrival
    exact hquiet _ hserves.sent hserves.dispatched
  | sweep => exact hquiet _ rfl rfl
  | dispatch delivers =>
    have hdispatching := dispatchPending_dispatching delivers haddressed hp
    exact ⟨hdispatching.recorded, hdispatching.due⟩
  | persist => exact hquiet _ rfl rfl

end Process

/-! ## Runs -/

/-- The attempts of the state file are in the table, none of them dispatched, and none of
them was sent. -/
structure Process.Spares (p : Process) (d : DurableState) : Prop where
  landed : ∀ key attempt, d.unsettledAttempts.get? key = some attempt → attempt.id.raw = key ∧
    ∃ later, p.engine.attempts.get? key = some later ∧ later.state ≠ .dispatched
  unsent : ∀ command ∈ p.sent, ∀ key attempt, d.unsettledAttempts.get? key = some attempt →
    command.message.attempt ≠ attempt.id

/-- A coordinator starts with the attempts of the file, none of them dispatched. -/
theorem start_attempts {d : DurableState} {coordinator : Coordinator}
    (h : Coordinator.start cfg (some d) = some coordinator) :
    (∀ e ∈ d.unsettledAttempts.entries, e.1 = e.2.id.raw) ∧
      coordinator.engine.attempts = d.unsettledAttempts.mapValues fun _ => Attempt.recovered := by
  unfold Coordinator.start at h
  dsimp only at h
  split_ifs at h with hrestored
  obtain rfl := Option.some.inj h
  rcases importDurableState_cases cfg.engine (init cfg.engine) d d.epoch.nextGeneration with
    ⟨_, hrefused⟩ | ⟨recovered, hsound, heq⟩
  · rw [hrefused] at hrestored
    exact absurd rfl hrestored
  · refine ⟨hsound.attempts, ?_⟩
    dsimp only
    rw [(invalidateVolatileState_framed _ _).attempts rfl, heq]
    rfl

/-- A command that is due asks for no attempt of the file. -/
theorem SentCommand.Due.unsaved {command : SentCommand} (h : command.Due p) {d : DurableState}
    (hp : p.Spares d) {key : UInt64} {attempt : Attempt}
    (hattempt : d.unsettledAttempts.get? key = some attempt) :
    command.message.attempt ≠ attempt.id := by
  obtain ⟨asked, hasked, hstate, hmessage, _⟩ := h
  obtain ⟨hid, later, hlater, hlanded⟩ := hp.landed key attempt hattempt
  intro hsame
  rw [hmessage] at hsame
  have hkey : asked.id.raw = key := (congrArg Ident.raw hsame).trans hid
  rw [hkey, hlater] at hasked
  obtain rfl := Option.some.inj hasked
  exact hlanded hstate

namespace Process

/-- What is not dispatched in the table stays so. -/
theorem step_lands (hreach : ReachableState cfg.engine p.engine) (event : ProcessEvent)
    {key : UInt64} {attempt : Attempt} (hattempt : p.engine.attempts.get? key = some attempt)
    (hlanded : attempt.state ≠ .dispatched) :
    ∃ later, (step cfg limits p event).engine.attempts.get? key = some later ∧
      later.state ≠ .dispatched := by
  have hleads : p.Leads cfg (step cfg limits p event) := step_leads p event
  obtain ⟨ops, hops, hengine⟩ := hleads.engine
  have hnative : ∀ op ∈ ops, op.isImport = false := by
    intro op hop
    have hcarried := hops op hop
    cases op with
    | importDurableState => cases hcarried
    | _ => rfl
  have hquiet : Along (EngineState.step cfg.engine) (fun t op => ¬op.Recovers cfg.engine t)
      p.engine ops := by
    refine (Runs.along_of_forall (EngineState.step cfg.engine) hnative).imp _ ?_
    rintro t op hop ⟨himport, _⟩
    rw [hop] at himport
    cases himport
  obtain ⟨later, hlater, hnext⟩ := run_next hreach hquiet key attempt hattempt
  rw [hengine]
  exact ⟨later, hlater, hnext.landed hlanded⟩

theorem step_spares (hreach : ReachableState cfg.engine p.engine) (hp : p.Recorded)
    {d : DurableState} (hspares : p.Spares d) (event : ProcessEvent) :
    (step cfg limits p event).Spares d where
  landed key attempt hattempt := by
    obtain ⟨hid, later, hlater, hlanded⟩ := hspares.landed key attempt hattempt
    exact ⟨hid, step_lands hreach event hlater hlanded⟩
  unsent command hcommand key attempt hattempt := by
    have hsends : ∃ new, (step cfg limits p event).sent = p.sent ++ new ∧
        ∀ command ∈ new, command.Due p :=
      (step_sends (reachable_addressed hreach) hp event).2
    obtain ⟨new, hnew, hdue⟩ := hsends
    rw [hnew] at hcommand
    rcases List.mem_append.mp hcommand with hold | hnow
    · exact hspares.unsent command hold key attempt hattempt
    · exact (hdue command hnow).unsaved hspares hattempt

theorem Serving.sends (hp : Serving cfg limits file p) :
    p.Recorded ∧ ∀ d, file = some d → p.Spares d := by
  obtain ⟨first, hfirst, hreach⟩ := hp
  obtain ⟨coordinator, hcoordinator, rfl⟩ := Option.map_eq_some_iff.mp hfirst
  have hall : ReachableState cfg.engine p.engine ∧ p.Recorded ∧
      ∀ d, file = some d → p.Spares d := by
    refine reachable_invariant (step cfg limits)
      (P := fun q => ReachableState cfg.engine q.engine ∧ q.Recorded ∧
        ∀ d, file = some d → q.Spares d) ?_ ?_ hreach
    · rintro q event ⟨hengine, hrecorded, hspares⟩
      refine ⟨?_, (step_sends (reachable_addressed hengine) hrecorded event).1, ?_⟩
      · refine (step_leads q event).preserves ?_ hengine
        intro s op _ hs
        exact Runs.Reachable.run (EngineState.step cfg.engine) hs [op]
      · intro d hfile
        exact step_spares hengine hrecorded (hspares d hfile) event
    · refine ⟨start_reachable hcoordinator, ⟨rfl, List.nodup_nil⟩, ?_⟩
      rintro d rfl
      obtain ⟨hfiled, hattempts⟩ := start_attempts hcoordinator
      constructor
      · intro key attempt hattempt
        refine ⟨(hfiled _ (OrdMap.get?_eq_some_iff.mp hattempt)).symm, attempt.recovered, ?_,
          attempt.recovered_ne_dispatched⟩
        change coordinator.engine.attempts.get? key = _
        rw [hattempts, OrdMap.get?_mapValues, hattempt]
        rfl
      · exact List.forall_mem_nil _
  exact hall.2

end Process

/-- In every process a coordinator can come to, no attempt was sent twice; every event sends
commands for dispatched attempts only, on open sessions of their workers at their boots; and
no attempt the state file held was sent. -/
theorem commands_sent_once (hp : Process.Serving cfg limits file p) :
    (p.sent.map fun command => command.message.attempt).Nodup ∧
      (∀ event, ∃ new, (p.step cfg limits event).sent = p.sent ++ new ∧
        ∀ command ∈ new, command.Due p) ∧
      ∀ d, file = some d → ∀ key attempt, d.unsettledAttempts.get? key = some attempt →
        ∀ command ∈ p.sent, command.message.attempt ≠ attempt.id := by
  obtain ⟨hrecorded, hspares⟩ := hp.sends
  refine ⟨?_, ?_, ?_⟩
  · rw [hrecorded.noted]
    exact hrecorded.once
  · intro event
    exact (Process.step_sends (reachable_addressed hp.reachable) hrecorded event).2
  · intro d hfile key attempt hattempt command hcommand
    exact (hspares d hfile).unsent command hcommand key attempt hattempt

/-! ### A command that is sent -/

/-- A worker registers and asks for an attempt of its own, and the coordinator polls
twice. -/
def attemptPolled : List ProcessEvent :=
  [.accept,
    .service 0 (.data
      [.hello { worker := ⟨1⟩, boot := ⟨7⟩ }, .registerWorker { worker := ⟨1⟩, boot := ⟨7⟩ },
        .registerModel [109] [] .synthetic,
        .registerVersion
          { model := ⟨1⟩, label := [49]
            artifact := { setId := ⟨1⟩, generation := ⟨1⟩, digest := [97] } },
        .requestAttempt .warm { model := ⟨1⟩, version := ⟨1⟩ }] false),
    .dispatch fun _ _ => true,
    .dispatch fun _ _ => true]

/-- The process that sent the attempt. -/
def polledProcess : Process :=
  ({ engine := init {}, lastSavedSequence := (init {}).sequence } : Process).runEvents {} {}
    attemptPolled

theorem commands_sent_once_witness :
    polledProcess.sent.map (fun command => command.message.attempt) = [⟨1⟩] ∧
      (polledProcess.sent.map fun command => command.message.attempt).Nodup := by
  have hserving : Process.Serving {} {} none polledProcess := ⟨_, rfl, attemptPolled, rfl⟩
  exact ⟨by decide +kernel, (commands_sent_once hserving).1⟩

end LifecycleFabric
