import LifecycleFabric.Sessions
import LifecycleFabric.Properties.Incarnations

/-!
# What sessions ask of the engine

Whatever its sessions do, a coordinator process handles frames and saves, so that its
engine goes through a run of operations frames carry. The end of a session asks for the
fence of the identity the session carries.
-/

namespace LifecycleFabric

open EngineState Runs

variable {cfg : CoordinatorConfig} {limits : ProtocolLimits} {file : Option DurableState}
  {p p' : Process}

/-! ## A process is a coordinator that handles frames -/

/-- One thing a coordinator does: it handles a frame, or saves. -/
inductive Coordinator.Acts (cfg : CoordinatorConfig) : Coordinator → Coordinator → Prop
  | handles (coordinator : Coordinator) (op : Operation) :
      Acts cfg coordinator (coordinator.handle cfg op)
  | saves (coordinator : Coordinator) : Acts cfg coordinator coordinator.persist.1

/-- A process leads to another by what its coordinator does. -/
def Process.Leads (cfg : CoordinatorConfig) (p p' : Process) : Prop :=
  Relation.ReflTransGen (Coordinator.Acts cfg) p.toCoordinator p'.toCoordinator

/-- A process serves its sessions: it leads to another and sends no command. -/
structure Process.Serves (cfg : CoordinatorConfig) (p p' : Process) : Prop where
  leads : p.Leads cfg p'
  dispatched : p'.dispatched = p.dispatched
  sent : p'.sent = p.sent

namespace Process

theorem leads_of_eq (h : p'.toCoordinator = p.toCoordinator) : p.Leads cfg p' := by
  unfold Leads
  rw [h]

theorem Leads.trans {first second third : Process} (h : first.Leads cfg second)
    (h' : second.Leads cfg third) : first.Leads cfg third :=
  Relation.ReflTransGen.trans h h'

theorem serves_sessions (p : Process) (sessions : List Session) :
    p.Serves cfg { p with sessions } :=
  ⟨leads_of_eq rfl, rfl, rfl⟩

theorem serves_refl (p : Process) : p.Serves cfg p := serves_sessions p p.sessions

theorem Serves.trans {first second third : Process} (h : first.Serves cfg second)
    (h' : second.Serves cfg third) : first.Serves cfg third where
  leads := h.leads.trans h'.leads
  dispatched := h'.dispatched.trans h.dispatched
  sent := h'.sent.trans h.sent

theorem ask_serves (p : Process) (op : Operation) : p.Serves cfg (p.ask cfg op) :=
  ⟨Relation.ReflTransGen.single (.handles p.toCoordinator op), rfl, rfl⟩

/-- A session that ends fences the identity it carries, if it carries one. -/
theorem closeSession_engine {i : ℕ} {session : Session} (hsession : p.sessions[i]? = some session)
    (reason : Text) :
    (p.closeSession cfg i reason).engine =
      if session.worker.valid ∧ session.boot.valid then
        (p.engine.fenceWorker session.worker session.boot session.epoch reason).1
      else p.engine := by
  unfold closeSession fenceSession
  simp only [hsession]
  split_ifs
  · rfl
  · rfl

theorem closeSession_serves (p : Process) (i : ℕ) (reason : Text) :
    p.Serves cfg (p.closeSession cfg i reason) := by
  unfold closeSession fenceSession
  cases p.sessions[i]? with
  | none => exact serves_refl p
  | some session =>
    dsimp only
    split_ifs
    · exact (ask_serves p _).trans (serves_sessions _ _)
    · exact serves_sessions p _

theorem handleHello_serves (p : Process) (i : ℕ) (session : Session) (hello : HelloMessage) :
    p.Serves cfg (p.handleHello cfg limits i session hello) := by
  unfold handleHello
  split_ifs
  · exact serves_refl p
  · exact closeSession_serves p i _
  · exact serves_sessions p _

theorem settleSessions_serves (p : Process) (i : ℕ) (frame : Frame) :
    p.Serves cfg (p.settleSessions i frame) := by
  cases frame with
  | registerWorker => exact serves_sessions p _
  | fence => exact serves_sessions p _
  | _ => exact serves_refl p

theorem handleFrame_serves (p : Process) (i : ℕ) (session : Session) (frame : Frame) :
    p.Serves cfg (p.handleFrame cfg limits i session frame) := by
  unfold handleFrame
  split
  · exact handleHello_serves p i session _
  · split
    · exact serves_refl p
    · rename_i op _
      split
      · exact (ask_serves p op).trans (settleSessions_serves _ i _)
      · exact ask_serves p op

theorem handleFrames_serves (p : Process) (i : ℕ) (frames : List Frame) :
    p.Serves cfg (p.handleFrames cfg limits i frames) := by
  induction frames generalizing p with
  | nil => exact serves_refl p
  | cons frame frames ih =>
    unfold handleFrames
    cases p.sessions[i]? with
    | none => exact serves_refl p
    | some session =>
      dsimp only
      split_ifs
      · exact serves_refl p
      · exact (handleFrame_serves p i session frame).trans (ih _)

theorem serviceSession_serves (p : Process) (i : ℕ) (arrival : Arrival) :
    p.Serves cfg (p.serviceSession cfg limits i arrival) := by
  unfold serviceSession
  split_ifs
  · exact serves_refl p
  · cases arrival with
    | closed => exact closeSession_serves p i _
    | failed => exact closeSession_serves p i _
    | data frames violation =>
      have hframes : p.Serves cfg (p.handleFrames cfg limits i frames) :=
        handleFrames_serves p i frames
      dsimp only
      split_ifs
      · exact hframes.trans (closeSession_serves _ i _)
      · exact hframes

theorem accept_serves (p : Process) : p.Serves cfg (p.accept limits) := by
  unfold accept
  split_ifs
  · exact serves_refl p
  · exact serves_sessions p _

/-! ## Dispatch -/

/-- A dispatch records the commands it sends, and leaves the rest of the process alone. -/
theorem dispatchAttempt_cases (delivers : Attempt → Session → Bool) (p : Process)
    (attempt : Attempt) :
    dispatchAttempt delivers p attempt = p ∨
      attempt.state = .dispatched ∧ attempt.id ∉ p.dispatched ∧
        ∃ session, sessionForWorker p.sessions attempt.worker attempt.boot = some session ∧
          dispatchAttempt delivers p attempt =
            { p with
              dispatched := p.dispatched ++ [attempt.id]
              sent := p.sent ++ [{ message := attempt.command, session }] } := by
  unfold dispatchAttempt
  split
  · exact Or.inl rfl
  · rename_i hstate
    split
    · exact Or.inl rfl
    · rename_i hunsent
      split
      · exact Or.inl rfl
      · rename_i session hsession
        split
        · exact Or.inl rfl
        · exact Or.inr ⟨not_not.mp hstate, hunsent, session, hsession, rfl⟩

theorem dispatchPending_kept (delivers : Attempt → Session → Bool) (p : Process) :
    (p.dispatchPending delivers).toCoordinator = p.toCoordinator ∧
      (p.dispatchPending delivers).sessions = p.sessions := by
  unfold dispatchPending
  induction p.engine.attempts.values generalizing p with
  | nil => exact ⟨rfl, rfl⟩
  | cons attempt attempts ih =>
    obtain ⟨hcoordinator, hsessions⟩ := ih (dispatchAttempt delivers p attempt)
    rcases dispatchAttempt_cases delivers p attempt with hsame | ⟨_, _, session, _, hsent⟩
    · rw [hsame] at hcoordinator hsessions
      exact ⟨by rw [List.foldl_cons, hsame, hcoordinator], by rw [List.foldl_cons, hsame, hsessions]⟩
    · rw [hsent] at hcoordinator hsessions
      exact ⟨by rw [List.foldl_cons, hsent, hcoordinator], by rw [List.foldl_cons, hsent, hsessions]⟩

/-! ## Events -/

/-- Every event is a few things the coordinator does. -/
theorem step_leads (p : Process) (event : ProcessEvent) :
    p.Leads cfg (step cfg limits p event) := by
  cases event with
  | accept => exact (accept_serves p).leads
  | service i arrival => exact (serviceSession_serves p i arrival).leads
  | sweep => exact leads_of_eq rfl
  | dispatch delivers => exact leads_of_eq (dispatchPending_kept delivers p).1
  | persist => exact Relation.ReflTransGen.single (.saves p.toCoordinator)

theorem leads_of_reachable (h : Reachable (step cfg limits) p p') : p.Leads cfg p' := by
  refine reachable_invariant (step cfg limits) (P := fun later => p.Leads cfg later) ?_
    (leads_of_eq rfl) h
  intro later event hlater
  exact hlater.trans (step_leads later event)

/-- The engine of a process goes through a run of operations that frames carry. -/
theorem Leads.engine (h : p.Leads cfg p') :
    ∃ ops : List Operation, (∀ op ∈ ops, op.carried = true) ∧
      p'.engine = runOps cfg.engine p.engine ops := by
  refine Runs.chain_preserves (R := Coordinator.Acts cfg)
    (P := fun coordinator => ∃ ops : List Operation, (∀ op ∈ ops, op.carried = true) ∧
      coordinator.engine = runOps cfg.engine p.engine ops) ?_ h
    ⟨[], List.forall_mem_nil _, rfl⟩
  rintro before after hacts ⟨ops, hops, hbefore⟩
  cases hacts with
  | handles op =>
    unfold Coordinator.handle
    split_ifs with hcarried
    · refine ⟨ops ++ [op], ?_, ?_⟩
      · intro op' hop'
        rcases List.mem_append.mp hop' with hold | hnew
        · exact hops op' hold
        · rw [List.mem_singleton.mp hnew]
          exact hcarried
      · unfold runOps at hbefore ⊢
        rw [Runs.run_append, ← hbefore]
        rfl
    · exact ⟨ops, hops, hbefore⟩
  | saves => exact ⟨ops, hops, hbefore⟩

/-! ## The poll loop -/

/-- An iteration of the poll loop is a run of events. -/
theorem pollOnce_eq_runEvents (p : Process) (connections : ℕ) (arrivals : List (ℕ × Arrival))
    (delivers : Attempt → Session → Bool) :
    ∃ events, p.pollOnce cfg limits connections arrivals delivers =
      p.runEvents cfg limits events := by
  let served := List.replicate connections ProcessEvent.accept ++
    arrivals.map fun e => ProcessEvent.service e.1 e.2
  unfold pollOnce
  dsimp only
  split_ifs
  · refine ⟨served ++ [.sweep, .dispatch delivers, .persist], ?_⟩
    unfold runEvents
    rw [Runs.run_append, Runs.run_append]
    rfl
  · refine ⟨served ++ [.sweep, .dispatch delivers], ?_⟩
    unfold runEvents
    rw [Runs.run_append, Runs.run_append]
    rfl

/-- So what holds of every serving process holds between the iterations of the loop. -/
theorem Serving.pollOnce (hp : Serving cfg limits file p) (connections : ℕ)
    (arrivals : List (ℕ × Arrival)) (delivers : Attempt → Session → Bool) :
    Serving cfg limits file (p.pollOnce cfg limits connections arrivals delivers) := by
  obtain ⟨first, hfirst, hreach⟩ := hp
  obtain ⟨events, hevents⟩ := pollOnce_eq_runEvents p connections arrivals delivers
  refine ⟨first, hfirst, ?_⟩
  rw [hevents]
  exact Runs.Reachable.run (step cfg limits) hreach events

end Process

/-! ## The engine of a serving process -/

/-- A coordinator starts with an engine that operations lead to. -/
theorem start_reachable {coordinator : Coordinator}
    (h : Coordinator.start cfg file = some coordinator) :
    ReachableState cfg.engine coordinator.engine := by
  unfold Coordinator.start at h
  cases file with
  | none =>
    obtain rfl := Option.some.inj h
    exact Runs.reachable_refl _ _
  | some d =>
    dsimp only at h
    split_ifs at h
    obtain rfl := Option.some.inj h
    exact ⟨[.importDurableState d d.epoch.nextGeneration,
      .invalidateVolatileState (text "coordinator restart")], rfl⟩

/-- What every carried operation preserves holds of the engine of a process that follows
another. -/
theorem Process.Leads.preserves (h : p.Leads cfg p') {P : EngineState → Prop}
    (hstep : ∀ s op, op.carried = true → P s → P (EngineState.step cfg.engine s op))
    (hp : P p.engine) : P p'.engine := by
  obtain ⟨ops, hops, hengine⟩ := h.engine
  rw [hengine]
  exact Runs.run_preserves (EngineState.step cfg.engine) (fun s op hs hop => hstep s op hop hs)
    (Runs.along_of_forall _ hops) hp

/-- What holds of the engine a coordinator starts with and is preserved by carried
operations holds of the engine of a serving process. -/
theorem Process.Serving.engine_invariant (hp : Process.Serving cfg limits file p)
    {P : EngineState → Prop}
    (hstart : ∀ coordinator, Coordinator.start cfg file = some coordinator → P coordinator.engine)
    (hstep : ∀ s op, op.carried = true → P s → P (EngineState.step cfg.engine s op)) :
    P p.engine := by
  obtain ⟨first, hfirst, hreach⟩ := hp
  obtain ⟨coordinator, hcoordinator, rfl⟩ := Option.map_eq_some_iff.mp hfirst
  exact (Process.leads_of_reachable hreach).preserves hstep (hstart coordinator hcoordinator)

theorem Process.Serving.reachable (hp : Process.Serving cfg limits file p) :
    ReachableState cfg.engine p.engine := by
  refine hp.engine_invariant (fun _ hstart => start_reachable hstart) ?_
  intro s op _ hs
  exact Runs.Reachable.run (EngineState.step cfg.engine) hs [op]

end LifecycleFabric
