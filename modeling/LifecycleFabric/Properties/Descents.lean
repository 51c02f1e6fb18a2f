import LifecycleFabric.Engine.Generations
import LifecycleFabric.Engine.Plans
import LifecycleFabric.Properties.Clocks
import LifecycleFabric.Properties.Holders
import LifecycleFabric.Properties.Recording
import LifecycleFabric.Properties.Sessions

/-!
# Descent

An engine descends from another when operations that frames carry, and restarts on what is
durable of it, lead from that one to it. No version or plan is lost on the way.
-/

namespace LifecycleFabric

open EngineState Runs

variable {p : Process} {e s s' : EngineState}

/-! ## Descent -/

/-- A durable state without its clocks. -/
def DurableState.view (d : DurableState) : DurableState := { d with sequence := {}, generation := {} }

/-- The engines that a durable state leads to: by operations that frames carry, by a restart
on what is durable of it, and by whatever does not change that. -/
inductive Descends (cfg : CoordinatorConfig) (e : EngineState) : EngineState → Prop
  | refl : Descends cfg e e
  | operation {s : EngineState} (h : Descends cfg e s) (op : Operation)
      (hop : op.carried = true) : Descends cfg e (EngineState.step cfg.engine s op)
  | restart {s : EngineState} {d : DurableState} {coordinator : Coordinator}
      (h : Descends cfg e s) (hview : d.view = s.durableView)
      (hstart : Coordinator.start cfg (some d) = some coordinator) :
      Descends cfg e coordinator.engine
  | unchanged {s s' : EngineState} (h : Descends cfg e s)
      (hview : s'.durableView = s.durableView) (hreach : ReachableState cfg.engine s') :
      Descends cfg e s'

/-! ## Operations -/

/-- No frame carries an import. -/
theorem Operation.native_of_carried {op : Operation} (h : op.carried = true) :
    op.isImport = false := by
  cases op with
  | importDurableState => cases h
  | _ => rfl

/-- A coordinator moves on: what changed shows in its sequence, and it saved nothing. -/
structure Coordinator.Moved (cfg : CoordinatorConfig) (before after : Coordinator) : Prop where
  saved : after.lastSavedSequence = before.lastSavedSequence
  recorded : Recorded before.engine after.engine
  sequence : before.engine.sequence ≤ after.engine.sequence
  reachable : ReachableState cfg.engine after.engine
  descends : ∀ e, Descends cfg e before.engine → Descends cfg e after.engine

theorem Coordinator.Moved.refl {cfg : CoordinatorConfig} {coordinator : Coordinator}
    (hreach : ReachableState cfg.engine coordinator.engine) : coordinator.Moved cfg coordinator where
  saved := rfl
  recorded := Recorded.refl _
  sequence := le_rfl
  reachable := hreach
  descends _ h := h

/-- Below exhaustion of the sequence a coordinator moves on by an operation that records what
it changes. -/
theorem Coordinator.handle_moved {cfg : CoordinatorConfig} {coordinator : Coordinator}
    (hreach : ReachableState cfg.engine coordinator.engine)
    (hseq : ¬coordinator.engine.sequence.Saturated) {op : Operation}
    (hop : op.unrecorded coordinator.engine = false) :
    coordinator.Moved cfg (coordinator.handle cfg op) := by
  unfold Coordinator.handle
  split_ifs with hcarried
  · refine ⟨rfl, ?_, ?_, Runs.Reachable.run _ hreach [op], fun e h => h.operation op hcarried⟩
    · exact step_recorded hreach.coherent hreach.standing.tree.rooted hseq hop
    · refine ((step_clocks_iff hreach.coherent op).mpr ?_).sequence
      cases op with
      | importDurableState => cases hcarried
      | _ => trivial
  · exact .refl hreach

/-- Closing a session asks for the fence of its worker, or for nothing. -/
theorem closeSession_asks (cfg : CoordinatorConfig) (p : Process) (i : ℕ) (reason : Text) :
    (p.closeSession cfg i reason).toCoordinator = p.toCoordinator ∨
      ∃ worker boot epoch, (p.closeSession cfg i reason).toCoordinator =
        p.toCoordinator.handle cfg (.fenceWorker worker boot epoch reason) := by
  unfold Process.closeSession Process.fenceSession
  cases p.sessions[i]? with
  | none => exact .inl rfl
  | some session =>
    dsimp only
    split_ifs
    · exact .inr ⟨session.worker, session.boot, session.epoch, rfl⟩
    · exact .inl rfl

theorem settleSessions_coordinator (p : Process) (i : ℕ) (frame : Frame) :
    (p.settleSessions i frame).toCoordinator = p.toCoordinator := by
  unfold Process.settleSessions
  split <;> rfl

/-- Handling a frame asks for what the frame requests, for the fence of a worker if it requests
nothing, or for nothing. -/
theorem handleFrame_asks (cfg : CoordinatorConfig) (limits : ProtocolLimits) (p : Process) (i : ℕ)
    (session : Session) (frame : Frame) :
    (p.handleFrame cfg limits i session frame).toCoordinator = p.toCoordinator ∨
      (∃ op, p.requested session frame = some op ∧
        (p.handleFrame cfg limits i session frame).toCoordinator =
          p.toCoordinator.handle cfg op) ∨
      p.requested session frame = none ∧ ∃ worker boot epoch reason,
        (p.handleFrame cfg limits i session frame).toCoordinator =
          p.toCoordinator.handle cfg (.fenceWorker worker boot epoch reason) := by
  unfold Process.handleFrame
  split
  · unfold Process.handleHello
    split_ifs
    · exact .inl rfl
    · rcases closeSession_asks cfg p i (text "unsupported protocol version") with
        hsame | ⟨worker, boot, epoch, hfence⟩
      · exact .inl hsame
      · exact .inr (.inr ⟨rfl, worker, boot, epoch, _, hfence⟩)
    · exact .inl rfl
  · split
    · exact .inl rfl
    · rename_i op hop
      refine .inr (.inl ⟨op, hop, ?_⟩)
      split_ifs
      · exact settleSessions_coordinator _ _ _
      · rfl

theorem closeSession_moved {cfg : CoordinatorConfig}
    (hreach : ReachableState cfg.engine p.engine) (hseq : ¬p.engine.sequence.Saturated) (i : ℕ)
    (reason : Text) :
    p.toCoordinator.Moved cfg (p.closeSession cfg i reason).toCoordinator := by
  rcases closeSession_asks cfg p i reason with hsame | ⟨worker, boot, epoch, hfence⟩
  · rw [hsame]
    exact .refl hreach
  · rw [hfence]
    exact Coordinator.handle_moved hreach hseq rfl

/-- A frame moves the coordinator on, if what it requests is recorded. -/
theorem handleFrame_moved {cfg : CoordinatorConfig} (limits : ProtocolLimits)
    (hreach : ReachableState cfg.engine p.engine) (hseq : ¬p.engine.sequence.Saturated) (i : ℕ)
    {session : Session} {frame : Frame}
    (hrecorded : ∀ op, p.requested session frame = some op → op.unrecorded p.engine = false) :
    p.toCoordinator.Moved cfg (p.handleFrame cfg limits i session frame).toCoordinator := by
  rcases handleFrame_asks cfg limits p i session frame with
    hsame | ⟨op, hop, hasked⟩ | ⟨_, worker, boot, epoch, reason, hfence⟩
  · rw [hsame]
    exact .refl hreach
  · rw [hasked]
    exact Coordinator.handle_moved hreach hseq (hrecorded op hop)
  · rw [hfence]
    exact Coordinator.handle_moved hreach hseq rfl

/-! ## What is found again -/

/-- No version is lost, goes back or is revived, and no plan is lost, forgets its history or comes
back to life. -/
structure Remembers (s s' : EngineState) : Prop where
  versions : ∀ model version record, s.versionOf model version = some record →
    ∃ later, s'.versionOf model version = some later ∧ record.generation ≤ later.generation ∧
      (record.retired = true → later.retired = true)
  plans : ∀ key plan, s.rollouts.get? key = some plan →
    ∃ later, s'.rollouts.get? key = some later ∧ plan.history <+: later.history ∧
      (later.live = true → plan.live = true)

theorem remembers_of_tables (hversions : s'.versions = s.versions)
    (hrollouts : s'.rollouts = s.rollouts) : Remembers s s' where
  versions model version record hrecord :=
    ⟨record, by rw [versionOf, hversions]; exact hrecord, le_rfl, id⟩
  plans key plan hplan := ⟨plan, by rw [hrollouts, hplan], List.prefix_rfl, id⟩

theorem Remembers.trans {s'' : EngineState} (h : Remembers s s') (h' : Remembers s' s'') :
    Remembers s s'' where
  versions model version record hrecord := by
    obtain ⟨mid, hmid, hle, hretired⟩ := h.versions model version record hrecord
    obtain ⟨later, hlater, hle', hretired'⟩ := h'.versions model version mid hmid
    exact ⟨later, hlater, hle.trans hle', fun hr => hretired' (hretired hr)⟩
  plans key plan hplan := by
    obtain ⟨mid, hmid, hhistory, hlive⟩ := h.plans key plan hplan
    obtain ⟨later, hlater, hhistory', hlive'⟩ := h'.plans key mid hmid
    exact ⟨later, hlater, hhistory.trans hhistory', fun hl => hlive (hlive' hl)⟩

/-- No operation but an import forgets anything. -/
theorem step_remembers {c : EngineConfig} (hs : Coherent s) {op : Operation}
    (hop : op.isImport = false) : Remembers s (EngineState.step c s op) where
  versions model version record hrecord := by
    obtain ⟨later, hlater, hle⟩ := ((step_cases (c := c) hs op).grown hop).versions _ _ _ hrecord
    refine ⟨later, hlater, hle, ?_⟩
    intro hretired
    obtain ⟨found, hfound, hstays⟩ :=
      (step_cases (c := c) hs op).retired_stays hop ⟨record, hrecord, hretired⟩
    obtain rfl := Option.some.inj (hfound.symm.trans hlater)
    exact hstays
  plans key plan hplan := by
    obtain ⟨later, hlater, hstep⟩ := step_plan_stands (c := c) hs hop hplan
    exact ⟨later, hlater, hstep.history, hstep.live⟩

/-- Neither does a restart. -/
theorem start_remembers {cfg : CoordinatorConfig} {d : DurableState} {coordinator : Coordinator}
    (hview : d.view = s.durableView)
    (h : Coordinator.start cfg (some d) = some coordinator) :
    Remembers s coordinator.engine := by
  unfold Coordinator.start at h
  dsimp only at h
  split_ifs at h with hrestored
  obtain rfl := Option.some.inj h
  rcases importDurableState_cases cfg.engine (init cfg.engine) d d.epoch.nextGeneration with
    ⟨_, hrefused⟩ | ⟨recovered, hsound, heq⟩
  · rw [hrefused] at hrestored
    exact absurd rfl hrestored
  · have htables : Remembers s
        ((init cfg.engine).applyDurableState d d.epoch.nextGeneration recovered) :=
      remembers_of_tables (congrArg DurableState.versions hview)
        (congrArg DurableState.rollouts hview)
    have hinvalidated : Remembers
        ((init cfg.engine).applyDurableState d d.epoch.nextGeneration recovered)
        (EngineState.step cfg.engine _ (.invalidateVolatileState (text "coordinator restart"))) :=
      step_remembers (coherent_applyDurableState hsound) rfl
    rw [heq]
    exact htables.trans hinvalidated

theorem Descends.remembers {cfg : CoordinatorConfig} (he : ReachableState cfg.engine e)
    (h : Descends cfg e s) : ReachableState cfg.engine s ∧ Remembers e s := by
  induction h with
  | refl => exact ⟨he, remembers_of_tables rfl rfl⟩
  | operation _ op hop ih =>
    obtain ⟨hreach, hremembers⟩ := ih
    have himport := Operation.native_of_carried hop
    exact ⟨Runs.Reachable.run _ hreach [op],
      hremembers.trans (step_remembers hreach.coherent himport)⟩
  | restart _ hview hstart ih =>
    exact ⟨start_reachable hstart, ih.2.trans (start_remembers hview hstart)⟩
  | unchanged _ hview hreach ih =>
    exact ⟨hreach, ih.2.trans (remembers_of_tables (congrArg DurableState.versions hview)
      (congrArg DurableState.rollouts hview))⟩

end LifecycleFabric
