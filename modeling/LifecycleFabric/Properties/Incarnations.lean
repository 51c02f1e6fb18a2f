import LifecycleFabric.Coordinator
import LifecycleFabric.Engine.Frames
import LifecycleFabric.Engine.Standing

/-!
# The epochs of the incarnations

The epoch an incarnation recovers follows the one in the file, and the file keeps the
epoch of the last incarnation that saved. Epochs advance exactly as long as no incarnation
recovers after one that never saved.
-/

namespace LifecycleFabric

open EngineState

variable {c : EngineConfig} {cfg : CoordinatorConfig} {s : EngineState} {w : Deployment}

/-! ## Frames keep the epoch -/

theorem carried_keeps_epoch {op : Operation} (hop : op.carried = true) : op.setsEpoch = false := by
  cases op with
  | advanceEpoch => cases hop
  | importDurableState => cases hop
  | _ => rfl

/-- No frame changes the epoch. -/
theorem step_epoch (hs : Coherent s) {op : Operation} (hop : op.carried = true) :
    (step c s op).epoch = s.epoch :=
  (step_framed hs op).epoch (carried_keeps_epoch hop)

/-! ## A start -/

/-- What a coordinator starts with: on a file it takes the epoch after the file's. -/
theorem start_spec {file : Option DurableState} {coordinator : Coordinator}
    (h : Coordinator.start cfg file = some coordinator) :
    Coherent coordinator.engine ∧
      (file = none → coordinator.engine.epoch = ⟨firstGeneration⟩) ∧
      ∀ d, file = some d → coordinator.engine.epoch = d.epoch.nextGeneration ∧
        d.epoch < d.epoch.nextGeneration := by
  unfold Coordinator.start at h
  cases file with
  | none =>
    obtain rfl := Option.some.inj h
    exact ⟨coherent_init cfg.engine, fun _ => rfl, fun d hd => absurd hd (by simp)⟩
  | some d =>
    dsimp only at h
    split_ifs at h with hrestored
    obtain rfl := Option.some.inj h
    rcases importDurableState_cases cfg.engine (init cfg.engine) d d.epoch.nextGeneration with
      ⟨_, hrefused⟩ | ⟨recovered, hsound, heq⟩
    · rw [hrefused] at hrestored
      exact absurd rfl hrestored
    · rw [heq]
      refine ⟨?_, fun hnone => absurd hnone (by simp), ?_⟩
      · exact (invalidateVolatileState_aside (c := cfg.engine) _ _).coherent
          (coherent_applyDurableState hsound)
      · intro stored hstored
        obtain rfl := Option.some.inj hstored
        refine ⟨?_, hsound.epoch⟩
        dsimp only
        rw [(invalidateVolatileState_framed _ _).epoch rfl]
        rfl

/-! ## The epochs of a deployment -/

/-- Every incarnation that recovered has a later epoch than each one before it. -/
def EpochsAdvance (w : Deployment) : Prop :=
  w.incarnations.Pairwise fun earlier later =>
    later.recovered = true → earlier.epoch < later.epoch

instance (w : Deployment) : Decidable (EpochsAdvance w) := by
  unfold EpochsAdvance
  infer_instance

/-- How the file stands to the incarnations so far. -/
structure Tracked (w : Deployment) : Prop where
  coherent : ∀ coordinator, w.running = some coordinator → Coherent coordinator.engine
  /-- Without a file every incarnation was a first start. -/
  first : w.file = none → w.unsaved = false ∧
    (∀ life ∈ w.incarnations, life.epoch = ⟨firstGeneration⟩) ∧
    ∀ coordinator, w.running = some coordinator → coordinator.engine.epoch = ⟨firstGeneration⟩
  /-- The file has the latest epoch, if the last recovery was followed by a save. -/
  saved : ∀ d, w.file = some d → w.unsaved = false →
    (∀ life ∈ w.incarnations, life.epoch ≤ d.epoch) ∧
    ∀ coordinator, w.running = some coordinator → coordinator.engine.epoch = d.epoch
  /-- Otherwise an incarnation took the epoch after the file's. -/
  unsaved : ∀ d, w.file = some d → w.unsaved = true →
    (∀ life ∈ w.incarnations, life.epoch ≤ d.epoch.nextGeneration) ∧
    (∃ life ∈ w.incarnations, life.epoch = d.epoch.nextGeneration) ∧
    ∀ coordinator, w.running = some coordinator →
      coordinator.engine.epoch = d.epoch.nextGeneration

theorem tracked_start (file : Option DurableState) : Tracked { file } where
  coherent coordinator hrunning := by cases hrunning
  first _ := ⟨rfl, List.forall_mem_nil _, fun coordinator hrunning => by cases hrunning⟩
  saved _ _ _ := ⟨List.forall_mem_nil _, fun coordinator hrunning => by cases hrunning⟩
  unsaved _ _ hunsaved := by cases hunsaved

/-- A crash leaves the file and the incarnations. -/
theorem Tracked.crash (h : Tracked w) : Tracked { w with running := none } where
  coherent coordinator hrunning := by cases hrunning
  first hfile := by
    obtain ⟨hsaved, hlives, _⟩ := h.first hfile
    exact ⟨hsaved, hlives, fun coordinator hrunning => by cases hrunning⟩
  saved d hfile hsaved :=
    ⟨(h.saved d hfile hsaved).1, fun coordinator hrunning => by cases hrunning⟩
  unsaved d hfile hunsaved := by
    obtain ⟨hlives, hlife, _⟩ := h.unsaved d hfile hunsaved
    exact ⟨hlives, hlife, fun coordinator hrunning => by cases hrunning⟩

/-- A frame keeps the epoch of the running coordinator. -/
theorem Tracked.frame (h : Tracked w) (op : Operation) :
    Tracked { w with running := w.running.map fun coordinator => coordinator.handle cfg op } := by
  have hkept : ∀ coordinator : Coordinator, Coherent coordinator.engine →
      Coherent (coordinator.handle cfg op).engine ∧
        (coordinator.handle cfg op).engine.epoch = coordinator.engine.epoch := by
    intro coordinator hcoherent
    unfold Coordinator.handle
    split_ifs with hcarried
    · exact ⟨(step_cases hcoherent op).coherent hcoherent, step_epoch hcoherent hcarried⟩
    · exact ⟨hcoherent, rfl⟩
  have hrunning : ∀ after, w.running.map (fun coordinator => coordinator.handle cfg op) =
      some after → ∃ before, w.running = some before ∧ Coherent after.engine ∧
        after.engine.epoch = before.engine.epoch := by
    intro after hafter
    obtain ⟨before, hbefore, rfl⟩ := Option.map_eq_some_iff.mp hafter
    exact ⟨before, hbefore, hkept before (h.coherent before hbefore)⟩
  constructor
  · intro after hafter
    obtain ⟨_, _, hcoherent, _⟩ := hrunning after hafter
    exact hcoherent
  · intro hfile
    obtain ⟨hsaved, hlives, hepoch⟩ := h.first hfile
    refine ⟨hsaved, hlives, ?_⟩
    intro after hafter
    obtain ⟨before, hbefore, _, hsame⟩ := hrunning after hafter
    exact hsame.trans (hepoch before hbefore)
  · intro d hfile hsaved
    obtain ⟨hlives, hepoch⟩ := h.saved d hfile hsaved
    refine ⟨hlives, ?_⟩
    intro after hafter
    obtain ⟨before, hbefore, _, hsame⟩ := hrunning after hafter
    exact hsame.trans (hepoch before hbefore)
  · intro d hfile hunsaved
    obtain ⟨hlives, hlife, hepoch⟩ := h.unsaved d hfile hunsaved
    refine ⟨hlives, hlife, ?_⟩
    intro after hafter
    obtain ⟨before, hbefore, _, hsame⟩ := hrunning after hafter
    exact hsame.trans (hepoch before hbefore)

/-- A save puts the latest epoch into the file. -/
theorem Tracked.save (h : Tracked w) {coordinator : Coordinator}
    (hrunning : w.running = some coordinator) : Tracked (w.save coordinator) := by
  constructor
  · intro after hafter
    obtain rfl := Option.some.inj hafter
    exact h.coherent coordinator hrunning
  · intro hfile
    cases hfile
  · intro d hfile _
    obtain rfl := Option.some.inj hfile
    refine ⟨?_, ?_⟩
    · show ∀ life ∈ w.incarnations, life.epoch ≤ coordinator.engine.epoch
      intro life hlife
      cases hfile : w.file with
      | none =>
        obtain ⟨_, hlives, hepoch⟩ := h.first hfile
        rw [hlives life hlife, hepoch coordinator hrunning]
      | some before =>
        cases hunsaved : w.unsaved with
        | false =>
          obtain ⟨hlives, hepoch⟩ := h.saved before hfile hunsaved
          rw [hepoch coordinator hrunning]
          exact hlives life hlife
        | true =>
          obtain ⟨hlives, _, hepoch⟩ := h.unsaved before hfile hunsaved
          rw [hepoch coordinator hrunning]
          exact hlives life hlife
    · intro after hafter
      obtain rfl := Option.some.inj hafter
      rfl
  · intro d _ hunsaved
    cases hunsaved

/-- A start adds an incarnation; one that recovers is later than all others exactly when
none of them is unsaved. -/
theorem Tracked.start (h : Tracked w) {coordinator : Coordinator}
    (hstart : Coordinator.start cfg w.file = some coordinator) :
    Tracked
        { w with
          running := some coordinator
          incarnations := w.incarnations ++ [⟨w.file.isSome, coordinator.engine.epoch⟩]
          unsaved := w.unsaved || w.file.isSome } ∧
      ((∀ life ∈ w.incarnations, w.file.isSome = true → life.epoch < coordinator.engine.epoch) ↔
        (w.file.isSome = true → w.unsaved = false)) := by
  obtain ⟨hcoherent, hfresh, hrecovered⟩ := start_spec hstart
  cases hfile : w.file with
  | none =>
    have hepoch := hfresh hfile
    obtain ⟨hsaved, hlives, _⟩ := h.first hfile
    refine ⟨⟨?_, ?_, ?_, ?_⟩, ?_⟩
    · intro after hafter
      obtain rfl := Option.some.inj hafter
      exact hcoherent
    · intro _
      refine ⟨by simp [hsaved], ?_, ?_⟩
      · intro life hlife
        rcases List.mem_append.mp hlife with hlife | hlife
        · exact hlives life hlife
        · rw [List.mem_singleton.mp hlife]
          exact hepoch
      · intro after hafter
        obtain rfl := Option.some.inj hafter
        exact hepoch
    · intro d hd
      cases hd
    · intro d hd
      cases hd
    · simp
  | some d =>
    obtain ⟨hnext, hlater⟩ := hrecovered d hfile
    have hlives : ∀ life ∈ w.incarnations, life.epoch ≤ d.epoch.nextGeneration := by
      cases hunsaved : w.unsaved with
      | false =>
        intro life hlife
        exact ((h.saved d hfile hunsaved).1 life hlife).trans hlater.le
      | true => exact (h.unsaved d hfile hunsaved).1
    refine ⟨⟨?_, ?_, ?_, ?_⟩, ?_⟩
    · intro after hafter
      obtain rfl := Option.some.inj hafter
      exact hcoherent
    · intro hnone
      cases hnone
    · intro _ _ hunsaved
      simp at hunsaved
    · intro d' hd' _
      obtain rfl := Option.some.inj hd'
      refine ⟨?_, ⟨_, List.mem_append_right _ (List.mem_singleton_self _), hnext⟩, ?_⟩
      · intro life hlife
        rcases List.mem_append.mp hlife with hlife | hlife
        · exact hlives life hlife
        · rw [List.mem_singleton.mp hlife]
          exact hnext.le
      · intro after hafter
        obtain rfl := Option.some.inj hafter
        exact hnext
    · rw [hnext]
      constructor
      · intro hbefore _
        by_contra hunsaved
        obtain ⟨_, ⟨life, hlife, hsame⟩, _⟩ := h.unsaved d hfile (by simpa using hunsaved)
        have hlt := hbefore life hlife rfl
        rw [hsame] at hlt
        exact lt_irrefl _ hlt
      · intro hsaved life hlife _
        exact lt_of_le_of_lt ((h.saved d hfile (hsaved rfl)).1 life hlife) hlater

/-! ## Runs -/

/-- Every incarnation stays on record. -/
theorem incarnations_step (cfg : CoordinatorConfig) (w : Deployment) (event : DeploymentEvent) :
    w.incarnations <+: (w.step cfg event).incarnations := by
  unfold Deployment.step
  cases event with
  | start =>
    dsimp only
    split_ifs
    · exact List.prefix_rfl
    · split
      · exact List.prefix_rfl
      · exact List.prefix_append _ _
  | frame op => exact List.prefix_rfl
  | persist =>
    dsimp only
    split
    · exact List.prefix_rfl
    · exact List.prefix_rfl
  | persistIfChanged =>
    dsimp only
    split
    · exact List.prefix_rfl
    · split_ifs
      · exact List.prefix_rfl
      · exact List.prefix_rfl
  | crash => exact List.prefix_rfl

theorem incarnations_run (cfg : CoordinatorConfig) (w : Deployment)
    (events : List DeploymentEvent) :
    w.incarnations <+: (w.runEvents cfg events).incarnations := by
  induction events generalizing w with
  | nil => exact List.prefix_rfl
  | cons event events ih => exact (incarnations_step cfg w event).trans (ih (w.step cfg event))

/-- An event keeps the deployment tracked. Epochs still advance after it exactly when it
does not recover an incarnation after one that never saved. -/
theorem Tracked.step (h : Tracked w) (hadvance : EpochsAdvance w) (cfg : CoordinatorConfig)
    (event : DeploymentEvent) :
    Tracked (w.step cfg event) ∧ (EpochsAdvance (w.step cfg event) ↔
      (w.recovers cfg event = true → w.unsaved = false)) := by
  have hquiet : ∀ w' : Deployment, w'.incarnations = w.incarnations →
      (EpochsAdvance w' ↔ (false = true → w.unsaved = false)) := by
    intro w' hsame
    refine ⟨fun _ hcontra => absurd hcontra Bool.false_ne_true, fun _ => ?_⟩
    unfold EpochsAdvance
    rw [hsame]
    exact hadvance
  unfold Deployment.step Deployment.recovers
  cases event with
  | start =>
    dsimp only
    cases hrunning : w.running with
    | some coordinator => exact ⟨by simpa [hrunning] using h, hquiet _ (by simp)⟩
    | none =>
      cases hstart : Coordinator.start cfg w.file with
      | none => exact ⟨by simpa using h, by simpa using hquiet w rfl⟩
      | some coordinator =>
        obtain ⟨htracked, hlater⟩ := h.start hstart
        rw [if_neg (by simp)]
        refine ⟨htracked, ?_⟩
        have hrecovers : ((none : Option Coordinator).isNone && w.file.isSome &&
            (some coordinator).isSome) = w.file.isSome := by simp
        rw [hrecovers, ← hlater]
        unfold EpochsAdvance
        dsimp only
        rw [List.pairwise_append]
        constructor
        · rintro ⟨_, _, hall⟩ life hlife hrecovered
          exact hall life hlife _ (List.mem_singleton_self _) hrecovered
        · intro hall
          refine ⟨hadvance, List.pairwise_singleton _ _, ?_⟩
          intro life hlife later hnew
          rw [List.mem_singleton.mp hnew]
          exact hall life hlife
  | frame op => exact ⟨h.frame op, hquiet _ rfl⟩
  | persist =>
    dsimp only
    cases hrunning : w.running with
    | none => exact ⟨h, hquiet _ rfl⟩
    | some coordinator => exact ⟨h.save hrunning, hquiet _ rfl⟩
  | persistIfChanged =>
    dsimp only
    cases hrunning : w.running with
    | none => exact ⟨h, hquiet _ rfl⟩
    | some coordinator =>
      dsimp only
      by_cases hchanged : coordinator.changed cfg = true
      · rw [if_pos hchanged]
        exact ⟨h.save hrunning, hquiet _ rfl⟩
      · rw [if_neg hchanged]
        exact ⟨h, hquiet _ rfl⟩
  | crash => exact ⟨h.crash, hquiet _ rfl⟩

/-- Whether an event recovers no incarnation after one that never saved. -/
def RecoversSaved (cfg : CoordinatorConfig) (w : Deployment) (event : DeploymentEvent) : Prop :=
  w.recovers cfg event = true → w.unsaved = false

instance (cfg : CoordinatorConfig) (w : Deployment) (event : DeploymentEvent) :
    Decidable (RecoversSaved cfg w event) := by
  unfold RecoversSaved
  infer_instance

theorem Tracked.run (h : Tracked w) (hadvance : EpochsAdvance w) (events : List DeploymentEvent) :
    EpochsAdvance (w.runEvents cfg events) ↔
      Runs.Along (Deployment.step cfg) (RecoversSaved cfg) w events := by
  induction events generalizing w with
  | nil => exact iff_of_true hadvance trivial
  | cons event events ih =>
    obtain ⟨htracked, hstep⟩ := h.step hadvance cfg event
    constructor
    · intro hrun
      have hnext : EpochsAdvance (w.step cfg event) :=
        hrun.sublist (incarnations_run cfg (w.step cfg event) events).sublist
      exact ⟨hstep.mp hnext, (ih htracked hnext).mp hrun⟩
    · rintro ⟨hsaved, hrest⟩
      exact (ih htracked (hstep.mpr hsaved)).mpr hrest

/-- In every run over one state file the epochs of the incarnations that recover advance
exactly when each incarnation that recovered saves before the next one recovers. -/
theorem epochs_advance_iff (cfg : CoordinatorConfig) (file : Option DurableState)
    (events : List DeploymentEvent) :
    EpochsAdvance (Deployment.runEvents cfg { file } events) ↔
      Runs.Along (Deployment.step cfg) (RecoversSaved cfg) { file } events :=
  (tracked_start file).run List.Pairwise.nil events

/-- A first start saves; two restarts crash before they save anything. -/
def crashedTwice : List DeploymentEvent :=
  [.start, .frame (.registerModel [109] [] .synthetic), .persistIfChanged, .crash, .start, .crash,
    .start]

/-- Both restarts took the same epoch. -/
theorem unsaved_restart_repeats_epoch :
    ¬EpochsAdvance (Deployment.runEvents {} { file := none } crashedTwice) := by
  decide +kernel

end LifecycleFabric
