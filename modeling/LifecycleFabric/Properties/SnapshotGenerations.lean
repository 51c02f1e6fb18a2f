import LifecycleFabric.Engine.Frames

/-!
# Generations of exported states

An export carries the generation after the one the engine was recovered from. Exporting
writes nothing, so the generation of the exports moves only with the recoveries.
-/

namespace LifecycleFabric

open EngineState Runs

variable {c : EngineConfig} {p : Permit} {s s' : EngineState}

/-! ## The generation an engine was recovered from -/

/-- The generation an operation recovers, where it is an import the engine accepts. -/
def Operation.recovered (c : EngineConfig) (s : EngineState) :
    Operation → Option SnapshotGeneration
  | .importDurableState d newEpoch =>
    match d.validate c s newEpoch with
    | .error _ => none
    | .ok _ => some d.generation
  | _ => none

/-- No effect touches the generation. -/
theorem Chain.snapshotGeneration_eq (h : Chain c p s s') :
    s'.snapshotGeneration = s.snapshotGeneration := by
  refine Runs.chain_preserves (P := fun t => t.snapshotGeneration = s.snapshotGeneration) ?_ h rfl
  intro a b hab ha
  cases hab <;> exact ha

theorem createRollout_snapshotGeneration (s : EngineState) (request : RolloutPlanRequest) :
    (s.createRollout c request).1.snapshotGeneration = s.snapshotGeneration := by
  unfold createRollout
  split
  · rfl
  · split
    · rfl
    · dsimp only
      split
      · rfl
      · split
        · rfl
        · split
          · rfl
          · rfl

theorem fenceWorker_snapshotGeneration (s : EngineState) (worker : WorkerId) (boot : WorkerBootId)
    (epoch : CoordinatorEpoch) (reason : Text) :
    (s.fenceWorker worker boot epoch reason).1.snapshotGeneration = s.snapshotGeneration := by
  unfold fenceWorker
  split
  · rfl
  · split_ifs
    · rfl
    · rfl
    · rfl
    · dsimp only
      rw [settleFenced_eq]
      rfl

theorem invalidateVolatileState_snapshotGeneration (s : EngineState) (cause : Text) :
    (s.invalidateVolatileState cause).snapshotGeneration = s.snapshotGeneration := by
  unfold invalidateVolatileState
  dsimp only
  rw [stampEntered_eq]
  rfl

/-- A step leaves the generation alone unless it recovers another. -/
theorem step_snapshotGeneration (hs : Coherent s) (op : Operation) :
    (step c s op).snapshotGeneration = (op.recovered c s).getD s.snapshotGeneration := by
  cases op with
  | importDurableState d newEpoch =>
    simp only [step, perform, importDurableState, Operation.recovered]
    cases hvalid : d.validate c s newEpoch with
    | error refusal => rfl
    | ok recovered => rfl
  | fenceWorker worker boot epoch reason =>
    exact fenceWorker_snapshotGeneration s worker boot epoch reason
  | createRollout request => exact createRollout_snapshotGeneration s request
  | invalidateVolatileState cause => exact invalidateVolatileState_snapshotGeneration s cause
  | registerScope path => rfl
  | registerModel name family provenance =>
    simp only [step, perform, registerModel]
    repeat' split
    all_goals rfl
  | registerVersion request =>
    simp only [step, perform, registerVersion]
    repeat' split
    all_goals rfl
  | publishCompatibility version environment outcome detail provenance =>
    simp only [step, perform, publishCompatibility]
    repeat' split
    all_goals rfl
  | publishEvidence record =>
    simp only [step, perform, publishEvidence]
    repeat' split
    all_goals rfl
  | expirePublisherEvidence boot =>
    simp only [step, perform, expirePublisherEvidence]
    split
    all_goals rfl
  | setWorkerLiveness worker connected =>
    simp only [step, perform, setWorkerLiveness]
    repeat' split
    all_goals rfl
  | setPolicy policy =>
    simp only [step, perform, setPolicy]
    repeat' split
    all_goals rfl
  | setScopePolicy refinement =>
    simp only [step, perform, setScopePolicy]
    repeat' split
    all_goals rfl
  | advanceEpoch expectedCurrent =>
    simp only [step, perform, advanceEpoch]
    repeat' split
    all_goals rfl
  | registerWorker registration =>
    simp only [step, perform, registerWorker]
    repeat' split
    all_goals rfl
  | beginAttempt request =>
    simp only [step, perform, beginAttempt]
    repeat' split
    all_goals rfl
  | completeAttempt completion =>
    simp only [step, perform, completeAttempt]
    repeat' split
    all_goals rfl
  | reconcileAttempt attempt sideEffectObserved epoch detail =>
    simp only [step, perform, reconcileAttempt]
    repeat' split
    all_goals rfl
  | reviseVersion request =>
    exact (reviseVersion_progresses (c := c) s request).chain.snapshotGeneration_eq
  | promote request =>
    exact (promote_progresses (c := c) hs request False.elim).chain.snapshotGeneration_eq
  | beginRollout request =>
    cases hplan : s.rolloutOf request.rollout with
    | none => simp [step, perform, beginRollout, hplan, Operation.recovered]
    | some plan =>
      exact (beginRollout_progresses (c := c) hs request hplan).chain.snapshotGeneration_eq
  | advanceStage request =>
    cases hplan : s.rolloutOf request.rollout with
    | none => simp [step, perform, advanceStage, hplan, Operation.recovered]
    | some plan =>
      exact (advanceStage_progresses (c := c) hs request hplan
        False.elim).chain.snapshotGeneration_eq
  | failStage request =>
    exact (failStage_progresses (c := c) s request).chain.snapshotGeneration_eq
  | supersedeRollout rollout generation epoch detail =>
    exact (supersedeRollout_progresses (c := c) s rollout generation epoch detail
      False.elim).chain.snapshotGeneration_eq
  | rollback request =>
    exact (rollback_progresses (c := c) hs request False.elim).chain.snapshotGeneration_eq
  | retire request => exact (retire_progresses (c := c) hs request).chain.snapshotGeneration_eq
  | revalidate request =>
    exact (revalidate_progresses (c := c) s request).chain.snapshotGeneration_eq

/-! ## Incarnations -/

/-- What happens to the engine of a deployment: it performs an operation, or it is
constructed anew. -/
inductive EngineEvent
  | call (op : Operation)
  | restart

namespace EngineEvent

/-- The engine after an event. -/
def apply (c : EngineConfig) (s : EngineState) : EngineEvent → EngineState
  | .call op => step c s op
  | .restart => init c

/-- The generation an event leaves the engine recovered from, where it sets one. A
constructed engine was recovered from none. -/
def recovered (c : EngineConfig) (s : EngineState) : EngineEvent → Option SnapshotGeneration
  | .call op => op.recovered c s
  | .restart => some {}

/-- The generation the last recovery of a run set, if there was any. -/
def lastRecovered (c : EngineConfig) : EngineState → List EngineEvent → Option SnapshotGeneration
  | _, [] => none
  | s, event :: events => (lastRecovered c (event.apply c s) events).or (event.recovered c s)

end EngineEvent

open EngineEvent

theorem apply_coherent (event : EngineEvent) (hs : Coherent s) : Coherent (event.apply c s) := by
  cases event with
  | call op => exact (step_cases hs op).coherent hs
  | restart => exact coherent_init c

/-- After a run the engine is recovered from what the last recovery of the run took in. -/
theorem run_snapshotGeneration (hs : Coherent s) (events : List EngineEvent) :
    (run (EngineEvent.apply c) s events).snapshotGeneration =
      (lastRecovered c s events).getD s.snapshotGeneration := by
  induction events generalizing s with
  | nil => rfl
  | cons event events ih =>
    have hevent : (event.apply c s).snapshotGeneration =
        (event.recovered c s).getD s.snapshotGeneration := by
      cases event with
      | call op => exact step_snapshotGeneration hs op
      | restart => rfl
    rw [run_cons, ih (apply_coherent event hs), lastRecovered, hevent]
    cases lastRecovered c (event.apply c s) events with
    | none => rfl
    | some generation => rfl

theorem run_coherent (hs : Coherent s) (events : List EngineEvent) :
    Coherent (run (EngineEvent.apply c) s events) := by
  induction events generalizing s with
  | nil => exact hs
  | cons event events ih => exact ih (apply_coherent event hs)

/-! ## Exports -/

/-- Below saturation two exports are ordered as the generations their engines were
recovered from. -/
theorem export_lt_iff {s t : EngineState} (hroom : ¬s.exportDurableState.generation.Saturated) :
    s.exportDurableState.generation < t.exportDurableState.generation ↔
      s.snapshotGeneration < t.snapshotGeneration := by
  have hs : s.exportDurableState.generation.raw.toNat =
      min (s.snapshotGeneration.raw.toNat + 1) (2 ^ 64 - 1) :=
    Ident.toNat_nextGeneration s.snapshotGeneration
  have ht : t.exportDurableState.generation.raw.toNat =
      min (t.snapshotGeneration.raw.toNat + 1) (2 ^ 64 - 1) :=
    Ident.toNat_nextGeneration t.snapshotGeneration
  have hbound : t.snapshotGeneration.raw.toNat < 2 ^ 64 := t.snapshotGeneration.raw.toNat_lt
  rw [Ident.saturated_iff_toNat] at hroom
  rw [Ident.lt_iff_toNat, Ident.lt_iff_toNat]
  omega

/-- Of two exports between which the sequence advanced, the later has the greater
generation exactly when the last recovery in between took in a state of a later generation
than the one the engine was recovered from at the earlier export. -/
theorem exported_generation_iff (c : EngineConfig) (before after : List EngineEvent) :
    let s := run (EngineEvent.apply c) (init c) before
    let t := run (EngineEvent.apply c) s after
    (s.sequence < t.sequence → ¬s.exportDurableState.generation.Saturated →
        s.exportDurableState.generation < t.exportDurableState.generation) ↔
      (s.sequence < t.sequence → ¬s.exportDurableState.generation.Saturated →
        ∃ recovered, lastRecovered c s after = some recovered ∧
          s.snapshotGeneration < recovered) := by
  intro s t
  have hs : Coherent s := run_coherent (coherent_init c) before
  have ht : t.snapshotGeneration = (lastRecovered c s after).getD s.snapshotGeneration :=
    run_snapshotGeneration hs after
  refine imp_congr_right fun _ => forall_congr' fun hroom => ?_
  rw [export_lt_iff hroom, ht]
  cases lastRecovered c s after with
  | none => simp
  | some recovered => simp

/-- Two exports of one engine with a registration in between carry one generation. -/
theorem exported_generation_counterexample :
    ¬∀ (c : EngineConfig) (before after : List EngineEvent),
      let s := run (EngineEvent.apply c) (init c) before
      let t := run (EngineEvent.apply c) s after
      s.sequence < t.sequence → ¬s.exportDurableState.generation.Saturated →
        s.exportDurableState.generation < t.exportDurableState.generation := by
  intro hclaim
  have hlater := hclaim {} [] [.call (.registerModel (text "m") (text "f") .synthetic)]
    (by decide +kernel) (by decide +kernel)
  exact absurd hlater (by decide +kernel)

end LifecycleFabric
