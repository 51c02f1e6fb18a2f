import LifecycleFabric.Engine.Frames
import LifecycleFabric.EvidenceHistory

/-!
# Statistics of the engine

The sizes the engine reports of its stores. Of all operations only a publication and an import
add evidence; the others take records out or leave the store alone.
-/

namespace LifecycleFabric

open EngineState

/-- Sizes of the stores, for observation. -/
structure StoreStats where
  models : ℕ := 0
  versions : ℕ := 0
  scopes : ℕ := 0
  rollouts : ℕ := 0
  evidence : ℕ := 0
  evidenceDropped : ℕ := 0
  attempts : ℕ := 0
  workers : ℕ := 0
  authorityBindings : ℕ := 0
  compatibilityFacts : ℕ := 0
  committedPromotions : ℕ := 0
  committedRollbacks : ℕ := 0
  requeuedFrames : ℕ := 0
  deriving DecidableEq

/-- The statistics of an engine. -/
def EngineState.stats (s : EngineState) : StoreStats where
  models := s.models.size
  versions := s.versions.size
  scopes := s.scopes.size
  rollouts := s.rollouts.size
  evidence := s.evidence.size
  evidenceDropped := s.evidence.dropped
  attempts := s.attempts.size
  workers := s.workers.size
  authorityBindings := s.authority.size
  compatibilityFacts := s.compatibility.facts.size
  committedPromotions := s.committedPromotions.size
  committedRollbacks := s.committedRollbacks.size
  requeuedFrames := s.requeuedFrames.toNat

variable {c : EngineConfig} {p : Permit} {s s' : EngineState}

/-! ## Evidence is withdrawn -/

/-- Effects only withdraw evidence, by model generation. -/
theorem Chain.withdraws (h : Chain c p s s') :
    Relation.ReflTransGen EvidenceStore.Withdrawn s.evidence s'.evidence := by
  refine Runs.chain_preserves
    (P := fun t => Relation.ReflTransGen EvidenceStore.Withdrawn s.evidence t.evidence) ?_ h .refl
  intro a b hab ha
  cases hab with
  | withdrawEvidence version current => exact ha.tail (.revise version current)
  | _ => exact ha

theorem expirePublisherEvidence_withdraws (s : EngineState) (boot : WorkerBootId) :
    Relation.ReflTransGen EvidenceStore.Withdrawn s.evidence
      (s.expirePublisherEvidence boot).1.evidence := by
  have hevidence : (s.expirePublisherEvidence boot).1.evidence =
      (s.evidence.invalidatePublisherBoot boot).1 := by
    unfold expirePublisherEvidence
    dsimp only
    split_ifs <;> rfl
  rw [hevidence]
  exact .single (.expire boot)

theorem fenceWorker_withdraws (s : EngineState) (worker : WorkerId) (boot : WorkerBootId)
    (epoch : CoordinatorEpoch) (reason : Text) :
    Relation.ReflTransGen EvidenceStore.Withdrawn s.evidence
      (s.fenceWorker worker boot epoch reason).1.evidence := by
  unfold fenceWorker
  split
  · exact .refl
  · split_ifs
    · exact .refl
    · exact .refl
    · exact .refl
    · dsimp only
      rw [settleFenced_eq]
      exact .single (.expire _)

theorem invalidateVolatileState_withdraws (s : EngineState) (cause : Text) :
    Relation.ReflTransGen EvidenceStore.Withdrawn s.evidence
      (s.invalidateVolatileState cause).evidence := by
  unfold invalidateVolatileState
  dsimp only
  rw [stampEntered_eq]
  exact .single (.removeKinds _)

/-- An operation that may not add evidence withdraws some or leaves it alone. -/
theorem step_withdraws (hs : Coherent s) {op : Operation} (hop : op.publishes = false) :
    Relation.ReflTransGen EvidenceStore.Withdrawn s.evidence (step c s op).evidence := by
  have hsame : ∀ {t : EngineState}, t.evidence = s.evidence →
      Relation.ReflTransGen EvidenceStore.Withdrawn s.evidence t.evidence := by
    intro t ht
    rw [ht]
  cases op with
  | publishEvidence record => cases hop
  | importDurableState d newEpoch => cases hop
  | fenceWorker worker boot epoch reason =>
    exact fenceWorker_withdraws s worker boot epoch reason
  | expirePublisherEvidence boot => exact expirePublisherEvidence_withdraws s boot
  | invalidateVolatileState cause => exact invalidateVolatileState_withdraws s cause
  | createRollout request => exact hsame (createRollout_kept (c := c) s request).2.2.2.2
  | registerScope path => exact hsame rfl
  | registerModel name family provenance =>
    refine hsame ?_
    simp only [step, perform, registerModel]
    repeat' split
    all_goals rfl
  | registerVersion request =>
    refine hsame ?_
    simp only [step, perform, registerVersion]
    repeat' split
    all_goals rfl
  | publishCompatibility version environment outcome detail provenance =>
    refine hsame ?_
    simp only [step, perform, publishCompatibility]
    repeat' split
    all_goals rfl
  | setWorkerLiveness worker connected =>
    refine hsame ?_
    simp only [step, perform, setWorkerLiveness]
    repeat' split
    all_goals rfl
  | setPolicy policy =>
    refine hsame ?_
    simp only [step, perform, setPolicy]
    repeat' split
    all_goals rfl
  | setScopePolicy refinement =>
    refine hsame ?_
    simp only [step, perform, setScopePolicy]
    repeat' split
    all_goals rfl
  | advanceEpoch expectedCurrent =>
    refine hsame ?_
    simp only [step, perform, advanceEpoch]
    repeat' split
    all_goals rfl
  | registerWorker registration =>
    refine hsame ?_
    simp only [step, perform, registerWorker]
    repeat' split
    all_goals rfl
  | beginAttempt request =>
    refine hsame ?_
    simp only [step, perform, beginAttempt]
    repeat' split
    all_goals rfl
  | completeAttempt completion =>
    refine hsame ?_
    simp only [step, perform, completeAttempt]
    repeat' split
    all_goals rfl
  | reconcileAttempt attempt sideEffectObserved epoch detail =>
    refine hsame ?_
    simp only [step, perform, reconcileAttempt]
    repeat' split
    all_goals rfl
  | reviseVersion request => exact (reviseVersion_progresses (c := c) s request).chain.withdraws
  | promote request =>
    exact (promote_progresses (c := c) hs request False.elim).chain.withdraws
  | beginRollout request =>
    cases hplan : s.rolloutOf request.rollout with
    | none =>
      have hstep : step c s (.beginRollout request) = s := by
        simp [step, perform, beginRollout, hplan]
      rw [hstep]
    | some plan => exact (beginRollout_progresses (c := c) hs request hplan).chain.withdraws
  | advanceStage request =>
    cases hplan : s.rolloutOf request.rollout with
    | none =>
      have hstep : step c s (.advanceStage request) = s := by
        simp [step, perform, advanceStage, hplan]
      rw [hstep]
    | some plan =>
      exact (advanceStage_progresses (c := c) hs request hplan False.elim).chain.withdraws
  | failStage request => exact (failStage_progresses (c := c) s request).chain.withdraws
  | supersedeRollout rollout generation epoch detail =>
    exact (supersedeRollout_progresses (c := c) s rollout generation epoch detail
      False.elim).chain.withdraws
  | rollback request =>
    exact (rollback_progresses (c := c) hs request False.elim).chain.withdraws
  | retire request => exact (retire_progresses (c := c) hs request).chain.withdraws
  | revalidate request => exact (revalidate_progresses (c := c) s request).chain.withdraws

end LifecycleFabric
