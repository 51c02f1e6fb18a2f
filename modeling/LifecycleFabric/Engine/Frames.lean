import LifecycleFabric.Engine.Reachable

/-!
# What a step leaves alone

The policy, the epoch, the leases, the attempts, the set of plans and the set of evidence
records are each added to by a few operations only.
-/

namespace LifecycleFabric

open EngineState Runs

variable {c : EngineConfig} {p : Permit} {s s' : EngineState}

/-! ## Who may write -/

/-- Whether an operation replaces the policy, or a refinement of it. -/
def Operation.setsPolicy : Operation → Bool
  | .setPolicy _ | .setScopePolicy _ => true
  | _ => false

/-- Whether an operation may move the epoch on. -/
def Operation.setsEpoch : Operation → Bool
  | .advanceEpoch _ | .importDurableState _ _ => true
  | _ => false

/-- Whether an operation may write a lease. -/
def Operation.writesLeases : Operation → Bool
  | .registerWorker _ | .fenceWorker _ _ _ _ | .importDurableState _ _
  | .invalidateVolatileState _ => true
  | _ => false

/-- Whether an operation may write an attempt. -/
def Operation.writesAttempts : Operation → Bool
  | .fenceWorker _ _ _ _ | .beginAttempt _ | .completeAttempt _ | .reconcileAttempt _ _ _ _
  | .importDurableState _ _ => true
  | _ => false

/-- Whether an operation may create a plan. -/
def Operation.createsPlans : Operation → Bool
  | .createRollout _ | .importDurableState _ _ => true
  | _ => false

/-- Whether an operation may add a record of evidence. -/
def Operation.publishes : Operation → Bool
  | .publishEvidence _ | .importDurableState _ _ => true
  | _ => false

/-- What a step of an operation leaves alone. -/
structure Framed (op : Operation) (s s' : EngineState) : Prop where
  policy : op.setsPolicy = false → op.isImport = false → s'.policy = s.policy
  epoch : op.setsEpoch = false → s'.epoch = s.epoch
  leases : op.writesLeases = false → s'.workers = s.workers
  attempts : op.writesAttempts = false → s'.attempts = s.attempts
  plans : op.createsPlans = false → ∀ key, s.rollouts.get? key = none →
    s'.rollouts.get? key = none
  evidence : op.publishes = false → s.evidence.Shrinks s'.evidence

/-! ## Chains -/

/-- No effect touches an attempt. -/
theorem Chain.attempts_eq (h : Chain c p s s') : s'.attempts = s.attempts := by
  refine Runs.chain_preserves (P := fun t => t.attempts = s.attempts) ?_ h rfl
  intro a b hab ha
  cases hab <;> exact ha

/-- Effects only withdraw evidence. -/
theorem Chain.shrinks (h : Chain c p s s') : s.evidence.Shrinks s'.evidence := by
  refine Runs.chain_preserves (P := fun t => s.evidence.Shrinks t.evidence) ?_ h (.refl _)
  intro a b hab ha
  cases hab with
  | withdrawEvidence version current =>
    exact ha.trans (EvidenceStore.shrinks_revise a.evidence version current)
  | _ => exact ha

/-- A chain of effects adds to none of the six. -/
theorem Chain.framed (h : Chain c p s s') (op : Operation) : Framed op s s' where
  policy _ _ := h.policy_epoch.1
  epoch _ := h.policy_epoch.2
  leases _ := h.workers_eq
  attempts _ := h.attempts_eq
  plans _ _ hnone := h.plan_absent hnone
  evidence _ := h.shrinks

/-! ## Loops -/

/-- The sweep of a fence writes attempts only, and hands out sequences. -/
theorem settleFenced_eq (boot : WorkerBootId) (keys : List UInt64) (s : EngineState) :
    settleFenced boot keys s =
      { s with
        attempts := (settleFenced boot keys s).attempts
        sequence := (settleFenced boot keys s).sequence } := by
  induction keys generalizing s with
  | nil => rfl
  | cons key keys ih =>
    unfold settleFenced
    split
    · exact ih s
    · split
      · exact ih s
      · exact ih _

/-- The stamps of a restart write plans only, and hand out sequences. -/
theorem stampEntered_eq (keys : List UInt64) (s : EngineState) :
    stampEntered keys s =
      { s with
        rollouts := (stampEntered keys s).rollouts
        sequence := (stampEntered keys s).sequence } := by
  induction keys generalizing s with
  | nil => rfl
  | cons key keys ih =>
    unfold stampEntered
    split
    · exact ih s
    · split
      · exact ih s
      · exact ih _

/-- The stamps of a restart create no plan. -/
theorem stampEntered_absent (keys : List UInt64) (s : EngineState) {key : UInt64}
    (hnone : s.rollouts.get? key = none) : (stampEntered keys s).rollouts.get? key = none := by
  induction keys generalizing s with
  | nil => exact hnone
  | cons stamped keys ih =>
    unfold stampEntered
    split
    · exact ih s hnone
    · split
      · exact ih s hnone
      · refine ih _ ?_
        rw [OrdMap.get?_modify]
        exact Option.map_eq_none_iff.mpr hnone

/-! ## Steps -/

/-- Two states that agree in all six. -/
structure SameSix (s s' : EngineState) : Prop where
  policy : s'.policy = s.policy
  epoch : s'.epoch = s.epoch
  leases : s'.workers = s.workers
  attempts : s'.attempts = s.attempts
  plans : s'.rollouts = s.rollouts
  evidence : s'.evidence = s.evidence

theorem SameSix.framed (h : SameSix s s') (op : Operation) : Framed op s s' where
  policy _ _ := h.policy
  epoch _ := h.epoch
  leases _ := h.leases
  attempts _ := h.attempts
  plans _ key hnone := by
    rw [h.plans]
    exact hnone
  evidence _ := by
    rw [h.evidence]
    exact .refl _

theorem sameSix_refl (s : EngineState) : SameSix s s := ⟨rfl, rfl, rfl, rfl, rfl, rfl⟩

theorem fenceWorker_framed (s : EngineState) (worker : WorkerId) (boot : WorkerBootId)
    (epoch : CoordinatorEpoch) (reason : Text) :
    Framed (.fenceWorker worker boot epoch reason) s
      (s.fenceWorker worker boot epoch reason).1 := by
  unfold fenceWorker
  split
  · exact (sameSix_refl s).framed _
  · split_ifs
    · exact (sameSix_refl s).framed _
    · exact (sameSix_refl s).framed _
    · exact (sameSix_refl s).framed _
    · dsimp only
      rw [settleFenced_eq]
      exact ⟨fun _ _ => rfl, fun _ => rfl, fun h => Bool.noConfusion h,
        fun h => Bool.noConfusion h, fun _ _ hnone => hnone, fun _ =>
        EvidenceStore.shrinks_expire s.evidence _⟩

theorem invalidateVolatileState_framed (s : EngineState) (cause : Text) :
    Framed (.invalidateVolatileState cause) s (s.invalidateVolatileState cause) := by
  unfold invalidateVolatileState
  dsimp only
  refine ⟨fun _ _ => ?_, fun _ => ?_, fun h => Bool.noConfusion h, fun _ => ?_,
    fun _ key hnone => ?_, fun _ => ?_⟩
  · rw [stampEntered_eq]
    rfl
  · rw [stampEntered_eq]
    rfl
  · rw [stampEntered_eq]
    rfl
  · exact stampEntered_absent _ _ hnone
  · rw [stampEntered_eq]
    exact EvidenceStore.shrinks_removeKinds s.evidence _

theorem createRollout_kept (s : EngineState) (request : RolloutPlanRequest) :
    (s.createRollout c request).1.policy = s.policy ∧
      (s.createRollout c request).1.epoch = s.epoch ∧
      (s.createRollout c request).1.workers = s.workers ∧
      (s.createRollout c request).1.attempts = s.attempts ∧
      (s.createRollout c request).1.evidence = s.evidence := by
  unfold createRollout
  split
  · exact ⟨rfl, rfl, rfl, rfl, rfl⟩
  · split
    · exact ⟨rfl, rfl, rfl, rfl, rfl⟩
    · dsimp only
      split
      · exact ⟨rfl, rfl, rfl, rfl, rfl⟩
      · split
        · simp
        · split
          · simp
          · simp [installPlan]

theorem createRollout_framed (s : EngineState) (request : RolloutPlanRequest) :
    Framed (.createRollout request) s (s.createRollout c request).1 := by
  obtain ⟨hpolicy, hepoch, hworkers, hattempts, hevidence⟩ :=
    createRollout_kept (c := c) s request
  refine ⟨fun _ _ => hpolicy, fun _ => hepoch, fun _ => hworkers, fun _ => hattempts,
    fun h => Bool.noConfusion h, ?_⟩
  intro _
  rw [hevidence]
  exact .refl _

/-- Every operation leaves alone what it may not write. -/
theorem step_framed (hs : Coherent s) (op : Operation) : Framed op s (step c s op) := by
  cases op with
  | fenceWorker worker boot epoch reason => exact fenceWorker_framed s worker boot epoch reason
  | createRollout request => exact createRollout_framed s request
  | invalidateVolatileState cause => exact invalidateVolatileState_framed s cause
  | importDurableState d newEpoch =>
    exact ⟨fun _ h => Bool.noConfusion h, fun h => Bool.noConfusion h,
      fun h => Bool.noConfusion h, fun h => Bool.noConfusion h, fun h => Bool.noConfusion h,
      fun h => Bool.noConfusion h⟩
  | registerScope path =>
    refine SameSix.framed ?_ _
    exact ⟨rfl, rfl, rfl, rfl, rfl, rfl⟩
  | registerModel name family provenance =>
    refine SameSix.framed ?_ _
    simp only [step, perform, registerModel]
    repeat' split
    all_goals exact ⟨rfl, rfl, rfl, rfl, rfl, rfl⟩
  | registerVersion request =>
    refine SameSix.framed ?_ _
    simp only [step, perform, registerVersion]
    repeat' split
    all_goals exact ⟨rfl, rfl, rfl, rfl, rfl, rfl⟩
  | publishCompatibility version environment outcome detail provenance =>
    refine SameSix.framed ?_ _
    simp only [step, perform, publishCompatibility]
    repeat' split
    all_goals exact ⟨rfl, rfl, rfl, rfl, rfl, rfl⟩
  | publishEvidence record =>
    simp only [step, perform, publishEvidence]
    repeat' split
    all_goals
      exact ⟨fun _ _ => rfl, fun _ => rfl, fun _ => rfl, fun _ => rfl, fun _ _ hnone => hnone,
        fun h => Bool.noConfusion h⟩
  | expirePublisherEvidence boot =>
    simp only [step, perform, expirePublisherEvidence]
    split
    all_goals
      exact ⟨fun _ _ => rfl, fun _ => rfl, fun _ => rfl, fun _ => rfl, fun _ _ hnone => hnone,
        fun _ => EvidenceStore.shrinks_expire s.evidence boot⟩
  | setWorkerLiveness worker connected =>
    refine SameSix.framed ?_ _
    simp only [step, perform, setWorkerLiveness]
    repeat' split
    all_goals exact ⟨rfl, rfl, rfl, rfl, rfl, rfl⟩
  | setPolicy policy =>
    simp only [step, perform, setPolicy]
    repeat' split
    all_goals
      exact ⟨fun h => Bool.noConfusion h, fun _ => rfl, fun _ => rfl, fun _ => rfl,
        fun _ _ hnone => hnone, fun _ => .refl _⟩
  | setScopePolicy refinement =>
    simp only [step, perform, setScopePolicy]
    repeat' split
    all_goals
      exact ⟨fun h => Bool.noConfusion h, fun _ => rfl, fun _ => rfl, fun _ => rfl,
        fun _ _ hnone => hnone, fun _ => .refl _⟩
  | advanceEpoch expectedCurrent =>
    simp only [step, perform, advanceEpoch]
    repeat' split
    all_goals
      exact ⟨fun _ _ => rfl, fun h => Bool.noConfusion h, fun _ => rfl, fun _ => rfl,
        fun _ _ hnone => hnone, fun _ => .refl _⟩
  | registerWorker registration =>
    simp only [step, perform, registerWorker]
    repeat' split
    all_goals
      exact ⟨fun _ _ => rfl, fun _ => rfl, fun h => Bool.noConfusion h, fun _ => rfl,
        fun _ _ hnone => hnone, fun _ => .refl _⟩
  | beginAttempt request =>
    simp only [step, perform, beginAttempt]
    repeat' split
    all_goals
      exact ⟨fun _ _ => rfl, fun _ => rfl, fun _ => rfl, fun h => Bool.noConfusion h,
        fun _ _ hnone => hnone, fun _ => .refl _⟩
  | completeAttempt completion =>
    simp only [step, perform, completeAttempt]
    repeat' split
    all_goals
      exact ⟨fun _ _ => rfl, fun _ => rfl, fun _ => rfl, fun h => Bool.noConfusion h,
        fun _ _ hnone => hnone, fun _ => .refl _⟩
  | reconcileAttempt attempt sideEffectObserved epoch detail =>
    simp only [step, perform, reconcileAttempt]
    repeat' split
    all_goals
      exact ⟨fun _ _ => rfl, fun _ => rfl, fun _ => rfl, fun h => Bool.noConfusion h,
        fun _ _ hnone => hnone, fun _ => .refl _⟩
  | reviseVersion request => exact (reviseVersion_progresses (c := c) s request).chain.framed _
  | promote request => exact (promote_progresses (c := c) hs request False.elim).chain.framed _
  | beginRollout request =>
    cases hplan : s.rolloutOf request.rollout with
    | none =>
      have hstep : step c s (.beginRollout request) = s := by
        simp [step, perform, beginRollout, hplan]
      rw [hstep]
      exact (sameSix_refl s).framed _
    | some plan => exact (beginRollout_progresses (c := c) hs request hplan).chain.framed _
  | advanceStage request =>
    cases hplan : s.rolloutOf request.rollout with
    | none =>
      have hstep : step c s (.advanceStage request) = s := by
        simp [step, perform, advanceStage, hplan]
      rw [hstep]
      exact (sameSix_refl s).framed _
    | some plan =>
      exact (advanceStage_progresses (c := c) hs request hplan False.elim).chain.framed _
  | failStage request => exact (failStage_progresses (c := c) s request).chain.framed _
  | supersedeRollout rollout generation epoch detail =>
    exact (supersedeRollout_progresses (c := c) s rollout generation epoch detail
      False.elim).chain.framed _
  | rollback request => exact (rollback_progresses (c := c) hs request False.elim).chain.framed _
  | retire request => exact (retire_progresses (c := c) hs request).chain.framed _
  | revalidate request => exact (revalidate_progresses (c := c) s request).chain.framed _

end LifecycleFabric
