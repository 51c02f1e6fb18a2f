import LifecycleFabric.Engine.Coherence

/-!
# Edits of rollout plans

Every edit the operations make to a stored plan is a plan step. Only entering a stage,
moving to the next one and refreshing the root binding need a driven plan.
-/

namespace LifecycleFabric

open EngineState

variable {c : EngineConfig} {p : Permit} {s : EngineState} {driven strict : Prop}
  {plan after : RolloutPlan}

/-! ## Edits that end a plan -/

/-- Appending a record that settles the current stage generation, and nothing else of the
progress but the flags. -/
theorem planStep_settle {record : StageRecord} (hsame : PlanStep driven strict plan plan)
    (hplan : ∃ stageEntered failed superseded updatedSequence, after =
      { plan with
        stageEntered
        failed
        superseded
        updatedSequence
        history := plan.history ++ [record] })
    (hedit : PlanEdit strict plan after) (hlive : after.live = false) :
    PlanStep driven strict plan after := by
  obtain ⟨stageEntered, failed, superseded, updatedSequence, rfl⟩ := hplan
  exact
    { hsame with
      live := fun h => absurd (hlive ▸ h) Bool.false_ne_true
      history := List.prefix_append _ _
      entered := Or.inl rfl
      edits := .single hedit }

theorem planStep_supersededPlan (decided : Sequence) (detail : Text)
    (hopen : strict → plan.stageSettled = false) :
    PlanStep driven strict plan (supersededPlan decided detail plan) := by
  have hlive : (supersededPlan decided detail plan).live = false := by
    simp [RolloutPlan.live, supersededPlan]
  refine planStep_settle (PlanStep.refl _ _ plan) ⟨_, _, _, _, rfl⟩ ?_ hlive
  exact .settle (supersessionRecord plan decided detail) rfl rfl rfl rfl rfl
    (by simp [supersessionRecord]) (by simp [supersessionRecord]) rfl
    (by simp [supersessionRecord, supersededPlan]) (by simp [supersededPlan]) hlive hopen

theorem planStep_rolledBackPlan (decided : Sequence) (hopen : strict → plan.stageSettled = false) :
    PlanStep driven strict plan (rolledBackPlan decided plan) := by
  have hlive : (rolledBackPlan decided plan).live = false := by
    simp [RolloutPlan.live, rolledBackPlan]
  refine planStep_settle (PlanStep.refl _ _ plan) ⟨_, _, _, _, rfl⟩ ?_ hlive
  exact .settle (rolledBackRecord plan decided) rfl rfl rfl rfl rfl (by simp [rolledBackRecord])
    (by simp [rolledBackRecord]) rfl (by simp [rolledBackPlan]) (by simp [rolledBackPlan]) hlive
    hopen

theorem planStep_explicitSupersession (decided : Sequence) (detail : Text)
    (hopen : strict → plan.stageSettled = false) :
    PlanStep driven strict plan (explicitSupersession decided detail plan) := by
  have hlive : (explicitSupersession decided detail plan).live = false := by
    simp [RolloutPlan.live, explicitSupersession]
  refine planStep_settle (PlanStep.refl _ _ plan) ⟨_, _, _, _, rfl⟩ ?_ hlive
  exact .settle _ rfl rfl rfl rfl rfl (by simp) (by simp) rfl (by simp [explicitSupersession])
    (by simp [explicitSupersession]) hlive hopen

theorem planStep_failedPlan (decided updated : Sequence) (reasons : List Reason)
    (leaveStage : Bool) (hopen : strict → plan.stageSettled = false) :
    PlanStep driven strict plan (failedPlan decided updated reasons leaveStage plan) := by
  have hlive : (failedPlan decided updated reasons leaveStage plan).live = false := by
    simp [RolloutPlan.live, failedPlan]
  refine planStep_settle (PlanStep.refl _ _ plan) ⟨_, _, _, _, rfl⟩ ?_ hlive
  exact .settle (failedRecord decided reasons plan) rfl rfl rfl rfl rfl (by simp [failedRecord])
    (by simp [failedRecord]) rfl (by simp [failedPlan])
    (by simp only [failedPlan, Bool.and_eq_true]; exact And.left) hlive hopen

theorem planStep_revisedPlan (updated : Sequence) :
    PlanStep driven strict plan (revisedPlan updated plan) := by
  have hlive : (revisedPlan updated plan).live = false := by simp [RolloutPlan.live, revisedPlan]
  exact
    { PlanStep.refl driven strict plan with
      live := fun h => absurd (hlive ▸ h) Bool.false_ne_true
      edits := .single (.note rfl rfl rfl rfl rfl rfl (fun h => h)
        fun h => absurd (hlive ▸ h) Bool.false_ne_true) }

theorem planStep_retiredPlan (updated : Sequence) :
    PlanStep driven strict plan (retiredPlan updated plan) := by
  have hlive : (retiredPlan updated plan).live = false := by simp [RolloutPlan.live, retiredPlan]
  exact
    { PlanStep.refl driven strict plan with
      live := fun h => absurd (hlive ▸ h) Bool.false_ne_true
      edits := .single (.note rfl rfl rfl rfl rfl rfl (by simp [retiredPlan])
        fun h => absurd (hlive ▸ h) Bool.false_ne_true) }

theorem planStep_completedPlan (updated : Sequence) (hlive : plan.live = true)
    (hadvanced : plan.stageAdvanced = true) :
    PlanStep driven strict plan (completedPlan updated plan) :=
  { PlanStep.refl driven strict plan with
    live := by simp [RolloutPlan.live, completedPlan]
    edits := .single (.complete updated hlive hadvanced) }

/-! ## Edits of the bookkeeping -/

/-- An edit of fields that are no progress. -/
theorem planStep_stamp (updated : Sequence) :
    PlanStep driven strict plan { plan with updatedSequence := updated } :=
  { PlanStep.refl driven strict plan with
    live := fun h => h
    edits := .single (.note rfl rfl rfl rfl rfl rfl (fun h => h) fun h => ⟨h, rfl⟩) }

theorem planStep_advancedPlan (decided updated : Sequence) (hlive : plan.live = true)
    (hentered : plan.stageEntered = true) (hstage : plan.currentStageIndex < plan.stages.length)
    (hopen : plan.stageSettled = false) :
    PlanStep driven strict plan (advancedPlan decided updated plan) :=
  { PlanStep.refl driven strict plan with
    history := List.prefix_append _ _
    entered := Or.inl rfl
    edits := .single (.advance decided updated hlive hentered hstage hopen) }

/-- A committed rollback is recorded only where none was. -/
theorem planStep_markRollback (rollback : RollbackId) (generation : RollbackGeneration)
    (updated : Sequence) (hnone : plan.id.valid = true → plan.lastRollback.valid = false) :
    PlanStep driven strict plan (markRollback rollback generation updated plan) :=
  { PlanStep.refl driven strict plan with
    rollback := by
      intro hvalid hmarked
      rw [hnone hvalid] at hmarked
      cases hmarked
    edits := .single (.note rfl rfl rfl rfl rfl rfl (fun h => h) fun h => ⟨h, rfl⟩) }

/-! ## Edits that drive a plan on -/

theorem planStep_enterStage (updated : Sequence) (hlive : plan.live = true)
    (hentered : plan.stageEntered = false) (hindex : plan.currentStageIndex = 0) :
    PlanStep True strict plan (enterStage plan.firstStage updated plan) :=
  { PlanStep.refl True strict plan with
    history := List.prefix_append _ _
    undriven := Or.inl trivial
    entered := Or.inr (by simp [enterStage])
    edits := .single (.enter updated hlive hentered hindex) }

theorem planStep_nextStagePlan (updated : Sequence) (hlive : plan.live = true)
    (hentered : plan.stageEntered = true) (hadvanced : plan.stageAdvanced = true)
    (hnext : plan.currentStageIndex + 1 < plan.stages.length) :
    PlanStep True strict plan (nextStagePlan plan.nextStage updated plan) :=
  { PlanStep.refl True strict plan with
    history := List.prefix_append _ _
    undriven := Or.inl trivial
    index := Or.inr ⟨Nat.lt_succ_self _, hnext⟩
    entered := Or.inr (by simp [nextStagePlan, enterStage])
    edits := .single (.next updated hlive hentered hadvanced hnext) }

theorem planStep_refresh (generation : ScopeGeneration) :
    PlanStep True strict plan { plan with rootScopeGeneration := generation } :=
  { PlanStep.refl True strict plan with
    undriven := Or.inl trivial
    edits := .single (.note rfl rfl rfl rfl rfl rfl (fun h => h) fun h => ⟨h, rfl⟩) }

/-! ## Plan edits as chains -/

theorem PlanStep.drive {before after : RolloutPlan} (h : PlanStep True strict before after)
    (hdriven : driven) : PlanStep driven strict before after :=
  { h with undriven := Or.inl hdriven }

theorem chain_modifyRollout (s : EngineState) (rollout : RolloutId)
    {f : RolloutPlan → RolloutPlan} (hp : p.edits rollout.raw)
    (hf : ∀ plan, s.rolloutOf rollout = some plan →
      PlanStep (p.drives rollout.raw) p.strict plan (f plan)) :
    Chain c p s (s.modifyRollout rollout f) :=
  (Effect.editPlan s rollout.raw f hp hf).chain

theorem chain_refreshRoot (s : EngineState) (rollout : RolloutId) (root : ScopeId)
    (hedits : p.edits rollout.raw) (hdrives : p.drives rollout.raw) :
    Chain c p s (s.refreshRoot rollout root) := by
  unfold refreshRoot
  split
  · exact Chain.refl s
  · exact chain_modifyRollout s rollout hedits fun _ _ => (planStep_refresh _).drive hdrives

end LifecycleFabric
