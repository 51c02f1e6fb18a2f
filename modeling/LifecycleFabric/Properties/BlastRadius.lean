import LifecycleFabric.Properties.StageEntries

/-!
# Blast radius

The ceilings on what a stage may move stand in the policy, in the plan and in its cohorts.
The gate of a commit compares the current stage with the first two. Neither entry into a
stage compares anything, and nothing reads the ceilings of the cohorts.
-/

namespace LifecycleFabric

open EngineState Runs

variable {c : EngineConfig} {s t : EngineState} {plan plan' : RolloutPlan}
  {stage : StageDefinition}

/-! ## The ceilings -/

/-- The percentage of the root scope a cohort moves; an unset share is all of it. -/
def CohortDefinition.share (cohort : CohortDefinition) : ℕ :=
  if cohort.trafficPercent ≠ 0 then cohort.trafficPercent.toNat else 100

namespace RolloutPlan

/-- The shares of the cohorts of a stage, added up. -/
def shares (plan : RolloutPlan) (stage : StageDefinition) : ℕ :=
  ((stage.cohorts.filterMap plan.cohort).map CohortDefinition.share).sum

/-- The blast radius of a stage: its shares, capped at the whole root scope. -/
def blastRadius (plan : RolloutPlan) (stage : StageDefinition) : ℕ :=
  min (plan.shares stage) 100

/-- No cohort of a stage exceeds a ceiling of its own. -/
def SharesWithin (plan : RolloutPlan) (stage : StageDefinition) : Prop :=
  ∀ cohort ∈ stage.cohorts.filterMap plan.cohort, cohort.maxBlastRadiusPercent ≠ 0 →
    cohort.share ≤ cohort.maxBlastRadiusPercent.toNat

end RolloutPlan

namespace EngineState

/-- The blast radius of a stage exceeds neither the ceiling of its plan nor that of the
policy in effect. -/
def RadiusWithin (s : EngineState) (plan : RolloutPlan) (stage : StageDefinition) : Prop :=
  plan.blastRadius stage ≤ plan.maxBlastRadiusPercent.toNat ∧
    plan.blastRadius stage ≤
      (s.policy.effective s.scopes plan.rootScope).maxBlastRadiusPercent.toNat

/-- A stage is within all three ceilings. -/
def WithinCeilings (s : EngineState) (plan : RolloutPlan) (stage : StageDefinition) : Prop :=
  s.RadiusWithin plan stage ∧ plan.SharesWithin stage

end EngineState

/-- The shares of some cohorts, added up in words that wrap. -/
theorem foldl_shares (plan : RolloutPlan) (ids : List CohortId) (total : UInt32) :
    (ids.foldl (fun (total : UInt32) id =>
      match plan.cohort id with
      | none => total
      | some cohort =>
        total + if cohort.trafficPercent ≠ 0 then cohort.trafficPercent else 100) total).toNat =
      (total.toNat + ((ids.filterMap plan.cohort).map CohortDefinition.share).sum) % 2 ^ 32 := by
  induction ids generalizing total with
  | nil =>
    simp
  | cons id ids ih =>
    rw [List.foldl_cons, ih]
    cases hcohort : plan.cohort id with
    | none => rw [List.filterMap_cons_none hcohort]
    | some cohort =>
      have hshare : (if cohort.trafficPercent ≠ 0 then cohort.trafficPercent
          else (100 : UInt32)).toNat = cohort.share := by
        unfold CohortDefinition.share
        split_ifs <;> rfl
      rw [List.filterMap_cons_some hcohort, List.map_cons, List.sum_cons, ← Nat.add_assoc]
      simp only [UInt32.toNat_add, hshare, Nat.mod_add_mod]

/-- The radius the gate computes wraps where the shares do not fit into a word. -/
theorem stageBlastRadius_toNat (plan : RolloutPlan) (stage : StageDefinition) :
    (plan.stageBlastRadius stage).toNat = min (plan.shares stage % 2 ^ 32) 100 := by
  have htotal := foldl_shares plan stage.cohorts 0
  rw [UInt32.toNat_zero, Nat.zero_add, ← RolloutPlan.shares] at htotal
  unfold RolloutPlan.stageBlastRadius
  dsimp only
  split_ifs with hmore
  · have hmore : 100 < plan.shares stage % 2 ^ 32 := by
      rw [← htotal]
      exact UInt32.lt_iff_toNat_lt.mp hmore
    rw [Nat.min_eq_right (le_of_lt hmore)]
    rfl
  · have hless : plan.shares stage % 2 ^ 32 ≤ 100 := by
      rw [← htotal]
      exact UInt32.le_iff_toNat_le.mp (UInt32.not_lt.mp hmore)
    rw [Nat.min_eq_left hless]
    exact htotal

/-- The gate of a commit lets only a radius within both ceilings pass, as far as a word
holds it. -/
theorem radiusWithin_of_commit {request : RolloutProgressRequest}
    (h : s.commit request = some plan) (hword : plan.shares plan.currentStage < 2 ^ 32) :
    s.RadiusWithin plan plan.currentStage := by
  obtain ⟨_, hfaults, _⟩ := commit_permitted h
  obtain ⟨_, hindex, _⟩ := stage_permitted_open hfaults
  simp only [stageFaults, List.append_eq_nil_iff] at hfaults
  obtain ⟨⟨_, hprogression⟩, _⟩ := hfaults
  have hstage : plan.stageAt plan.currentStageIndex = some plan.currentStage := by
    rw [RolloutPlan.stageAt, RolloutPlan.currentStage, List.getElem?_eq_getElem hindex,
      Option.getD_some]
  simp only [progressionFaults, hstage, List.append_eq_nil_iff, faultIf_eq_nil, not_or,
    UInt32.not_lt] at hprogression
  obtain ⟨_, hplan, hpolicy⟩ := hprogression
  have hradius : (plan.stageBlastRadius plan.currentStage).toNat =
      plan.blastRadius plan.currentStage := by
    rw [stageBlastRadius_toNat, Nat.mod_eq_of_lt hword, RolloutPlan.blastRadius]
  unfold RadiusWithin
  rw [← hradius]
  exact ⟨UInt32.le_iff_toNat_le.mp hplan, UInt32.le_iff_toNat_le.mp hpolicy⟩

/-! ## Steps -/

/-- Every stage a step enters or commits is within its ceilings. -/
def StaysWithin (s s' : EngineState) (rollout : RolloutId) : Prop :=
  (∀ plan stage, EntersStage s s' rollout plan stage → s.WithinCeilings plan stage) ∧
    ∀ plan, CommitsStage s s' rollout plan → s.WithinCeilings plan plan.currentStage

/-- The stages an operation enters and commits are within their ceilings. -/
def Operation.StaysWithin (s : EngineState) : Operation → Prop
  | .beginRollout request =>
    LifecycleFabric.StaysWithin s (s.beginRollout request).1 request.rollout
  | .advanceStage request =>
    LifecycleFabric.StaysWithin s (s.advanceStage request).1 request.rollout
  | _ => True

/-- An operation that enters a stage finds it within its ceilings. One that commits a stage
finds no cohort of it above its own ceiling, and the radius within the other two should the
shares not fit into a word. -/
def Operation.FindsWithin (s : EngineState) : Operation → Prop
  | .beginRollout request =>
    ∀ plan, s.entry request = some plan → s.WithinCeilings plan plan.firstStage
  | .advanceStage request =>
    ∀ plan, s.commit request = some plan →
      plan.SharesWithin plan.currentStage ∧
        (2 ^ 32 ≤ plan.shares plan.currentStage → s.RadiusWithin plan plan.currentStage) ∧
          (s.movesOn plan = true → s.WithinCeilings plan plan.nextStage)
  | _ => True

theorem step_within_iff (hs : Coherent s) (hstanding : Standing s) (op : Operation) :
    op.StaysWithin s ↔ op.FindsWithin s := by
  cases op with
  | beginRollout request =>
    constructor
    · rintro ⟨henters, _⟩ plan hentry
      exact henters plan plan.firstStage ((begin_enters_iff hs).mpr ⟨hentry, rfl⟩)
    · intro hfinds
      refine ⟨fun plan stage henters => ?_, fun plan hcommits => ?_⟩
      · obtain ⟨hentry, rfl⟩ := (begin_enters_iff hs).mp henters
        exact hfinds plan hentry
      · exact absurd hcommits (begin_commits_nothing hs)
  | advanceStage request =>
    constructor
    · rintro ⟨henters, hcommits⟩ plan hcommit
      obtain ⟨hradius, hshares⟩ :=
        hcommits plan ((advance_commits_iff hs hstanding).mpr hcommit)
      refine ⟨hshares, fun _ => hradius, fun hmoves => ?_⟩
      exact henters plan plan.nextStage
        ((advance_enters_iff hs hstanding).mpr ⟨hcommit, hmoves, rfl⟩)
    · intro hfinds
      refine ⟨fun plan stage henters => ?_, fun plan hcommits => ?_⟩
      · obtain ⟨hcommit, hmoves, rfl⟩ := (advance_enters_iff hs hstanding).mp henters
        exact (hfinds plan hcommit).2.2 hmoves
      · have hcommit := (advance_commits_iff hs hstanding).mp hcommits
        obtain ⟨hshares, hwraps, _⟩ := hfinds plan hcommit
        refine ⟨?_, hshares⟩
        rcases Nat.lt_or_ge (plan.shares plan.currentStage) (2 ^ 32) with hword | hword
        · exact radiusWithin_of_commit hcommit hword
        · exact hwraps hword
  | _ => exact Iff.rfl

/-! ## Runs -/

/-- In every run each stage that is entered or committed is within its ceilings exactly when
every entry finds its stage within them, every commit finds the cohorts of its stage within
theirs, and no sum of shares that is committed overflows unnoticed. -/
theorem stages_within_iff (c : EngineConfig) (ops : List Operation) :
    Runs.Along (step c) (fun s op => op.StaysWithin s) (init c) ops ↔
      Runs.Along (step c) (fun s op => op.FindsWithin s) (init c) ops :=
  Runs.along_iff (P := fun s => Coherent s ∧ Standing s) (step c)
    (fun _ op hs => ⟨(step_cases hs.1 op).coherent hs.1, (step_cases hs.1 op).standing hs.2⟩)
    (fun _ op hs => step_within_iff hs.1 hs.2 op) ⟨coherent_init c, standing_init c⟩

/-- A plan that may move half of the root scope has a stage that moves all of it. -/
def wideStage : List Operation :=
  [.registerModel [109] [] .synthetic,
    .registerVersion
      { model := ⟨1⟩, label := [49]
        artifact := { setId := ⟨1⟩, generation := ⟨1⟩, digest := [97] } },
    .publishCompatibility ⟨1⟩ { key := [101] } .compatible [] .synthetic,
    .promote { model := ⟨1⟩, candidate := ⟨1⟩, scope := ⟨1⟩, environmentKey := [101] },
    .createRollout
      { model := ⟨1⟩, candidate := ⟨1⟩, rootScope := ⟨1⟩, maxBlastRadiusPercent := 50
        cohorts := [{ name := [99], scopes := [⟨1⟩] }]
        stages := [{ name := [115], cohortIndices := [0] }] }]

/-- The begin of that plan enters the stage all the same. -/
theorem stages_within_counterexample :
    ¬∀ (c : EngineConfig) (ops : List Operation),
      Runs.Along (step c) (fun s op => op.StaysWithin s) (init c) ops := by
  intro hclaim
  obtain ⟨_, hlast, _⟩ := (Runs.along_append (step {})).mp
    (hclaim {} (wideStage ++ [.beginRollout { rollout := ⟨1⟩ }]))
  have hs : ReachableState {} (runOps {} (init {}) wideStage) := ⟨wideStage, rfl⟩
  have hfinds := (step_within_iff hs.coherent hs.standing _).mp hlast
  have hwide : ((runOps {} (init {}) wideStage).entry { rollout := ⟨1⟩ }).any
      (fun plan => decide (plan.maxBlastRadiusPercent.toNat < plan.blastRadius plan.firstStage)) =
        true := by
    decide +kernel
  obtain ⟨plan, hplan, hexceeds⟩ := (Option.any_eq_true _ _).mp hwide
  have hradius := (hfinds plan hplan).1.1
  have hexceeds := of_decide_eq_true hexceeds
  omega

end LifecycleFabric
