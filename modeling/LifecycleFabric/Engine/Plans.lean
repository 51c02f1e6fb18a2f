import LifecycleFabric.Engine.Frames

/-!
# Who creates plans

Only the creation of a rollout stores a new plan. Every other operation edits the plans it
finds, and no edit moves their candidate, target or scopes.
-/

namespace LifecycleFabric

open EngineState Runs

variable {c : EngineConfig} {s s' : EngineState} {request : RolloutPlanRequest}
  {plan plan' : RolloutPlan}

/-! ## Creation -/

/-- The plan a request asks for, when it passes every check and its cohorts and stages can
be built. -/
def EngineState.plannedRollout (cfg : EngineConfig) (s : EngineState)
    (request : RolloutPlanRequest) : Option RolloutPlan :=
  match s.versionOf request.model request.candidate with
  | none => none
  | some record =>
    if (s.planRefusal cfg request record).isSome then none
    else
      let rootGeneration :=
        ((s.scopes.find request.rootScope).map ScopeRecord.generation).getD {}
      let s := s.bumpSequence
      match s.buildCohorts cfg request.rootScope request.cohorts s.nextCohortId [] with
      | (_, .error _) => none
      | (_, .ok cohorts) =>
        match buildStages cfg cohorts request.stages s.nextStageId [] [] with
        | (_, .error _) => none
        | (_, .ok stages) =>
          if cfg.bounds.maxRollouts ≤ s.rollouts.size then none
          else some { s.planHeader cfg request record rootGeneration with cohorts, stages }

theorem createRollout_rollouts (s : EngineState) (request : RolloutPlanRequest) :
    (s.createRollout c request).1.rollouts =
      match s.plannedRollout c request with
      | none => s.rollouts
      | some plan => s.rollouts.insertNew plan.id.raw plan := by
  unfold createRollout plannedRollout
  cases hrecord : s.versionOf request.model request.candidate with
  | none => rfl
  | some record =>
    dsimp only
    cases hrefusal : s.planRefusal c request record with
    | some refusal => rfl
    | none =>
      simp only [Option.isSome_none, Bool.false_eq_true, if_false]
      generalize buildCohorts c s.bumpSequence request.rootScope request.cohorts
        s.bumpSequence.nextCohortId [] = cohorts
      obtain ⟨nextCohort, refusal | cohorts⟩ := cohorts
      · rfl
      · dsimp only
        generalize buildStages c cohorts request.stages _ [] [] = stages
        obtain ⟨nextStage, refusal | stages⟩ := stages
        · rfl
        · dsimp only
          split_ifs
          · rfl
          · rfl

/-- What a planned rollout is, and what its request passed. -/
structure EngineState.Planned (cfg : EngineConfig) (s : EngineState)
    (request : RolloutPlanRequest) (plan : RolloutPlan) : Prop where
  candidate : ∃ record, s.versionOf request.model request.candidate = some record ∧
    s.planRefusal cfg request record = none ∧ plan.model = record.model ∧
    plan.candidate = record.version
  id : plan.id.raw = s.nextRolloutId
  target : plan.rollbackTarget = request.rollbackTarget
  live : plan.live = true

theorem planned_of_plannedRollout (h : s.plannedRollout c request = some plan) :
    s.Planned c request plan := by
  unfold plannedRollout at h
  cases hrecord : s.versionOf request.model request.candidate with
  | none => simp [hrecord] at h
  | some record =>
    cases hrefusal : s.planRefusal c request record with
    | some refusal => simp [hrecord, hrefusal] at h
    | none =>
      simp only [hrecord, hrefusal, Option.isSome_none, Bool.false_eq_true, if_false] at h
      split at h
      · cases h
      · split at h
        · cases h
        · split_ifs at h
          obtain rfl := Option.some.inj h
          exact ⟨⟨record, hrecord, hrefusal, rfl, rfl⟩, rfl, rfl, rfl⟩

/-- The candidate of a planned rollout has no live plan. -/
theorem EngineState.Planned.alone (h : s.Planned c request plan) {key : UInt64}
    {other : RolloutPlan} (hother : s.rollouts.get? key = some other)
    (hsame : other.candidate = plan.candidate) : other.live = false := by
  obtain ⟨record, _, hrefusal, _, hcandidate⟩ := h.candidate
  rw [planRefusal, firstRefusal_eq_none] at hrefusal
  simp only [List.append_eq_nil_iff] at hrefusal
  obtain ⟨_, hroot⟩ := hrefusal
  cases hfind : s.scopes.find request.rootScope with
  | none => simp [hfind] at hroot
  | some root =>
    simp only [hfind, List.append_eq_nil_iff, refuseIf_eq_nil] at hroot
    have hfree : (s.livePlansFor record.version).isEmpty = true := by simpa using hroot.2
    rw [List.isEmpty_iff] at hfree
    by_contra hlive
    rw [Bool.not_eq_false] at hlive
    have hmem : other ∈ s.livePlansFor record.version := by
      unfold livePlansFor
      refine List.mem_filter.mpr ⟨OrdMap.mem_values_iff.mpr ⟨key, hother⟩, ?_⟩
      simp [hsame, hcandidate, hlive]
    rw [hfree] at hmem
    cases hmem

/-! ## Steps -/

/-- Who the plans after a step are: the plans before it, edited, and a planned rollout that
takes an unused key. -/
theorem step_plan_origin (hs : Coherent s) {op : Operation} (hop : op.isImport = false)
    {key : UInt64} (hplan : (step c s op).rollouts.get? key = some plan') :
    (∃ plan, s.rollouts.get? key = some plan ∧ PlanStep True False plan plan') ∨
      ∃ request, op = .createRollout request ∧ s.plannedRollout c request = some plan' ∧
        s.rollouts.get? key = none ∧ key = plan'.id.raw := by
  cases hstored : s.rollouts.get? key with
  | some plan =>
    refine Or.inl ⟨plan, rfl, ?_⟩
    have hcase := step_cases (c := c) hs op
    generalize step c s op = s' at hcase hplan
    cases hcase with
    | aside h =>
      obtain ⟨after, hafter, hstep⟩ := h.plans key plan hstored
      obtain rfl := Option.some.inj (hafter.symm.trans hplan)
      exact hstep.relax False.elim False.elim
    | chain p _ _ _ h =>
      obtain ⟨after, hafter, hstep⟩ := h.plan_stands hstored
      obtain rfl := Option.some.inj (hafter.symm.trans hplan)
      exact hstep.relax (fun _ => trivial) False.elim
    | recover => cases hop
  | none =>
    refine Or.inr ?_
    cases hcreates : op.createsPlans with
    | false =>
      rw [(step_framed hs op).plans hcreates key hstored] at hplan
      cases hplan
    | true =>
      cases op with
      | createRollout request =>
        have hrollouts : (step c s (.createRollout request)).rollouts = _ :=
          createRollout_rollouts s request
        rw [hrollouts] at hplan
        cases hplanned : s.plannedRollout c request with
        | none =>
          simp only [hplanned] at hplan
          rw [hstored] at hplan
          cases hplan
        | some plan =>
          simp only [hplanned, OrdMap.get?_insertNew] at hplan
          split_ifs at hplan with hkey
          · subst hkey
            rw [hstored, Option.getD_none] at hplan
            obtain rfl := Option.some.inj hplan
            exact ⟨request, rfl, hplanned, rfl, rfl⟩
          · rw [hstored] at hplan
            cases hplan
      | importDurableState => cases hop
      | _ => cases hcreates

/-- A step keeps every plan, edited. -/
theorem step_plan_stands (hs : Coherent s) {op : Operation} (hop : op.isImport = false)
    {key : UInt64} (hplan : s.rollouts.get? key = some plan) :
    ∃ plan', (step c s op).rollouts.get? key = some plan' ∧ PlanStep True False plan plan' := by
  have hcase := step_cases (c := c) hs op
  generalize step c s op = s' at hcase ⊢
  cases hcase with
  | aside h =>
    obtain ⟨plan', hplan', hstep⟩ := h.plans key plan hplan
    exact ⟨plan', hplan', hstep.relax False.elim False.elim⟩
  | chain p _ _ _ h =>
    obtain ⟨plan', hplan', hstep⟩ := h.plan_stands hplan
    exact ⟨plan', hplan', hstep.relax (fun _ => trivial) False.elim⟩
  | recover => cases hop

/-- A planned rollout is stored unless its key is taken. -/
theorem step_creates (hplanned : s.plannedRollout c request = some plan)
    (hfree : s.rollouts.get? plan.id.raw = none) :
    (step c s (.createRollout request)).rollouts.get? plan.id.raw = some plan := by
  have hrollouts : (step c s (.createRollout request)).rollouts = _ :=
    createRollout_rollouts s request
  rw [hrollouts]
  simp only [hplanned, OrdMap.get?_insertNew, if_true, hfree, Option.getD_none]

/-! ## Operations that leave the plans alone -/

/-- The operations that write neither the plans nor the authority table. -/
def Operation.leavesPlans : Operation → Bool
  | .registerModel _ _ _ | .registerVersion _ | .registerScope _ | .setPolicy _
  | .setScopePolicy _ | .publishCompatibility _ _ _ _ _ | .publishEvidence _
  | .expirePublisherEvidence _ | .registerWorker _ | .fenceWorker _ _ _ _
  | .setWorkerLiveness _ _ | .beginAttempt _ | .completeAttempt _ | .reconcileAttempt _ _ _ _
  | .advanceEpoch _ => true
  | _ => false

theorem step_leavesPlans {op : Operation} (h : op.leavesPlans = true) :
    (step c s op).rollouts = s.rollouts ∧ (step c s op).authority = s.authority := by
  cases op with
  | registerScope path => exact ⟨rfl, rfl⟩
  | fenceWorker worker boot epoch reason =>
    simp only [step, perform, fenceWorker]
    split
    · exact ⟨rfl, rfl⟩
    · split_ifs
      · exact ⟨rfl, rfl⟩
      · exact ⟨rfl, rfl⟩
      · exact ⟨rfl, rfl⟩
      · rw [settleFenced_eq]
        exact ⟨rfl, rfl⟩
  | registerModel name family provenance =>
    simp only [step, perform, registerModel]
    repeat' split
    all_goals exact ⟨rfl, rfl⟩
  | registerVersion request =>
    simp only [step, perform, registerVersion]
    repeat' split
    all_goals exact ⟨rfl, rfl⟩
  | publishCompatibility version environment outcome detail provenance =>
    simp only [step, perform, publishCompatibility]
    repeat' split
    all_goals exact ⟨rfl, rfl⟩
  | publishEvidence record =>
    simp only [step, perform, publishEvidence]
    repeat' split
    all_goals exact ⟨rfl, rfl⟩
  | expirePublisherEvidence boot =>
    simp only [step, perform, expirePublisherEvidence]
    split
    all_goals exact ⟨rfl, rfl⟩
  | setWorkerLiveness worker connected =>
    simp only [step, perform, setWorkerLiveness]
    repeat' split
    all_goals exact ⟨rfl, rfl⟩
  | setPolicy policy =>
    simp only [step, perform, setPolicy]
    repeat' split
    all_goals exact ⟨rfl, rfl⟩
  | setScopePolicy refinement =>
    simp only [step, perform, setScopePolicy]
    repeat' split
    all_goals exact ⟨rfl, rfl⟩
  | advanceEpoch expectedCurrent =>
    simp only [step, perform, advanceEpoch]
    repeat' split
    all_goals exact ⟨rfl, rfl⟩
  | registerWorker registration =>
    simp only [step, perform, registerWorker]
    repeat' split
    all_goals exact ⟨rfl, rfl⟩
  | beginAttempt request =>
    simp only [step, perform, beginAttempt]
    repeat' split
    all_goals exact ⟨rfl, rfl⟩
  | completeAttempt completion =>
    simp only [step, perform, completeAttempt]
    repeat' split
    all_goals exact ⟨rfl, rfl⟩
  | reconcileAttempt attempt sideEffectObserved epoch detail =>
    simp only [step, perform, reconcileAttempt]
    repeat' split
    all_goals exact ⟨rfl, rfl⟩
  | _ => cases h

/-- A chain leaves alone the plans it may not edit. -/
theorem Chain.plan_kept {p : Permit} (h : Chain c p s s') {key : UInt64} (hp : ¬p.edits key) :
    s'.rollouts.get? key = s.rollouts.get? key := by
  refine Runs.chain_preserves (P := fun t => t.rollouts.get? key = s.rollouts.get? key) ?_ h rfl
  intro a b hab ha
  cases hab with
  | editPlan other f hedits =>
    have hne : key ≠ other := by
      rintro rfl
      exact hp hedits
    exact (OrdMap.get?_modify_of_ne _ _ hne).trans ha
  | _ => exact ha

end LifecycleFabric
