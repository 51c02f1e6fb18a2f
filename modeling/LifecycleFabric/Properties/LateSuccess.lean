import LifecycleFabric.Engine.Generations
import LifecycleFabric.Properties.Rollbacks

/-!
# Late stage successes

A rollback advances the generation of its scope, which makes the plans rooted there
outdated, and fails the plan it names. A plan of the same candidate that is rooted
elsewhere and not named goes on, and its next stage success grants the candidate in the
scope again. As long as every plan that could still reach the scope is named or rooted
there, no late success undoes the rollback.
-/

namespace LifecycleFabric

open EngineState AuthorityTable

variable {c : EngineConfig} {p : Permit} {s s' t : EngineState} {plan plan' : RolloutPlan}
  {scope : ScopeId}

/-! ## Plans that may still reach a scope -/

namespace RolloutPlan

/-- The scopes of the current stage and of the later ones. -/
def ahead (plan : RolloutPlan) : List ScopeId :=
  (plan.stages.drop plan.currentStageIndex).flatMap plan.stageScopes

/-- A plan in a stage that already has a decision. It never leaves that stage. -/
def stuck (plan : RolloutPlan) : Bool := plan.stageEntered && plan.stageSettled

end RolloutPlan

namespace EngineState

/-- Whether a plan is bound to an older generation of its candidate, of the policy or of its
root scope. -/
def outdated (s : EngineState) (plan : RolloutPlan) : Bool :=
  ((s.versionOf plan.model plan.candidate).any fun record =>
      decide (plan.candidateGeneration < record.generation)) ||
    decide (plan.policyGeneration < s.policy.base.generation) ||
    (s.scopes.find plan.rootScope).any fun root =>
      decide (plan.rootScopeGeneration < root.generation)

/-- Whether a plan may still advance over a scope. -/
def mayReach (s : EngineState) (plan : RolloutPlan) (scope : ScopeId) : Bool :=
  plan.live && !plan.stuck && !s.outdated plan && decide (scope ∈ plan.ahead)

end EngineState

/-- A plan that grants nothing in a scope any more: it may not reach the scope, and if it is
rooted there it is bound to an older generation of the scope. -/
structure Harmless (s : EngineState) (scope : ScopeId) (plan : RolloutPlan) : Prop where
  unreached : s.mayReach plan scope = false
  root : plan.rootScope = scope → plan.rootScopeGeneration.valid = true ∧
    ∃ root, s.scopes.find scope = some root ∧ plan.rootScopeGeneration < root.generation

theorem mayReach_eq_false : s.mayReach plan scope = false ↔
    (plan.live = true → plan.stuck = false → s.outdated plan = false → scope ∉ plan.ahead) := by
  simp only [mayReach, Bool.and_eq_false_iff, decide_eq_false_iff_not, Bool.not_eq_false']
  cases plan.live <;> cases plan.stuck <;> cases s.outdated plan <;> simp

theorem outdated_eq_true : s.outdated plan = true ↔
    (∃ record, s.versionOf plan.model plan.candidate = some record ∧
        plan.candidateGeneration < record.generation) ∨
      plan.policyGeneration < s.policy.base.generation ∨
      ∃ root, s.scopes.find plan.rootScope = some root ∧
        plan.rootScopeGeneration < root.generation := by
  simp only [outdated, Bool.or_eq_true, Option.any_eq_true, decide_eq_true_eq, or_assoc]

/-- A plan that matches the registry is not outdated. -/
theorem outdated_of_current (h : s.checkPlanBindings plan = none) :
    s.outdated plan = false ∧ ∃ root, s.scopes.find plan.rootScope = some root ∧
      plan.rootScopeGeneration = root.generation := by
  unfold checkPlanBindings at h
  cases hrecord : s.versionOf plan.model plan.candidate with
  | none => simp [hrecord] at h
  | some record =>
    simp only [hrecord] at h
    split_ifs at h with _ hgeneration _ _ hpolicy
    cases hroot : s.scopes.find plan.rootScope with
    | none => simp [hroot] at h
    | some root =>
      simp only [hroot] at h
      split_ifs at h with hscope
      rw [not_not] at hgeneration hpolicy hscope
      refine ⟨?_, root, rfl, hscope.symm⟩
      by_contra houtdated
      rw [Bool.not_eq_false, outdated_eq_true, hrecord, hroot] at houtdated
      rcases houtdated with ⟨found, hfound, hlt⟩ | hlt | ⟨found, hfound, hlt⟩
      · obtain rfl := Option.some.inj hfound
        exact hlt.ne hgeneration.symm
      · exact hlt.ne hpolicy.symm
      · obtain rfl := Option.some.inj hfound
        exact hlt.ne hscope.symm

/-! ## What an undriven plan keeps -/

/-- What is outdated stays outdated, as long as nothing refreshes its root binding. -/
theorem outdated_grown (hgrown : Grown s s') {driven strict : Prop}
    (hstep : PlanStep driven strict plan plan')
    (hroot : plan'.rootScopeGeneration = plan.rootScopeGeneration)
    (h : s.outdated plan = true) : s'.outdated plan' = true := by
  rw [outdated_eq_true] at h ⊢
  rw [hstep.model, hstep.candidate, hstep.candidateGeneration, hstep.policyGeneration,
    hstep.rootScope, hroot]
  rcases h with ⟨record, hrecord, hlt⟩ | hlt | ⟨root, hfound, hlt⟩
  · obtain ⟨record', hrecord', hle⟩ := hgrown.versions _ _ record hrecord
    exact Or.inl ⟨record', hrecord', hlt.trans_le hle⟩
  · exact Or.inr (Or.inl (hlt.trans_le hgrown.policy))
  · obtain ⟨root', hfound', hle⟩ := hgrown.scopes _ root hfound
    exact Or.inr (Or.inr ⟨root', hfound', hlt.trans_le hle⟩)

theorem stageScopes_step {driven strict : Prop} (hstep : PlanStep driven strict plan plan')
    (stage : StageDefinition) : plan'.stageScopes stage = plan.stageScopes stage := by
  simp only [RolloutPlan.stageScopes, RolloutPlan.cohortScopes, RolloutPlan.cohort, hstep.cohorts]

/-- A plan only leaves scopes behind. -/
theorem ahead_step {driven strict : Prop} (hstep : PlanStep driven strict plan plan') :
    plan'.ahead ⊆ plan.ahead := by
  have hindex : plan.currentStageIndex ≤ plan'.currentStageIndex := by
    have hmoved := hstep.index
    omega
  have hscopes : plan'.stageScopes = plan.stageScopes := funext (stageScopes_step hstep)
  intro reached hreached
  rw [RolloutPlan.ahead, hstep.stages, hscopes, List.mem_flatMap] at hreached
  obtain ⟨stage, hstage, hmem⟩ := hreached
  rw [RolloutPlan.ahead, List.mem_flatMap]
  exact ⟨stage, List.drop_subset_drop_left _ hindex hstage, hmem⟩

/-- A plan that is stuck stays stuck as long as it lives. -/
theorem stuck_step {strict : Prop} (hstep : PlanStep False strict plan plan')
    (hstuck : plan.stuck = true) (hlive : plan'.live = true) : plan'.stuck = true := by
  obtain ⟨_, hgeneration, _⟩ := hstep.undriven.resolve_left id
  rw [RolloutPlan.stuck, Bool.and_eq_true] at hstuck ⊢
  refine ⟨hstep.stays_entered hstuck.1 hlive, ?_⟩
  obtain ⟨entry, hentry, hdecided⟩ := List.any_eq_true.mp hstuck.2
  refine List.any_eq_true.mpr ⟨entry, hstep.history.subset hentry, ?_⟩
  rw [hgeneration]
  exact hdecided

theorem unreached_step {strict : Prop} (hgrown : Grown s s')
    (hstep : PlanStep False strict plan plan') (h : s.mayReach plan scope = false) :
    s'.mayReach plan' scope = false := by
  obtain ⟨_, _, hroot⟩ := hstep.undriven.resolve_left id
  rw [mayReach_eq_false] at h ⊢
  intro hlive hstuck houtdated hmem
  apply h (hstep.live hlive)
  · by_contra hwas
    rw [stuck_step hstep (by simpa using hwas) hlive] at hstuck
    cases hstuck
  · by_contra hwas
    rw [outdated_grown hgrown hstep hroot (by simpa using hwas)] at houtdated
    cases houtdated
  · exact ahead_step hstep hmem

theorem Harmless.step {strict : Prop} (h : Harmless s scope plan) (hgrown : Grown s s')
    (hstep : PlanStep False strict plan plan') : Harmless s' scope plan' where
  unreached := unreached_step hgrown hstep h.unreached
  root hroot := by
    obtain ⟨_, _, hsame⟩ := hstep.undriven.resolve_left id
    obtain ⟨hvalid, root, hfound, hlt⟩ := h.root (hstep.rootScope.symm.trans hroot)
    obtain ⟨root', hfound', hle⟩ := hgrown.scopes _ root hfound
    rw [hsame]
    exact ⟨hvalid, root', hfound', hlt.trans_le hle⟩

/-- A harmless plan that is current is rooted elsewhere and has left the scope behind. -/
theorem Harmless.elsewhere (h : Harmless s scope plan) (hlive : plan.live = true)
    (hstuck : plan.stuck = false) (hcurrent : s.checkPlanBindings plan = none) :
    plan.rootScope ≠ scope ∧ scope ∉ plan.ahead := by
  obtain ⟨houtdated, root, hfound, hbound⟩ := outdated_of_current hcurrent
  refine ⟨?_, mayReach_eq_false.mp h.unreached hlive hstuck houtdated⟩
  rintro rfl
  obtain ⟨_, found, hfound', hlt⟩ := h.root rfl
  obtain rfl := Option.some.inj (hfound.symm.trans hfound')
  exact hlt.ne hbound

/-- A plan that is rooted elsewhere and has left the scope behind stays harmless however it
is driven. -/
theorem harmless_of_elsewhere {driven strict : Prop} (hstep : PlanStep driven strict plan plan')
    (hroot : plan.rootScope ≠ scope) (hbehind : scope ∉ plan.ahead) : Harmless s' scope plan' where
  unreached := mayReach_eq_false.mpr fun _ _ _ hmem => hbehind (ahead_step hstep hmem)
  root hrooted := absurd (hstep.rootScope.symm.trans hrooted) hroot

/-! ## What a rollback leaves -/

/-- The plans of a rollback's candidate that could still reach its scope are named by it or
rooted in the scope; those rooted there are bound to a generation of it that the rollback
leaves behind. -/
def EngineState.Covers (s : EngineState) (request : RollbackRequest) : Prop :=
  ∀ plan ∈ s.rollouts.values, plan.model = request.model → plan.candidate = request.candidate →
    (s.mayReach plan request.scope = true →
      plan.rootScope = request.scope ∨ request.rollout.valid = true ∧ request.rollout = plan.id) ∧
    (plan.rootScope = request.scope → plan.rootScopeGeneration.valid = true ∧
      (s.scopes.find request.scope).any (fun root =>
        decide (plan.rootScopeGeneration < root.generation.nextGeneration)) = true)

instance (s : EngineState) (request : RollbackRequest) : Decidable (s.Covers request) := by
  unfold EngineState.Covers
  infer_instance

/-- The plans of an older store are all stored, and those of a rollback's candidate are
harmless in its scope. -/
def EngineState.KeepsOut (s : EngineState) (older : OrdMap UInt64 RolloutPlan)
    (request : RollbackRequest) : Prop :=
  ∀ key, (older.get? key).isSome = true → ∃ plan, s.rollouts.get? key = some plan ∧
    (plan.model = request.model → plan.candidate = request.candidate →
      Harmless s request.scope plan)

/-- A stopped plan is not live. -/
theorem not_live_stopRollout {rollout : RolloutId} {rollback : RollbackId}
    {generation : RollbackGeneration}
    (hplan : (s.stopRollout rollout rollback generation).rolloutOf rollout = some plan) :
    plan.live = false := by
  unfold stopRollout at hplan
  cases hstored : s.rolloutOf rollout with
  | none =>
    rw [hstored] at hplan
    exact absurd (hstored.symm.trans hplan) (Option.some_ne_none plan).symm
  | some stored =>
    have hkept : s.rollouts.get? rollout.raw = some stored := hstored
    rw [hstored] at hplan
    dsimp only at hplan
    split_ifs at hplan with hlive
    · simp only [rolloutOf, modifyRollout, bumpSequence, OrdMap.get?_modify_self, hkept,
        Option.map_some, Option.some.injEq] at hplan
      rw [← hplan]
      simp [RolloutPlan.live, markRollback, rolledBackPlan]
    · simp only [rolloutOf, modifyRollout, bumpSequence, OrdMap.get?_modify_self, hkept,
        Option.map_some, Option.some.injEq] at hplan
      rw [← hplan]
      simpa [RolloutPlan.live, markRollback] using hlive

/-- What an accepted rollback does to the plans and to the generation of its scope. -/
structure RolledBack (s : EngineState) (request : RollbackRequest) (s' : EngineState) :
    Prop where
  grown : Grown s s'
  plans : ∀ key plan, s.rollouts.get? key = some plan →
    ∃ plan', s'.rollouts.get? key = some plan' ∧ PlanStep False False plan plan'
  named : request.rollout.valid = true → ∀ plan, s'.rolloutOf request.rollout = some plan →
    plan.live = false
  scope : ∀ root, s.scopes.find request.scope = some root →
    ∃ root', s'.scopes.find request.scope = some root' ∧
      root.generation.nextGeneration ≤ root'.generation

theorem rolledBack_of_accepted (hs : ReachableState c s) {request : RollbackRequest}
    (haccepted : (s.rollback request).2.decision.allowed = true) :
    RolledBack s request (s.rollback request).1 := by
  have hchain := (rollback_progresses (c := c) hs.coherent request fun h : False => h.elim).chain
  rcases rollsBack hs.coherent hs.standing request with
    ⟨_, hrefused, _⟩ | ⟨_, _, hrefused⟩ | ⟨_, _, _, candidate, target, _, mid, htaken, hstate⟩
  · rw [hrefused] at haccepted
    cases haccepted
  · rw [hrefused] at haccepted
    cases haccepted
  · refine ⟨hchain.grown, ?_, ?_, ?_⟩
    · intro key plan hplan
      obtain ⟨plan', hplan', hstep⟩ := hchain.plan_stands hplan
      exact ⟨plan', hplan', hstep.relax id False.elim⟩
    · intro hvalid plan hplan
      rw [hstate, finishRollback, if_pos hvalid] at hplan
      exact not_live_stopRollout hplan
    · intro root hroot
      obtain ⟨_, _, hscopes⟩ := finishRollback_kept mid request candidate ⟨s.nextRollbackId⟩
        candidate.rollbackGeneration.nextGeneration
      refine ⟨root.touched.touched, ?_, Ident.le_nextGeneration root.touched.generation⟩
      rw [hstate, hscopes, htaken.scopes, ScopeRegistry.find_touch, ScopeRegistry.find_touch]
      simp [hroot, RollbackRequest.grant]

/-- After an accepted rollback that covers them, the plans of its candidate are harmless. -/
theorem keepsOut_rollback (hs : ReachableState c s) {request : RollbackRequest}
    (haccepted : (s.rollback request).2.decision.allowed = true) (hcovers : s.Covers request) :
    (s.rollback request).1.KeepsOut s.rollouts request := by
  have hback := rolledBack_of_accepted hs haccepted
  intro key hstored
  obtain ⟨plan, hplan⟩ := Option.isSome_iff_exists.mp hstored
  obtain ⟨plan', hplan', hstep⟩ := hback.plans key plan hplan
  refine ⟨plan', hplan', ?_⟩
  intro hmodel hcandidate
  obtain ⟨hreach, hrooted⟩ := hcovers plan (OrdMap.mem_values_iff.mpr ⟨key, hplan⟩)
    (hstep.model.symm.trans hmodel) (hstep.candidate.symm.trans hcandidate)
  obtain ⟨_, _, hsame⟩ := hstep.undriven.resolve_left id
  have hroot : plan.rootScope = request.scope → plan'.rootScopeGeneration.valid = true ∧
      ∃ root, (s.rollback request).1.scopes.find request.scope = some root ∧
        plan'.rootScopeGeneration < root.generation := by
    intro hroot
    obtain ⟨hvalid, hbound⟩ := hrooted hroot
    obtain ⟨root, hfound, hlt⟩ := Option.any_eq_true _ _ |>.mp hbound
    obtain ⟨root', hfound', hle⟩ := hback.scope root hfound
    rw [hsame]
    exact ⟨hvalid, root', hfound', (of_decide_eq_true hlt).trans_le hle⟩
  refine ⟨?_, fun hrooted => hroot (hstep.rootScope.symm.trans hrooted)⟩
  cases hmay : s.mayReach plan request.scope with
  | false => exact unreached_step hback.grown hstep hmay
  | true =>
    rw [mayReach_eq_false]
    intro hlive _ houtdated _
    rcases hreach hmay with hrooted | ⟨hvalid, hnamed⟩
    · obtain ⟨_, root, hfound, hlt⟩ := hroot hrooted
      have hstale : (s.rollback request).1.outdated plan' = true := by
        rw [outdated_eq_true, hstep.rootScope, hrooted]
        exact Or.inr (Or.inr ⟨root, hfound, hlt⟩)
      rw [hstale] at houtdated
      cases houtdated
    · have hkey : key = request.rollout.raw := by
        rw [hnamed, ← hs.coherent.rollouts key plan hplan]
      rw [hkey] at hplan'
      rw [hback.named hvalid plan' hplan'] at hlive
      cases hlive

/-! ## The operations that drive a plan on -/

/-- The scopes a stage commit may grant in are ahead of the plan. -/
theorem frontier_subset_ahead (hstage : plan.currentStageIndex < plan.stages.length) :
    plan.frontier ⊆ plan.ahead := by
  intro reached hreached
  rw [RolloutPlan.frontier, List.mem_append] at hreached
  rw [RolloutPlan.ahead, List.mem_flatMap]
  rcases hreached with hreached | hreached
  · refine ⟨plan.currentStage, ?_, hreached⟩
    rw [List.drop_eq_getElem_cons hstage, RolloutPlan.currentStage,
      List.getElem?_eq_getElem hstage]
    exact List.mem_cons_self
  · by_cases hnext : plan.currentStageIndex + 1 < plan.stages.length
    · refine ⟨plan.nextStage, ?_, hreached⟩
      rw [List.drop_eq_getElem_cons hstage, List.drop_eq_getElem_cons hnext,
        RolloutPlan.nextStage, List.getElem?_eq_getElem hnext]
      exact List.mem_cons_of_mem _ List.mem_cons_self
    · have hlast : plan.nextStage = {} := by
        rw [RolloutPlan.nextStage, List.getElem?_eq_none (by omega)]
        rfl
      rw [hlast] at hreached
      cases hreached

/-- An operation that drives no plan leaves the harmless ones harmless. -/
theorem keepsOut_undriven {older : OrdMap UInt64 RolloutPlan} {request : RollbackRequest}
    (hgrown : Grown s s')
    (hplans : ∀ key plan, s.rollouts.get? key = some plan →
      ∃ plan', s'.rollouts.get? key = some plan' ∧ PlanStep False False plan plan')
    (h : s.KeepsOut older request) : s'.KeepsOut older request := by
  intro key hold
  obtain ⟨plan, hplan, hharmless⟩ := h key hold
  obtain ⟨plan', hplan', hstep⟩ := hplans key plan hplan
  refine ⟨plan', hplan', ?_⟩
  intro hmodel hcandidate
  have hwas := hharmless (hstep.model.symm.trans hmodel) (hstep.candidate.symm.trans hcandidate)
  exact hwas.step hgrown hstep

/-- Driving a live plan that matches the registry leaves the harmless ones harmless. -/
theorem keepsOut_driven {older : OrdMap UInt64 RolloutPlan} {request : RollbackRequest}
    {rollout : RolloutId} {grants : AuthorityBinding → Prop}
    (hchain : Chain c (Permit.driving rollout grants) s s')
    (hplan : s.rolloutOf rollout = some plan) (hlive : plan.live = true)
    (hstuck : plan.stuck = false) (hcurrent : s.checkPlanBindings plan = none)
    (h : s.KeepsOut older request) : s'.KeepsOut older request := by
  intro key hold
  obtain ⟨stored, hstored, hharmless⟩ := h key hold
  obtain ⟨after, hafter, hstep⟩ := hchain.plan_stands hstored
  refine ⟨after, hafter, ?_⟩
  intro hmodel hcandidate
  have hwas := hharmless (hstep.model.symm.trans hmodel) (hstep.candidate.symm.trans hcandidate)
  by_cases hkey : key = rollout.raw
  · rw [hkey] at hstored
    obtain rfl : plan = stored := Option.some.inj (hplan.symm.trans hstored)
    obtain ⟨hroot, hbehind⟩ := hwas.elsewhere hlive hstuck hcurrent
    exact harmless_of_elsewhere hstep hroot hbehind
  · exact hwas.step hchain.grown (hstep.relax (fun hdrives => hkey hdrives) fun h => h)

/-- Every step but an import leaves the harmless plans harmless. -/
theorem keepsOut_step (hs : Coherent s) {older : OrdMap UInt64 RolloutPlan}
    {request : RollbackRequest} {op : Operation}
    (himport : op.isImport = true → (step c s op).KeepsOut older request)
    (h : s.KeepsOut older request) : (step c s op).KeepsOut older request := by
  by_cases hop : op.isImport = true
  · exact himport hop
  · rw [Bool.not_eq_true] at hop
    have hcase := step_cases (c := c) hs op
    by_cases hdrives : op.drives = true
    · cases op with
      | beginRollout progress =>
        change (s.beginRollout progress).1.KeepsOut older request
        cases hplan : s.rolloutOf progress.rollout with
        | none => simpa [beginRollout, hplan] using h
        | some plan =>
          cases hrefusal : s.beginRefusal progress plan with
          | some refusal => simpa [beginRollout, hplan, hrefusal] using h
          | none =>
            have hchain := (beginRollout_progresses (c := c) hs progress hplan).chain
            obtain ⟨hlive, hentered, _, hcurrent⟩ := begin_permitted hrefusal
            have hfree : plan.stuck = false := by rw [RolloutPlan.stuck, hentered, Bool.false_and]
            exact keepsOut_driven hchain hplan hlive hfree hcurrent h
      | advanceStage progress =>
        change (s.advanceStage progress).1.KeepsOut older request
        cases hplan : s.rolloutOf progress.rollout with
        | none => simpa [advanceStage, hplan] using h
        | some plan =>
          cases advanceStage_cases hplan with
          | refused hsame =>
            rw [hsame]
            exact h
          | failed _ hstate =>
            have hchain := (failCurrentStage_moves (c := c) hs progress hplan
              (s.evaluateStageAdvance progress) fun h : False => h.elim).chain
            rw [hstate]
            refine keepsOut_undriven hchain.grown ?_ h
            intro key stored hstored
            obtain ⟨after, hafter, hstep⟩ := hchain.plan_stands hstored
            exact ⟨after, hafter, hstep⟩
          | committed hlive hcurrent hentered hstage hopen hstate =>
            have hchain := (commitStage_moves (c := c) hs progress.rollout hplan hlive hentered
              hstage hopen).chain
            have hfree : plan.stuck = false := by rw [RolloutPlan.stuck, hopen, Bool.and_false]
            rw [hstate]
            exact keepsOut_driven hchain hplan hlive hfree hcurrent h
      | _ => cases hdrives
    · rw [Bool.not_eq_true] at hdrives
      exact keepsOut_undriven (hcase.grown hop)
        (fun _ _ hplan => hcase.undriven hop hdrives hplan) h

/-! ## What a chain grants -/

/-- A live binding that serves: exclusively, as a canary or with a share of the traffic. -/
def AuthorityBinding.serving (binding : AuthorityBinding) : Bool :=
  binding.live && (decide (binding.kind = .exclusive) || decide (binding.kind = .canary) ||
    decide (binding.kind = .splitTraffic))

/-- No binding of a version serves in a scope that did not do so before. -/
def GrantsNothing (s s' : EngineState) (model : ModelId) (version : ModelVersionId)
    (scope : ScopeId) : Prop :=
  ∀ binding ∈ s'.authority.bindingsFor scope, binding.ofVersion model version = true →
    binding.serving = true → binding ∈ s.authority.bindingsFor scope

theorem serving_of_weakens {before after : AuthorityBinding} (h : before.Weakens after)
    (hserving : after.serving = true) : after = before := by
  obtain rfl | rfl | ⟨_, _, rfl⟩ := h
  · rfl
  · simp [AuthorityBinding.serving, AuthorityBinding.supersede, AuthorityBinding.live] at hserving
  · simp [AuthorityBinding.serving] at hserving

/-- A chain grants only what it may. -/
theorem grantsNothing_of_chain {model : ModelId} {version : ModelVersionId}
    (hchain : Chain c p s s')
    (hgrants : ∀ binding, p.grants binding → binding.scope = scope →
      binding.ofVersion model version = true → binding.serving = false) :
    GrantsNothing s s' model version scope := by
  refine Runs.chain_preserves (P := fun t => GrantsNothing s t model version scope) ?_ hchain
    fun _ hbinding _ _ => hbinding
  intro before after heffect hbefore binding hbinding hown hserving
  cases heffect with
  | weaken table hweakened =>
    obtain ⟨origin, horigin, hweakens⟩ := hweakened.exists_before hbinding
    obtain rfl := serving_of_weakens hweakens hserving
    exact hbefore binding horigin hown hserving
  | append mid granted hmid _ _ hp =>
    rcases mem_bindingsFor_push.mp hbinding with hkept | ⟨hscope, rfl⟩
    · obtain ⟨origin, horigin, hweakens⟩ := hmid.exists_before hkept
      obtain rfl := serving_of_weakens hweakens hserving
      exact hbefore binding horigin hown hserving
    · rw [hgrants binding hp hscope.symm hown] at hserving
      cases hserving
  | _ => exact hbefore binding hbinding hown hserving

/-! ## Late successes -/

/-- A plan grants its own candidate only, and only in the scopes it may. -/
theorem serving_of_grantsIn {model : ModelId} {version : ModelVersionId} {scopes : List ScopeId}
    {binding : AuthorityBinding} (h : plan.grantsIn scopes binding)
    (hown : binding.ofVersion model version = true) (hserving : binding.serving = true) :
    plan.model = model ∧ plan.candidate = version ∧ binding.scope ∈ scopes := by
  obtain ⟨hscope, hretained | ⟨hmodel, hversion⟩⟩ := h
  · simp [AuthorityBinding.serving, hretained] at hserving
  · rw [AuthorityBinding.ofVersion_iff] at hown
    exact ⟨hmodel.symm.trans hown.1, hversion.symm.trans hown.2, hscope⟩

/-- A failed stage grants nothing when its plan is bound to an older generation of its root
scope: the automatic rollback is refused. -/
theorem failCurrentStage_of_outdated {request : RolloutProgressRequest} {gate : Decision}
    {root : ScopeRecord} (hroot : s.scopes.find plan.rootScope = some root)
    (hvalid : plan.rootScopeGeneration.valid = true)
    (holder : plan.rootScopeGeneration < root.generation) :
    (s.failCurrentStage request plan gate).1 =
      s.commitFailure request.rollout plan gate.reasons false := by
  have hscopes : (s.commitFailure request.rollout plan gate.reasons false).scopes = s.scopes := by
    simp [commitFailure, stampVersion, advanceVersion]
  have hrefused : ∀ record, ((s.commitFailure request.rollout plan gate.reasons
      false).evaluateRollback ((s.commitFailure request.rollout plan gate.reasons
        false).automaticRollback request plan record)).allowed = false := by
    intro record
    by_contra hallowed
    obtain ⟨candidate, target, hpermitted⟩ := rollback_permitted (by simpa using hallowed)
    have hcited := hpermitted.scopeGeneration root
    rw [hscopes] at hcited
    exact holder.ne (hcited hroot hvalid)
  unfold failCurrentStage
  dsimp only
  split
  · rfl
  · split
    · rfl
    · rename_i record _
      rw [hrefused record, Bool.not_false, if_pos rfl]

/-- A stage advance of a plan that is kept out grants nothing to the candidate in the scope. -/
theorem advanceStage_grantsNothing (hs : Coherent s) {older : OrdMap UInt64 RolloutPlan}
    {request : RollbackRequest} (hkeeps : s.KeepsOut older request)
    {progress : RolloutProgressRequest}
    (hold : (older.get? progress.rollout.raw).isSome = true) :
    GrantsNothing s (s.advanceStage progress).1 request.model request.candidate
      request.scope := by
  obtain ⟨plan, hplan, hharmless⟩ := hkeeps progress.rollout.raw hold
  cases advanceStage_cases hplan with
  | refused hsame =>
    rw [hsame]
    exact fun _ hbinding _ _ => hbinding
  | failed _ hstate =>
    rw [hstate]
    by_cases hroot : (plan.model = request.model ∧ plan.candidate = request.candidate) ∧
        plan.rootScope = request.scope
    · obtain ⟨⟨hmodel, hcandidate⟩, hrooted⟩ := hroot
      obtain ⟨hvalid, root, hfound, hlt⟩ := (hharmless hmodel hcandidate).root hrooted
      rw [failCurrentStage_of_outdated (hrooted ▸ hfound) hvalid hlt]
      have hmoves := moves_commitFailure (c := {}) (p := Permit.closing False) s progress.rollout
        plan (s.evaluateStageAdvance progress).reasons false trivial False.elim
      exact grantsNothing_of_chain hmoves.chain fun _ hp _ _ => False.elim hp
    · have hmoves := failCurrentStage_moves (c := {}) hs progress hplan
        (s.evaluateStageAdvance progress) fun h : False => h.elim
      refine grantsNothing_of_chain hmoves.chain ?_
      intro binding hp hscope hown
      by_contra hserving
      obtain ⟨hmodel, hcandidate, hin⟩ := serving_of_grantsIn hp hown (by simpa using hserving)
      apply hroot
      exact ⟨⟨hmodel, hcandidate⟩, (List.mem_singleton.mp hin).symm.trans hscope⟩
  | committed hlive hcurrent hentered hstage hopen hstate =>
    have hmoves := commitStage_moves (c := {}) hs progress.rollout hplan hlive hentered hstage hopen
    rw [hstate]
    refine grantsNothing_of_chain hmoves.chain ?_
    intro binding hp hscope hown
    by_contra hserving
    obtain ⟨hmodel, hcandidate, hin⟩ := serving_of_grantsIn hp hown (by simpa using hserving)
    have hfree : plan.stuck = false := by rw [RolloutPlan.stuck, hopen, Bool.and_false]
    obtain ⟨_, hbehind⟩ := (hharmless hmodel hcandidate).elsewhere hlive hfree hcurrent
    exact hbehind (frontier_subset_ahead hstage (hscope ▸ hin))

/-- The imports that follow a rollback restore the older plans, harmless in its scope. -/
def ImportsKeepOut (c : EngineConfig) (older : OrdMap UInt64 RolloutPlan)
    (request : RollbackRequest) (s : EngineState) (op : Operation) : Prop :=
  op.isImport = true → (step c s op).KeepsOut older request

/-- After an accepted rollback that covers the plans of its candidate, no stage advance of a
plan stored before it grants the candidate authority in the scope again, whatever
operations lie in between. -/
theorem late_success_grants_nothing (hs : ReachableState c s) {request : RollbackRequest}
    (haccepted : (s.rollback request).2.decision.allowed = true) (hcovers : s.Covers request)
    {ops : List Operation}
    (hops : Runs.Along (step c) (ImportsKeepOut c s.rollouts request)
      (step c s (.rollback request)) ops)
    {progress : RolloutProgressRequest}
    (hold : (s.rolloutOf progress.rollout).isSome = true) :
    GrantsNothing (runOps c s (.rollback request :: ops))
      ((runOps c s (.rollback request :: ops)).advanceStage progress).1 request.model
      request.candidate request.scope := by
  have hback : Coherent (step c s (.rollback request)) ∧
      (step c s (.rollback request)).KeepsOut s.rollouts request :=
    ⟨(step_cases hs.coherent _).coherent hs.coherent, keepsOut_rollback hs haccepted hcovers⟩
  obtain ⟨hcoherent, hkeeps⟩ := Runs.run_preserves (step c)
    (P := fun t => Coherent t ∧ t.KeepsOut s.rollouts request) (by
      rintro t op ⟨ht, hkept⟩ himport
      exact ⟨(step_cases ht op).coherent ht, keepsOut_step ht himport hkept⟩) hops hback
  exact advanceStage_grantsNothing hcoherent hkeeps hold

/-- Two versions, the second in canary in a site under the root of its rollout. -/
def rollingOutBelow (root : ScopeId) : List Operation :=
  [.registerModel [109] [] .synthetic,
    .registerVersion
      { model := ⟨1⟩, label := [49]
        artifact := { setId := ⟨1⟩, generation := ⟨1⟩, digest := [97] } },
    .registerVersion
      { model := ⟨1⟩, label := [50]
        artifact := { setId := ⟨1⟩, generation := ⟨1⟩, digest := [97] } },
    .publishCompatibility ⟨1⟩ { key := [101] } .compatible [] .synthetic,
    .publishCompatibility ⟨2⟩ { key := [101] } .compatible [] .synthetic,
    .registerScope (text "global/site:a"),
    .promote { model := ⟨1⟩, candidate := ⟨2⟩, scope := ⟨1⟩, environmentKey := [101] },
    .createRollout
      { model := ⟨1⟩, candidate := ⟨2⟩, rootScope := root
        cohorts := [{ name := [99], scopes := [⟨2⟩] }]
        stages := [{ name := [115], cohortIndices := [0] }] },
    .beginRollout { rollout := ⟨1⟩ }]

/-- The rollback of the second version in the site. -/
def siteRollback : RollbackRequest :=
  { model := ⟨1⟩, candidate := ⟨2⟩, target := ⟨1⟩, scope := ⟨2⟩ }

theorem late_success_grants_nothing_witness :
    GrantsNothing (runOps {} (runOps {} (init {}) (rollingOutBelow ⟨2⟩))
        [.rollback siteRollback, .supersedeRollout ⟨1⟩ {} {} []])
      ((runOps {} (runOps {} (init {}) (rollingOutBelow ⟨2⟩))
        [.rollback siteRollback, .supersedeRollout ⟨1⟩ {} {} []]).advanceStage
          { rollout := ⟨1⟩ }).1 ⟨1⟩ ⟨2⟩ ⟨2⟩ := by
  have hops : Runs.Along (step {})
      (ImportsKeepOut {} (runOps {} (init {}) (rollingOutBelow ⟨2⟩)).rollouts siteRollback)
      (step {} (runOps {} (init {}) (rollingOutBelow ⟨2⟩)) (.rollback siteRollback))
      [.supersedeRollout ⟨1⟩ {} {} []] :=
    ⟨fun himport => absurd himport Bool.false_ne_true, trivial⟩
  exact late_success_grants_nothing ⟨rollingOutBelow ⟨2⟩, rfl⟩ (by decide +kernel)
    (by decide +kernel) hops (by decide +kernel)

/-- The rollout is rooted above the site, and the rollback does not name it. -/
theorem late_success_grants_nothing_counterexample :
    ¬∀ (c : EngineConfig) (s : EngineState), ReachableState c s →
      ∀ request : RollbackRequest, (s.rollback request).2.decision.allowed = true →
        ∀ (ops : List Operation) (progress : RolloutProgressRequest),
          (s.rolloutOf progress.rollout).isSome = true →
            GrantsNothing (runOps c s (.rollback request :: ops))
              ((runOps c s (.rollback request :: ops)).advanceStage progress).1 request.model
              request.candidate request.scope := by
  intro hclaim
  have hnothing := hclaim {} (runOps {} (init {}) (rollingOutBelow ⟨1⟩)) ⟨rollingOutBelow ⟨1⟩, rfl⟩
    siteRollback (by decide +kernel) [] { rollout := ⟨1⟩ } (by decide +kernel)
  have hgranted : ¬∀ binding ∈ ((runOps {} (runOps {} (init {}) (rollingOutBelow ⟨1⟩))
      [.rollback siteRollback]).advanceStage { rollout := ⟨1⟩ }).1.authority.bindingsFor ⟨2⟩,
      binding.ofVersion ⟨1⟩ ⟨2⟩ = true → binding.serving = true →
        binding ∈ (runOps {} (runOps {} (init {}) (rollingOutBelow ⟨1⟩))
          [.rollback siteRollback]).authority.bindingsFor ⟨2⟩ := by
    decide +kernel
  exact hgranted hnothing

end LifecycleFabric
