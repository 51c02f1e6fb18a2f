import LifecycleFabric.Engine.Enrollments
import LifecycleFabric.Engine.Plans
import LifecycleFabric.Properties.Identities
import LifecycleFabric.Properties.PlanRequests
import LifecycleFabric.ScopeCalls
import LifecycleFabric.StateFile.Sections

/-!
# References between the tables

Versions name their model and a predecessor, facts and evidence name a version, plans name their
candidate and the scopes of their cohorts, bindings name a scope and a rollout, refinements name
a scope. A state file is refused when it names what it does not hold.
-/

namespace LifecycleFabric

open EngineState Runs AuthorityTable

variable {c : EngineConfig} {p : Permit} {s s' : EngineState} {d : DurableState}

/-! ## What each entry refers to -/

/-- The model of a version is stored, and its predecessor is another version of the model that
does not name it in turn. -/
structure VersionRefers (s : EngineState) (record : ModelVersionRecord) : Prop where
  model : s.models.contains record.model.raw = true
  predecessor : record.predecessor.valid = true → record.predecessor ≠ record.version ∧
    ∃ parent, s.versionOf record.model record.predecessor = some parent ∧
      parent.predecessor ≠ record.version

/-- The candidate of a plan, the scopes of its cohorts and the cohorts of its stages are there,
and so is the history of a plan that entered a stage. -/
structure PlanRefers (s : EngineState) (plan : RolloutPlan) : Prop where
  candidate : (s.versionOf plan.model plan.candidate).isSome = true
  stages : plan.stages ≠ []
  history : plan.currentStageGeneration.valid = true → plan.history ≠ []
  scopes : ∀ cohort ∈ plan.cohorts, ∀ scope ∈ cohort.scopes, (s.scopes.find scope).isSome = true
  cohorts : ∀ stage ∈ plan.stages, ∀ id ∈ stage.cohorts, ∃ cohort ∈ plan.cohorts, cohort.id = id
  index : plan.live = true → plan.currentStageIndex < plan.stages.length

/-- The scope and the rollout of a binding are there. -/
structure BindingCites (s : EngineState) (binding : AuthorityBinding) : Prop where
  scope : (s.scopes.find binding.scope).isSome = true
  rollout : binding.rollout.valid = true → ∃ plan, s.rollouts.get? binding.rollout.raw = some plan ∧
    plan.generation = binding.rolloutGeneration

/-- Every entry of the tables refers to entries that are there. -/
structure Consistent (s : EngineState) : Prop where
  scopes : s.scopes.Shaped
  versions : ∀ key record, s.versions.get? key = some record → VersionRefers s record
  facts : ∀ key fact, s.compatibility.facts.get? key = some fact →
    (s.versionOf fact.model fact.version).isSome = true
  plans : ∀ key plan, s.rollouts.get? key = some plan → PlanRefers s plan
  bindings : ∀ scope, ∀ binding ∈ s.authority.bindingsFor scope, BindingCites s binding
  overrides : ∀ key ∈ s.policy.overrides.keys, (s.scopes.find ⟨key⟩).isSome = true
  evidence : ∀ key, ∀ record ∈ s.evidence.bucket key,
    (s.versionOf record.subject.model record.subject.version).isSome = true

/-- A durable state whose sections agree, and in which every plan that entered a stage has a
history. -/
structure DurableState.Agrees (d : DurableState) : Prop where
  sections : StateFile.sectionsAgree d = true
  histories : ∀ key plan, d.rollouts.get? key = some plan →
    plan.currentStageGeneration.valid = true → plan.history ≠ []

/-- An operation that takes in no durable state that disagrees. -/
def Operation.TakesAgreed (c : EngineConfig) (s : EngineState) : Operation → Prop
  | .importDurableState d newEpoch =>
    ∀ recovered, d.validate c s newEpoch = .ok recovered → d.Agrees
  | _ => True

/-! ## What is referred to stays -/

/-- Nothing that an entry may refer to is lost. -/
structure KeepsReferents (s s' : EngineState) : Prop where
  models : ∀ key, s.models.contains key = true → s'.models.contains key = true
  versions : ∀ model version record, s.versionOf model version = some record →
    ∃ record', s'.versionOf model version = some record' ∧ record.SameOrigin record'
  scopes : ∀ scope, (s.scopes.find scope).isSome = true → (s'.scopes.find scope).isSome = true
  plans : ∀ key plan, s.rollouts.get? key = some plan →
    ∃ plan', s'.rollouts.get? key = some plan' ∧ PlanStep True False plan plan'

theorem KeepsReferents.isSome (h : KeepsReferents s s') {model : ModelId}
    {version : ModelVersionId} (hsome : (s.versionOf model version).isSome = true) :
    (s'.versionOf model version).isSome = true := by
  obtain ⟨record, hrecord⟩ := Option.isSome_iff_exists.mp hsome
  obtain ⟨record', hrecord', _⟩ := h.versions model version record hrecord
  rw [hrecord']
  rfl

/-- A step loses none of the scopes. -/
theorem step_scope_stands (hs : Coherent s) {op : Operation} (hop : op.isImport = false)
    {scope : ScopeId} (hscope : (s.scopes.find scope).isSome = true) :
    ((step c s op).scopes.find scope).isSome = true := by
  have hcase := step_cases (c := c) hs op
  generalize step c s op = t at hcase ⊢
  cases hcase with
  | aside h =>
    obtain ⟨record, hrecord⟩ := Option.isSome_iff_exists.mp hscope
    obtain ⟨record', hrecord', _⟩ := h.grown.scopes scope record hrecord
    rw [hrecord']
    rfl
  | chain p _ _ _ h => exact h.scope_stands hscope
  | recover => cases hop

/-- A step loses none of the models. -/
theorem step_model_stands (hs : Coherent s) {op : Operation} (hop : op.isImport = false)
    {key : UInt64} (hkey : s.models.contains key = true) :
    (step c s op).models.contains key = true := by
  cases hnames : op.namesModels with
  | false => rwa [((step_enrolled (c := c) hs op).models hnames).1]
  | true =>
    cases op with
    | registerModel name family provenance =>
      have hstep : step c s (.registerModel name family provenance) =
          (s.registerModel c name family provenance).1 := rfl
      rw [hstep]
      rcases registerModel_added (c := c) s name family provenance with hsame | ⟨record, hadded⟩
      · rwa [hsame]
      · obtain ⟨stored, hstored⟩ := OrdMap.contains_iff.mp hkey
        rw [OrdMap.contains_iff, hadded.models, OrdMap.get?_insertNew]
        split_ifs
        · exact ⟨_, rfl⟩
        · exact ⟨stored, hstored⟩
    | importDurableState d newEpoch => cases hop
    | _ => cases hnames

theorem step_keepsReferents (hs : Coherent s) {op : Operation} (hop : op.isImport = false) :
    KeepsReferents s (step c s op) where
  models _ hkey := step_model_stands hs hop hkey
  versions _ _ _ hrecord := step_version_origin hs hop hrecord
  scopes _ hscope := step_scope_stands hs hop hscope
  plans _ _ hplan := step_plan_stands hs hop hplan

theorem VersionRefers.kept {record record' : ModelVersionRecord} (h : VersionRefers s record)
    (hkeeps : KeepsReferents s s') (hsame : record.SameOrigin record') :
    VersionRefers s' record' where
  model := by
    rw [hsame.model]
    exact hkeeps.models _ h.model
  predecessor := by
    rw [hsame.predecessor, hsame.model, hsame.version]
    intro hvalid
    obtain ⟨hother, parent, hparent, hback⟩ := h.predecessor hvalid
    obtain ⟨parent', hparent', hsame'⟩ := hkeeps.versions _ _ parent hparent
    exact ⟨hother, parent', hparent', hsame'.predecessor ▸ hback⟩

theorem PlanRefers.kept {plan plan' : RolloutPlan} (h : PlanRefers s plan)
    (hkeeps : KeepsReferents s s') {driven strict : Prop}
    (hstep : PlanStep driven strict plan plan') : PlanRefers s' plan' where
  candidate := by
    rw [hstep.model, hstep.candidate]
    exact hkeeps.isSome h.candidate
  stages := by
    rw [hstep.stages]
    exact h.stages
  history hvalid := by
    rcases hstep.entered with hsame | hentered
    · rw [hsame] at hvalid
      intro hnone
      have hprefix := hstep.history
      rw [hnone, List.prefix_nil] at hprefix
      exact h.history hvalid hprefix
    · exact hentered
  scopes := by
    rw [hstep.cohorts]
    intro cohort hcohort scope hscope
    exact hkeeps.scopes scope (h.scopes cohort hcohort scope hscope)
  cohorts := by
    rw [hstep.stages, hstep.cohorts]
    exact h.cohorts
  index hlive := by
    rw [hstep.stages]
    rcases hstep.index with hsame | ⟨_, hwithin⟩
    · rw [hsame]
      exact h.index (hstep.live hlive)
    · exact hwithin

theorem BindingCites.kept {binding : AuthorityBinding} (h : BindingCites s binding)
    (hscopes : ∀ scope, (s.scopes.find scope).isSome = true →
      (s'.scopes.find scope).isSome = true)
    (hplans : ∀ key plan, s.rollouts.get? key = some plan →
      ∃ plan', s'.rollouts.get? key = some plan' ∧ plan'.generation = plan.generation) :
    BindingCites s' binding where
  scope := hscopes _ h.scope
  rollout hvalid := by
    obtain ⟨plan, hplan, hgeneration⟩ := h.rollout hvalid
    obtain ⟨plan', hplan', hsame⟩ := hplans _ plan hplan
    exact ⟨plan', hplan', hsame.trans hgeneration⟩

theorem BindingCites.weakens {before after : AuthorityBinding} (h : BindingCites s before)
    (hweakens : before.Weakens after) : BindingCites s after := by
  obtain ⟨hscope, _, _, _, hrollout, hplanned, _, _⟩ := hweakens.same
  constructor
  · rw [hscope]
    exact h.scope
  · rw [hrollout, hplanned]
    exact h.rollout

/-! ## Bindings -/

/-- A binding the engine may append cites what is there. -/
theorem Grantable.cites {binding : AuthorityBinding} (h : Grantable s binding)
    (hs : ∀ scope, ∀ held ∈ s.authority.bindingsFor scope, BindingCites s held) :
    BindingCites s binding := by
  obtain ⟨record, hrecord, _⟩ := h.scope
  have hscope : (s.scopes.find binding.scope).isSome = true := by
    rw [hrecord]
    rfl
  refine ⟨hscope, fun hvalid => ?_⟩
  rcases h.origin with ⟨_, hplan⟩ | ⟨source, hsource, _, _, _, hrollout, hplanned⟩
  · obtain ⟨plan, hstored, hgeneration, _⟩ := hplan (.inl hvalid)
    exact ⟨plan, hstored, hgeneration⟩
  · rw [← hrollout, ← hplanned]
    rw [← hrollout] at hvalid
    exact (hs binding.scope source hsource).rollout hvalid

theorem Effect.cites (h : Effect c p s s')
    (hs : ∀ scope, ∀ binding ∈ s.authority.bindingsFor scope, BindingCites s binding) :
    ∀ scope, ∀ binding ∈ s'.authority.bindingsFor scope, BindingCites s' binding := by
  have hscopes : ∀ scope, (s.scopes.find scope).isSome = true →
      (s'.scopes.find scope).isSome = true := fun _ => h.chain.scope_stands
  have hplans : ∀ key plan, s.rollouts.get? key = some plan →
      ∃ plan', s'.rollouts.get? key = some plan' ∧ plan'.generation = plan.generation := by
    intro key plan hplan
    obtain ⟨plan', hplan', hstep⟩ := h.chain.plan_stands hplan
    exact ⟨plan', hplan', hstep.generation⟩
  cases h with
  | weaken table htable =>
    intro scope binding hbinding
    obtain ⟨origin, horigin, hweakens⟩ := htable.exists_before hbinding
    exact ((hs scope origin horigin).weakens hweakens).kept hscopes hplans
  | append mid binding hmid _ hbinding _ =>
    intro scope held hheld
    rcases mem_bindingsFor_push.mp hheld with hheld | ⟨_, rfl⟩
    · obtain ⟨origin, horigin, hweakens⟩ := hmid.exists_before hheld
      exact ((hs scope origin horigin).weakens hweakens).kept hscopes hplans
    · exact (hbinding.cites hs).kept hscopes hplans
  | _ =>
    intro scope binding hbinding
    exact (hs scope binding hbinding).kept hscopes hplans

theorem step_cites (hs : Coherent s) {op : Operation} (hop : op.isImport = false)
    (h : ∀ scope, ∀ binding ∈ s.authority.bindingsFor scope, BindingCites s binding) :
    ∀ scope, ∀ binding ∈ (step c s op).authority.bindingsFor scope,
      BindingCites (step c s op) binding := by
  have hkeeps := step_keepsReferents (c := c) hs hop
  have hcase := step_cases (c := c) hs op
  generalize step c s op = t at hcase hkeeps ⊢
  cases hcase with
  | aside haside =>
    intro scope binding hbinding
    rw [haside.authority] at hbinding
    refine (h scope binding hbinding).kept hkeeps.scopes fun key plan hplan => ?_
    obtain ⟨plan', hplan', hstep⟩ := hkeeps.plans key plan hplan
    exact ⟨plan', hplan', hstep.generation⟩
  | chain p _ _ _ hchain => exact Runs.chain_preserves (fun _ _ hab => hab.cites) hchain h
  | recover => cases hop

/-! ## Scopes -/

theorem ScopeRegistry.Touched.shaped {r r' : ScopeRegistry} (h : r.Touched r')
    (hr : r.Shaped) : r'.Shaped := by
  induction h with
  | refl => exact hr
  | tail _ htouch ih =>
    obtain ⟨id, rfl⟩ := htouch
    exact ih.touch id

theorem step_shaped (hs : Coherent s) {op : Operation} (hop : op.isImport = false)
    (h : s.scopes.Shaped) : (step c s op).scopes.Shaped := by
  cases hregisters : op.registersScopes with
  | false => exact ((step_enrolled (c := c) hs op).scopes hregisters).shaped h
  | true =>
    cases op with
    | registerScope path => exact h.ensurePath path
    | importDurableState d newEpoch => cases hop
    | _ => cases hregisters

/-! ## Versions -/

/-- A version that is registered refers to what is there: the predecessor it names was stored
before, so that it cannot name the new version. -/
theorem EngineState.VersionAdded.refers {record : ModelVersionRecord}
    (h : s.VersionAdded c s' record) (hs : s.HoldsAhead)
    (hall : ∀ key stored, s.versions.get? key = some stored → VersionRefers s stored)
    (hkeeps : KeepsReferents s s') : VersionRefers s' record where
  model := hkeeps.models _ h.model
  predecessor hvalid := by
    have hbelow : ∀ model version stored, s.versionOf model version = some stored →
        version.raw < s.nextVersionId := fun _ _ stored hstored =>
      hs.fresh .version _ (List.mem_map_of_mem (OrdMap.mem_keys_iff.mpr ⟨stored, hstored⟩))
    obtain ⟨parent, hparent⟩ := h.predecessor hvalid
    have hlt := hbelow _ _ parent hparent
    obtain ⟨parent', hparent', hsame⟩ := hkeeps.versions _ _ parent hparent
    rw [h.version]
    refine ⟨?_, parent', hparent', ?_⟩
    · intro hself
      rw [hself] at hlt
      exact lt_irrefl _ hlt
    · rw [hsame.predecessor]
      intro hback
      have hnext : (⟨s.nextVersionId⟩ : ModelVersionId).valid = true := by
        rw [Ident.valid_iff_pos]
        have hlt := UInt64.lt_iff_toNat_lt.mp hlt
        dsimp only
        omega
      have hnamed := (hall _ parent hparent).predecessor (by rw [hback]; exact hnext)
      obtain ⟨_, stored, hstored, _⟩ := hnamed
      rw [hback] at hstored
      exact lt_irrefl _ (hbelow _ _ stored hstored)

theorem step_versionRefers (hs : s.HoldsAhead) {op : Operation} (hop : op.isImport = false)
    (h : ∀ key record, s.versions.get? key = some record → VersionRefers s record) :
    ∀ key record, (step c s op).versions.get? key = some record →
      VersionRefers (step c s op) record := by
  have hkeeps := step_keepsReferents (c := c) hs.coherent hop
  intro key record hrecord
  cases hlabels : op.labelsVersions with
  | false =>
    obtain ⟨before, hbefore, hsame⟩ :=
      step_versions_origin hs.coherent hs.standing hlabels key record hrecord
    exact (h key before hbefore).kept hkeeps hsame
  | true =>
    cases op with
    | registerVersion request =>
      have hstep : step c s (.registerVersion request) = (s.registerVersion c request).1 := rfl
      rw [hstep] at hrecord hkeeps ⊢
      rcases registerVersion_added (c := c) s request with hsame | ⟨added, hadded⟩
      · rw [hsame] at hrecord ⊢
        exact h key record hrecord
      · have hnew := hadded.refers hs h hkeeps
        rw [hadded.versions, OrdMap.get?_insertNew] at hrecord
        split_ifs at hrecord with hkey
        · obtain rfl := Option.some.inj hrecord
          cases hstored : s.versions.get? (versionKey added.model added.version) with
          | none => exact hnew
          | some stored =>
            exact (h _ stored hstored).kept hkeeps (.refl stored)
        · exact (h key record hrecord).kept hkeeps (.refl record)
    | importDurableState d newEpoch => cases hop
    | _ => cases hlabels

/-! ## Facts -/

/-- Every fact after a publication was there, or is of a stored version. -/
theorem publishCompatibility_facts (hs : Coherent s) (version : ModelVersionId)
    (environment : EnvironmentProfile) (outcome : CompatibilityOutcome) (detail : Text)
    (provenance : Provenance) {key : CompatibilityKey} {fact : CompatibilityFact}
    (hfact : (s.publishCompatibility c version environment outcome detail
      provenance).1.compatibility.facts.get? key = some fact) :
    s.compatibility.facts.get? key = some fact ∨
      (s.versionOf fact.model fact.version).isSome = true := by
  unfold publishCompatibility at hfact
  split at hfact
  · exact .inl hfact
  · rename_i key' record hfound
    have hstored := findVersion_stored hfound
    have hown : s.versionOf record.model record.version = some record := by
      rw [versionOf, ← hs.versions key' record hstored]
      exact hstored
    split at hfact
    · exact .inl hfact
    · split at hfact
      · exact .inl hfact
      · dsimp only at hfact
        split at hfact
        · exact .inl hfact
        · dsimp only at hfact
          rcases CompatibilityRegistry.publish_cases s.bumpSequence.compatibility _ _ with
            ⟨hsame, _⟩ | ⟨_, _, _, _, _, hstore⟩
          · rw [hsame] at hfact
            exact .inl hfact
          · rw [hstore, OrdMap.get?_insert] at hfact
            split_ifs at hfact
            · obtain rfl := Option.some.inj hfact
              right
              dsimp only
              rw [hown]
              rfl
            · exact .inl hfact

theorem step_factRefers (hs : Coherent s) {op : Operation} (hop : op.isImport = false)
    (h : ∀ key fact, s.compatibility.facts.get? key = some fact →
      (s.versionOf fact.model fact.version).isSome = true) :
    ∀ key fact, (step c s op).compatibility.facts.get? key = some fact →
      ((step c s op).versionOf fact.model fact.version).isSome = true := by
  have hkeeps := step_keepsReferents (c := c) hs hop
  intro key fact hfact
  refine hkeeps.isSome ?_
  cases hpublishes : op.publishesFacts with
  | false =>
    have hsame := (step_enrolled (c := c) hs op).facts hpublishes
    exact h key fact (hsame.facts key fact hfact)
  | true =>
    cases op with
    | publishCompatibility version environment outcome detail provenance =>
      rcases publishCompatibility_facts hs version environment outcome detail provenance hfact with
        hheld | hnew
      · exact h key fact hheld
      · exact hnew
    | importDurableState d newEpoch => cases hop
    | _ => cases hpublishes

/-! ## Plans -/

/-- The scopes of built cohorts are registered. -/
theorem buildCohorts_registered {root : ScopeId} {specs : List CohortSpec} {next after : UInt64}
    {built cohorts : List CohortDefinition}
    (hbuilt : ∀ cohort ∈ built, ∀ scope ∈ cohort.scopes, (s.scopes.find scope).isSome = true)
    (h : s.buildCohorts c root specs next built = (after, .ok cohorts)) :
    ∀ cohort ∈ cohorts, ∀ scope ∈ cohort.scopes, (s.scopes.find scope).isSome = true := by
  induction specs generalizing next built with
  | nil =>
    simp only [buildCohorts, Prod.mk.injEq, Except.ok.injEq] at h
    rwa [← h.2]
  | cons spec specs ih =>
    unfold buildCohorts at h
    split_ifs at h with _ _ hnone
    · simp at h
    · simp at h
    · simp at h
    · split at h
      · simp at h
      · simp at h
    · split at h
      · simp at h
      · rename_i hpermitted
        refine ih ?_ h
        intro cohort hcohort
        rcases List.mem_append.mp hcohort with hearlier | hnew
        · exact hbuilt cohort hearlier
        · rw [List.mem_singleton.mp hnew]
          intro scope hscope
          have hasked := RolloutPlan.mem_sortUniqueScopes.mp hscope
          exact (cohortScopeRefusal_eq_none_iff.mp hpermitted scope hasked).1

/-- A planned rollout refers to what is there. -/
theorem plannedRollout_refers (hs : Coherent s) {request : RolloutPlanRequest} {plan : RolloutPlan}
    (h : s.plannedRollout c request = some plan) : PlanRefers s plan := by
  obtain ⟨record, hrecord, hrefusal, hmodel, hversion⟩ := (planned_of_plannedRollout h).candidate
  unfold plannedRollout at h
  simp only [hrecord, hrefusal, Option.isSome_none, Bool.false_eq_true, if_false] at h
  split at h
  · cases h
  · rename_i cohorts hcohorts
    split at h
    · cases h
    · rename_i stages hstages
      split_ifs at h
      obtain rfl := Option.some.inj h
      obtain ⟨hsome, hfew⟩ := plan_permitted hrefusal
      have hbound := c.bounds.maxStagesPerRollout_lt
      obtain ⟨hlength, _⟩ := buildStages_distinct hstages (by omega)
      have hfilled : stages ≠ [] := by
        rwa [ne_eq, ← List.length_eq_zero_iff, hlength, List.length_eq_zero_iff]
      constructor
      · have hkey := hs.versions _ record hrecord
        have hown : s.versionOf record.model record.version = some record := by
          rw [versionOf, ← hkey]
          exact hrecord
        dsimp only [planHeader]
        rw [hown]
        rfl
      · exact hfilled
      · intro hvalid
        cases hvalid
      · exact buildCohorts_registered (s := s.bumpSequence) (by simp) hcohorts
      · exact fun stage hstage => (buildStages_known (by simp) hstages stage hstage).2
      · intro _
        exact List.length_pos_iff.mpr hfilled

theorem step_planRefers (hs : Coherent s) {op : Operation} (hop : op.isImport = false)
    (h : ∀ key plan, s.rollouts.get? key = some plan → PlanRefers s plan) :
    ∀ key plan, (step c s op).rollouts.get? key = some plan → PlanRefers (step c s op) plan := by
  have hkeeps := step_keepsReferents (c := c) hs hop
  intro key plan hplan
  rcases step_plan_origin hs hop hplan with
    ⟨before, hbefore, hstep⟩ | ⟨request, rfl, hplanned, _, _⟩
  · exact (h key before hbefore).kept hkeeps hstep
  · exact (plannedRollout_refers hs hplanned).kept hkeeps (PlanStep.refl True False plan)

/-! ## Refinements -/

theorem keys_setOverride {set : PolicySet} {refinement : ScopePolicyOverride} {key : UInt64}
    (h : key ∈ (set.setOverride refinement).1.overrides.keys) :
    key ∈ set.overrides.keys ∨ key = refinement.scope.raw := by
  unfold PolicySet.setOverride at h
  split_ifs at h
  · exact .inl h
  · exact .inl h
  · obtain ⟨stored, hstored⟩ := OrdMap.mem_keys_iff.mp h
    dsimp only at hstored
    rw [OrdMap.get?_insert] at hstored
    split_ifs at hstored with hsame
    · exact .inr hsame
    · exact .inl (OrdMap.mem_keys_iff.mpr ⟨stored, hstored⟩)

theorem step_overrides (hs : Coherent s) {op : Operation} (hop : op.isImport = false)
    (h : ∀ key ∈ s.policy.overrides.keys, (s.scopes.find ⟨key⟩).isSome = true) :
    ∀ key ∈ (step c s op).policy.overrides.keys,
      ((step c s op).scopes.find ⟨key⟩).isSome = true := by
  intro key hkey
  refine step_scope_stands hs hop ?_
  cases hsets : op.setsPolicy with
  | false =>
    rw [(step_framed (c := c) hs op).policy hsets hop] at hkey
    exact h key hkey
  | true =>
    cases op with
    | setPolicy policy =>
      apply h
      simp only [step, perform, setPolicy] at hkey
      split_ifs at hkey <;> exact hkey
    | setScopePolicy refinement =>
      simp only [step, perform, setScopePolicy] at hkey
      split at hkey
      · exact h key hkey
      · rename_i record hfind
        split at hkey
        · exact h key hkey
        · rcases keys_setOverride hkey with hkept | rfl
          · exact h key hkept
          · rw [hfind]
            rfl
    | _ => cases hsets

/-! ## Evidence -/

theorem step_evidenceRefers (hs : Coherent s) {op : Operation} (hop : op.isImport = false)
    (h : ∀ key, ∀ record ∈ s.evidence.bucket key,
      (s.versionOf record.subject.model record.subject.version).isSome = true) :
    ∀ key, ∀ record ∈ (step c s op).evidence.bucket key,
      ((step c s op).versionOf record.subject.model record.subject.version).isSome = true := by
  have hkeeps := step_keepsReferents (c := c) hs hop
  intro key record hrecord
  refine hkeeps.isSome ?_
  cases hpublishes : op.publishes with
  | false => exact h key record ((step_framed (c := c) hs op).evidence hpublishes key hrecord)
  | true =>
    cases op with
    | publishEvidence published =>
      simp only [step, perform, publishEvidence] at hrecord
      split at hrecord
      · exact h key record hrecord
      · rename_i owner howner
        split at hrecord
        · exact h key record hrecord
        · split at hrecord
          · exact h key record hrecord
          · dsimp only at hrecord
            rcases s.evidence.publish_cases _ with ⟨hsame, _⟩ | ⟨_, _, _, room, hroom, hbucket⟩
            · rw [hsame] at hrecord
              exact h key record hrecord
            · rw [hbucket] at hrecord
              split_ifs at hrecord
              · rcases List.mem_append.mp hrecord with hkept | hnew
                · exact h key record (hroom key hkept)
                · -- The record is filed about the version that was found for it.
                  have howned : (s.versionOf (s.resolveSubjectModel published).subject.model
                      (s.resolveSubjectModel published).subject.version).isSome = true := by
                    rw [howner]
                    rfl
                  rw [List.mem_singleton.mp hnew]
                  exact howned
              · exact h key record (hroom key hrecord)
    | importDurableState d newEpoch => cases hop
    | _ => cases hpublishes

end LifecycleFabric
