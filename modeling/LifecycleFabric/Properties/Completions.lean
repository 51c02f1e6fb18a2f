import LifecycleFabric.Properties.CommittedStages
import LifecycleFabric.Properties.StageEntries

/-!
# Completed plans

The commit of the last stage completes a plan, and grants the scopes of that stage only. The
candidate then serves every scope the plan has committed exactly when it still served those
of the earlier stages.
-/

namespace LifecycleFabric

open EngineState AuthorityTable

variable {c : EngineConfig} {s : EngineState} {plan : RolloutPlan} {scope : ScopeId}
  {after : List AuthorityBinding}

/-- The generation a plan rolls out. -/
def RolloutPlan.rollsOut (plan : RolloutPlan) : HeldGeneration :=
  (plan.model, plan.candidate, plan.candidateGeneration)

/-- One binding of a list holds it exclusively, for a generation. -/
def ServedIn (bindings : List AuthorityBinding) (generation : HeldGeneration) : Prop :=
  ∃ b ∈ bindings, b.isLiveExclusive = true ∧ b.held = generation

/-- A generation holds a scope exclusively. -/
def EngineState.Serves (s : EngineState) (scope : ScopeId) (generation : HeldGeneration) : Prop :=
  ServedIn (s.authority.bindingsFor scope) generation

/-! ## The scopes of a commit -/

/-- The candidate of a plan that matches the registry is at the generation of the plan. -/
theorem heldBy_of_current (h : s.checkPlanBindings plan = none) :
    s.heldBy plan.model plan.candidate = plan.rollsOut := by
  unfold checkPlanBindings at h
  unfold heldBy RolloutPlan.rollsOut
  cases hrecord : s.versionOf plan.model plan.candidate with
  | none => simp [hrecord] at h
  | some record =>
    simp only [hrecord] at h
    split_ifs at h with _ hgeneration
    all_goals
      rw [not_ne_iff] at hgeneration
      rw [Option.map_some, Option.getD_some, hgeneration]

theorem servedIn_append_canaries {bindings canaries : List AuthorityBinding}
    (hcanaries : ∀ b ∈ canaries, b.kind = .canary) {generation : HeldGeneration} :
    ServedIn (bindings ++ canaries) generation ↔ ServedIn bindings generation := by
  constructor
  · rintro ⟨b, hb, hexclusive, hheld⟩
    rcases List.mem_append.mp hb with hb | hb
    · exact ⟨b, hb, hexclusive, hheld⟩
    · rw [not_exclusive_of_canary (hcanaries b hb)] at hexclusive
      cases hexclusive
  · rintro ⟨b, hb, hexclusive, hheld⟩
    exact ⟨b, List.mem_append_left canaries hb, hexclusive, hheld⟩

/-- A commit leaves a scope outside its stage as it was, up to canaries. -/
theorem commit_serves_elsewhere (hs : Coherent s) (hstanding : Standing s)
    {request : RolloutProgressRequest} (h : s.commit request = some plan)
    (hscope : scope ∉ plan.stageScopes plan.currentStage) (generation : HeldGeneration) :
    (s.advanceStage request).1.Serves scope generation ↔ s.Serves scope generation := by
  obtain ⟨canaries, hcommitted, hcanaries⟩ := bindingsFor_commit hs hstanding h scope
  unfold EngineState.Serves
  rw [hcommitted, commitGrants_elsewhere hs hstanding h hscope]
  exact servedIn_append_canaries hcanaries

/-- A commit leaves its candidate serving a scope of its stage, unless it drains it at once. -/
theorem servedIn_leaves_iff (hsingle : SingleHolder s) (h : StageLeaves s plan scope after) :
    ServedIn after (s.heldBy plan.model plan.candidate) ↔
      ¬(s.drainsStage plan = true ∧ plan.previous = plan.candidate) := by
  obtain ⟨granted, retained, canaries, hgranted, hheld, hretained, _, hcanaries, hafter⟩ := h.list
  have hmodel : granted.model = plan.model := congrArg (fun g => g.1) hheld
  have hversion : granted.version = plan.candidate := congrArg (fun g => g.2.1) hheld
  rw [hafter, servedIn_append_canaries hcanaries]
  constructor
  · rintro ⟨b, hb, hserves, _⟩ ⟨hdrains, hown⟩
    obtain ⟨origin, horigin, rfl⟩ := List.mem_map.mp hb
    rw [stageDrain, if_pos hdrains, hown] at hserves
    have hbefore := (AuthorityBinding.weakens_drain plan.model plan.candidate
      origin).exclusive_of_exclusive hserves
    rcases List.mem_append.mp horigin with hold | hnew
    · rw [not_exclusive_supersedeFirst (hsingle scope) hold] at hbefore
      cases hbefore
    · rcases List.mem_cons.mp hnew with rfl | hnew
      · have hgrant : origin.ofVersion plan.model plan.candidate = true :=
          AuthorityBinding.ofVersion_iff.mpr ⟨hmodel, hversion⟩
        rw [not_exclusive_drain hgrant] at hserves
        cases hserves
      · rw [AuthorityBinding.isLiveExclusive, hretained origin hnew] at hbefore
        simp at hbefore
  · intro hkept
    refine ⟨granted, List.mem_map.mpr ⟨granted, ?_, ?_⟩, hgranted, hheld⟩
    · exact List.mem_append_right _ List.mem_cons_self
    · rw [stageDrain]
      split_ifs with hdrains
      · refine drain_of_other ?_
        rw [hversion]
        intro hown
        exact hkept ⟨hdrains, hown.symm⟩
      · rfl

/-- What an accepted commit leaves of the scopes of a plan to its candidate. -/
theorem commit_serves_iff (hs : Coherent s) (hstanding : Standing s) (hsingle : SingleHolder s)
    {request : RolloutProgressRequest} (h : s.commit request = some plan)
    (hallowed : (s.advanceStage request).2.allowed = true) (scope : ScopeId) :
    (s.advanceStage request).1.Serves scope plan.rollsOut ↔
      if scope ∈ plan.stageScopes plan.currentStage then
        ¬(s.drainsStage plan = true ∧ plan.previous = plan.candidate)
      else s.Serves scope plan.rollsOut := by
  split_ifs with hscope
  · obtain ⟨_, hcurrent⟩ := stage_permitted_live (commit_permitted h).2.1
    rw [← heldBy_of_current hcurrent]
    exact servedIn_leaves_iff hsingle (commit_leaves hs hstanding h hallowed hscope)
  · exact commit_serves_elsewhere hs hstanding h hscope plan.rollsOut

/-! ## The commit of the last stage -/

/-- The scopes of a stage are committed once it is advanced. -/
theorem stageScopes_committed {request : RolloutProgressRequest} (h : s.commit request = some plan)
    (hscope : scope ∈ plan.stageScopes plan.currentStage) :
    scope ∈ (s.committedPlan plan).committedScopes := by
  obtain ⟨_, hstage, _⟩ := stage_permitted_open (commit_permitted h).2.1
  have hmem : plan.currentStage ∈ plan.stages := by
    rw [RolloutPlan.currentStage, List.getElem?_eq_getElem hstage]
    exact List.getElem_mem hstage
  unfold RolloutPlan.stageScopes at hscope
  rw [RolloutPlan.mem_sortUniqueScopes] at hscope
  unfold RolloutPlan.committedScopes
  refine RolloutPlan.mem_sortUniqueScopes.mpr (List.mem_flatMap.mpr
    ⟨{ stage := plan.currentStage.id
       generation := plan.currentStageGeneration
       enteredSequence := plan.updatedSequence
       decidedSequence := s.bumpSequence.sequence
       decision := .advanced }, ?_, ?_⟩)
  · exact List.mem_append_right _ (List.mem_singleton_self _)
  · rw [if_neg (not_not_intro rfl)]
    refine List.mem_flatMap.mpr ⟨plan.currentStage, List.mem_filter.mpr ⟨hmem, ?_⟩, hscope⟩
    exact decide_eq_true rfl

/-- A stage advance that completes its plan leaves the candidate, at the generation of the
plan, holding every scope the plan has committed. -/
def CompletionServed (s : EngineState) (request : RolloutProgressRequest) : Prop :=
  ∀ before after, s.rolloutOf request.rollout = some before → before.completed = false →
    (s.advanceStage request).1.rolloutOf request.rollout = some after → after.completed = true →
      ∀ scope ∈ after.committedScopes, (s.advanceStage request).1.Serves scope after.rollsOut

/-- Whether the commit of the last stage of a plan finds the scopes of its earlier stages
still with the candidate, and does not drain the candidate itself. -/
def EngineState.RetainsCommitted (s : EngineState) (plan : RolloutPlan) : Prop :=
  (∀ scope ∈ (s.committedPlan plan).committedScopes, scope ∉ plan.stageScopes plan.currentStage →
      s.Serves scope plan.rollsOut) ∧
    ¬(s.drainsStage plan = true ∧ plan.previous = plan.candidate ∧
      plan.stageScopes plan.currentStage ≠ [])

/-- A commit completes its plan exactly when it is accepted at the last stage. -/
theorem commit_completes (hs : Coherent s) (hstanding : Standing s)
    {request : RolloutProgressRequest} (h : s.commit request = some plan) {after : RolloutPlan}
    (hafter : (s.advanceStage request).1.rolloutOf request.rollout = some after) :
    after.rollsOut = plan.rollsOut ∧
      (after.completed = true ↔
        s.fitsCommit plan = true ∧ plan.stages.length ≤ plan.currentStageIndex + 1) ∧
      (after.completed = true →
        after.committedScopes = (s.committedPlan plan).committedScopes) := by
  obtain ⟨hlive, _⟩ := stage_permitted_live (commit_permitted h).2.1
  have hopen : plan.completed = false := by
    rw [RolloutPlan.live] at hlive
    revert hlive
    cases plan.completed <;> simp
  obtain ⟨updated, generation, hplan'⟩ := rolloutOf_committed hs hstanding h
  obtain rfl := Option.some.inj (hplan'.symm.trans hafter)
  rcases leftPlan_cases s plan updated with ⟨hends, hleft⟩ | ⟨hends, hleft | hleft⟩
  · rw [hleft]
    exact ⟨rfl, iff_of_true rfl hends, fun _ => rfl⟩
  · rw [hleft]
    refine ⟨rfl, iff_of_false ?_ hends, ?_⟩
    · exact fun hcompleted => Bool.false_ne_true (hopen.symm.trans hcompleted)
    · exact fun hcompleted => absurd (hopen.symm.trans hcompleted) Bool.false_ne_true
  · rw [hleft]
    refine ⟨rfl, iff_of_false ?_ hends, fun _ => rfl⟩
    exact fun hcompleted => Bool.false_ne_true (hopen.symm.trans hcompleted)

/-- A request that commits no stage completes no plan. -/
theorem uncommitted_completes_nothing (hs : Coherent s) {request : RolloutProgressRequest}
    (h : s.commit request = none) {before after : RolloutPlan}
    (hbefore : s.rolloutOf request.rollout = some before)
    (hafter : (s.advanceStage request).1.rolloutOf request.rollout = some after) :
    after.completed = before.completed := by
  rcases advance_uncommitted h with hsame | ⟨plan, hplan, _, hfails⟩
  · rw [hsame] at hafter
    rw [Option.some.inj (hafter.symm.trans hbefore)]
  · obtain rfl := Option.some.inj (hplan.symm.trans hbefore)
    have hfailed := rolloutOf_commitFailure hplan (s.evaluateStageAdvance request).reasons false
    obtain ⟨later, hlater, hstep⟩ := (chain_afterFailure (c := {}) hs request hplan
      (s.evaluateStageAdvance request)).plan_stands hfailed
    rw [hfails] at hafter
    obtain rfl := Option.some.inj (hlater.symm.trans hafter)
    obtain ⟨_, hsame, _⟩ := dead_enters_nothing hstep.edits (by simp [failedPlan,
      RolloutPlan.live])
    exact hsame

/-- A plan that completes is served exactly when its commit retains what is committed. -/
theorem completion_served_iff (hs : Coherent s) (hstanding : Standing s)
    (hsingle : SingleHolder s) (request : RolloutProgressRequest) :
    CompletionServed s request ↔
      ∀ plan, s.commit request = some plan → s.fitsCommit plan = true →
        plan.stages.length ≤ plan.currentStageIndex + 1 → s.RetainsCommitted plan := by
  cases hcommit : s.commit request with
  | none =>
    refine iff_of_true ?_ fun plan hplan => by cases hplan
    intro before after hbefore hopen hafter hcompleted
    have hsame := uncommitted_completes_nothing hs hcommit hbefore hafter
    rw [hcompleted, hopen] at hsame
    cases hsame
  | some plan =>
    have hplan := (commit_permitted hcommit).1
    obtain ⟨hlive, _⟩ := stage_permitted_live (commit_permitted hcommit).2.1
    have hallowed := (commit_spec hs hstanding hcommit).1
    obtain ⟨updated, generation, hafter⟩ := rolloutOf_committed hs hstanding hcommit
    obtain ⟨hsame, hcompletes, hcommitted⟩ := commit_completes hs hstanding hcommit hafter
    constructor
    · intro hserved other hother hfits hlast
      obtain rfl := Option.some.inj hother
      have hcompleted := hcompletes.mpr ⟨hfits, hlast⟩
      have hscopes := hserved plan _ hplan (by
        rw [RolloutPlan.live] at hlive
        revert hlive
        cases plan.completed <;> simp) hafter hcompleted
      rw [hcommitted hcompleted, hsame] at hscopes
      constructor
      · intro scope hscope helsewhere
        have hserves := (commit_serves_iff hs hstanding hsingle hcommit (hallowed.trans hfits)
          scope).mp (hscopes scope hscope)
        rw [if_neg helsewhere] at hserves
        exact hserves
      · rintro ⟨hdrains, hown, hnonempty⟩
        obtain ⟨scope, hscope⟩ := List.exists_mem_of_ne_nil _ hnonempty
        have hserves := (commit_serves_iff hs hstanding hsingle hcommit (hallowed.trans hfits)
          scope).mp (hscopes scope (stageScopes_committed hcommit hscope))
        rw [if_pos hscope] at hserves
        exact hserves ⟨hdrains, hown⟩
    · intro hretains before after hbefore _ hlater hcompleted scope hscope
      obtain rfl := Option.some.inj (hafter.symm.trans hlater)
      obtain ⟨hfits, hlast⟩ := hcompletes.mp hcompleted
      obtain ⟨helsewhere, hdrained⟩ := hretains plan rfl hfits hlast
      rw [hsame]
      rw [hcommitted hcompleted] at hscope
      refine (commit_serves_iff hs hstanding hsingle hcommit (hallowed.trans hfits) scope).mpr ?_
      split_ifs with hstage
      · rintro ⟨hdrains, hown⟩
        exact hdrained ⟨hdrains, hown, List.ne_nil_of_mem hstage⟩
      · exact helsewhere scope hscope hstage

/-! ## Runs -/

/-- What an operation completes is served by its candidate. -/
def Operation.CompletesServed (s : EngineState) : Operation → Prop
  | .advanceStage request => CompletionServed s request
  | _ => True

/-- What an operation completes is still retained from its earlier stages. -/
def Operation.CompletesRetained (s : EngineState) : Operation → Prop
  | .advanceStage request => ∀ plan, s.commit request = some plan → s.fitsCommit plan = true →
      plan.stages.length ≤ plan.currentStageIndex + 1 → s.RetainsCommitted plan
  | _ => True

/-- In every run, each plan that a stage advance completes is served by its candidate in all
its committed scopes exactly when each commit of a last stage finds the scopes of the earlier
stages still with the candidate and does not drain it. -/
theorem completions_served_iff {ops : List Operation} :
    Runs.Along (step c) (fun s op => op.CompletesServed s) (init c) ops ↔
      Runs.Along (step c) (fun s op => op.CompletesRetained s) (init c) ops := by
  refine Runs.along_iff (P := ReachableState c) (step c) ?_ ?_ ⟨[], rfl⟩
  · intro s op hs
    exact Runs.Reachable.run (step c) hs [op]
  · intro s op hs
    cases op with
    | advanceStage request =>
      exact completion_served_iff hs.coherent hs.standing hs.singleHolder request
    | _ => exact Iff.rfl

/-! ### A committed scope that is lost -/

/-- The first of two stages of a rollout is committed in a site, and then another model is
promoted there. -/
def siteLost : List Operation :=
  [.registerModel [109] [] .synthetic,
    .registerVersion
      { model := ⟨1⟩, label := [49]
        artifact := { setId := ⟨1⟩, generation := ⟨1⟩, digest := [97] } },
    .publishCompatibility ⟨1⟩ { key := [101] } .compatible [] .synthetic,
    .registerModel [110] [] .synthetic,
    .registerVersion
      { model := ⟨2⟩, label := [49]
        artifact := { setId := ⟨1⟩, generation := ⟨1⟩, digest := [97] } },
    .publishCompatibility ⟨2⟩ { key := [101] } .compatible [] .synthetic,
    .registerVersion
      { model := ⟨2⟩, label := [50]
        artifact := { setId := ⟨1⟩, generation := ⟨1⟩, digest := [97] } },
    .publishCompatibility ⟨3⟩ { key := [101] } .compatible [] .synthetic,
    .registerScope (text "global/site:a"),
    .promote { model := ⟨1⟩, candidate := ⟨1⟩, scope := ⟨1⟩, environmentKey := [101] },
    .createRollout
      { model := ⟨1⟩, candidate := ⟨1⟩, rootScope := ⟨1⟩
        cohorts := [{ name := [99], scopes := [⟨2⟩] }, { name := [100], scopes := [⟨1⟩] }]
        stages := [{ name := [115], cohortIndices := [0] },
          { name := [116], cohortIndices := [1] }] },
    .beginRollout { rollout := ⟨1⟩ },
    .advanceStage { rollout := ⟨1⟩ },
    .promote
      { model := ⟨2⟩, candidate := ⟨2⟩, scope := ⟨2⟩, environmentKey := [101]
        requestImmediateCutover := true, rollbackTarget := ⟨3⟩ }]

/-- The second stage completes the plan all the same. -/
theorem completed_without_site :
    ¬∀ (c : EngineConfig) (ops : List Operation),
      Runs.Along (step c) (fun s op => op.CompletesServed s) (init c) ops := by
  intro hclaim
  obtain ⟨_, hlast, _⟩ := (Runs.along_append (step {})).mp (hclaim {} (siteLost ++
    [.advanceStage { rollout := ⟨1⟩ }]))
  have hopen : ((runOps {} (init {}) siteLost).rolloutOf ⟨1⟩).map RolloutPlan.completed =
      some false := by
    decide +kernel
  obtain ⟨before, hbefore, hpending⟩ := Option.map_eq_some_iff.mp hopen
  have hended : ((((runOps {} (init {}) siteLost).advanceStage { rollout := ⟨1⟩ }).1.rolloutOf
      ⟨1⟩).map fun plan => (plan.completed, plan.committedScopes, plan.rollsOut)) =
        some (true, [⟨1⟩, ⟨2⟩], (⟨1⟩, ⟨1⟩, ⟨1⟩)) := by
    decide +kernel
  obtain ⟨after, hafter, hfields⟩ := Option.map_eq_some_iff.mp hended
  simp only [Prod.mk.injEq] at hfields
  obtain ⟨hcompleted, hscopes, hrollsOut⟩ := hfields
  have hserved := hlast before after hbefore hpending hafter hcompleted ⟨2⟩ (by
    rw [hscopes]
    decide)
  have hlost : ¬∃ b ∈ ((runOps {} (init {}) siteLost).advanceStage
      { rollout := ⟨1⟩ }).1.authority.bindingsFor ⟨2⟩,
        b.isLiveExclusive = true ∧ b.held = (⟨1⟩, ⟨1⟩, ⟨1⟩) := by
    decide +kernel
  rw [RolloutPlan.rollsOut] at hrollsOut
  unfold EngineState.Serves ServedIn RolloutPlan.rollsOut at hserved
  rw [hrollsOut] at hserved
  exact hlost hserved

end LifecycleFabric
