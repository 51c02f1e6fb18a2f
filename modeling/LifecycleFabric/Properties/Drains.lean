import LifecycleFabric.Properties.CommittedStages
import LifecycleFabric.Properties.LivePlans
import LifecycleFabric.Properties.Rollbacks

/-!
# Drains of displaced generations

A displaced generation must drain before it can be retired. A stage commit and a rollback
mark it only after its binding was withdrawn, so that the mark finds no binding of a
generation that held the scope exclusively and no other way.
-/

namespace LifecycleFabric

open EngineState AuthorityTable

variable {c : EngineConfig} {s : EngineState} {plan : RolloutPlan} {scope : ScopeId}
  {after : List AuthorityBinding}

/-! ## A drain that is outstanding -/

/-- A version that is still draining somewhere is not retired. -/
theorem retirement_refused_of_draining (hs : Coherent s) {request : RetirementRequest}
    (h : s.Holds scope request.model request.version .draining) :
    (s.evaluateRetirement request).allowed = false := by
  rw [← Bool.not_eq_true]
  intro hallowed
  obtain ⟨record, hrecord, hfaults⟩ := evaluateRetirement_allowed_iff.mp hallowed
  obtain ⟨hmodel, hversion⟩ := versionKey_inj.mp (hs.versions _ record hrecord)
  simp only [retirementFaults, List.append_eq_nil_iff] at hfaults
  have hbindings := hfaults.1.2
  simp only [retirementBindingFaults, List.append_eq_nil_iff, faultIf_eq_nil] at hbindings
  rw [hmodel, hversion] at h
  exact hbindings.1.2 (holdsKind_of_holds h List.mem_cons_self)

/-! ## Lists of a committed stage -/

/-- A live binding of what the plan replaces drains, unless it only retains. -/
theorem heldIn_stageDrain {bindings : List AuthorityBinding} (hdrains : s.drainsStage plan = true)
    {b : AuthorityBinding} (hb : b ∈ bindings) (hlive : b.live = true)
    (hown : b.ofVersion plan.model plan.previous = true) (hserves : b.kind ≠ .rollbackRetained) :
    HeldIn (bindings.map (s.stageDrain plan)) plan.model plan.previous .draining := by
  obtain ⟨hkept, hsame⟩ := stageDrain_kept s plan b
  refine ⟨s.stageDrain plan b, List.mem_map_of_mem hb, hkept.trans hlive,
    (hsame _ _).trans hown, ?_⟩
  rw [stageDrain, if_pos hdrains, drain]
  split_ifs with hmarks
  · rfl
  · by_contra hkind
    exact hmarks ⟨hlive, hown, hkind, hserves⟩

theorem HeldIn.append {bindings : List AuthorityBinding} {model : ModelId}
    {version : ModelVersionId} {kind : AuthorityKind} (h : HeldIn bindings model version kind)
    (rest : List AuthorityBinding) : HeldIn (bindings ++ rest) model version kind := by
  obtain ⟨b, hb, hlive, hown, hkind⟩ := h
  exact ⟨b, List.mem_append_left rest hb, hlive, hown, hkind⟩

/-- Whether something of what a plan replaces stands when the commit of its stage drains it:
it is the candidate itself, it has another binding in the scope, or it is retained. -/
def EngineState.Drainable (s : EngineState) (plan : RolloutPlan) (scope : ScopeId) : Prop :=
  s.Holds scope plan.model plan.previous .exclusive →
    plan.previous = plan.candidate ∨
      (∃ kind, kind ≠ .exclusive ∧ s.Holds scope plan.model plan.previous kind) ∨
      s.retainsHolder plan scope = true

/-- The generation that lost a scope drains there, unless it is retained. -/
def DrainsIn (before after : List AuthorityBinding) (model : ModelId) (version : ModelVersionId) :
    Prop :=
  HeldIn before model version .exclusive → ¬HeldIn after model version .exclusive →
    ¬HeldIn after model version .rollbackRetained → HeldIn after model version .draining

/-- A holder the plan names is retained for its version. -/
theorem retained_of_holder (hsingle : SingleHolder s) (h : StageLeaves s plan scope after)
    (hholds : s.Holds scope plan.model plan.previous .exclusive)
    (hretains : s.retainsHolder plan scope = true) :
    HeldIn after plan.model plan.previous .rollbackRetained := by
  obtain ⟨e, he, hlive, hown, hkind⟩ := hholds
  have hnamed := hretains
  rw [retainsHolder, Option.any_eq_true] at hnamed
  obtain ⟨holder, hholder, _⟩ := hnamed
  have hexclusive := List.find?_some hholder
  rw [AuthorityBinding.isLiveExclusive_iff] at hexclusive
  have hsame : e = holder := holdsExclusively_unique hsingle
    ⟨mem_liveBindingsFor.mpr ⟨he, hlive⟩, hkind⟩
    ⟨mem_liveBindingsFor.mpr ⟨List.mem_of_find?_eq_some hholder, hexclusive.1⟩, hexclusive.2⟩
  obtain ⟨b, hb, hblive, hbkind, hmodel, hversion⟩ := h.retained holder hholder hretains
  refine ⟨b, hb, hblive, ?_, hbkind⟩
  rw [← hsame] at hmodel hversion
  rw [AuthorityBinding.ofVersion, hmodel, hversion]
  exact hown

/-- A commit that drains leaves a drain of what it displaced in a scope of its stage, or
retains it, exactly when something of it is left to drain. -/
theorem drainsIn_iff (hsingle : SingleHolder s) (hdrains : s.drainsStage plan = true)
    (h : StageLeaves s plan scope after) :
    DrainsIn (s.authority.bindingsFor scope) after plan.model plan.previous ↔
      s.Drainable plan scope := by
  obtain ⟨granted, retained, canaries, hgranted, hheld, hretained, hnone, hcanaries, hafter⟩ :=
    h.list
  constructor
  · intro hdrained hholds
    by_contra hnothing
    rw [not_or, not_or] at hnothing
    obtain ⟨hother, halone, hnamed⟩ := hnothing
    -- No live binding of what the plan replaces is left to any kind but canary.
    have hgone : ∀ kind, kind ≠ .canary → ¬HeldIn after plan.model plan.previous kind := by
      rintro kind hkind ⟨b, hb, hlive, hown, rfl⟩
      rw [hafter] at hb
      rcases List.mem_append.mp hb with hb | hb
      · obtain ⟨origin, horigin, rfl⟩ := List.mem_map.mp hb
        obtain ⟨hkept, hsame⟩ := stageDrain_kept s plan origin
        rw [hkept] at hlive
        rw [hsame] at hown
        rcases List.mem_append.mp horigin with hold | hnew
        · have hexclusive := not_exclusive_supersedeFirst (hsingle scope) hold
          refine halone ⟨origin.kind, ?_, origin, live_supersedeFirstExclusive hold hlive, hlive,
            hown, rfl⟩
          intro hcontra
          rw [AuthorityBinding.isLiveExclusive, hlive, hcontra] at hexclusive
          cases hexclusive
        · rw [hnone (by simpa using hnamed), List.mem_singleton] at hnew
          subst hnew
          have hversion : origin.version = plan.candidate := congrArg (fun g => g.2.1) hheld
          rw [AuthorityBinding.ofVersion_iff] at hown
          exact hother (hown.2.symm.trans hversion)
      · exact hkind (hcanaries b hb)
    refine hgone .draining (by decide) (hdrained hholds ?_ ?_)
    · exact hgone .exclusive (by decide)
    · exact hgone .rollbackRetained (by decide)
  · intro hdrainable hholds _ hfree
    rcases hdrainable hholds with hown | ⟨kind, hkind, b, hb, hlive, hprevious, rfl⟩ | hretains
    · -- The candidate replaces itself, and its own grant drains at once.
      have hexclusive := hgranted
      rw [AuthorityBinding.isLiveExclusive_iff] at hexclusive
      have hmodel : granted.model = plan.model := congrArg (fun g => g.1) hheld
      have hversion : granted.version = plan.candidate := congrArg (fun g => g.2.1) hheld
      rw [hafter]
      refine (heldIn_stageDrain hdrains (b := granted) ?_ hexclusive.1 ?_ ?_).append canaries
      · exact List.mem_append_right _ List.mem_cons_self
      · exact AuthorityBinding.ofVersion_iff.mpr ⟨hmodel, hversion.trans hown.symm⟩
      · rw [hexclusive.2]
        decide
    · have hshared : b.isLiveExclusive = false := by
        rw [AuthorityBinding.isLiveExclusive, decide_eq_false hkind, Bool.and_false]
      have hkept := mem_supersedeFirstExclusive hb hshared
      by_cases hretained : b.kind = .rollbackRetained
      · refine absurd ⟨b, ?_, hlive, hprevious, hretained⟩ hfree
        rw [hafter]
        refine List.mem_append_left _ (List.mem_map.mpr ⟨b, List.mem_append_left _ hkept, ?_⟩)
        exact stageDrain_retained hretained
      · rw [hafter]
        exact (heldIn_stageDrain hdrains (List.mem_append_left _ hkept) hlive hprevious
          hretained).append canaries
    · exact absurd (retained_of_holder hsingle h hholds hretains) hfree

/-! ## Stage commits and rollbacks -/

/-- Whether draining is required after the commit of the current stage of a plan, by the
stage or by the policy effective at the root of the plan. -/
def EngineState.requiresDrain (s : EngineState) (plan : RolloutPlan) : Bool :=
  plan.currentStage.requireDrainAfterCommit ||
    (s.policy.effective s.scopes plan.rootScope).requireDrainAfterStageCommit

/-- An accepted stage commit that must drain leaves a drain in every scope of the stage that
what the plan replaces has lost. -/
def CommitDrains (s : EngineState) (request : RolloutProgressRequest) : Prop :=
  ∀ plan, s.commit request = some plan → (s.advanceStage request).2.allowed = true →
    s.requiresDrain plan = true → ∀ scope ∈ plan.stageScopes plan.currentStage,
      DrainsIn (s.authority.bindingsFor scope)
        ((s.advanceStage request).1.authority.bindingsFor scope) plan.model plan.previous

/-- An accepted rollback leaves its candidate draining in its scope. -/
def RollbackDrains (s : EngineState) (request : RollbackRequest) : Prop :=
  (s.rollback request).2.decision.allowed = true →
    (s.rollback request).1.Holds request.scope request.model request.candidate .draining

theorem commit_drains_iff (hs : ReachableState c s) (request : RolloutProgressRequest) :
    CommitDrains s request ↔
      ∀ plan, s.commit request = some plan → s.fitsCommit plan = true →
        s.requiresDrain plan = true → ∀ scope ∈ plan.stageScopes plan.currentStage,
          s.Drainable plan scope := by
  have hdrains : ∀ plan, s.requiresDrain plan = s.drainsStage plan := by
    intro plan
    rw [requiresDrain, PolicySet.effective_requireDrain, drainsStage]
  have hscope : ∀ plan, s.commit request = some plan →
      (s.advanceStage request).2.allowed = true → s.requiresDrain plan = true →
      ∀ scope ∈ plan.stageScopes plan.currentStage,
        (DrainsIn (s.authority.bindingsFor scope)
          ((s.advanceStage request).1.authority.bindingsFor scope) plan.model plan.previous ↔
            s.Drainable plan scope) := by
    intro plan hplan hallowed hrequired scope hscope
    rw [hdrains] at hrequired
    exact drainsIn_iff hs.singleHolder hrequired
      (commit_leaves hs.coherent hs.standing hplan hallowed hscope)
  constructor
  · intro hcommits plan hplan hfits hrequired scope hmem
    have hallowed := (commit_spec hs.coherent hs.standing hplan).1.trans hfits
    exact (hscope plan hplan hallowed hrequired scope hmem).mp
      (hcommits plan hplan hallowed hrequired scope hmem)
  · intro hcondition plan hplan hallowed hrequired scope hmem
    have hfits := (commit_spec hs.coherent hs.standing hplan).1.symm.trans hallowed
    exact (hscope plan hplan hallowed hrequired scope hmem).mpr
      (hcondition plan hplan hfits hrequired scope hmem)

/-- No accepted rollback leaves its candidate draining. -/
theorem rollback_drains_iff (hs : ReachableState c s) (request : RollbackRequest) :
    RollbackDrains s request ↔
      ¬((s.evaluateRollback request).allowed = true ∧ request.target.valid = true) := by
  unfold RollbackDrains
  cases rollsBack hs.coherent hs.standing request with
  | refused hgate hrefused =>
    refine iff_of_true ?_ ?_
    · intro hallowed
      exact absurd (hrefused.symm.trans hallowed) Bool.false_ne_true
    · rintro ⟨hallowed, _⟩
      exact absurd (hgate.symm.trans hallowed) Bool.false_ne_true
  | denied hgate htarget hrefused =>
    refine iff_of_true ?_ ?_
    · intro hallowed
      exact absurd (hrefused.symm.trans hallowed) Bool.false_ne_true
    · rintro ⟨_, hvalid⟩
      exact absurd (htarget.symm.trans hvalid) Bool.false_ne_true
  | committed hgate hvalid hallowed candidate target hpermitted mid hmid hstate =>
    refine iff_of_false ?_ fun h => h ⟨hgate, hvalid⟩
    intro hdrained
    obtain ⟨b, hb, hlive, hown, hkind⟩ := hdrained hallowed
    obtain ⟨stored, scopeRecord, hstored, _, hhere⟩ := hmid.here
    obtain rfl : target = stored := Option.some.inj (hpermitted.targetStored.symm.trans hstored)
    rw [hstate, bindings_finishRollback hpermitted hhere] at hb
    rcases List.mem_append.mp hb with hold | hnew
    · obtain ⟨_, _, rfl⟩ := List.mem_map.mp hold
      cases hlive
    · rw [List.mem_singleton.mp hnew] at hkind
      cases hkind

/-- In every reachable state, an accepted stage commit records the drains it requires exactly
when something of what the plan replaces is left to drain in each scope; no accepted rollback
records the drain of its candidate; and a version that drains is not retired. -/
theorem drains_recorded_iff (hs : ReachableState c s) :
    (∀ request, CommitDrains s request ↔
      ∀ plan, s.commit request = some plan → s.fitsCommit plan = true →
        s.requiresDrain plan = true → ∀ scope ∈ plan.stageScopes plan.currentStage,
          s.Drainable plan scope) ∧
      (∀ request, RollbackDrains s request ↔
        ¬((s.evaluateRollback request).allowed = true ∧ request.target.valid = true)) ∧
      ∀ (request : RetirementRequest) scope,
        s.Holds scope request.model request.version .draining →
          (s.evaluateRetirement request).allowed = false :=
  ⟨commit_drains_iff hs, rollback_drains_iff hs,
    fun _ _ h => retirement_refused_of_draining hs.coherent h⟩

/-! ### A generation without a drain -/

/-- A rollout in canary whose one stage must drain the version that serves its scope. -/
def drainingStage (target : ModelVersionId) : List Operation :=
  [.registerModel [109] [] .synthetic,
    .registerVersion
      { model := ⟨1⟩, label := [49]
        artifact := { setId := ⟨1⟩, generation := ⟨1⟩, digest := [97] } },
    .publishCompatibility ⟨1⟩ { key := [101] } .compatible [] .synthetic,
    .registerVersion
      { model := ⟨1⟩, label := [50]
        artifact := { setId := ⟨1⟩, generation := ⟨1⟩, digest := [97] } },
    .publishCompatibility ⟨2⟩ { key := [101] } .compatible [] .synthetic,
    .promote { model := ⟨1⟩, candidate := ⟨2⟩, scope := ⟨1⟩, environmentKey := [101] },
    .promote
      { model := ⟨1⟩, candidate := ⟨1⟩, scope := ⟨1⟩, environmentKey := [101]
        requestImmediateCutover := true },
    .createRollout
      { model := ⟨1⟩, candidate := ⟨2⟩, rootScope := ⟨1⟩, rollbackTarget := target
        cohorts := [{ name := [99], scopes := [⟨1⟩] }]
        stages := [{ name := [115], cohortIndices := [0], requireDrainAfterCommit := true }] },
    .beginRollout { rollout := ⟨1⟩ }]

/-- A version that the plan names for retention needs no drain. -/
theorem drains_recorded_witness :
    CommitDrains (runOps {} (init {}) (drainingStage ⟨1⟩)) { rollout := ⟨1⟩ } := by
  have hs : ReachableState {} (runOps {} (init {}) (drainingStage ⟨1⟩)) := ⟨drainingStage ⟨1⟩, rfl⟩
  refine ((drains_recorded_iff hs).1 { rollout := ⟨1⟩ }).mpr ?_
  intro plan hplan _ _ scope hscope _
  have hretains : ((runOps {} (init {}) (drainingStage ⟨1⟩)).commit { rollout := ⟨1⟩ }).all
      (fun plan => (plan.stageScopes plan.currentStage).all fun scope =>
        (runOps {} (init {}) (drainingStage ⟨1⟩)).retainsHolder plan scope) = true := by
    decide +kernel
  rw [hplan, Option.all_some, List.all_eq_true] at hretains
  exact .inr (.inr (hretains scope hscope))

/-- The commit of the stage withdraws the binding that it should drain, and so does a
rollback. -/
theorem displaced_without_drain :
    ¬CommitDrains (runOps {} (init {}) (drainingStage {})) { rollout := ⟨1⟩ } ∧
      ¬RollbackDrains (runOps {} (init {}) displaced) rollBackDisplaced := by
  constructor
  · intro hdrains
    have hcommits : ((runOps {} (init {}) (drainingStage {})).commit { rollout := ⟨1⟩ }).isSome =
        true := by
      decide +kernel
    obtain ⟨plan, hplan⟩ := Option.isSome_iff_exists.mp hcommits
    have hfields : ((runOps {} (init {}) (drainingStage {})).commit { rollout := ⟨1⟩ }).all
        (fun plan => decide ((runOps {} (init {}) (drainingStage {})).requiresDrain plan = true ∧
          ⟨1⟩ ∈ plan.stageScopes plan.currentStage ∧ plan.model = ⟨1⟩ ∧ plan.previous = ⟨1⟩)) =
        true := by
      decide +kernel
    rw [hplan, Option.all_some, decide_eq_true_eq] at hfields
    obtain ⟨hrequired, hscope, hmodel, hprevious⟩ := hfields
    have hdrained := hdrains plan hplan (by decide +kernel) hrequired ⟨1⟩ hscope
    rw [hmodel, hprevious] at hdrained
    revert hdrained
    unfold DrainsIn HeldIn
    decide +kernel
  · unfold RollbackDrains Holds HeldIn
    decide +kernel

end LifecycleFabric
