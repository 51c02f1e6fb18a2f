import LifecycleFabric.Engine.GrantRuns
import LifecycleFabric.Properties.StageCommits

/-!
# The lists a stage commit leaves

A commit grants its candidate the scopes of the current stage one by one, and drains in
each what the plan replaces. Leaving the stage only extends the lists, by canaries.
-/

namespace LifecycleFabric

open EngineState AuthorityTable

variable {c : EngineConfig} {s s' : EngineState} {plan : RolloutPlan}

/-! ## Draining what a plan replaces -/

/-- Whether the commit of the current stage drains what the plan replaces. -/
def EngineState.drainsStage (s : EngineState) (plan : RolloutPlan) : Bool :=
  plan.currentStage.requireDrainAfterCommit || s.policy.base.requireDrainAfterStageCommit

theorem drainPrevious_kept (plan : RolloutPlan) (scope : ScopeId) (t : EngineState) :
    (drainPrevious plan plan.currentStage scope t).authority =
        (if t.drainsStage plan then t.authority.markDraining plan.model plan.previous scope
          else t.authority) ∧
      (drainPrevious plan plan.currentStage scope t).policy = t.policy := by
  have hdrains : t.drainsStage plan = true ↔ plan.currentStage.requireDrainAfterCommit = true ∨
      t.policy.base.requireDrainAfterStageCommit = true := by
    rw [drainsStage, Bool.or_eq_true]
  unfold drainPrevious
  dsimp only
  rw [PolicySet.effective_requireDrain]
  by_cases h : t.drainsStage plan = true
  · rw [if_pos h, if_pos (hdrains.mp h)]
    split
    · exact ⟨rfl, rfl⟩
    · split_ifs
      · exact ⟨rfl, rfl⟩
      · exact ⟨rfl, rfl⟩
  · rw [if_neg h, if_neg fun hcondition => h (hdrains.mpr hcondition)]
    exact ⟨rfl, rfl⟩

/-- The lists after what a plan replaces was drained in a scope. -/
theorem bindingsFor_drainPrevious (plan : RolloutPlan) (scope other : ScopeId) (t : EngineState) :
    (drainPrevious plan plan.currentStage scope t).authority.bindingsFor other =
      if t.drainsStage plan = true ∧ other = scope then
        (t.authority.bindingsFor other).map (drain plan.model plan.previous)
      else t.authority.bindingsFor other := by
  rw [(drainPrevious_kept plan scope t).1]
  by_cases hdrains : t.drainsStage plan = true
  · rw [if_pos hdrains, markDraining, bindingsFor_mapScope]
    by_cases hother : other = scope
    · rw [if_pos hother, if_pos ⟨hdrains, hother⟩]
    · rw [if_neg hother, if_neg fun h => hother h.2]
  · rw [if_neg hdrains, if_neg fun h => hdrains h.1]

/-- A drained list has no live exclusive binding of the version that drains. -/
theorem not_exclusive_drain {model : ModelId} {version : ModelVersionId} {b : AuthorityBinding}
    (hown : b.ofVersion model version = true) : (drain model version b).isLiveExclusive = false := by
  unfold drain
  split_ifs with h
  · simp [AuthorityBinding.isLiveExclusive]
  · by_contra hexclusive
    rw [Bool.not_eq_false, AuthorityBinding.isLiveExclusive_iff] at hexclusive
    refine h ⟨hexclusive.1, hown, ?_, ?_⟩
    · rw [hexclusive.2]
      decide
    · rw [hexclusive.2]
      decide

theorem drain_of_other {model : ModelId} {version : ModelVersionId} {b : AuthorityBinding}
    (hother : b.version ≠ version) : drain model version b = b := by
  rw [drain, if_neg]
  rintro ⟨_, hown, _⟩
  rw [AuthorityBinding.ofVersion_iff] at hown
  exact hother hown.2

/-- Whether the commit of a stage leaves its candidate a scope: its first grant is admitted,
and what the plan drains is not the candidate itself. -/
def EngineState.servesStage (s : EngineState) (plan : RolloutPlan) : Bool :=
  ((plan.stageScopes plan.currentStage).head?.any fun scope =>
      (stageGrant plan plan.currentStage .exclusive true scope).admitted s) &&
    !(s.drainsStage plan && decide (plan.previous = plan.candidate))

/-! ## Lists without new exclusive bindings -/

theorem not_exclusive_of_canary {b : AuthorityBinding} (h : b.kind = .canary) :
    b.isLiveExclusive = false := by
  rw [AuthorityBinding.isLiveExclusive, h]
  exact Bool.and_false _

/-- A list in which nothing past the first places is live and exclusive. -/
def ExclusiveWithin (n : ℕ) (bindings : List AuthorityBinding) : Prop :=
  n ≤ bindings.length ∧ ∀ b ∈ bindings.drop n, b.isLiveExclusive = false

theorem ExclusiveWithin.weaken {n : ℕ} {before after : List AuthorityBinding}
    (h : ExclusiveWithin n before) (h' : List.Forall₂ AuthorityBinding.Weakens before after) :
    ExclusiveWithin n after := by
  refine ⟨h'.length_eq ▸ h.1, ?_⟩
  intro b hb
  have hdropped := List.forall₂_drop n h'
  obtain ⟨i, hi, rfl⟩ := List.mem_iff_getElem.mp hb
  have hi' : i < (before.drop n).length := hdropped.length_eq ▸ hi
  by_contra hexclusive
  have hbefore := (hdropped.get hi' hi).exclusive_of_exclusive (by simpa using hexclusive)
  have hnone := h.2 _ (List.getElem_mem hi')
  exact absurd (hnone.symm.trans hbefore) Bool.false_ne_true

theorem ExclusiveWithin.append {n : ℕ} {bindings added : List AuthorityBinding}
    (h : ExclusiveWithin n bindings) (hadded : ∀ b ∈ added, b.isLiveExclusive = false) :
    ExclusiveWithin n (bindings ++ added) := by
  constructor
  · rw [List.length_append]
    have hlength := h.1
    omega
  · intro b hb
    rw [List.drop_append_of_le_length h.1, List.mem_append] at hb
    exact hb.elim (h.2 b) (hadded b)

/-- Draining the version just granted leaves no new exclusive binding. -/
theorem ExclusiveWithin.drained {n : ℕ} {kept retained : List AuthorityBinding}
    {b : AuthorityBinding} {model : ModelId} {version : ModelVersionId}
    (hkept : ExclusiveWithin n kept) (hown : b.ofVersion model version = true)
    (hretained : ∀ r ∈ retained, r.kind = .rollbackRetained) :
    ExclusiveWithin n ((kept ++ b :: retained).map (drain model version)) := by
  rw [List.map_append]
  refine (hkept.weaken (weakens_list_map (AuthorityBinding.weakens_drain _ _) _)).append ?_
  intro drained hdrained
  obtain ⟨origin, horigin, rfl⟩ := List.mem_map.mp hdrained
  rcases List.mem_cons.mp horigin with rfl | horigin
  · exact not_exclusive_drain hown
  · by_contra hexclusive
    have hbefore := (AuthorityBinding.weakens_drain model version origin).exclusive_of_exclusive
      (by simpa using hexclusive)
    rw [AuthorityBinding.isLiveExclusive, hretained origin horigin, Bool.and_eq_true] at hbefore
    cases hbefore.2

theorem exclusiveWithin_length (bindings : List AuthorityBinding) :
    ExclusiveWithin bindings.length bindings := by
  refine ⟨le_rfl, ?_⟩
  intro b hb
  rw [List.drop_length] at hb
  cases hb

/-! ## The grants of a commit -/

theorem authority_refreshRoot (t : EngineState) (rollout : RolloutId) (root : ScopeId) :
    (t.refreshRoot rollout root).authority = t.authority := by
  unfold refreshRoot
  cases t.scopes.find root <;> rfl

section Commit

variable (hs : Coherent s) (hstanding : Standing s) {request : RolloutProgressRequest}
  (h : s.commit request = some plan)

include hs hstanding h

/-- The state in which the first scope of the stage is granted. -/
theorem steady_advancedState :
    Steady (s.advancedState request.rollout) (s.advancedState request.rollout) ∧
      (s.advancedState request.rollout).rolloutOf request.rollout = some (s.committedPlan plan) := by
  have hchain := chain_advancedState (c := {}) h
  exact ⟨Steady.refl (hchain.coherent hs) (hchain.standing hstanding), rolloutOf_advancedState h⟩

/-- The grants of a commit name the stored plan. -/
theorem namesStored_commit (scope : ScopeId) (t : EngineState)
    (ht : t.rollouts = (s.advancedState request.rollout).rollouts) :
    (stageGrant (s.committedPlan plan) plan.currentStage .exclusive true scope).NamesStored t := by
  have hstored : t.rolloutOf request.rollout = some (s.committedPlan plan) := by
    rw [rolloutOf, ht]
    exact (steady_advancedState hs hstanding h).2
  have hkey : (s.committedPlan plan).id.raw = request.rollout.raw :=
    hs.rollouts _ plan (commit_permitted h).1
  exact namesStored_stageGrant (s.committedPlan plan) hstored hkey ⟨rfl, rfl, rfl⟩ _ _ _ _

omit hs hstanding h in
/-- What the grant of a scope finds is what it found before the commit began. -/
theorem admitted_advancedState (rollout : RolloutId) (scope : ScopeId) :
    (stageGrant (s.committedPlan plan) plan.currentStage .exclusive true scope).admitted
        (s.advancedState rollout) =
      (stageGrant plan plan.currentStage .exclusive true scope).admitted s := by
  unfold GrantRequest.admitted GrantRequest.coexists mayServe versionOf
  rw [advancedState_authority, advancedState_scopes, advancedState_versions, advancedState_policy]
  rfl

/-- The grants of a commit keep the plans and the policy. -/
theorem steady_commitGrants :
    Steady (s.advancedState request.rollout) (s.commitGrants request.rollout plan).1 := by
  refine grantOver_preserves (P := Steady (s.advancedState request.rollout)) ?_ ?_
    (steady_advancedState hs hstanding h).1
  · intro scope _ t ht _
    exact ht.grant (namesStored_commit hs hstanding h scope t ht.plans)
  · intro scope _ t ht _
    exact (ht.grant (namesStored_commit hs hstanding h scope t ht.plans)).chain
      (chain_drainPrevious (c := {}) (p := Permit.still fun _ => True) plan plan.currentStage scope _)
      fun _ hedits => hedits

/-- The grants of a commit leave the lists outside the stage alone. -/
theorem commitGrants_elsewhere {scope : ScopeId}
    (hscope : scope ∉ plan.stageScopes plan.currentStage) :
    (s.commitGrants request.rollout plan).1.authority.bindingsFor scope =
      s.authority.bindingsFor scope := by
  have hsame : (s.commitGrants request.rollout plan).1.authority.bindingsFor scope =
      (s.advancedState request.rollout).authority.bindingsFor scope :=
    grantOver_elsewhere (fun _ => rfl)
      (fun scope t ht => namesStored_commit hs hstanding h scope t ht)
      (fun scope t ht => ht.chain (chain_drainPrevious (c := {}) (p := Permit.still fun _ => True)
        plan plan.currentStage scope t) fun _ hedits => hedits)
      (steady_advancedState hs hstanding h).1 hscope
      fun next t hne => by rw [bindingsFor_drainPrevious, if_neg fun hcontra => hne hcontra.2]
  rw [hsame, advancedState_authority]

/-- The grants of a commit, once the first scope is done. -/
theorem commitGrants_cons {head : ScopeId} {scopes : List ScopeId}
    (hscopes : plan.stageScopes plan.currentStage = head :: scopes)
    (hadmitted : (stageGrant plan plan.currentStage .exclusive true head).admitted s = true) :
    ∃ t, Granted (s.advancedState request.rollout)
        (stageGrant (s.committedPlan plan) plan.currentStage .exclusive true head) t ∧
      Steady (s.advancedState request.rollout) (drainPrevious plan plan.currentStage head t) ∧
      t.policy = s.policy ∧
      s.commitGrants request.rollout plan =
        grantOver (stageGrant (s.committedPlan plan) plan.currentStage .exclusive true)
          (drainPrevious plan plan.currentStage) scopes
          (drainPrevious plan plan.currentStage head t) := by
  have hsteady := (steady_advancedState hs hstanding h).1
  have hfirst : (stageGrant (s.committedPlan plan) plan.currentStage .exclusive true
      head).admitted (s.advancedState request.rollout) = true := by
    rw [admitted_advancedState]
    exact hadmitted
  obtain ⟨hallowed, hgranted⟩ :=
    grantAuthority_admitted hsteady.coherent hsteady.standing hfirst
  have hnext := hsteady.grant (namesStored_commit hs hstanding h head _ rfl)
  refine ⟨_, hgranted, ?_, hnext.policy.trans (advancedState_policy s request.rollout), ?_⟩
  · exact hnext.chain (chain_drainPrevious (c := {}) (p := Permit.still fun _ => True) plan
      plan.currentStage head _) fun _ hedits => hedits
  · rw [commitGrants, hscopes, grantOver]
    dsimp only
    rw [hallowed, Bool.not_true, if_neg Bool.false_ne_true]

/-- A commit leaves the lists its grants left, extended by canaries. -/
theorem bindingsFor_commit (scope : ScopeId) :
    ∃ rest, (s.advanceStage request).1.authority.bindingsFor scope =
        (s.commitGrants request.rollout plan).1.authority.bindingsFor scope ++ rest ∧
      ∀ b ∈ rest, b.kind = .canary := by
  have hnone : ∀ b ∈ ([] : List AuthorityBinding), b.kind = .canary := List.forall_mem_nil _
  obtain ⟨_, hfaults, heq⟩ := commit_permitted h
  obtain ⟨hlive, _⟩ := stage_permitted_live hfaults
  obtain ⟨hentered, _, _⟩ := stage_permitted_open hfaults
  have hsteady := steady_commitGrants hs hstanding h
  obtain ⟨_, hcommitted, _⟩ := commitGrants_spec hs hstanding h
  rw [heq, commitStage_eq]
  dsimp only
  rw [← commitGrants]
  generalize s.commitGrants request.rollout plan = granted at hsteady hcommitted ⊢
  cases granted.2.allowed with
  | false => exact ⟨[], (List.append_nil _).symm, hnone⟩
  | true =>
    have hleft : ∃ rest, (granted.1.leaveStage request.rollout
          (s.committedPlan plan)).1.authority.bindingsFor scope =
        granted.1.authority.bindingsFor scope ++ rest ∧ ∀ b ∈ rest, b.kind = .canary := by
      by_cases hlast : (s.committedPlan plan).stages.length ≤
          (s.committedPlan plan).currentStageIndex + 1
      · refine ⟨[], ?_, hnone⟩
        unfold leaveStage
        rw [if_pos hlast, List.append_nil]
        rfl
      · have hadvanced : (s.committedPlan plan).stageAdvanced = true :=
          stageAdvanced_advancedPlan _ _ plan
        have hchain := chain_nextState (c := {}) hcommitted hlive hentered hadvanced hlast
        have hstart : Steady (granted.1.nextState request.rollout (s.committedPlan plan))
            (granted.1.nextState request.rollout (s.committedPlan plan)) :=
          Steady.refl (hchain.coherent hsteady.coherent) (hchain.standing hsteady.standing)
        have hkey : (granted.1.nextPlan (s.committedPlan plan)).id.raw = request.rollout.raw :=
          hs.rollouts _ plan (commit_permitted h).1
        have hstored := rolloutOf_nextState hcommitted
        rw [leaveStage_eq _ _ hlast]
        rw [← (authority_nextState granted.1 request.rollout (s.committedPlan plan)).1]
        exact grantOver_extends (fun _ => rfl)
          (fun scope t ht => namesStored_stageGrant (granted.1.nextPlan (s.committedPlan plan))
            (by rw [rolloutOf, ht]; exact hstored) hkey ⟨rfl, rfl, rfl⟩
            (s.committedPlan plan).nextStage .canary false scope)
          (fun _ => ⟨rfl, rfl⟩) hstart scope
    obtain ⟨rest, hlist, hrest⟩ := hleft
    refine ⟨rest, ?_, hrest⟩
    rw [← hlist, Bool.not_true, if_neg Bool.false_ne_true]
    split_ifs
    · rfl
    · exact congrArg (bindingsFor · scope) (authority_refreshRoot _ _ _)

/-- Where a commit serves its stage, the candidate's binding of the first scope stands at
the end of the list. -/
theorem commitGrants_serves (hserves : s.servesStage plan = true) :
    ∃ scope kept b, ∃ rest : List AuthorityBinding,
      kept.length = (s.authority.bindingsFor scope).length ∧
      (s.commitGrants request.rollout plan).1.authority.bindingsFor scope = kept ++ b :: rest ∧
      b.isLiveExclusive = true ∧ b.model = plan.model ∧ b.version = plan.candidate := by
  rw [servesStage, Bool.and_eq_true, Option.any_eq_true] at hserves
  obtain ⟨⟨head, hhead, hadmitted⟩, hdrains⟩ := hserves
  obtain ⟨scopes, hscopes⟩ : ∃ scopes, plan.stageScopes plan.currentStage = head :: scopes :=
    List.head?_eq_some_iff.mp hhead
  have hnodup := nodup_stageScopes plan plan.currentStage
  rw [hscopes] at hnodup
  obtain ⟨first, hgranted, hsteady, hpolicy, heq⟩ :=
    commitGrants_cons hs hstanding h hscopes hadmitted
  have hrest := grantOver_elsewhere (fun _ => rfl)
    (fun scope t ht => namesStored_commit hs hstanding h scope t ht)
    (fun scope t ht => ht.chain (chain_drainPrevious (c := {}) (p := Permit.still fun _ => True)
      plan plan.currentStage scope t) fun _ hedits => hedits) hsteady
    (List.nodup_cons.mp hnodup).1
    (fun scope t hne => by rw [bindingsFor_drainPrevious, if_neg fun hcontra => hne hcontra.2])
  obtain ⟨record, scopeRecord, retained, hrecord, _, _, hlist⟩ := hgranted.bindingsFor_self
  rw [advancedState_authority] at hlist
  have hadvanced := (steady_advancedState hs hstanding h).1.coherent
  obtain ⟨hmodel, hversion⟩ := versionKey_inj.mp (hadvanced.versions _ record hrecord)
  have hlength := ((stageGrant (s.committedPlan plan) plan.currentStage .exclusive true
    head).weakens_keeps (s.authority.bindingsFor head)).length_eq
  have hsame : first.drainsStage plan = s.drainsStage plan := by
    rw [drainsStage, hpolicy, drainsStage]
  rw [← heq, bindingsFor_drainPrevious, hsame] at hrest
  cases hdraining : s.drainsStage plan with
  | false =>
    rw [hdraining, if_neg fun hcontra => absurd hcontra.1 Bool.false_ne_true] at hrest
    exact ⟨head, _, _, retained, hlength.symm, hrest.trans hlist, rfl, hmodel.symm, hversion.symm⟩
  | true =>
    rw [hdraining, if_pos ⟨rfl, rfl⟩] at hrest
    rw [hdraining, Bool.true_and, Bool.not_eq_true', decide_eq_false_iff_not] at hdrains
    have hother : ((s.advancedState request.rollout).bumpSequence.grantedBinding
        (stageGrant (s.committedPlan plan) plan.currentStage .exclusive true head) record
        scopeRecord.generation).version ≠ plan.previous := by
      intro hcontra
      exact hdrains (hcontra.symm.trans hversion.symm)
    have hdrained := hrest.trans (congrArg (List.map (drain plan.model plan.previous)) hlist)
    rw [List.map_append, List.map_cons, drain_of_other hother] at hdrained
    refine ⟨head, _, _, _, ?_, hdrained, rfl, hmodel.symm, hversion.symm⟩
    rw [List.length_map]
    exact hlength.symm

/-- A commit whose first grant is refused leaves the table alone. -/
theorem commitGrants_stopped {head : ScopeId} {scopes : List ScopeId}
    (hscopes : plan.stageScopes plan.currentStage = head :: scopes)
    (hrefused : (stageGrant plan plan.currentStage .exclusive true head).admitted s = false) :
    (s.commitGrants request.rollout plan).1.authority = s.authority := by
  have hstart := (steady_advancedState hs hstanding h).1
  have hauthority := advancedState_authority s request.rollout
  have hfirst : (stageGrant (s.committedPlan plan) plan.currentStage .exclusive true
      head).admitted (s.advancedState request.rollout) = false := by
    rw [admitted_advancedState]
    exact hrefused
  obtain ⟨hdenied, hstate⟩ := grantAuthority_refused hstart.coherent hstart.standing hfirst
  rw [commitGrants, hscopes, grantOver]
  dsimp only
  rw [hdenied, Bool.not_false, if_pos rfl]
  rcases hstate with hsame | hbumped
  · rw [hsame, hauthority]
  · rw [hbumped, bumpSequence_authority, hauthority]

/-- One grant of a commit that drains its own candidate leaves no new exclusive binding. -/
theorem grant_drained (hdrains : s.drainsStage plan = true) (hown : plan.previous = plan.candidate)
    {t : EngineState} (ht : Steady (s.advancedState request.rollout) t) (scope other : ScopeId)
    {n : ℕ} (hlist : ExclusiveWithin n (t.authority.bindingsFor other))
    (hallowed : (t.grantAuthority
      (stageGrant (s.committedPlan plan) plan.currentStage .exclusive true scope)).2.allowed = true) :
    ExclusiveWithin n ((drainPrevious plan plan.currentStage scope (t.grantAuthority
      (stageGrant (s.committedPlan plan) plan.currentStage .exclusive true
        scope)).1).authority.bindingsFor other) := by
  have hpolicy := (ht.grant (namesStored_commit hs hstanding h scope t ht.plans)).policy
  generalize hg : stageGrant (s.committedPlan plan) plan.currentStage .exclusive true scope = g
    at hallowed hpolicy ⊢
  have hscope : g.scope = scope := by rw [← hg]; rfl
  rw [grantAuthority_allowed ht.coherent ht.standing] at hallowed
  have hgranted := (grantAuthority_admitted ht.coherent ht.standing hallowed).2
  rw [bindingsFor_drainPrevious, drainsStage, hpolicy]
  by_cases hother : other = scope
  · obtain ⟨record, scopeRecord, retained, hrecord, _, hretained, hself⟩ :=
      hgranted.bindingsFor_self
    obtain ⟨hmodel, hversion⟩ := versionKey_inj.mp (ht.coherent.versions _ record hrecord)
    rw [hscope, ← hother] at hself
    rw [if_pos ⟨hdrains, hother⟩, hself]
    refine (hlist.weaken (g.weakens_keeps _)).drained ?_ hretained
    rw [AuthorityBinding.ofVersion_iff]
    refine ⟨hmodel.symm.trans ?_, hversion.symm.trans ?_⟩
    · rw [← hg]
      rfl
    · rw [← hg, hown]
      rfl
  · rw [if_neg fun hcontra => hother hcontra.2,
      hgranted.bindingsFor_of_ne (by rw [hscope]; exact hother)]
    exact hlist

/-- Where a commit does not serve its stage, none of its grants leaves a live exclusive
binding at the end of a list. -/
theorem commitGrants_unserved (hunserved : s.servesStage plan = false) (scope : ScopeId) :
    ExclusiveWithin (s.authority.bindingsFor scope).length
      ((s.commitGrants request.rollout plan).1.authority.bindingsFor scope) := by
  have hauthority := advancedState_authority s request.rollout
  cases hscopes : plan.stageScopes plan.currentStage with
  | nil =>
    rw [commitGrants, hscopes, grantOver, hauthority]
    exact exclusiveWithin_length _
  | cons head scopes =>
    cases hadmitted : (stageGrant plan plan.currentStage .exclusive true head).admitted s with
    | false =>
      rw [commitGrants_stopped hs hstanding h hscopes hadmitted]
      exact exclusiveWithin_length _
    | true =>
      rw [servesStage, hscopes, List.head?_cons, Option.any_some, hadmitted, Bool.true_and,
        Bool.not_eq_false', Bool.and_eq_true, decide_eq_true_eq] at hunserved
      obtain ⟨hdrains, hown⟩ := hunserved
      have hnames := namesStored_commit hs hstanding h
      -- Every binding granted here drains at once.
      refine (grantOver_preserves (P := fun t => Steady (s.advancedState request.rollout) t ∧
        ExclusiveWithin (s.authority.bindingsFor scope).length (t.authority.bindingsFor scope))
        ?_ ?_ ⟨(steady_advancedState hs hstanding h).1, ?_⟩).2
      · rintro next _ t ⟨ht, hlist⟩ hdenied
        refine ⟨ht.grant (hnames next t ht.plans), ?_⟩
        rw [grantAuthority_allowed ht.coherent ht.standing] at hdenied
        rcases (grantAuthority_refused ht.coherent ht.standing hdenied).2 with hsame | hbumped
        · rw [hsame]
          exact hlist
        · rw [hbumped]
          exact hlist
      · rintro next _ t ⟨ht, hlist⟩ hallowed
        refine ⟨(ht.grant (hnames next t ht.plans)).chain (chain_drainPrevious (c := {})
          (p := Permit.still fun _ => True) plan plan.currentStage next _) fun _ hedits => hedits, ?_⟩
        exact grant_drained hs hstanding h hdrains hown ht next scope hlist hallowed
      · rw [hauthority]
        exact exclusiveWithin_length _

end Commit

end LifecycleFabric
