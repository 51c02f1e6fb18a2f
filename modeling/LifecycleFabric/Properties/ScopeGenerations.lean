import LifecycleFabric.Engine.LiveLists
import LifecycleFabric.Lib.Stamps
import LifecycleFabric.Properties.CompatibleGrants
import LifecycleFabric.Properties.Recoveries
import LifecycleFabric.Properties.Revalidations

/-!
# What moves the generation of a scope

The generation of a scope is meant to move on whenever its live bindings or the refinement
attached to it change. Grants, committed rollbacks and retirements touch the scopes they
change. Withdrawing what a rollout granted touches none, and neither does attaching a
refinement.
-/

namespace LifecycleFabric

open EngineState AuthorityTable Stamps

variable {c : EngineConfig} {s s' t : EngineState} {plan : RolloutPlan}

/-- What is seen of a scope: its live bindings and the refinement attached to it. Its stamp
is its generation. -/
def scopeObservation : Observation EngineState ScopeId ScopeGeneration
    (Set AuthorityBinding × Option ScopePolicyOverride) where
  view s scope := ({b | b ∈ s.liveIn scope}, s.policy.overrides.get? scope.raw)
  stamp s scope := ((s.scopes.find scope).map ScopeRecord.generation).getD {}
  exhausted generation := generation.Saturated

/-! ## Scopes with bindings -/

/-- Every scope with a binding is registered. -/
def Seated (s : EngineState) : Prop :=
  ∀ scope, ∀ b ∈ s.authority.bindingsFor scope, (s.scopes.find scope).isSome = true

theorem Effect.seated {p : Permit} (h : Effect c p s s') (hs : Seated s) : Seated s' := by
  have hgrown := h.grown
  have hkept : ∀ scope, (s.scopes.find scope).isSome = true →
      (s'.scopes.find scope).isSome = true := by
    intro scope hscope
    obtain ⟨record, hrecord⟩ := Option.isSome_iff_exists.mp hscope
    obtain ⟨record', hrecord', _⟩ := hgrown.scopes scope record hrecord
    rw [hrecord']
    rfl
  cases h with
  | weaken table htable =>
    intro scope b hb
    obtain ⟨origin, horigin, _⟩ := htable.exists_before hb
    exact hkept scope (hs scope origin horigin)
  | append mid binding hmid _ hbinding _ =>
    intro scope b hb
    rcases mem_bindingsFor_push.mp hb with hb | ⟨hscope, _⟩
    · obtain ⟨origin, horigin, _⟩ := hmid.exists_before hb
      exact hkept scope (hs scope origin horigin)
    · obtain ⟨record, hrecord, _⟩ := hbinding.scope
      rw [hscope]
      exact hkept _ (by rw [hrecord]; rfl)
  | _ =>
    intro scope b hb
    exact hkept scope (hs scope b hb)

theorem StepCase.seated {op : Operation} (h : StepCase c s op s') (hs : Seated s) : Seated s' := by
  cases h with
  | aside h =>
    intro scope b hb
    rw [h.authority] at hb
    obtain ⟨record, hrecord⟩ := Option.isSome_iff_exists.mp (hs scope b hb)
    rw [h.scopes.extends.find hrecord]
    rfl
  | chain p _ _ _ h => exact Runs.chain_preserves (fun _ _ hab => hab.seated) h hs
  | recover d newEpoch recovered h =>
    intro scope b hb
    exact scope_of_restored h hb

/-! ## What keeps and what moves a scope -/

/-- With the same live bindings and the same policy a scope looks the same. -/
theorem view_eq {scope : ScopeId} (hlive : s'.liveIn scope = s.liveIn scope)
    (hpolicy : s'.policy = s.policy) :
    scopeObservation.view s' scope = scopeObservation.view s scope := by
  simp only [scopeObservation, hlive, hpolicy]

theorem stamp_eq (hscopes : s'.scopes = s.scopes) (scope : ScopeId) :
    scopeObservation.stamp s' scope = scopeObservation.stamp s scope := by
  simp only [scopeObservation, hscopes]

theorem Grown.stamp_le (h : Grown s s') (scope : ScopeId) :
    scopeObservation.stamp s scope ≤ scopeObservation.stamp s' scope := by
  simp only [scopeObservation]
  cases hrecord : s.scopes.find scope with
  | none =>
    rw [Option.map_none, Option.getD_none, Ident.le_iff_toNat]
    exact Nat.zero_le _
  | some record =>
    obtain ⟨record', hrecord', hle⟩ := h.scopes scope record hrecord
    rw [hrecord', Option.map_some, Option.map_some, Option.getD_some, Option.getD_some]
    exact hle

/-- A scope whose generation moved on, unless it was exhausted. -/
def Touched (s s' : EngineState) (scope : ScopeId) : Prop :=
  scopeObservation.stamp s scope < scopeObservation.stamp s' scope ∨
    scopeObservation.exhausted (scopeObservation.stamp s scope)

theorem touched_of_touch {scope : ScopeId} (hscope : (s.scopes.find scope).isSome = true)
    (hscopes : s'.scopes = s.scopes.touch scope) : Touched s s' scope := by
  obtain ⟨record, hrecord⟩ := Option.isSome_iff_exists.mp hscope
  unfold Touched
  simp only [scopeObservation, hscopes, ScopeRegistry.find_touch, hrecord, Option.map_some,
    Option.getD_some, if_true]
  by_cases hsaturated : record.generation.Saturated
  · exact Or.inr hsaturated
  · exact Or.inl (Ident.lt_nextGeneration hsaturated)

theorem touched_of_touch_twice {scope : ScopeId} (hscope : (s.scopes.find scope).isSome = true)
    (hscopes : s'.scopes = (s.scopes.touch scope).touch scope) : Touched s s' scope := by
  obtain ⟨record, hrecord⟩ := Option.isSome_iff_exists.mp hscope
  have hfirst : Touched s (s.touchScope scope) scope := touched_of_touch hscope rfl
  have hsecond : scopeObservation.stamp (s.touchScope scope) scope ≤
      scopeObservation.stamp s' scope := by
    simp only [scopeObservation, hscopes, touchScope_scopes, ScopeRegistry.find_touch, hrecord,
      Option.map_some, Option.getD_some, if_true]
    exact Ident.le_nextGeneration _
  rcases hfirst with hlt | hexhausted
  · exact Or.inl (hlt.trans_le hsecond)
  · exact Or.inr hexhausted

theorem Touched.grow {scope : ScopeId} (h : Touched s t scope) (hgrown : Grown t s') :
    Touched s s' scope := by
  rcases h with hlt | hexhausted
  · exact Or.inl (hlt.trans_le (hgrown.stamp_le scope))
  · exact Or.inr hexhausted

theorem Touched.precede {scope : ScopeId} (hbefore : Grown s t) (h : Touched t s' scope)
    (hafter : Grown t s') : Touched s s' scope := by
  rcases (hbefore.stamp_le scope).lt_or_eq with hlt | heq
  · exact Or.inl (hlt.trans_le (hafter.stamp_le scope))
  · unfold Touched at h ⊢
    rw [heq]
    exact h

/-- What keeps the table and the scopes keeps what was kept or touched. -/
theorem kept_or_touched_of_same {scope : ScopeId} (hauthority : s'.authority = t.authority)
    (hscopes : s'.scopes = t.scopes) (h : t.liveIn scope = s.liveIn scope ∨ Touched s t scope) :
    s'.liveIn scope = s.liveIn scope ∨ Touched s s' scope := by
  rcases h with hlive | htouched
  · left
    rw [← hlive, liveIn, liveIn, hauthority]
  · right
    unfold Touched at htouched ⊢
    rw [stamp_eq hscopes]
    exact htouched

/-- Stamps track the views when each scope is kept as it is or touched. -/
theorem tracks_of_cases (hgrown : Grown s s') (hpolicy : s'.policy = s.policy)
    (hscopes : ∀ scope, s'.liveIn scope = s.liveIn scope ∨ Touched s s' scope) :
    scopeObservation.Tracks s s' := by
  intro scope
  refine ⟨hgrown.stamp_le scope, ?_⟩
  rcases hscopes scope with hlive | htouched
  · exact Or.inl (view_eq hlive hpolicy)
  · exact Or.inr htouched

/-- Effects that keep the table change no view. -/
theorem Chain.tracks {p : Permit} (h : Chain c p s s') (hauthority : s'.authority = s.authority) :
    scopeObservation.Tracks s s' := by
  refine tracks_of_cases h.grown h.policy_epoch.1 fun scope => Or.inl ?_
  rw [liveIn, hauthority, liveIn]

/-- A list that stays the same stays live the same. -/
theorem liveIn_of_bindingsFor {scope : ScopeId}
    (h : s'.authority.bindingsFor scope = s.authority.bindingsFor scope) :
    s'.liveIn scope = s.liveIn scope := by
  rw [liveIn, liveIn, liveBindingsFor, liveBindingsFor, h]

/-! ## Grants -/

/-- A grant that succeeds touches its scope. -/
theorem grant_touches (hs : Coherent s) (hstanding : Standing s) {g : GrantRequest}
    (hallowed : (s.grantAuthority g).2.allowed = true) :
    Touched s (s.grantAuthority g).1 g.scope := by
  have hadmitted : g.admitted s = true := by
    by_contra hdenied
    have hrefused := (grantAuthority_refused hs hstanding (Bool.not_eq_true _ ▸ hdenied)).1
    rw [hallowed] at hrefused
    cases hrefused
  have hgranted := (grantAuthority_admitted hs hstanding hadmitted).2
  obtain ⟨_, scopeRecord, _, hfound, _⟩ := hgranted.placed
  exact touched_of_touch (by rw [hfound]; rfl) hgranted.scopes

/-- A refused grant changes no live binding. -/
theorem liveIn_refused (hs : Coherent s) (hstanding : Standing s) {g : GrantRequest}
    (hrefused : (s.grantAuthority g).2.allowed = false) (scope : ScopeId) :
    (s.grantAuthority g).1.liveIn scope = s.liveIn scope := by
  have hadmitted : g.admitted s = false := by
    by_contra hadmitted
    have hallowed := (grantAuthority_admitted hs hstanding (by simpa using hadmitted)).1
    rw [hrefused] at hallowed
    cases hallowed
  rcases (grantAuthority_refused hs hstanding hadmitted).2 with hsame | hbumped
  · rw [hsame]
  · rw [hbumped]
    rfl

/-- The stamps track the views through a run of grants, when what follows a grant changes
only the scope just granted. -/
theorem tracks_grantOver {grant : ScopeId → GrantRequest}
    {after : ScopeId → EngineState → EngineState} {scopes : List ScopeId}
    (hscopes : ∀ scope, (grant scope).scope = scope)
    (hnames : ∀ scope t, t.rollouts = s.rollouts → (grant scope).NamesStored t)
    (hafter : ∀ scope t, Steady s t → Steady s (after scope t) ∧ Grown t (after scope t) ∧
      ∀ other, other ≠ scope → (after scope t).liveIn other = t.liveIn other)
    (hs : Steady s s) : scopeObservation.Tracks s (grantOver grant after scopes s).1 := by
  have hgrant : ∀ scope t, Steady s t →
      Steady s (t.grantAuthority (grant scope)).1 ∧ Grown t (t.grantAuthority (grant scope)).1 := by
    intro scope t ht
    have hchain := (grantAuthority_progresses (c := {}) (p := Permit.still fun _ => True)
      ht.coherent (grant scope) (hnames scope t ht.plans) fun _ _ => trivial).chain
    exact ⟨ht.grant (hnames scope t ht.plans), hchain.grown⟩
  refine (grantOver_preserves (P := fun t => Steady s t ∧ scopeObservation.Tracks s t) ?_ ?_
    ⟨hs, Observation.Tracks.refl s⟩).2
  · rintro scope _ t ⟨ht, htracks⟩ hrefused
    obtain ⟨hsteady, hgrown⟩ := hgrant scope t ht
    refine ⟨hsteady, htracks.trans (tracks_of_cases hgrown ?_ fun other => Or.inl ?_)⟩
    · rw [hsteady.policy, ht.policy]
    · exact liveIn_refused ht.coherent ht.standing hrefused other
  · rintro scope _ t ⟨ht, htracks⟩ hallowed
    obtain ⟨hsteady, hgrown⟩ := hgrant scope t ht
    obtain ⟨hsteady', hgrown', hkept⟩ := hafter scope _ hsteady
    refine ⟨hsteady', htracks.trans (tracks_of_cases (hgrown.trans hgrown') ?_ fun other => ?_)⟩
    · rw [hsteady'.policy, ht.policy]
    · by_cases hother : other = scope
      · subst hother
        have htouched := grant_touches ht.coherent ht.standing hallowed
        rw [hscopes] at htouched
        exact Or.inr (htouched.grow hgrown')
      · refine Or.inl ((hkept other hother).trans (liveIn_of_bindingsFor ?_))
        refine grantAuthority_elsewhere ht.coherent ht.standing (grant scope) ?_
        rw [hscopes]
        exact hother

/-! ## Stages -/

theorem begin_tracks (hs : Coherent s) (hstanding : Standing s) (request : RolloutProgressRequest) :
    scopeObservation.Tracks s (s.beginRollout request).1 := by
  cases hentry : s.entry request with
  | none =>
    rw [begin_stopped hentry]
    exact Observation.Tracks.refl s
  | some plan =>
    obtain ⟨hplan, _, _⟩ := entry_permitted hentry
    have hkey : plan.id.raw = request.rollout.raw := hs.rollouts _ plan hplan
    have hchain := chain_enteredState (c := {}) hentry
    have hstored : (s.enteredState request plan).rolloutOf request.rollout =
        some (s.enteredPlan plan) := rolloutOf_enteredState hplan
    have hstart : Steady (s.enteredState request plan) (s.enteredState request plan) :=
      Steady.refl (hchain.coherent hs) (hchain.standing hstanding)
    have hentered := hchain.tracks (authority_enteredState s request plan).1
    have hgrants : scopeObservation.Tracks (s.enteredState request plan)
        (grantOver (stageGrant (s.enteredPlan plan) plan.firstStage .canary false) (fun _ t => t)
          (plan.stageScopes plan.firstStage) (s.enteredState request plan)).1 :=
      tracks_grantOver (fun _ => rfl)
        (fun scope t ht => namesStored_stageGrant (s.enteredPlan plan)
          (by rw [rolloutOf, ht]; exact hstored) hkey ⟨rfl, rfl, rfl⟩ plan.firstStage .canary false
          scope)
        (fun _ t ht => ⟨ht, Grown.refl t, fun _ _ => rfl⟩) hstart
    rw [begin_eq hentry]
    dsimp only
    split_ifs
    · exact hentered.trans hgrants
    · have hrefreshed := (chain_refreshRoot (c := {})
        (p := Permit.driving request.rollout fun _ => True)
        (grantOver (stageGrant (s.enteredPlan plan) plan.firstStage .canary false) (fun _ t => t)
          (plan.stageScopes plan.firstStage) (s.enteredState request plan)).1 request.rollout
        plan.rootScope rfl rfl).tracks (authority_refreshRoot _ _ _)
      exact (hentered.trans hgrants).trans hrefreshed

/-- Draining what a plan replaces changes the scope it is drained in. -/
theorem liveIn_drainPrevious (plan : RolloutPlan) {scope other : ScopeId} (hne : other ≠ scope)
    (t : EngineState) :
    (drainPrevious plan plan.currentStage scope t).liveIn other = t.liveIn other := by
  apply liveIn_of_bindingsFor
  rw [bindingsFor_drainPrevious, if_neg]
  rintro ⟨_, hsame⟩
  exact hne hsame

theorem leaveStage_tracks (ht : Coherent t) (hstanding : Standing t) {rollout : RolloutId}
    (hplan : t.rolloutOf rollout = some plan) (hlive : plan.live = true)
    (hentered : plan.stageEntered = true) (hadvanced : plan.stageAdvanced = true) :
    scopeObservation.Tracks t (t.leaveStage rollout plan).1 := by
  by_cases hlast : plan.stages.length ≤ plan.currentStageIndex + 1
  · have hchain := leaveStage_chain (c := {}) ht rollout hplan hlive hentered hadvanced
      (List.Subset.refl (plan.stageScopes plan.nextStage))
    refine hchain.tracks ?_
    unfold leaveStage
    rw [if_pos hlast]
    rfl
  · have hkey : plan.id.raw = rollout.raw := ht.rollouts _ plan hplan
    have hstored := rolloutOf_nextState hplan
    have hchain := chain_nextState (c := {}) hplan hlive hentered hadvanced hlast
    have hstart : Steady (t.nextState rollout plan) (t.nextState rollout plan) :=
      Steady.refl (hchain.coherent ht) (hchain.standing hstanding)
    have hnext := hchain.tracks (authority_nextState t rollout plan).1
    rw [leaveStage_eq t rollout hlast]
    refine hnext.trans (tracks_grantOver (fun _ => rfl) ?_ ?_ hstart)
    · intro scope u hu
      exact namesStored_stageGrant (t.nextPlan plan) (by rw [rolloutOf, hu]; exact hstored) hkey
        ⟨rfl, rfl, rfl⟩ plan.nextStage .canary false scope
    · intro _ u hu
      exact ⟨hu, Grown.refl u, fun _ _ => rfl⟩

theorem commit_tracks (hs : Coherent s) (hstanding : Standing s) {request : RolloutProgressRequest}
    (h : s.commit request = some plan) :
    scopeObservation.Tracks s (s.advanceStage request).1 := by
  obtain ⟨hplan, hfaults, heq⟩ := commit_permitted h
  obtain ⟨hlive, _⟩ := stage_permitted_live hfaults
  obtain ⟨hentered, hstage, hopen⟩ := stage_permitted_open hfaults
  obtain ⟨hstart, _⟩ := steady_advancedState hs hstanding h
  have hsteady := steady_commitGrants hs hstanding h
  obtain ⟨_, hcommitted, _⟩ := commitGrants_spec hs hstanding h
  have hadvanced := (chain_advancedState (c := {}) h).tracks
    (advancedState_authority s request.rollout)
  have hgrants : scopeObservation.Tracks (s.advancedState request.rollout)
      (s.commitGrants request.rollout plan).1 := by
    refine tracks_grantOver (fun _ => rfl) (namesStored_commit hs hstanding h) ?_ hstart
    intro scope u hu
    have hdrain := chain_drainPrevious (c := {}) (p := Permit.still fun _ => True) plan
      plan.currentStage scope u
    exact ⟨hu.chain hdrain fun _ hedits => hedits, hdrain.grown,
      fun other hne => liveIn_drainPrevious plan hne u⟩
  have hcurrent := hadvanced.trans hgrants
  rw [heq, commitStage_eq]
  dsimp only
  rw [← commitGrants]
  generalize s.commitGrants request.rollout plan = granted at hsteady hcommitted hcurrent ⊢
  have hleft := leaveStage_tracks hsteady.coherent hsteady.standing hcommitted hlive hentered
    (stageAdvanced_advancedPlan _ _ plan)
  split_ifs
  · exact hcurrent
  · exact hcurrent.trans hleft
  · refine (hcurrent.trans hleft).trans ?_
    have hrefreshed := (chain_refreshRoot (c := {})
      (p := Permit.driving request.rollout fun _ => True)
      (granted.1.leaveStage request.rollout (s.committedPlan plan)).1 request.rollout
      plan.rootScope rfl rfl).trans (moves_stampVersion _ plan.model plan.candidate).chain
    exact hrefreshed.tracks (authority_refreshRoot _ _ _)

/-! ## Failures and supersessions -/

/-- Nothing live in a scope was granted by a plan. -/
def EngineState.FreeOf (s : EngineState) (plan : RolloutPlan) (scope : ScopeId) : Prop :=
  ∀ b ∈ s.liveIn scope, b.ofPlan plan = false

theorem liveIn_withdrawn {scope : ScopeId}
    (hauthority : s'.authority = s.authority.supersedeRollout plan.id plan.generation)
    (hfree : s.FreeOf plan scope) : s'.liveIn scope = s.liveIn scope := by
  have hfiltered := liveIn_supersedeRollout s plan scope
  rw [filter_not_of_free hfree] at hfiltered
  rw [← hfiltered, liveIn, hauthority]
  rfl

/-- What a rollback by itself leaves of the scopes: the root scope is touched, the others
are left alone. -/
theorem automatic_scopes (hs : Coherent s) (hstanding : Standing s)
    {request : RolloutProgressRequest} (rollout : RolloutId) {record : ModelVersionRecord}
    (hgate : (s.evaluateRollback (s.automaticRollback request plan record)).allowed = true)
    (scope : ScopeId) :
    scope ≠ plan.rootScope ∧
        (s.commitAutomaticRollback rollout plan record).liveIn scope = s.liveIn scope ∨
      scope = plan.rootScope ∧ Touched s (s.commitAutomaticRollback rollout plan record) scope := by
  have htaken := automatic_takes_over hs hstanding hgate
  by_cases hroot : scope = plan.rootScope
  · subst hroot
    obtain ⟨_, _, hpermitted⟩ := rollback_permitted hgate
    refine Or.inr ⟨rfl, touched_of_touch_twice hpermitted.scope ?_⟩
    rw [scopes_commitAutomaticRollback, htaken.scopes]
    rfl
  · refine Or.inl ⟨hroot, liveIn_of_bindingsFor ?_⟩
    rw [authority_commitAutomaticRollback]
    exact htaken.elsewhere scope hroot

/-- What a failed stage leaves of the scopes. -/
theorem failure_scopes (hs : Coherent s) (hstanding : Standing s)
    {request : RolloutProgressRequest} (plan : RolloutPlan)
    (htripped : (s.evaluateStageAdvance request).has .stageFailureThresholdExceeded = true)
    (hfree : ∀ scope, ¬(scope = plan.rootScope ∧ s.rollsBackItself request plan = true) →
      s.FreeOf plan scope) (scope : ScopeId) :
    (s.failCurrentStage request plan (s.evaluateStageAdvance request)).1.liveIn scope =
        s.liveIn scope ∨
      Touched s (s.failCurrentStage request plan (s.evaluateStageAdvance request)).1 scope := by
  have hchain := (moves_commitFailure (c := {}) (p := Permit.undriven (fun _ => False) False) s
    request.rollout plan (s.evaluateStageAdvance request).reasons false trivial False.elim).chain
  obtain ⟨hscopes, hauthority⟩ := commitFailure_kept (s := s) request.rollout plan
    (s.evaluateStageAdvance request).reasons false
  rcases failCurrentStage_cases plan htripped with
    ⟨hstays, hstate⟩ | ⟨hrolls, failed, _, hallowed, hstate⟩
  · rw [hstate]
    refine Or.inl (liveIn_withdrawn hauthority (hfree scope ?_))
    rintro ⟨_, hcontra⟩
    rw [hstays] at hcontra
    cases hcontra
  · rw [hstate]
    rcases automatic_scopes (hchain.coherent hs) (hchain.standing hstanding) request.rollout
      hallowed scope with ⟨hother, hlive⟩ | ⟨_, htouched⟩
    · refine Or.inl (hlive.trans (liveIn_withdrawn hauthority (hfree scope ?_)))
      rintro ⟨hroot, _⟩
      exact hother hroot
    · right
      unfold Touched at htouched ⊢
      rw [stamp_eq hscopes] at htouched
      exact htouched

/-- What an explicit failure leaves of the scopes. -/
theorem failStage_scopes (request : RolloutProgressRequest)
    (hfree : ∀ plan ∈ s.rolloutOf request.rollout, s.failRefusal request plan = none →
      ∀ scope, s.FreeOf plan scope) (scope : ScopeId) :
    (s.failStage request).1.liveIn scope = s.liveIn scope := by
  unfold failStage
  cases hplan : s.rolloutOf request.rollout with
  | none => rfl
  | some plan =>
    dsimp only
    cases hrefusal : s.failRefusal request plan with
    | some refusal => rfl
    | none =>
      dsimp only
      split
      · rfl
      · exact liveIn_withdrawn (commitFailure_kept request.rollout plan _ true).2
          (hfree plan hplan hrefusal scope)

/-- What an explicit supersession leaves of the scopes. -/
theorem supersedeRollout_scopes (rollout : RolloutId) (generation : RolloutGeneration)
    (epoch : CoordinatorEpoch) (detail : Text)
    (hfree : ∀ plan ∈ s.rolloutOf rollout, ¬(generation.valid = true ∧ generation ≠ plan.generation) →
      ¬(epoch.valid = true ∧ epoch < s.epoch) → plan.superseded = false →
        ∀ scope, s.FreeOf plan scope) (scope : ScopeId) :
    (s.supersedeRollout rollout generation epoch detail).1.liveIn scope = s.liveIn scope := by
  unfold EngineState.supersedeRollout
  cases hplan : s.rolloutOf rollout with
  | none => rfl
  | some plan =>
    dsimp only
    split_ifs with hgeneration hepoch hsuperseded
    · rfl
    · rfl
    · rfl
    · have hkept := hfree plan hplan hgeneration hepoch (by simpa using hsuperseded) scope
      split
      · exact liveIn_withdrawn rfl hkept
      · split_ifs
        · exact liveIn_withdrawn rfl hkept
        · exact liveIn_withdrawn rfl hkept

/-! ## Promotions and rollbacks -/

/-- Whether a promotion clears the rollouts of the other candidates of its model. -/
def EngineState.clears (c : EngineConfig) (s : EngineState) (request : PromotionRequest) : Bool :=
  s.reachesCommit c request &&
    (s.policy.effective s.scopes request.scope).supersedeInflightRolloutOnNewPromotion

theorem liveIn_clearInflight {request : PromotionRequest} {record : ModelVersionRecord}
    {scope : ScopeId}
    (hfree : (s.policy.effective s.scopes
        request.scope).supersedeInflightRolloutOnNewPromotion = true →
      ∀ key plan, s.rollouts.get? key = some plan → plan.inflightBeside record = true →
        s.FreeOf plan scope) :
    (s.clearInflight request record).liveIn scope = s.liveIn scope := by
  unfold clearInflight
  split_ifs with hclears
  · rw [liveIn_supersedeInflight record s.rollouts.nodup_keys]
    apply filter_not_of_free
    intro b hb
    by_contra hgranted
    obtain ⟨key, plan, hplan, hinflight, hown⟩ := grantedBy_keys_iff.mp (by simpa using hgranted)
    have hother := hfree hclears key plan hplan hinflight b hb
    rw [hown] at hother
    cases hother
  · rfl

/-- A promotion that reaches its commit leaves the table and the scopes as its grant does, if
it has one. -/
theorem promote_granted (hs : Coherent s) {request : PromotionRequest}
    (hcommit : s.reachesCommit c request = true) :
    ∃ record promotion generation, s.versionOf request.model request.candidate = some record ∧
      record.model = request.model ∧ record.version = request.candidate ∧
      let granted := ((s.prepared request record).grantPromotion request promotion generation).1
      (s.promote c request).1.authority = granted.authority ∧
        (s.promote c request).1.scopes = granted.scopes := by
  rw [reachesCommit, Bool.and_eq_true] at hcommit
  obtain ⟨hgate, hvacant⟩ := hcommit
  obtain ⟨record, hrecord, _⟩ := promotion_permitted hgate
  obtain ⟨hmodel, hversion⟩ := versionKey_inj.mp (hs.versions _ record hrecord)
  refine ⟨record, ⟨(s.clearInflight request record).nextPromotionId⟩,
    record.promotionGeneration.nextGeneration, hrecord, hmodel.symm, hversion.symm, ?_⟩
  rw [promote_eq hs hgate hrecord hvacant]
  dsimp only
  split_ifs
  · exact ⟨rfl, rfl⟩
  · exact ⟨rfl, rfl⟩

/-- What a promotion leaves of the scopes. -/
theorem promote_scopes (hs : Coherent s) (hstanding : Standing s) (request : PromotionRequest)
    (hfree : s.clears c request = true → ∀ scope,
      ¬(scope = request.scope ∧ request.immediate = true ∧ s.fitsPromotion request = true) →
      ∀ key plan, s.rollouts.get? key = some plan → plan.live = true →
        plan.model = request.model → plan.candidate ≠ request.candidate → s.FreeOf plan scope)
    (scope : ScopeId) :
    (s.promote c request).1.liveIn scope = s.liveIn scope ∨
      Touched s (s.promote c request).1 scope := by
  cases hcommit : s.reachesCommit c request with
  | false =>
    cases promotes (c := c) hs hstanding request with
    | stopped _ _ hsame =>
      rw [hsame]
      exact Or.inl rfl
    | committed hreaches =>
      rw [hcommit] at hreaches
      cases hreaches
    | aborted hreaches =>
      rw [hcommit] at hreaches
      cases hreaches
  | true =>
    obtain ⟨record, promotion, generation, hrecord, hmodel, hversion, hauthority, hscopes⟩ :=
      promote_granted hs hcommit
    have hgate : (s.evaluatePromotion c request).allowed = true := by
      rw [reachesCommit, Bool.and_eq_true] at hcommit
      exact hcommit.1
    have hchain := chain_prepared (c := c) s request record
    have hcoherent := hchain.coherent hs
    have hstand := hchain.standing hstanding
    have hadmitted := admitted_prepared hgate hrecord promotion generation
    have hkept : (s.prepared request record).scopes = s.scopes :=
      (cleared_clearInflight s request record).scopes
    by_cases hhere : scope = request.scope ∧ request.immediate = true ∧
        s.fitsPromotion request = true
    · obtain ⟨rfl, himmediate, hfits⟩ := hhere
      right
      rw [hfits] at hadmitted
      rw [grantPromotion_eq, if_pos himmediate] at hscopes
      have htouched := grant_touches hcoherent hstand
        (grantAuthority_admitted hcoherent hstand hadmitted).1
      unfold Touched at htouched ⊢
      rw [stamp_eq hscopes]
      rw [stamp_eq hkept] at htouched
      exact htouched
    · left
      have hcleared : (s.prepared request record).liveIn scope = s.liveIn scope := by
        refine liveIn_clearInflight ?_
        intro hclears key plan hplan hinflight
        simp only [RolloutPlan.inflightBeside, Bool.and_eq_true, decide_eq_true_eq, hmodel,
          hversion] at hinflight
        obtain ⟨⟨hlive, hsame⟩, hother⟩ := hinflight
        refine hfree ?_ scope hhere key plan hplan hlive hsame hother
        rw [clears, hcommit, hclears]
        rfl
      have hgranted : ((s.prepared request record).grantPromotion request promotion
          generation).1.liveIn scope = (s.prepared request record).liveIn scope := by
        rw [grantPromotion_eq]
        split_ifs with himmediate
        · cases hfits : s.fitsPromotion request with
          | false =>
            rw [hfits] at hadmitted
            exact liveIn_refused hcoherent hstand
              (grantAuthority_refused hcoherent hstand hadmitted).1 scope
          | true =>
            refine liveIn_of_bindingsFor (grantAuthority_elsewhere hcoherent hstand _ ?_)
            rintro rfl
            exact hhere ⟨rfl, himmediate, hfits⟩
        · rfl
      rw [← hcleared, ← hgranted, liveIn, liveIn, hauthority]

/-- What a rollback of a valid target leaves of the scopes. -/
theorem rollback_scopes (hs : Coherent s) (hstanding : Standing s) (request : RollbackRequest)
    (hvalid : (s.evaluateRollback request).allowed = true → request.target.valid = true)
    (scope : ScopeId) :
    (s.rollback request).1.liveIn scope = s.liveIn scope ∨
      Touched s (s.rollback request).1 scope := by
  cases rollsBack hs hstanding request with
  | refused _ _ hsame =>
    rw [hsame]
    exact Or.inl rfl
  | denied hgate htarget _ =>
    rw [hvalid hgate] at htarget
    cases htarget
  | committed _ _ _ candidate target hpermitted mid hmid hstate =>
    rw [hstate]
    obtain ⟨hauthority, _, hscopes⟩ := finishRollback_kept mid request candidate
      ⟨s.nextRollbackId⟩ candidate.rollbackGeneration.nextGeneration
    by_cases hhere : scope = request.scope
    · subst hhere
      refine Or.inr (touched_of_touch_twice hpermitted.scope ?_)
      rw [hscopes, hmid.scopes]
      rfl
    · left
      apply liveIn_of_bindingsFor
      rw [hauthority, markDraining, bindingsFor_mapScope, if_neg hhere]
      exact hmid.elsewhere scope hhere

/-! ## Retirements, revalidations and revisions -/

theorem scopes_withdrawPlans (candidate : ModelVersionId) (keys : List UInt64)
    (s : EngineState) : (withdrawPlans candidate keys s).scopes = s.scopes := by
  induction keys generalizing s with
  | nil => rfl
  | cons key keys ih =>
    unfold withdrawPlans
    split
    · exact ih s
    · split
      · exact ih s
      · exact ih _

/-- Touching some scopes moves the generation of each on. -/
theorem touched_touchScopes {scopes : List ScopeId} {scope : ScopeId} (hmem : scope ∈ scopes)
    (hscope : (s.scopes.find scope).isSome = true) :
    Touched s (scopes.foldl touchScope s) scope := by
  induction scopes generalizing s with
  | nil => cases hmem
  | cons first scopes ih =>
    have hgrown : Grown (s.touchScope first) (scopes.foldl touchScope (s.touchScope first)) :=
      (chain_touchScopes (c := {}) (p := {}) scopes (s.touchScope first)).grown
    by_cases hfirst : scope = first
    · subst hfirst
      exact (touched_of_touch hscope rfl).grow hgrown
    · have hrest : scope ∈ scopes := by
        rcases List.mem_cons.mp hmem with hcontra | hrest
        · exact absurd hcontra hfirst
        · exact hrest
      have hkept : ((s.touchScope first).scopes.find scope).isSome = true := by
        rw [touchScope_scopes, ScopeRegistry.find_touch, Option.isSome_map]
        exact hscope
      exact (ih hrest hkept).precede (grown_touchScope s first) hgrown

/-- Fencing a version moves the generation of every registered scope it was bound in on. -/
theorem fenceVersion_touches (hs : Coherent s) {record : ModelVersionRecord} {scope : ScopeId}
    {b : AuthorityBinding} (hb : b ∈ s.authority.bindingsFor scope)
    (hown : b.ofVersion record.model record.version = true)
    (hscope : (s.scopes.find scope).isSome = true) : Touched s (s.fenceVersion record) scope := by
  have hscopes : (s.fenceVersion record).scopes = ((((s.mapAuthority
      (·.supersedeVersion record.model record.version)).authority.bindingsForVersion
        record.model record.version).map AuthorityBinding.scope).foldl touchScope
      (s.mapAuthority (·.supersedeVersion record.model record.version))).scopes :=
    scopes_withdrawPlans _ _ _
  have htouched : Touched (s.mapAuthority (·.supersedeVersion record.model record.version))
      ((((s.mapAuthority
        (·.supersedeVersion record.model record.version)).authority.bindingsForVersion
          record.model record.version).map AuthorityBinding.scope).foldl touchScope
        (s.mapAuthority (·.supersedeVersion record.model record.version))) scope := by
    refine touched_touchScopes ?_ hscope
    refine List.mem_map.mpr ⟨b.supersede, ?_, hs.authority scope b hb⟩
    refine List.mem_filter.mpr ⟨mem_allBindings_iff.mpr ⟨scope, ?_⟩, hown⟩
    rw [mapAuthority_authority, supersedeVersion, bindingsFor_mapAll]
    exact List.mem_map.mpr ⟨b, hb, if_pos hown⟩
  unfold Touched at htouched ⊢
  rw [stamp_eq hscopes]
  exact htouched

/-- What a retirement leaves of the scopes. -/
theorem retire_scopes (hs : Coherent s) (hseated : Seated s) (request : RetirementRequest)
    (scope : ScopeId) :
    (s.retire request).1.liveIn scope = s.liveIn scope ∨ Touched s (s.retire request).1 scope := by
  have hfence : ∀ record, (s.fenceVersion record).liveIn scope = s.liveIn scope ∨
      Touched s (s.fenceVersion record) scope := by
    intro record
    have hauthority : (s.fenceVersion record).authority =
        s.authority.supersedeVersion record.model record.version :=
      fenceVersion_authority s record
    have hfiltered := liveIn_supersedeVersion s record.model record.version scope
    by_cases hfree : ∀ b ∈ s.liveIn scope, b.ofVersion record.model record.version = false
    · left
      rw [filter_not_of_free hfree] at hfiltered
      rw [← hfiltered, liveIn, hauthority]
      rfl
    · right
      push Not at hfree
      obtain ⟨b, hb, hwithdrawn⟩ := hfree
      obtain ⟨hmem, _⟩ := mem_liveBindingsFor.mp hb
      exact fenceVersion_touches hs hmem (by simpa using hwithdrawn) (hseated scope b hmem)
  cases hallowed : (s.evaluateRetirement request).allowed with
  | false =>
    rw [retire_same_of_refused hallowed]
    exact Or.inl rfl
  | true =>
    obtain ⟨record, _, _, hretire⟩ := retire_of_allowed hallowed
    rw [hretire]
    refine kept_or_touched_of_same ?_ ?_ (hfence record)
    · simp [stampVersion, advanceVersion]
    · simp [stampVersion, advanceVersion]

/-- Whether a revalidation is accepted. -/
def EngineState.revalidates (s : EngineState) (request : RevalidationRequest) : Bool :=
  (s.versionOf request.model request.version).any fun record => !record.retired &&
    !(request.generation.valid && decide (request.generation ≠ record.generation))

theorem revalidates_of_checks {request : RevalidationRequest} {record : ModelVersionRecord}
    (hrecord : s.versionOf request.model request.version = some record)
    (hretired : ¬record.retired = true)
    (hgeneration : ¬(request.generation.valid ∧ request.generation ≠ record.generation)) :
    s.revalidates request = true := by
  rw [revalidates, hrecord, Option.any_some, Bool.and_eq_true, Bool.not_eq_true',
    Bool.not_eq_true']
  refine ⟨by simpa using hretired, ?_⟩
  by_contra hcited
  exact hgeneration (by simpa using hcited)

/-- What a revalidation leaves of the scopes. -/
theorem revalidate_scopes (hs : Coherent s) (request : RevalidationRequest)
    (hfree : s.revalidates request = true → ∀ scope, ∀ b ∈ s.liveIn scope,
      b.provisionalOf request.model request.version = false) (scope : ScopeId) :
    (s.revalidate request).1.liveIn scope = s.liveIn scope := by
  unfold revalidate
  cases hrecord : s.versionOf request.model request.version with
  | none => rfl
  | some record =>
    dsimp only
    split_ifs with hretired hgeneration
    · rfl
    · rfl
    · obtain ⟨hmodel, hversion⟩ := versionKey_inj.mp (hs.versions _ record hrecord)
      have hnone := hfree (revalidates_of_checks hrecord hretired hgeneration)
      apply liveIn_of_bindingsFor
      refine (bindingsFor_supersedeScopes (s.authority.provisionals record.model record.version)
        (s.withdrawStanding request record) scope).trans (if_neg ?_)
      rw [mem_scopes_provisionals hs, provisionalIn_iff]
      rintro ⟨b, hb, hprovisional⟩
      rw [← hmodel, ← hversion, hnone scope b hb] at hprovisional
      cases hprovisional

/-- Whether a revision changes the content of its version. -/
def EngineState.revises (c : EngineConfig) (s : EngineState) (request : ReviseVersionRequest) :
    Bool :=
  (s.versionOf request.model request.version).any fun record => !record.retired &&
    !(request.expectedGeneration.valid && decide (request.expectedGeneration ≠ record.generation)) &&
    request.artifact.setId.valid && request.artifact.generation.valid &&
    validDigest request.artifact.digest c.bounds.maxDigestLength && !sameContent record request

/-- A revision that passes every check changes the content of its version. -/
theorem revises_of_checks {request : ReviseVersionRequest} {record : ModelVersionRecord}
    (hrecord : s.versionOf request.model request.version = some record)
    (hretired : ¬record.retired = true)
    (hgeneration : ¬(request.expectedGeneration.valid ∧
      request.expectedGeneration ≠ record.generation))
    (hartifact : ¬(!request.artifact.setId.valid ∨ !request.artifact.generation.valid))
    (hdigest : ¬(!validDigest request.artifact.digest c.bounds.maxDigestLength))
    (hsame : ¬sameContent record request = true) : s.revises c request = true := by
  simp only [not_or, Bool.not_eq_true', Bool.not_eq_false] at hartifact hdigest
  simp only [Bool.not_eq_true] at hretired hsame
  rw [revises, hrecord, Option.any_some, hretired, hartifact.1, hartifact.2, hdigest, hsame,
    Bool.not_false, Bool.true_and, Bool.and_true, Bool.and_true, Bool.and_true, Bool.and_true,
    Bool.not_eq_true']
  by_contra hcited
  exact hgeneration (by simpa using hcited)

/-- A revision that is not carried through leaves the plans and the table alone. One that is
supersedes the live plans of the version. -/
theorem revise_plans (hs : Coherent s) (request : ReviseVersionRequest) :
    ((s.reviseVersion c request).1.rollouts = s.rollouts ∧
        (s.reviseVersion c request).1.authority = s.authority) ∨
      ∃ t, s.revises c request = true ∧ t.rollouts = s.rollouts ∧ t.authority = s.authority ∧
        (s.reviseVersion c request).1.rollouts =
          (supersedeRevisedPlans request.version s.rollouts.keys t).rollouts ∧
        (s.reviseVersion c request).1.authority =
          (supersedeRevisedPlans request.version s.rollouts.keys t).authority := by
  unfold reviseVersion
  cases hrecord : s.versionOf request.model request.version with
  | none => exact Or.inl ⟨rfl, rfl⟩
  | some record =>
    obtain ⟨_, hversion⟩ := versionKey_inj.mp (hs.versions _ record hrecord)
    have hrevises := revises_of_checks (c := c) hrecord
    rw [hversion]
    dsimp only
    split_ifs with hretired hgeneration hartifact hdigest hsame hterminal hkeeps
    · exact Or.inl ⟨rfl, rfl⟩
    · exact Or.inl ⟨rfl, rfl⟩
    · exact Or.inl ⟨rfl, rfl⟩
    · exact Or.inl ⟨rfl, rfl⟩
    · exact Or.inl ⟨rfl, rfl⟩
    · exact Or.inl ⟨rfl, rfl⟩
    · refine Or.inr ⟨_, hrevises hretired hgeneration hartifact hdigest hsame, ?_, ?_, rfl, rfl⟩
      · rfl
      · rfl
    · refine Or.inr ⟨_, hrevises hretired hgeneration hartifact hdigest hsame, ?_, ?_, rfl, rfl⟩
      · rfl
      · rfl

/-- What a revision leaves of the scopes. -/
theorem revise_scopes (hs : Coherent s) (request : ReviseVersionRequest)
    (hfree : s.revises c request = true → ∀ key plan, s.rollouts.get? key = some plan →
      plan.candidate = request.version → plan.live = true → ∀ scope, s.FreeOf plan scope)
    (scope : ScopeId) :
    (s.reviseVersion c request).1.liveIn scope = s.liveIn scope := by
  rcases revise_plans (c := c) hs request with ⟨_, hsame⟩ |
    ⟨t, hrevises, hrollouts, hauthority, _, hafter⟩
  · rw [liveIn, hsame, liveIn]
  · rw [liveIn, hafter, ← liveIn, liveIn_supersedeRevisedPlans request.version
      s.rollouts.nodup_keys, filter_not_of_free]
    · rw [liveIn, hauthority, liveIn]
    · intro b hb
      rw [liveIn, hauthority, ← liveIn] at hb
      by_contra hgranted
      rw [← hrollouts] at hgranted
      obtain ⟨key, plan, hplan, hpicked, hown⟩ :=
        grantedBy_keys_iff.mp (by simpa using hgranted)
      rw [hrollouts] at hplan
      simp only [RolloutPlan.liveFor, Bool.and_eq_true, decide_eq_true_eq] at hpicked
      have hother := hfree hrevises key plan hplan hpicked.1 hpicked.2 scope b hb
      rw [hown] at hother
      cases hother

/-! ## The policy and recoveries -/

/-- A refinement as it is attached. -/
def ScopePolicyOverride.normalized (refinement : ScopePolicyOverride) : ScopePolicyOverride :=
  { refinement with
    additionalRequiredEvidence := sortUniqueEvidence refinement.additionalRequiredEvidence
    additionalPromotableScopeKinds := sortUniqueScopeKinds refinement.additionalPromotableScopeKinds }

/-- Attaching a refinement that a scope already has changes no view. -/
theorem setScopePolicy_tracks (refinement : ScopePolicyOverride)
    (hsame : (s.scopes.find refinement.scope).isSome = true →
      refinement.additionalRequiredEvidence.length ≤ EvidenceKind.count →
        s.policy.overrides.get? refinement.scope.raw = some refinement.normalized) :
    scopeObservation.Tracks s (s.setScopePolicy refinement).1 := by
  have hset : (s.setScopePolicy refinement).1 = s ∨
      (s.scopes.find refinement.scope).isSome = true ∧
        refinement.additionalRequiredEvidence.length ≤ EvidenceKind.count ∧
        (s.setScopePolicy refinement).1.scopes = s.scopes ∧
        (s.setScopePolicy refinement).1.authority = s.authority ∧
        (s.setScopePolicy refinement).1.policy.overrides =
          s.policy.overrides.insert refinement.scope.raw refinement.normalized := by
    unfold setScopePolicy
    cases hscope : s.scopes.find refinement.scope with
    | none => exact Or.inl rfl
    | some record =>
      unfold PolicySet.setOverride
      by_cases hvalid : refinement.scope.valid = true
      · by_cases hcount : EvidenceKind.count < refinement.additionalRequiredEvidence.length
        · left
          simp [hvalid, hcount, OutcomeCode.isPositive]
        · refine Or.inr ⟨rfl, by omega, ?_⟩
          simp only [hvalid, hcount, Bool.not_true, Bool.false_eq_true, if_false,
            Decision.allowed_accepted]
          exact ⟨rfl, rfl, rfl⟩
      · left
        simp [hvalid, OutcomeCode.isPositive]
  rcases hset with hkept | ⟨hscope, hcount, hscopes, hauthority, hpolicy⟩
  · rw [hkept]
    exact Observation.Tracks.refl s
  · intro scope
    refine ⟨(stamp_eq hscopes scope).ge, Or.inl ?_⟩
    have hoverride : (s.setScopePolicy refinement).1.policy.overrides.get? scope.raw =
        s.policy.overrides.get? scope.raw := by
      rw [hpolicy, OrdMap.get?_insert]
      split_ifs with hown
      · rw [hown]
        exact (hsame hscope hcount).symm
      · rfl
    simp only [scopeObservation, liveIn, hauthority, hoverride]

/-- What is seen of a scope in a durable state, and its generation there. -/
def DurableState.viewOf (d : DurableState) (scope : ScopeId) :
    Set AuthorityBinding × Option ScopePolicyOverride :=
  ({b | b ∈ ((d.authority.get? scope.raw).getD []).filter AuthorityBinding.live},
    d.policyOverrides.get? scope.raw)

def DurableState.generationOf (d : DurableState) (scope : ScopeId) : ScopeGeneration :=
  ((if scope.valid then d.scopes[scope.raw.toNat - 1]? else none).map
    ScopeRecord.generation).getD {}

/-- A durable state that takes no scope back, and restores each scope as it is seen now or
at a later generation. -/
def DurableState.Continues (d : DurableState) (s : EngineState) : Prop :=
  ∀ scope, scopeObservation.stamp s scope ≤ d.generationOf scope ∧
    (d.viewOf scope = scopeObservation.view s scope ∨
      scopeObservation.stamp s scope < d.generationOf scope ∨
      (scopeObservation.stamp s scope).Saturated)

theorem import_tracks (d : DurableState) (newEpoch : CoordinatorEpoch)
    (hcontinues : ∀ recovered, d.validate c s newEpoch = .ok recovered → d.Continues s) :
    scopeObservation.Tracks s (s.importDurableState c d newEpoch).1 := by
  rcases importDurableState_cases c s d newEpoch with ⟨hsame, _⟩ | ⟨recovered, hsound, heq⟩
  · rw [hsame]
    exact Observation.Tracks.refl s
  · rw [heq]
    intro scope
    have hstamp : scopeObservation.stamp (s.applyDurableState d newEpoch recovered) scope =
        d.generationOf scope := by
      have hfind : recovered.scopes.find scope =
          if scope.valid then d.scopes[scope.raw.toNat - 1]? else none := by
        rw [ScopeRegistry.find, (restoredScopes hsound.scopes).1]
      exact congrArg (fun found => (found.map ScopeRecord.generation).getD {}) hfind
    have hview : scopeObservation.view (s.applyDurableState d newEpoch recovered) scope =
        d.viewOf scope := by
      have hauthority : recovered.authority.bindingsFor scope =
          (d.authority.get? scope.raw).getD [] := by
        rw [(restored_authority hsound.authority).1]
        rfl
      have hpolicy : recovered.policy.overrides = d.policyOverrides := by
        rw [restoredPolicy hsound.policy]
      refine Prod.ext ?_ (congrArg (OrdMap.get? · scope.raw) hpolicy)
      have hlive : (s.applyDurableState d newEpoch recovered).liveIn scope =
          ((d.authority.get? scope.raw).getD []).filter AuthorityBinding.live :=
        congrArg (List.filter AuthorityBinding.live) hauthority
      simp only [scopeObservation, DurableState.viewOf, hlive]
    rw [hstamp, hview]
    exact hcontinues recovered (DurableState.validate_ok.mpr hsound) scope

/-! ## Steps and runs -/

/-- What an operation must find so that every scope it changes is touched. Withdrawing what
a rollout granted touches no scope: nothing it granted is live but where the operation
grants, too. A revalidation finds no provisional binding of its version, a permitted
rollback has a valid target, a refinement is attached again as it is, and a recovery
continues what is seen. -/
def Operation.FindsScopesFree (c : EngineConfig) (s : EngineState) : Operation → Prop
  | .setScopePolicy refinement =>
    (s.scopes.find refinement.scope).isSome = true →
      refinement.additionalRequiredEvidence.length ≤ EvidenceKind.count →
        s.policy.overrides.get? refinement.scope.raw = some refinement.normalized
  | .reviseVersion request =>
    s.revises c request = true → ∀ key plan, s.rollouts.get? key = some plan →
      plan.candidate = request.version → plan.live = true → ∀ scope, s.FreeOf plan scope
  | .promote request =>
    s.clears c request = true → ∀ scope,
      ¬(scope = request.scope ∧ request.immediate = true ∧ s.fitsPromotion request = true) →
      ∀ key plan, s.rollouts.get? key = some plan → plan.live = true →
        plan.model = request.model → plan.candidate ≠ request.candidate → s.FreeOf plan scope
  | .advanceStage request =>
    ∀ plan ∈ s.rolloutOf request.rollout,
      (s.evaluateStageAdvance request).has .stageFailureThresholdExceeded = true →
        ∀ scope, ¬(scope = plan.rootScope ∧ s.rollsBackItself request plan = true) →
          s.FreeOf plan scope
  | .failStage request =>
    ∀ plan ∈ s.rolloutOf request.rollout, s.failRefusal request plan = none →
      ∀ scope, s.FreeOf plan scope
  | .supersedeRollout rollout generation epoch _ =>
    ∀ plan ∈ s.rolloutOf rollout, ¬(generation.valid = true ∧ generation ≠ plan.generation) →
      ¬(epoch.valid = true ∧ epoch < s.epoch) → plan.superseded = false →
        ∀ scope, s.FreeOf plan scope
  | .rollback request => (s.evaluateRollback request).allowed = true → request.target.valid = true
  | .revalidate request =>
    s.revalidates request = true → ∀ scope, ∀ b ∈ s.liveIn scope,
      b.provisionalOf request.model request.version = false
  | .importDurableState d newEpoch =>
    ∀ recovered, d.validate c s newEpoch = .ok recovered → d.Continues s
  | _ => True

theorem Aside.tracks (h : Aside c s s') (hoverrides : s'.policy.overrides = s.policy.overrides) :
    scopeObservation.Tracks s s' := by
  intro scope
  refine ⟨h.grown.stamp_le scope, Or.inl ?_⟩
  simp only [scopeObservation, liveIn, h.authority, hoverrides]

/-- A step that finds its scopes free touches every scope it changes. -/
theorem step_tracks (hs : Coherent s) (hstanding : Standing s) (hseated : Seated s)
    (op : Operation) (hop : op.FindsScopesFree c s) : scopeObservation.Tracks s (step c s op) := by
  have haside : op.setsPolicy = false → op.isImport = false → Aside c s (step c s op) →
      scopeObservation.Tracks s (step c s op) := fun hsets himport h =>
    h.tracks (by rw [step_policy hs hsets himport])
  have hscopes : op.setsPolicy = false → op.isImport = false →
      (∀ scope, (step c s op).liveIn scope = s.liveIn scope ∨ Touched s (step c s op) scope) →
      scopeObservation.Tracks s (step c s op) := fun hsets himport =>
    tracks_of_cases ((step_cases hs op).grown himport) (step_policy hs hsets himport)
  cases op with
  | registerModel name family provenance =>
    exact haside rfl rfl (registerModel_aside s name family provenance)
  | registerVersion request => exact haside rfl rfl (registerVersion_aside s request)
  | reviseVersion request =>
    exact hscopes rfl rfl fun scope => Or.inl (revise_scopes hs request hop scope)
  | registerScope path => exact haside rfl rfl (registerScope_aside s path)
  | setPolicy policy =>
    refine (setPolicy_aside (c := c) s policy).tracks ?_
    unfold setPolicy
    split_ifs
    all_goals rfl
  | setScopePolicy refinement => exact setScopePolicy_tracks refinement hop
  | publishCompatibility version environment outcome detail provenance =>
    exact haside rfl rfl (publishCompatibility_aside s version environment outcome detail provenance)
  | publishEvidence record => exact haside rfl rfl (publishEvidence_aside s record)
  | expirePublisherEvidence boot => exact haside rfl rfl (expirePublisherEvidence_aside s boot)
  | registerWorker registration => exact haside rfl rfl (registerWorker_aside s registration)
  | fenceWorker worker boot epoch reason =>
    exact haside rfl rfl (fenceWorker_aside s worker boot epoch reason)
  | setWorkerLiveness worker connected =>
    exact haside rfl rfl (setWorkerLiveness_aside s worker connected)
  | promote request => exact hscopes rfl rfl (promote_scopes hs hstanding request hop)
  | createRollout request => exact haside rfl rfl (createRollout_aside s request)
  | beginRollout request => exact begin_tracks hs hstanding request
  | advanceStage request =>
    cases hcommit : s.commit request with
    | some plan => exact commit_tracks hs hstanding hcommit
    | none =>
      rcases advance_uncommitted hcommit with hsame | ⟨plan, hplan, htripped, hfails⟩
      · have hkept : step c s (.advanceStage request) = s := hsame
        rw [hkept]
        exact Observation.Tracks.refl s
      · refine hscopes rfl rfl fun scope => ?_
        have hstate : step c s (.advanceStage request) =
            (s.failCurrentStage request plan (s.evaluateStageAdvance request)).1 := hfails
        rw [hstate]
        exact failure_scopes hs hstanding plan htripped (hop plan hplan htripped) scope
  | failStage request =>
    exact hscopes rfl rfl fun scope => Or.inl (failStage_scopes request hop scope)
  | supersedeRollout rollout generation epoch detail =>
    exact hscopes rfl rfl fun scope =>
      Or.inl (supersedeRollout_scopes rollout generation epoch detail hop scope)
  | rollback request => exact hscopes rfl rfl (rollback_scopes hs hstanding request hop)
  | retire request => exact hscopes rfl rfl (retire_scopes hs hseated request)
  | revalidate request =>
    exact hscopes rfl rfl fun scope => Or.inl (revalidate_scopes hs request hop scope)
  | beginAttempt request => exact haside rfl rfl (beginAttempt_aside s request)
  | completeAttempt completion => exact haside rfl rfl (completeAttempt_aside s completion)
  | reconcileAttempt attempt sideEffectObserved epoch detail =>
    exact haside rfl rfl (reconcileAttempt_aside s attempt sideEffectObserved epoch detail)
  | advanceEpoch expectedCurrent => exact haside rfl rfl (advanceEpoch_aside s expectedCurrent)
  | importDurableState d newEpoch => exact import_tracks d newEpoch hop
  | invalidateVolatileState cause => exact haside rfl rfl (invalidateVolatileState_aside s cause)

/-- In every run whose steps find their scopes free, between any two times, a scope whose
live bindings or refinement changed has a strictly greater generation, below saturation, and
a scope with an equal generation has the same live bindings and refinement. -/
theorem scope_generations_track {ops : List Operation}
    (hops : Runs.Along (step c) (fun s op => op.FindsScopesFree c s) (init c) ops)
    {before between after : List Operation} (hsplit : ops = before ++ between ++ after)
    (scope : ScopeId) :
    let s := runOps c (init c) before
    let s' := runOps c (init c) (before ++ between)
    ¬(scopeObservation.stamp s scope).Saturated →
      (scopeObservation.view s' scope ≠ scopeObservation.view s scope →
        scopeObservation.stamp s scope < scopeObservation.stamp s' scope) ∧
      (scopeObservation.stamp s' scope = scopeObservation.stamp s scope →
        scopeObservation.view s' scope = scopeObservation.view s scope) := by
  intro s s' hroom
  obtain ⟨hboth, _⟩ := (Runs.along_append (step c)).mp (hsplit ▸ hops)
  obtain ⟨_, hbetween⟩ := (Runs.along_append (step c)).mp hboth
  have hstep : ∀ (t : EngineState) (op : Operation), Coherent t ∧ Standing t ∧ Seated t →
      op.FindsScopesFree c t → scopeObservation.Tracks t (step c t op) ∧
        Coherent (step c t op) ∧ Standing (step c t op) ∧ Seated (step c t op) := by
    rintro t op ⟨ht, hstanding, hseated⟩ hop
    have hcase := step_cases (c := c) ht op
    exact ⟨step_tracks ht hstanding hseated op hop, hcase.coherent ht, hcase.standing hstanding,
      hcase.seated hseated⟩
  have hstart : Seated (init c) := by
    intro scope b hb
    cases hb
  have hs : Coherent s ∧ Standing s ∧ Seated s :=
    Runs.reachable_invariant (P := fun t => Coherent t ∧ Standing t ∧ Seated t) (step c)
      (fun t op ⟨ht, hstanding, hseated⟩ => ⟨(step_cases ht op).coherent ht,
        (step_cases ht op).standing hstanding, (step_cases ht op).seated hseated⟩)
      ⟨coherent_init c, standing_init c, hstart⟩ ⟨before, rfl⟩
  have htracks : scopeObservation.Tracks s s' := by
    have hrun := Observation.tracks_run hstep hbetween hs
    rw [← Runs.run_append] at hrun
    exact hrun
  refine ⟨fun hchanged => ?_, fun hsame => htracks.view_eq hsame hroom⟩
  obtain ⟨_, hview | hlt | hexhausted⟩ := htracks scope
  · exact absurd hview hchanged
  · exact hlt
  · exact absurd hexhausted hroom

/-- A version is registered, and promoted in the root scope. -/
def promotedAtRoot : List Operation :=
  [.registerModel [109] [] .synthetic,
    .registerVersion
      { model := ⟨1⟩, label := [49]
        artifact := { setId := ⟨1⟩, generation := ⟨1⟩, digest := [97] } },
    .publishCompatibility ⟨1⟩ { key := [101] } .compatible [] .synthetic]

def promoteAtRoot : PromotionRequest :=
  { model := ⟨1⟩, candidate := ⟨1⟩, scope := ⟨1⟩, environmentKey := [101]
    requestImmediateCutover := true }

/-- The promotion changes the root scope, and its generation moves on. -/
theorem scope_generations_track_witness :
    scopeObservation.stamp (runOps {} (init {}) promotedAtRoot) ⟨1⟩ <
      scopeObservation.stamp (runOps {} (init {}) (promotedAtRoot ++ [.promote promoteAtRoot]))
        ⟨1⟩ := by
  have hfree : Runs.Along (step {}) (fun s op => op.FindsScopesFree {} s) (init {})
      (promotedAtRoot ++ [.promote promoteAtRoot]) := by
    refine ⟨trivial, trivial, trivial, ?_, trivial⟩
    intro _ scope _ key plan hplan
    cases hplan
  refine (scope_generations_track hfree (List.append_nil _).symm ⟨1⟩ ?_).1 ?_
  · decide +kernel
  · intro hsame
    have hlive : ∃ b, b ∈ (runOps {} (init {})
        (promotedAtRoot ++ [.promote promoteAtRoot])).liveIn ⟨1⟩ ∧
        b ∉ (runOps {} (init {}) promotedAtRoot).liveIn ⟨1⟩ := by
      refine ⟨((runOps {} (init {})
        (promotedAtRoot ++ [.promote promoteAtRoot])).liveIn ⟨1⟩).headD {}, ?_, ?_⟩
      · decide +kernel
      · decide +kernel
    obtain ⟨b, hafter, hbefore⟩ := hlive
    have hset := congrArg Prod.fst hsame
    exact hbefore ((Set.ext_iff.mp hset b).mp hafter)

/-- A refinement is attached to the root scope, and its generation stays. -/
theorem scope_generations_track_counterexample :
    ¬∀ (c : EngineConfig) (before between : List Operation) (scope : ScopeId),
      let s := runOps c (init c) before
      let s' := runOps c (init c) (before ++ between)
      ¬(scopeObservation.stamp s scope).Saturated →
        scopeObservation.view s' scope ≠ scopeObservation.view s scope →
          scopeObservation.stamp s scope < scopeObservation.stamp s' scope := by
  intro hclaim
  have hmoved := hclaim {} [] [.setScopePolicy { scope := ⟨1⟩, requireRollbackTarget := 0 }] ⟨1⟩
    (by decide +kernel) ?_
  · revert hmoved
    decide +kernel
  · intro hsame
    have hoverride := congrArg Prod.snd hsame
    revert hoverride
    decide +kernel

end LifecycleFabric
