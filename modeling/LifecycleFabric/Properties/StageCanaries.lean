import LifecycleFabric.Properties.PartialAuthority

/-!
# Canaries of stages

The entry of a stage adds canaries of its plan, and the commit of a stage adds no others. A
commit of the last stage leaves the canaries of its plan live, unless it drains them with
what the plan replaces.
-/

namespace LifecycleFabric

open EngineState AuthorityTable AuthorityBinding Runs

variable {c : EngineConfig} {s t : EngineState} {plan : RolloutPlan} {key : UInt64}

/-! ## The first stage -/

/-- The begin of a rollout adds partial bindings of its plan only. -/
theorem begin_addsPartials (hs : Coherent s) (hstanding : Standing s)
    {request : RolloutProgressRequest} (h : s.entry request = some plan) :
    AddsPartials (fun b => b.rollout = plan.id) s (s.beginRollout request).1 := by
  have hplan := (entry_permitted h).1
  have hkey : plan.id.raw = request.rollout.raw := hs.rollouts _ plan hplan
  have hstored := rolloutOf_enteredState hplan
  have hchain := chain_enteredState (c := {}) h
  have hentered : AddsPartials (fun b => b.rollout = plan.id) s (s.enteredState request plan) :=
    addsPartials_of_authority (authority_enteredState s request plan).1
  have hgrants : AddsPartials (fun b => b.rollout = plan.id) (s.enteredState request plan)
      (grantOver (stageGrant (s.enteredPlan plan) plan.firstStage .canary false) (fun _ s => s)
        (plan.stageScopes plan.firstStage) (s.enteredState request plan)).1 := by
    refine grantOver_addsPartials (s := s.enteredState request plan) ?_ ?_ ?_
      (Steady.refl (hchain.coherent hs) (hchain.standing hstanding))
    · intro scope t ht
      exact namesStored_stageGrant (s.enteredPlan plan) (by rw [rolloutOf, ht]; exact hstored) hkey
        ⟨rfl, rfl, rfl⟩ plan.firstStage .canary false scope
    · exact fun _ _ ht => ⟨ht, addsPartials_of_authority rfl⟩
    · rintro scope b ⟨_, hrollout⟩
      exact hrollout
  have hgranted := hentered.trans hgrants
  rw [begin_eq h]
  dsimp only
  generalize grantOver (stageGrant (s.enteredPlan plan) plan.firstStage .canary false)
    (fun _ s => s) (plan.stageScopes plan.firstStage) (s.enteredState request plan) = granted
    at hgranted ⊢
  split
  · exact hgranted
  · exact hgranted.trans (addsPartials_of_authority (authority_refreshRoot _ _ _))

/-- The begin of a rollout leaves partial bindings of live plans only. -/
theorem begin_served (hs : Coherent s) (hstanding : Standing s) (href : Referenced s)
    (h : PartialsServed s) (request : RolloutProgressRequest) :
    PartialsServed (s.beginRollout request).1 := by
  cases hentry : s.entry request with
  | none =>
    rw [begin_stopped hentry]
    exact h
  | some plan =>
    obtain ⟨hplan, hrefusal, _⟩ := entry_permitted hentry
    obtain ⟨hlive, _⟩ := begin_permitted hrefusal
    obtain ⟨generation, hafter⟩ := rolloutOf_begin hs hentry
    have hid : plan.id = request.rollout := Ident.ext (hs.rollouts _ plan hplan)
    refine h.next hs href (begin_addsPartials hs hstanding hentry) ?_ ?_
    · rintro b cited hrollout ⟨_, hcited⟩
      rw [hrollout, hid, hafter] at hcited
      obtain rfl := Option.some.inj hcited
      exact hlive
    · intro key stored hstored hstoredLive
      by_cases hkey : key = request.rollout.raw
      · subst hkey
        exact settled_of_live hafter hlive
      · have hbegins := (beginRollout_progresses (c := {}) hs request hplan).chain
        exact settled_of_kept (hbegins.plan_kept hkey) hstored hstoredLive

/-! ## Commits -/

section Commit

variable (hs : Coherent s) (hstanding : Standing s) {request : RolloutProgressRequest}
  (h : s.commit request = some plan)

include hs hstanding h

/-- The grants of a commit move exclusive authority, and add nothing partial. -/
theorem commitGrants_addsNoPartial : AddsNoPartial s (s.commitGrants request.rollout plan).1 := by
  have hgrants : AddsNoPartial (s.advancedState request.rollout)
      (s.commitGrants request.rollout plan).1 := by
    refine grantOver_addsPartials (namesStored_commit hs hstanding h) ?_ ?_
      (steady_advancedState hs hstanding h).1
    · intro scope t ht
      have hdrain := chain_drainPrevious (c := {}) (p := Permit.still fun _ => False) plan
        plan.currentStage scope t
      exact ⟨ht.chain hdrain fun _ hedits => hedits,
        hdrain.addsPartials fun _ hgrants => hgrants.elim⟩
    · rintro scope b ⟨hbeside, _⟩
      cases hbeside
  exact (addsPartials_of_authority (advancedState_authority s _)).trans hgrants

/-- What follows the grants of a commit adds canaries of its plan, where there is a next
stage. -/
theorem commit_addsPartials :
    AddsPartials (fun b => plan.currentStageIndex + 1 < plan.stages.length ∧ b.rollout = plan.id)
      (s.commitGrants request.rollout plan).1 (s.advanceStage request).1 := by
  obtain ⟨hplan, hfaults, heq⟩ := commit_permitted h
  obtain ⟨hlive, _⟩ := stage_permitted_live hfaults
  obtain ⟨hentered, _, _⟩ := stage_permitted_open hfaults
  have hsteady := steady_commitGrants hs hstanding h
  obtain ⟨_, hcommitted, _⟩ := commitGrants_spec hs hstanding h
  rw [heq, commitStage_eq]
  dsimp only
  rw [← commitGrants]
  generalize s.commitGrants request.rollout plan = granted at hsteady hcommitted ⊢
  cases granted.2.allowed with
  | false => exact addsPartials_of_authority rfl
  | true =>
    have hleft : AddsPartials
        (fun b => plan.currentStageIndex + 1 < plan.stages.length ∧ b.rollout = plan.id) granted.1
        (granted.1.leaveStage request.rollout (s.committedPlan plan)).1 := by
      by_cases hlast : (s.committedPlan plan).stages.length ≤
          (s.committedPlan plan).currentStageIndex + 1
      · unfold leaveStage
        rw [if_pos hlast]
        exact addsPartials_of_authority rfl
      · have hadvanced : (s.committedPlan plan).stageAdvanced = true :=
          stageAdvanced_advancedPlan _ _ plan
        have hchain := chain_nextState (c := {}) hcommitted hlive hentered hadvanced hlast
        have hkey : (granted.1.nextPlan (s.committedPlan plan)).id.raw = request.rollout.raw :=
          hs.rollouts _ plan hplan
        have hstored := rolloutOf_nextState hcommitted
        rw [leaveStage_eq _ _ hlast]
        refine AddsPartials.trans (addsPartials_of_authority (authority_nextState granted.1
          request.rollout (s.committedPlan plan)).1) ?_
        refine grantOver_addsPartials
          (s := granted.1.nextState request.rollout (s.committedPlan plan)) ?_ ?_ ?_
          (Steady.refl (hchain.coherent hsteady.coherent) (hchain.standing hsteady.standing))
        · intro scope t ht
          exact namesStored_stageGrant (granted.1.nextPlan (s.committedPlan plan))
            (by rw [rolloutOf, ht]; exact hstored) hkey ⟨rfl, rfl, rfl⟩
            (s.committedPlan plan).nextStage .canary false scope
        · exact fun _ _ ht => ⟨ht, addsPartials_of_authority rfl⟩
        · rintro scope b ⟨_, hrollout⟩
          exact ⟨not_le.mp hlast, hrollout⟩
    rw [Bool.not_true, if_neg Bool.false_ne_true]
    split_ifs
    · exact hleft
    · exact hleft.trans (addsPartials_of_authority (authority_refreshRoot _ _ _))

/-- Where the grants of a commit drain what the plan replaces, they leave nothing partial of
it in the scopes of the stage. -/
theorem commitGrants_drained (hallowed : (s.commitGrants request.rollout plan).2.allowed = true)
    {scope : ScopeId} {b : AuthorityBinding} (hdrains : s.DrainsAt plan scope b)
    (hb : b ∈ (s.commitGrants request.rollout plan).1.authority.bindingsFor scope) :
    b.isLivePartial = false := by
  obtain ⟨hscope, hdraining, hown⟩ := hdrains
  obtain ⟨u, hu, _, _, _, hlast⟩ := grantOver_at (fun _ => rfl)
    (fun scope t ht => namesStored_commit hs hstanding h scope t ht)
    (fun scope t ht => ht.chain (chain_drainPrevious (c := {}) (p := Permit.still fun _ => True)
      plan plan.currentStage scope t) fun _ hedits => hedits)
    (P := fun _ => True) (fun _ _ _ _ => trivial)
    (fun next other t hne => by rw [bindingsFor_drainPrevious, if_neg fun hcontra => hne hcontra.2])
    (nodup_stageScopes plan plan.currentStage) hscope (steady_advancedState hs hstanding h).1
    trivial hallowed
  have hpolicy := (hu.grant (namesStored_commit hs hstanding h scope u hu.plans)).policy.trans
    (advancedState_policy s request.rollout)
  unfold commitGrants at hb
  rw [hlast, bindingsFor_drained (s := s) plan scope hpolicy rfl, stageDrain, if_pos hdraining]
    at hb
  obtain ⟨origin, _, rfl⟩ := List.mem_map.mp hb
  by_contra hshares
  rw [Bool.not_eq_false] at hshares
  have hsame := (weakens_drain plan.model plan.previous origin).eq_of_isLivePartial hshares
  rw [hsame] at hown hshares
  obtain ⟨hlive, hkind⟩ := isLivePartial_iff.mp hshares
  rw [drain, if_pos ⟨hlive, hown, by rcases hkind with hkind | hkind <;> simp [hkind],
    by rcases hkind with hkind | hkind <;> simp [hkind]⟩] at hsame
  rw [← hsame] at hkind
  rcases hkind with hkind | hkind
  · cases hkind
  · cases hkind

/-- A commit leaves its plan live, unless it is accepted at the last stage. -/
theorem commit_live_iff {after : RolloutPlan}
    (hafter : (s.advanceStage request).1.rolloutOf request.rollout = some after) :
    after.live = false ↔
      s.fitsCommit plan = true ∧ plan.stages.length ≤ plan.currentStageIndex + 1 := by
  obtain ⟨hlive, _⟩ := stage_permitted_live (commit_permitted h).2.1
  obtain ⟨updated, generation, hplan'⟩ := rolloutOf_committed hs hstanding h
  obtain rfl := Option.some.inj (hplan'.symm.trans hafter)
  rcases leftPlan_cases s plan updated with ⟨hends, hleft⟩ | ⟨hends, hleft | hleft⟩
  · rw [hleft]
    exact iff_of_true rfl hends
  · rw [hleft]
    exact iff_of_false (fun hended => Bool.false_ne_true (hended.symm.trans hlive)) hends
  · rw [hleft]
    exact iff_of_false (fun hended => Bool.false_ne_true (hended.symm.trans hlive)) hends

/-- A commit that ends cleanly leaves partial bindings of live plans only. -/
theorem commit_served (href : Referenced s) (hserved : PartialsServed s)
    (hclean : (Operation.advanceStage request).EndsClean s) :
    PartialsServed (s.advanceStage request).1 := by
  have hplan := (commit_permitted h).1
  obtain ⟨hlive, _⟩ := stage_permitted_live (commit_permitted h).2.1
  have hid : plan.id = request.rollout := Ident.ext (hs.rollouts _ plan hplan)
  obtain ⟨updated, generation, hafter⟩ := rolloutOf_committed hs hstanding h
  have hgrants := commitGrants_addsNoPartial hs hstanding h
  have hcommit := commit_addsPartials hs hstanding h
  refine hserved.next hs href ((hgrants.mono fun _ hnone => hnone.elim).trans hcommit) ?_ ?_
  · rintro b cited ⟨hnext, hrollout⟩ ⟨_, hcited⟩
    rw [hrollout, hid] at hcited
    by_contra hended
    have hends := (commit_live_iff hs hstanding h hcited).mp (by simpa using hended)
    omega
  · intro key stored hstored hstoredLive
    by_cases hkey : key = request.rollout.raw
    · subst hkey
      obtain rfl : plan = stored := Option.some.inj (hplan.symm.trans hstored)
      intro after hfound
      cases hended : after.live with
      | true => exact Or.inl rfl
      | false =>
        right
        intro scope b hb hcited hown
        obtain ⟨hfits, hlast⟩ := (commit_live_iff hs hstanding h hfound).mp hended
        by_contra hshares
        rw [Bool.not_eq_false] at hshares
        rcases hcommit scope b hb hshares with hgranted | ⟨hnext, _⟩
        · rcases hgrants scope b hgranted hshares with hold | hnone
          · have hdrains := hclean plan h hfits hlast scope b hold hshares
              (cites_of_ofPlan hs hplan hcited hown)
            have hallowed : (s.commitGrants request.rollout plan).2.allowed = true := by
              rw [(commitGrants_spec hs hstanding h).1]
              rw [fitsCommit, Bool.and_eq_true] at hfits
              exact hfits.1
            rw [commitGrants_drained hs hstanding h hallowed hdrains hgranted] at hshares
            cases hshares
          · exact hnone
        · omega
    · have hadvances : Chain {} (plan.advancePermit request.rollout False) s
          (s.advanceStage request).1 :=
        (advanceStage_progresses hs request hplan False.elim).chain
      exact settled_of_kept (hadvances.plan_kept hkey) hstored hstoredLive

/-- A commit leaves a partial binding in place, unless it drains it. -/
theorem commit_keepsPartial (hallowed : (s.advanceStage request).2.allowed = true)
    {scope : ScopeId} {b : AuthorityBinding} (hb : b ∈ s.authority.bindingsFor scope)
    (hshares : b.isLivePartial = true) (hkept : ¬s.DrainsAt plan scope b) :
    b ∈ (s.advanceStage request).1.authority.bindingsFor scope := by
  by_cases hscope : scope ∈ plan.stageScopes plan.currentStage
  · obtain ⟨granted, retained, canaries, _, _, _, _, _, hlist⟩ :=
      (commit_leaves hs hstanding h hallowed hscope).list
    have hshared : b.isLiveExclusive = false := by
      obtain ⟨_, hkind⟩ := isLivePartial_iff.mp hshares
      rcases hkind with hkind | hkind
      · simp [AuthorityBinding.isLiveExclusive, hkind]
      · simp [AuthorityBinding.isLiveExclusive, hkind]
    have hundrained : s.stageDrain plan b = b := by
      rw [stageDrain]
      split_ifs with hdrains
      · rw [drain, if_neg]
        rintro ⟨_, hown, _⟩
        exact hkept ⟨hscope, hdrains, hown⟩
      · rfl
    rw [hlist]
    refine List.mem_append_left _ (List.mem_map.mpr ⟨b, ?_, hundrained⟩)
    exact List.mem_append_left _ (mem_supersedeFirstExclusive hb hshared)
  · obtain ⟨rest, hlist, _⟩ := bindingsFor_commit hs hstanding h scope
    rw [hlist, commitGrants_elsewhere hs hstanding h hscope]
    exact List.mem_append_left _ hb

end Commit

/-- An advance that leaves partial bindings of live plans only ends cleanly. -/
theorem advance_clean (hs : Coherent s) (hstanding : Standing s)
    {request : RolloutProgressRequest} (hserved : PartialsServed (s.advanceStage request).1) :
    (Operation.advanceStage request).EndsClean s := by
  intro plan h hfits hlast scope b hb hshares hcites
  by_contra hkept
  have hallowed : (s.advanceStage request).2.allowed = true := by
    rw [(commit_spec hs hstanding h).1]
    exact hfits
  have hplan := (commit_permitted h).1
  have hcited : b.rollout = request.rollout :=
    Ident.ext ((hs.rollouts _ plan hcites.2).symm.trans (hs.rollouts _ plan hplan))
  obtain ⟨updated, generation, hafter⟩ := rolloutOf_committed hs hstanding h
  have hlive := hserved scope b (commit_keepsPartial hs hstanding h hallowed hb hshares hkept)
    hshares _ ⟨hcites.1, by rw [hcited]; exact hafter⟩
  rw [(commit_live_iff hs hstanding h hafter).mpr ⟨hfits, hlast⟩] at hlive
  cases hlive

/-- A committed failure adds nothing partial. -/
theorem commitFailure_addsNoPartial (rollout : RolloutId) (plan : RolloutPlan)
    (reasons : List Reason) (leaveStage : Bool) :
    AddsNoPartial s (s.commitFailure rollout plan reasons leaveStage) :=
  (moves_commitFailure (c := {}) (p := Permit.ending rollout (fun _ => False) False) s rollout plan
    reasons leaveStage rfl False.elim).chain.addsPartials fun _ hgrants => hgrants.elim

/-- An advance leaves partial bindings of live plans only exactly when it ends cleanly. -/
theorem advance_served_iff (hs : Coherent s) (hstanding : Standing s) (href : Referenced s)
    (h : PartialsServed s) (request : RolloutProgressRequest) :
    PartialsServed (s.advanceStage request).1 ↔ (Operation.advanceStage request).EndsClean s := by
  refine ⟨advance_clean hs hstanding, ?_⟩
  intro hclean
  cases hcommit : s.commit request with
  | none =>
    rcases advance_uncommitted hcommit with hsame | ⟨plan, hplan, _, hfails⟩
    · rw [hsame]
      exact h
    · rw [hfails]
      refine h.next_of_none hs href ?_ fun key stored hstored hlive =>
        failCurrentStage_settled hs hstanding request _ hplan hstored hlive
      exact (commitFailure_addsNoPartial _ _ _ _).trans
        (afterFailure_addsNoPartial hs hstanding request _)
  | some plan => exact commit_served hs hstanding hcommit href h hclean

/-! ## Every operation -/

/-- An operation that grants nothing leaves partial bindings of live plans only, once it
settles every plan. -/
theorem PartialsServed.next_of_closing {p : Permit} (hs : Coherent s) (href : Referenced s)
    (h : PartialsServed s) (hcloses : Progresses c p s t) (hp : ∀ b, ¬p.grants b)
    (hsettled : ∀ key plan, s.rollouts.get? key = some plan → plan.live = true →
      PartialsSettled t key plan) : PartialsServed t :=
  h.next_of_none hs href (hcloses.chain.addsPartials fun b hgrants => absurd hgrants (hp b))
    hsettled

/-- A rollback leaves partial bindings of live plans only exactly when it ends cleanly. -/
theorem rollback_served_iff (hs : Coherent s) (hstanding : Standing s) (href : Referenced s)
    (h : PartialsServed s) (request : RollbackRequest) :
    PartialsServed (s.rollback request).1 ↔ (Operation.rollback request).EndsClean s := by
  refine ⟨rollback_clean hs hstanding, ?_⟩
  intro hclean
  cases hgate : (s.evaluateRollback request).allowed with
  | false =>
    rw [rollback_same_of_refused hgate]
    exact h
  | true =>
    have hfence : AddsNoPartial s (s.mapAuthority (·.supersedeScope request.scope)) :=
      (chain_supersedeScope (c := {}) (p := Permit.still fun _ => False) s
        request.scope).addsPartials fun _ hgrants => hgrants.elim
    exact h.next_of_none hs href (hfence.trans (rollback_addsNoPartial hs hstanding hgate))
      fun key plan hplan hlive => rollback_settled hs hstanding hclean hplan hlive

/-- A step leaves partial bindings of live plans only exactly when it ends cleanly. -/
theorem step_served_iff (hs : ReachableState c s) (href : Referenced s) (h : PartialsServed s)
    {op : Operation} (hop : op.isImport = false) :
    PartialsServed (step c s op) ↔ op.EndsClean s := by
  have hcoherent := hs.coherent
  have hstanding := hs.standing
  have hleaves : ∀ {op : Operation}, op.leavesPlans = true → PartialsServed (step c s op) := by
    intro op hleaves
    obtain ⟨hrollouts, hauthority⟩ := step_leavesPlans (c := c) (s := s) hleaves
    refine h.next_of_none hcoherent href (addsPartials_of_authority hauthority) ?_
    exact fun key plan hplan hlive => settled_of_kept (by rw [hrollouts]) hplan hlive
  cases op with
  | advanceStage request => exact advance_served_iff hcoherent hstanding href h request
  | rollback request => exact rollback_served_iff hcoherent hstanding href h request
  | beginRollout request =>
    exact iff_of_true (begin_served hcoherent hstanding href h request) trivial
  | promote request =>
    exact iff_of_true (h.next_of_none hcoherent href
      (promote_addsNoPartial hcoherent hstanding request)
      fun key plan hplan hlive => promote_settled hs request hplan hlive) trivial
  | reviseVersion revision =>
    exact iff_of_true (h.next_of_closing hcoherent href (reviseVersion_progresses s revision)
      (fun _ hgrants => hgrants)
      fun key plan hplan hlive => revise_settled hcoherent revision hplan hlive) trivial
  | failStage request =>
    exact iff_of_true (h.next_of_closing hcoherent href (failStage_progresses (c := c) s request)
      (fun _ hgrants => hgrants)
      fun key plan hplan hlive => failStage_settled request hplan hlive) trivial
  | supersedeRollout rollout generation epoch detail =>
    have hcloses : Progresses c (Permit.closing False) s
        (s.supersedeRollout rollout generation epoch detail).1 :=
      supersedeRollout_progresses s rollout generation epoch detail False.elim
    exact iff_of_true (h.next_of_closing hcoherent href hcloses (fun _ hgrants => hgrants)
      fun key plan hplan hlive => supersedeRollout_settled hplan hlive) trivial
  | retire request =>
    exact iff_of_true (h.next_of_closing hcoherent href
      (retire_progresses (c := c) hcoherent request) (fun _ hgrants => hgrants)
      fun key plan hplan hlive =>
        settled_of_live (retire_live_plan hcoherent request hplan hlive) hlive) trivial
  | revalidate request =>
    exact iff_of_true (h.next_of_closing hcoherent href (revalidate_progresses (c := c) s request)
      (fun _ hgrants => hgrants) fun key plan hplan hlive =>
        settled_of_kept (congrArg (OrdMap.get? · key) (revalidate_plans request)) hplan hlive)
      trivial
  | createRollout request =>
    exact iff_of_true (h.next_of_none hcoherent href
      (addsPartials_of_authority (createRollout_aside (c := c) s request).authority)
      fun key plan hplan hlive => settled_of_live (createRollout_plan request hplan) hlive) trivial
  | invalidateVolatileState cause =>
    exact iff_of_true (h.next_of_none hcoherent href
      (addsPartials_of_authority (invalidateVolatileState_aside (c := c) s cause).authority)
      fun key plan hplan hlive => invalidateVolatileState_settled cause hplan hlive) trivial
  | importDurableState state newEpoch => cases hop
  | _ => exact iff_of_true (hleaves rfl) trivial

/-- Along a run without imports, every plan that a partial binding cites is live exactly when
every operation that completes a plan, or stops it by a rollback, ends cleanly. -/
theorem partials_served_iff {ops : List Operation} (hops : ∀ op ∈ ops, op.isImport = false) :
    Always (step c) PartialsServed (init c) ops ↔
      Along (step c) (fun s op => op.EndsClean s) (init c) ops := by
  refine Runs.always_iff_along (step c) (P := fun s => ReachableState c s ∧ Referenced s) ?_
    (fun s op hs h hop => step_served_iff hs.1 hs.2 h hop) hops ⟨⟨[], rfl⟩, ?_⟩ ?_
  · rintro s op ⟨hs, href⟩ hop
    exact ⟨Runs.Reachable.run (step c) hs [op], (step_cases hs.coherent op).referenced hop href⟩
  · intro scope b hb
    cases hb
  · intro scope b hb
    cases hb

theorem partials_served_witness :
    Always (step {}) PartialsServed (init {}) enteredPlan ↔
      Along (step {}) (fun s op => op.EndsClean s) (init {}) enteredPlan :=
  partials_served_iff (by decide)

/-- A plan of one stage completes, and another version takes its scope at once. -/
def overtakenCandidate : List Operation :=
  enteredPlan ++
    [.advanceStage { rollout := ⟨1⟩ },
      .setPolicy { generation := ⟨2⟩, requireRollbackTarget := false },
      .registerVersion
        { model := ⟨1⟩, label := [50]
          artifact := { setId := ⟨2⟩, generation := ⟨1⟩, digest := [98] } },
      .publishCompatibility ⟨2⟩ { key := [101] } .compatible [] .synthetic,
      .promote
        { model := ⟨1⟩, candidate := ⟨2⟩, scope := ⟨1⟩, requestImmediateCutover := true
          environmentKey := [101] }]

/-- The canary of a completed plan stays live, and is all that blocks the retirement of its
candidate once another version holds the scope. -/
theorem completed_canary_left :
    ¬Always (step {}) PartialsServed (init {}) overtakenCandidate ∧
      ((runOps {} (init {}) overtakenCandidate).evaluateRetirement
        { model := ⟨1⟩, version := ⟨1⟩ }).reasons.map (fun reason => reason.code) =
          [.retirementScopeDependency] ∧
      ((runOps {} (init {}) overtakenCandidate).authority.bindingsForVersion ⟨1⟩ ⟨1⟩).filter
          (fun binding => binding.live) =
        ((runOps {} (init {}) overtakenCandidate).authority.bindingsFor ⟨1⟩).filter
          isLivePartial := by
  refine ⟨?_, by decide +kernel, by decide +kernel⟩
  intro h
  have hcompleted : ((run (step {}) (init {}) overtakenCandidate).rollouts.get? 1).map
      RolloutPlan.live = some false := by
    decide +kernel
  obtain ⟨plan, hplan, hended⟩ := Option.map_eq_some_iff.mp hcompleted
  have hleft : ∃ b ∈ (run (step {}) (init {}) overtakenCandidate).authority.bindingsFor ⟨1⟩,
      b.isLivePartial = true ∧ b.rollout = ⟨1⟩ := by
    decide +kernel
  obtain ⟨b, hb, hshares, hrollout⟩ := hleft
  have hlive := h overtakenCandidate List.prefix_rfl ⟨1⟩ b hb hshares plan
    ⟨by rw [hrollout]; decide, by rw [hrollout]; exact hplan⟩
  rw [hended] at hlive
  cases hlive

end LifecycleFabric
