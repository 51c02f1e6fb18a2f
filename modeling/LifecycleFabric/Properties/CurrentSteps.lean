import LifecycleFabric.Engine.CurrentVersions
import LifecycleFabric.Properties.CompatibleGrants
import LifecycleFabric.Properties.Promotions
import LifecycleFabric.Properties.Retirements
import LifecycleFabric.Properties.Revalidations
import LifecycleFabric.Properties.ScopeGenerations
import LifecycleFabric.Properties.StageEvidence

/-!
# What the operations do to current versions

Most operations make no version current, and take an exclusive binding only from a version
that they move on. A revision, a revalidation and both rollbacks also take bindings from
versions that they leave where they are.
-/

namespace LifecycleFabric

open EngineState AuthorityTable AuthorityBinding

variable {c : EngineConfig} {p : Permit} {s t u : EngineState} {model : ModelId}
  {version : ModelVersionId} {plan : RolloutPlan} {moved : ModelId → ModelVersionId → Prop}

/-! ## Operations that leave authority alone -/

theorem registerVersion_leavesCurrents (s : EngineState) (request : RegisterVersionRequest) :
    LeavesCurrents s (s.registerVersion c request).1 := by
  unfold registerVersion
  dsimp only
  split_ifs
  · exact LeavesCurrents.refl s
  · exact LeavesCurrents.refl s
  · exact LeavesCurrents.refl s
  · exact LeavesCurrents.refl s
  · exact LeavesCurrents.refl s
  · exact LeavesCurrents.refl s
  · split
    · exact LeavesCurrents.refl s
    · refine (leavesCurrents_insertVersion s _ ?_).trans (leavesCurrents_of_frame rfl rfl)
      simp [newVersion]

/-- Only an advance to `CURRENT` makes a record current. -/
theorem transition_not_current (record : ModelVersionRecord) {target : LifecycleState}
    (hne : target ≠ .current) (hcurrent : (record.transition target).1.state = .current) :
    record.state = .current := by
  rcases record.transition_cases target with ⟨_, hmoved⟩ | ⟨hsame, _⟩
  · rw [hmoved] at hcurrent
    exact absurd hcurrent hne
  · rwa [hsame] at hcurrent

theorem publishCompatibility_leavesCurrents (s : EngineState) (version : ModelVersionId)
    (environment : EnvironmentProfile) (outcome : CompatibilityOutcome) (detail : Text)
    (provenance : Provenance) :
    LeavesCurrents s (s.publishCompatibility c version environment outcome detail provenance).1 := by
  unfold publishCompatibility
  split
  · exact LeavesCurrents.refl s
  · rename_i key record hfound
    split
    · exact LeavesCurrents.refl s
    · split
      · exact LeavesCurrents.refl s
      · dsimp only
        split
        · exact leavesCurrents_of_frame rfl rfl
        · refine (leavesCurrents_modifyVersions s key ?_).trans (leavesCurrents_of_frame rfl rfl)
          intro stored hstored hcurrent
          obtain rfl := Option.some.inj ((findVersion_stored hfound).symm.trans hstored)
          split_ifs at hcurrent
          · have hne : LifecycleState.validating ≠ .current := by decide
            have hbefore := transition_not_current _ hne hcurrent
            exact hbefore
          · exact hcurrent

theorem installPlan_leavesCurrents (s : EngineState) (request : RolloutPlanRequest)
    (plan : RolloutPlan) : LeavesCurrents s (s.installPlan request plan) := by
  have hrecord := leavesCurrents_modifyVersions s (versionKey request.model request.candidate)
    (f := fun record => { record with
      rollout := plan.id
      rolloutGeneration := plan.generation
      updatedSequence := s.bumpSequence.sequence }) fun _ _ hcurrent => hcurrent
  exact hrecord.trans (leavesCurrents_of_frame rfl rfl)

theorem createRollout_leavesCurrents (s : EngineState) (request : RolloutPlanRequest) :
    LeavesCurrents s (s.createRollout c request).1 := by
  unfold createRollout
  split
  · exact LeavesCurrents.refl s
  · split
    · exact LeavesCurrents.refl s
    · dsimp only
      split
      · exact leavesCurrents_of_frame rfl rfl
      · split
        · exact leavesCurrents_of_frame rfl rfl
        · split
          · exact leavesCurrents_of_frame rfl rfl
          · refine KeepsCurrents.trans ?_ (installPlan_leavesCurrents _ request _)
            exact leavesCurrents_of_frame rfl rfl

/-- Whether an operation writes a record of a version. -/
def Operation.writesVersions : Operation → Bool
  | .registerVersion _ | .reviseVersion _ | .publishCompatibility .. | .promote _
  | .createRollout _ | .beginRollout _ | .advanceStage _ | .failStage _ | .supersedeRollout ..
  | .rollback _ | .retire _ | .revalidate _ | .importDurableState _ _ => true
  | _ => false

theorem step_versions {op : Operation} (hop : op.writesVersions = false) :
    (step c s op).versions = s.versions := by
  cases op with
  | registerModel name family provenance =>
    change (s.registerModel c name family provenance).1.versions = s.versions
    unfold registerModel
    split_ifs <;> rfl
  | registerScope path => rfl
  | setPolicy policy =>
    change (s.setPolicy policy).1.versions = s.versions
    unfold setPolicy
    split_ifs <;> rfl
  | setScopePolicy refinement =>
    change (s.setScopePolicy refinement).1.versions = s.versions
    unfold setScopePolicy
    split
    · rfl
    · dsimp only
      split <;> rfl
  | publishEvidence record =>
    change (s.publishEvidence record).1.versions = s.versions
    unfold publishEvidence
    dsimp only
    split
    · rfl
    · split
      · rfl
      · split <;> rfl
  | expirePublisherEvidence boot =>
    change (s.expirePublisherEvidence boot).1.versions = s.versions
    unfold expirePublisherEvidence
    dsimp only
    split <;> rfl
  | registerWorker registration =>
    change (s.registerWorker c registration).1.versions = s.versions
    unfold registerWorker
    dsimp only
    split_ifs <;> rfl
  | fenceWorker worker boot epoch reason =>
    change (s.fenceWorker worker boot epoch reason).1.versions = s.versions
    unfold fenceWorker
    split
    · rfl
    · split_ifs
      · rfl
      · rfl
      · rfl
      · dsimp only
        rw [settleFenced_eq]
        rfl
  | setWorkerLiveness worker connected =>
    change (s.setWorkerLiveness worker connected).1.versions = s.versions
    unfold setWorkerLiveness
    split_ifs <;> rfl
  | beginAttempt request =>
    change (s.beginAttempt c request).1.versions = s.versions
    unfold beginAttempt
    split <;> rfl
  | completeAttempt completion =>
    change (s.completeAttempt completion).1.versions = s.versions
    unfold completeAttempt
    split
    · rfl
    · split
      · rfl
      · split <;> rfl
  | reconcileAttempt attempt sideEffectObserved epoch detail =>
    change (s.reconcileAttempt attempt sideEffectObserved epoch detail).1.versions = s.versions
    unfold reconcileAttempt
    split
    · rfl
    · split_ifs <;> rfl
  | advanceEpoch expectedCurrent =>
    change (s.advanceEpoch expectedCurrent).1.versions = s.versions
    unfold advanceEpoch
    split_ifs <;> rfl
  | invalidateVolatileState cause =>
    change (s.invalidateVolatileState cause).versions = s.versions
    unfold invalidateVolatileState
    dsimp only
    rw [stampEntered_eq]
    rfl
  | _ => cases hop

/-! ## Promotions -/

/-- Plans keep their generations through a chain of effects. -/
theorem Chain.generated (h : Chain c p s t) (hs : Generated s) : Generated t := by
  intro key plan hplan
  cases hbefore : s.rollouts.get? key with
  | none =>
    rw [h.plan_absent hbefore] at hplan
    cases hplan
  | some before =>
    obtain ⟨after, hafter, hstep⟩ := h.plan_stands hbefore
    obtain rfl := Option.some.inj (hplan.symm.trans hafter)
    rw [hstep.generation]
    exact hs key before hbefore

/-- What the withdrawals of an operation find. -/
structure Grounded (s : EngineState) : Prop where
  coherent : Coherent s
  standing : Standing s
  owned : Owned s
  generated : Generated s

theorem Chain.grounded (h : Chain c p s t) (hs : Grounded s) : Grounded t :=
  ⟨h.coherent hs.coherent, h.standing hs.standing, h.owned hs.owned, h.generated hs.generated⟩

theorem supersedeInflight_cons (record : ModelVersionRecord) (key : UInt64) (keys : List UInt64)
    (s : EngineState) : supersedeInflight record (key :: keys) s =
      supersedeInflight record keys (supersedeInflight record [key] s) := by
  cases hplan : s.rollouts.get? key with
  | none => simp only [supersedeInflight, hplan]
  | some plan =>
    simp only [supersedeInflight, hplan]
    split_ifs <;> rfl

/-- A plan in flight loses what it granted, and its candidate drains. -/
theorem supersedeInflight_one (hs : Grounded s) (record : ModelVersionRecord) (key : UInt64) :
    LeavesCurrents s (supersedeInflight record [key] s) := by
  unfold supersedeInflight
  cases hplan : s.rollouts.get? key with
  | none => exact LeavesCurrents.refl s
  | some plan =>
    dsimp only [supersedeInflight]
    split_ifs with hskip
    · exact LeavesCurrents.refl s
    · have hwithdrawn := fun (t : EngineState) =>
        keepsOthers_of_withdrawn (t := t) hs.owned hs.coherent hplan (hs.generated key plan hplan)
      split
      · rename_i hnone
        refine KeepsOthers.settled (hwithdrawn _ rfl rfl) fun other hother => ?_
        rw [hnone] at hother
        cases hother
      · rename_i other hother
        split_ifs with hretired
        · refine KeepsOthers.settled (hwithdrawn _ rfl rfl) fun stored hstored => ?_
          obtain rfl := Option.some.inj (hother.symm.trans hstored)
          exact not_current_of_retired hretired
        · exact KeepsCurrents.then_advance (hwithdrawn _ rfl rfl) (by decide) (by decide)

theorem leavesCurrents_supersedeInflight (hs : Grounded s) (record : ModelVersionRecord)
    (keys : List UInt64) : LeavesCurrents s (supersedeInflight record keys s) := by
  induction keys generalizing s with
  | nil => exact LeavesCurrents.refl s
  | cons key keys ih =>
    rw [supersedeInflight_cons]
    have hchain := (progresses_supersedeInflight (c := {})
      (p := Permit.undriven (fun _ => False) False) (fun _ => trivial) record [key] s
      False.elim).chain
    exact (supersedeInflight_one hs record key).trans (ih (hchain.grounded hs))

theorem leavesCurrents_clearInflight (hs : Grounded s) (request : PromotionRequest)
    (record : ModelVersionRecord) : LeavesCurrents s (s.clearInflight request record) := by
  unfold clearInflight
  split_ifs
  · exact leavesCurrents_supersedeInflight hs record _
  · exact LeavesCurrents.refl s

theorem leavesCurrents_commitPromotion (s : EngineState) (request : PromotionRequest)
    (promotion : PromotionId) (generation : PromotionGeneration) :
    LeavesCurrents s (s.commitPromotion request promotion generation) := by
  have hbump : LeavesCurrents s s.bumpSequence := leavesCurrents_of_frame rfl rfl
  have hstamp := leavesCurrents_modifyVersion s.bumpSequence request.model request.candidate
    (f := fun record => { record with
      lastPromotion := promotion
      promotionGeneration := generation
      updatedSequence := s.bumpSequence.sequence }) fun _ h => h
  exact (hbump.trans hstamp).trans (leavesCurrents_of_frame rfl rfl)

/-- What a step grants a version, the version holds then. -/
theorem GrantsTo.holds (h : GrantsTo s t model version) : t.HoldsExclusive model version := by
  obtain ⟨scope, b, hb, hexclusive, hown⟩ := h
  exact ⟨scope, b, List.mem_of_mem_drop hb, hexclusive, hown⟩

/-- A promotion makes its candidate current only with what it grants. -/
theorem promote_currentsHold (hs : Grounded s) (h : CurrentsHold s) (request : PromotionRequest) :
    CurrentsHold (s.promote c request).1 := by
  have hgrants := promote_grants_iff (c := c) hs.coherent hs.standing request
  cases hcommit : s.reachesCommit c request with
  | false =>
    cases promotes (c := c) hs.coherent hs.standing request with
    | stopped _ _ hsame =>
      rw [hsame]
      exact h
    | committed hreaches =>
      rw [hcommit] at hreaches
      cases hreaches
    | aborted hreaches =>
      rw [hcommit] at hreaches
      cases hreaches
  | true =>
    rw [hcommit] at hgrants
    rw [reachesCommit, Bool.and_eq_true] at hcommit
    obtain ⟨hgate, hfree⟩ := hcommit
    obtain ⟨record, hrecord, _, _⟩ := promotion_permitted hgate
    have hcleared : KeepsOthers request.model request.candidate s
        (s.clearInflight request record) :=
      LeavesCurrents.keeps (leavesCurrents_clearInflight hs request record)
    have hground := (chain_prepared (c := c) s request record).grounded hs
    have hpromote := promote_eq hs.coherent hgate hrecord hfree
    dsimp only at hpromote
    rw [grantPromotion_eq] at hpromote
    by_cases himmediate : request.immediate = true
    · have hadmitted := admitted_prepared hgate hrecord
        ⟨(s.clearInflight request record).nextPromotionId⟩
        record.promotionGeneration.nextGeneration
      have hprepared : KeepsOthers request.model request.candidate s (s.prepared request record) :=
        hcleared.trans (keepsOthers_modifyVersion _ _ _ _)
      have hgranted := hprepared.trans (LeavesCurrents.keeps (leavesCurrents_grantAuthority
        hground.coherent hground.standing (request.grant
          ⟨(s.clearInflight request record).nextPromotionId⟩
          record.promotionGeneration.nextGeneration)))
      rw [if_pos himmediate] at hpromote
      cases hfits : s.fitsPromotion request with
      | false =>
        rw [hfits] at hadmitted
        obtain ⟨hdenied, _⟩ := grantAuthority_refused hground.coherent hground.standing hadmitted
        rw [hpromote, hdenied, Bool.not_false, if_pos rfl]
        exact h.of_left (hgranted.then_advance (by decide) (by decide))
      | true =>
        refine h.of_moved ?_ (hgrants.mpr ⟨himmediate, rfl, hfits⟩).holds
        rw [hfits] at hadmitted
        obtain ⟨hallowed, _⟩ := grantAuthority_admitted hground.coherent hground.standing hadmitted
        rw [hpromote, hallowed, Bool.not_true, if_neg Bool.false_ne_true]
        exact hgranted.trans (LeavesCurrents.keeps (leavesCurrents_commitPromotion _ _ _ _))
    · have hpending : request.targetState = .canaryPending := by
        rw [PromotionRequest.targetState, if_neg himmediate]
      have hprepared : LeavesCurrents s (s.prepared request record) := by
        rw [prepared, hpending]
        exact hcleared.then_advance (by decide) (by decide)
      rw [if_neg himmediate] at hpromote
      rw [hpromote]
      exact h.of_left (hprepared.trans (leavesCurrents_commitPromotion _ _ _ _))

/-! ## Stages -/

theorem leavesCurrents_refreshRoot (s : EngineState) (rollout : RolloutId) (root : ScopeId) :
    LeavesCurrents s (s.refreshRoot rollout root) := by
  unfold refreshRoot
  split
  · exact LeavesCurrents.refl s
  · exact leavesCurrents_of_frame rfl rfl

theorem leavesCurrents_enteredState (s : EngineState) (request : RolloutProgressRequest)
    (plan : RolloutPlan) : LeavesCurrents s (s.enteredState request plan) := by
  have hentered : LeavesCurrents s (s.bumpSequence.modifyRollout request.rollout
      (enterStage plan.firstStage s.bumpSequence.sequence)) := leavesCurrents_of_frame rfl rfl
  refine KeepsCurrents.trans ?_ (leavesCurrents_stampVersion _ plan.model plan.candidate)
  refine KeepsCurrents.trans ?_ (leavesCurrents_modifyVersion _ plan.model plan.candidate
    fun _ h => h)
  exact hentered.trans (leavesCurrents_advanceVersion _ _ _ (by decide) (by decide))

theorem begin_leavesCurrents (hs : Coherent s) (hstanding : Standing s)
    (request : RolloutProgressRequest) : LeavesCurrents s (s.beginRollout request).1 := by
  cases hentry : s.entry request with
  | none =>
    rw [begin_stopped hentry]
    exact LeavesCurrents.refl s
  | some plan =>
    obtain ⟨hplan, _, _⟩ := entry_permitted hentry
    have hkey : plan.id.raw = request.rollout.raw := hs.rollouts _ plan hplan
    have hchain := chain_enteredState (c := {}) hentry
    have hstored : (s.enteredState request plan).rolloutOf request.rollout =
        some (s.enteredPlan plan) := rolloutOf_enteredState hplan
    have hstart : Steady (s.enteredState request plan) (s.enteredState request plan) :=
      Steady.refl (hchain.coherent hs) (hchain.standing hstanding)
    have hgrants : LeavesCurrents s
        (grantOver (stageGrant (s.enteredPlan plan) plan.firstStage .canary false) (fun _ t => t)
          (plan.stageScopes plan.firstStage) (s.enteredState request plan)).1 := by
      refine (leavesCurrents_enteredState s request plan).trans
        (leavesCurrents_grantOver ?_ ?_ hstart)
      · intro scope t ht
        exact namesStored_stageGrant (s.enteredPlan plan) (by rw [rolloutOf, ht]; exact hstored)
          hkey ⟨rfl, rfl, rfl⟩ plan.firstStage .canary false scope
      · intro _ t ht
        exact ⟨ht, LeavesCurrents.refl t⟩
    rw [begin_eq hentry]
    dsimp only
    split_ifs
    · exact hgrants
    · exact hgrants.trans (leavesCurrents_refreshRoot _ _ _)

theorem leavesCurrents_nextState (t : EngineState) (rollout : RolloutId) (plan : RolloutPlan) :
    LeavesCurrents t (t.nextState rollout plan) := by
  have hentered : LeavesCurrents t (t.bumpSequence.modifyRollout rollout
      (nextStagePlan plan.nextStage t.bumpSequence.sequence)) := leavesCurrents_of_frame rfl rfl
  refine KeepsCurrents.trans ?_ (leavesCurrents_modifyVersion _ plan.model plan.candidate
    fun _ h => h)
  exact hentered.trans (leavesCurrents_advanceVersion _ _ _ (by decide) (by decide))

/-- Leaving a stage for the next one makes no version current. -/
theorem leaveStage_leavesCurrents (ht : Coherent t) (hstanding : Standing t) {rollout : RolloutId}
    (hplan : t.rolloutOf rollout = some plan) (hlive : plan.live = true)
    (hentered : plan.stageEntered = true) (hadvanced : plan.stageAdvanced = true)
    (hlast : ¬plan.stages.length ≤ plan.currentStageIndex + 1) :
    LeavesCurrents t (t.leaveStage rollout plan).1 := by
  have hkey : plan.id.raw = rollout.raw := ht.rollouts _ plan hplan
  have hstored := rolloutOf_nextState hplan
  have hchain := chain_nextState (c := {}) hplan hlive hentered hadvanced hlast
  have hstart : Steady (t.nextState rollout plan) (t.nextState rollout plan) :=
    Steady.refl (hchain.coherent ht) (hchain.standing hstanding)
  rw [leaveStage_eq t rollout hlast]
  refine (leavesCurrents_nextState t rollout plan).trans (leavesCurrents_grantOver ?_ ?_ hstart)
  · intro scope u hu
    exact namesStored_stageGrant (t.nextPlan plan) (by rw [rolloutOf, hu]; exact hstored) hkey
      ⟨rfl, rfl, rfl⟩ plan.nextStage .canary false scope
  · intro _ u hu
    exact ⟨hu, LeavesCurrents.refl u⟩

/-- The last stage makes the candidate current. -/
theorem leaveStage_keepsOthers (t : EngineState) (rollout : RolloutId)
    (hlast : plan.stages.length ≤ plan.currentStageIndex + 1) :
    KeepsOthers plan.model plan.candidate t (t.leaveStage rollout plan).1 := by
  unfold leaveStage
  rw [if_pos hlast]
  have hcompleted : LeavesCurrents t (t.bumpSequence.modifyRollout rollout
      (completedPlan t.bumpSequence.sequence)) := leavesCurrents_of_frame rfl rfl
  exact (LeavesCurrents.keeps hcompleted).trans (keepsOthers_modifyVersion _ _ _ _)

/-- The grants of a commit, and what is drained after each, make no version current. -/
theorem commitGrants_leavesCurrents (hs : Coherent s) (hstanding : Standing s)
    {request : RolloutProgressRequest} (h : s.commit request = some plan) :
    LeavesCurrents s (s.commitGrants request.rollout plan).1 := by
  have hadvanced : LeavesCurrents s (s.advancedState request.rollout) :=
    leavesCurrents_of_frame (advancedState_versions s request.rollout)
      (advancedState_authority s request.rollout)
  refine hadvanced.trans (leavesCurrents_grantOver (namesStored_commit hs hstanding h) ?_
    (steady_advancedState hs hstanding h).1)
  intro scope t ht
  have hdrain := chain_drainPrevious (c := {}) (p := Permit.still fun _ => True) plan
    plan.currentStage scope t
  exact ⟨ht.chain hdrain fun _ hedits => hedits, leavesCurrents_drainPrevious plan _ scope t⟩

/-- A commit that does not complete the last stage makes no version current. -/
theorem commit_leavesCurrents (hs : Coherent s) (hstanding : Standing s)
    {request : RolloutProgressRequest} (h : s.commit request = some plan)
    (hgoes : ¬(plan.stages.length ≤ plan.currentStageIndex + 1 ∧ s.fitsCommit plan = true)) :
    LeavesCurrents s (s.advanceStage request).1 := by
  obtain ⟨_, hfaults, heq⟩ := commit_permitted h
  obtain ⟨hlive, _⟩ := stage_permitted_live hfaults
  obtain ⟨hentered, _, _⟩ := stage_permitted_open hfaults
  have hsteady := steady_commitGrants hs hstanding h
  have hgrants := commitGrants_leavesCurrents hs hstanding h
  obtain ⟨hallowed, hcommitted, _⟩ := commitGrants_spec hs hstanding h
  rw [heq, commitStage_eq]
  dsimp only
  rw [← commitGrants]
  rw [fitsCommit, ← hallowed] at hgoes
  generalize s.commitGrants request.rollout plan = granted at hsteady hcommitted hgrants hgoes ⊢
  cases hfits : granted.2.allowed with
  | false =>
    rw [Bool.not_false, if_pos rfl]
    exact hgrants
  | true =>
    rw [Bool.not_true, if_neg Bool.false_ne_true]
    have hnext : ¬(s.committedPlan plan).stages.length ≤
        (s.committedPlan plan).currentStageIndex + 1 := by
      intro hlast
      refine hgoes ⟨hlast, ?_⟩
      rw [hfits, decide_eq_true (show plan.stages.length ≤ plan.currentStageIndex + 1 from hlast)]
      rfl
    have hleft := hgrants.trans (leaveStage_leavesCurrents hsteady.coherent hsteady.standing
      hcommitted hlive hentered (stageAdvanced_advancedPlan _ _ plan) hnext)
    split_ifs
    · exact hleft
    · exact (hleft.trans (leavesCurrents_refreshRoot _ _ _)).trans
        (leavesCurrents_stampVersion _ _ _)

/-- A commit of the last stage makes no other version current. -/
theorem commit_keepsOthers (hs : Coherent s) (hstanding : Standing s)
    {request : RolloutProgressRequest} (h : s.commit request = some plan)
    (hlast : plan.stages.length ≤ plan.currentStageIndex + 1) :
    KeepsOthers plan.model plan.candidate s (s.advanceStage request).1 := by
  obtain ⟨_, _, heq⟩ := commit_permitted h
  have hgrants : KeepsOthers plan.model plan.candidate s (s.commitGrants request.rollout plan).1 :=
    LeavesCurrents.keeps (commitGrants_leavesCurrents hs hstanding h)
  rw [heq, commitStage_eq]
  dsimp only
  rw [← commitGrants]
  generalize s.commitGrants request.rollout plan = granted at hgrants ⊢
  have hcompletes : (s.committedPlan plan).stages.length ≤
      (s.committedPlan plan).currentStageIndex + 1 := hlast
  have hleaves : KeepsOthers plan.model plan.candidate granted.1
      (granted.1.leaveStage request.rollout (s.committedPlan plan)).1 :=
    leaveStage_keepsOthers granted.1 request.rollout hcompletes
  have hleft := hgrants.trans hleaves
  split_ifs
  · exact hgrants
  · exact hleft
  · exact (hleft.trans (LeavesCurrents.keeps (leavesCurrents_refreshRoot _ _ _))).trans
      (LeavesCurrents.keeps (leavesCurrents_stampVersion _ _ _))

/-- A commit keeps the bindings outside the scopes of its stage. -/
theorem mem_commit {request : RolloutProgressRequest} (hs : Coherent s) (hstanding : Standing s)
    (h : s.commit request = some plan) {scope : ScopeId} {b : AuthorityBinding}
    (hb : b ∈ s.authority.bindingsFor scope)
    (hscope : scope ∉ plan.stageScopes plan.currentStage) :
    b ∈ (s.advanceStage request).1.authority.bindingsFor scope := by
  obtain ⟨rest, hlist, _⟩ := bindingsFor_commit hs hstanding h scope
  rw [hlist, commitGrants_elsewhere hs hstanding h hscope]
  exact List.mem_append_left _ hb

/-- The candidate that completes its last stage holds a scope when the commit serves the
stage, or when it held one outside. -/
theorem commit_currentsHold (hs : Coherent s) (hstanding : Standing s) (hholds : CurrentsHold s)
    {request : RolloutProgressRequest} (h : s.commit request = some plan)
    (hserved : plan.stages.length ≤ plan.currentStageIndex + 1 → s.fitsCommit plan = true →
      s.servesStage plan = false → ∃ scope b, s.HeldBy scope b plan.model plan.candidate ∧
        scope ∉ plan.stageScopes plan.currentStage) :
    CurrentsHold (s.advanceStage request).1 := by
  by_cases hgoes : plan.stages.length ≤ plan.currentStageIndex + 1 ∧ s.fitsCommit plan = true
  · obtain ⟨hlast, hfits⟩ := hgoes
    refine hholds.of_moved (commit_keepsOthers hs hstanding h hlast) ?_
    cases hserves : s.servesStage plan with
    | true => exact ((commit_grants_iff hs hstanding h).mpr hserves).holds
    | false =>
      obtain ⟨scope, b, hheld, hscope⟩ := hserved hlast hfits hserves
      exact ⟨scope, b, mem_commit hs hstanding h hheld.stored hscope, hheld.exclusive, hheld.own⟩
  · exact hholds.of_left (commit_leavesCurrents hs hstanding h hgoes)

/-! ## Failures and supersessions -/

theorem leavesCurrents_commitFailure (hs : Grounded s) {rollout : RolloutId}
    (hplan : s.rolloutOf rollout = some plan) (reasons : List Reason) (leaveStage : Bool) :
    LeavesCurrents s (s.commitFailure rollout plan reasons leaveStage) := by
  have hwithdrawn : KeepsOthers plan.model plan.candidate s
      ((s.bumpSequence.bumpSequence.modifyRollout rollout
        (failedPlan s.bumpSequence.sequence s.bumpSequence.bumpSequence.sequence reasons
          leaveStage)).mapAuthority (·.supersedeRollout plan.id plan.generation)) :=
    keepsOthers_of_withdrawn hs.owned hs.coherent hplan (hs.generated _ plan hplan) (by simp)
      (by simp)
  exact (hwithdrawn.then_advance (by decide) (by decide)).trans (leavesCurrents_stampVersion _ _ _)

theorem failStage_leavesCurrents (hs : Grounded s) (request : RolloutProgressRequest) :
    LeavesCurrents s (s.failStage request).1 := by
  unfold failStage
  cases hplan : s.rolloutOf request.rollout with
  | none => exact LeavesCurrents.refl s
  | some plan =>
    dsimp only
    split
    · exact LeavesCurrents.refl s
    · split
      · exact LeavesCurrents.refl s
      · exact leavesCurrents_commitFailure hs hplan _ _

theorem supersedeRollout_leavesCurrents (hs : Grounded s) (rollout : RolloutId)
    (generation : RolloutGeneration) (epoch : CoordinatorEpoch) (detail : Text) :
    LeavesCurrents s (s.supersedeRollout rollout generation epoch detail).1 := by
  unfold EngineState.supersedeRollout
  cases hplan : s.rolloutOf rollout with
  | none => exact LeavesCurrents.refl s
  | some plan =>
    have hwithdrawn : KeepsOthers plan.model plan.candidate s
        ((s.bumpSequence.modifyRollout rollout
          (explicitSupersession s.bumpSequence.sequence detail)).mapAuthority
            (·.supersedeRollout plan.id plan.generation)) :=
      keepsOthers_of_withdrawn hs.owned hs.coherent hplan (hs.generated _ plan hplan) rfl rfl
    dsimp only
    generalize (s.bumpSequence.modifyRollout rollout
      (explicitSupersession s.bumpSequence.sequence detail)).mapAuthority
        (·.supersedeRollout plan.id plan.generation) = t at hwithdrawn ⊢
    split_ifs
    · exact LeavesCurrents.refl s
    · exact LeavesCurrents.refl s
    · exact LeavesCurrents.refl s
    · cases hcandidate : t.versionOf plan.model plan.candidate with
      | none =>
        refine KeepsOthers.settled hwithdrawn fun record hrecord => ?_
        rw [hcandidate] at hrecord
        cases hrecord
      | some candidate =>
        dsimp only
        split_ifs with hretired
        · refine KeepsOthers.settled hwithdrawn fun record hrecord => ?_
          obtain rfl := Option.some.inj (hcandidate.symm.trans hrecord)
          exact not_current_of_retired hretired
        · exact (hwithdrawn.then_advance (by decide) (by decide)).trans
            (leavesCurrents_stampVersion _ _ _)

/-! ## Rollbacks -/

/-- The target is the only version a rollback makes current. -/
theorem settleRollback_keeps (t : EngineState) (request : RollbackRequest)
    {candidate : ModelVersionRecord} (hmodel : candidate.model = request.model)
    (hversion : candidate.version = request.candidate) (rollback : RollbackId)
    (generation : RollbackGeneration) :
    KeepsOthers request.model request.target t
        (t.settleRollback request candidate rollback generation) ∧
      ¬(t.settleRollback request candidate rollback generation).IsCurrent request.model
        request.candidate := by
  have hrestored : KeepsOthers request.model request.target t
      ((t.advanceVersion request.model request.target .current).stampVersion request.model
        request.target) :=
    (keepsOthers_modifyVersion t _ _ _).trans
      (LeavesCurrents.keeps (leavesCurrents_stampVersion _ _ _))
  have hrecorded : ∀ u : EngineState, LeavesCurrents u
      ((u.recordRollback request.model request.candidate rollback generation).stampVersion
        request.model request.candidate) := by
    intro u
    refine KeepsCurrents.trans ?_ (leavesCurrents_stampVersion _ _ _)
    exact leavesCurrents_modifyVersion u request.model request.candidate fun _ h => h
  have hdrained := fun u : EngineState =>
    keepsOthers_markDraining u request.model request.candidate request.scope
  have hsettled : ∀ (u : EngineState) (target : LifecycleState), target ≠ .current →
      target ≠ .registered → ¬(((u.advanceVersion request.model request.candidate
        target).recordRollback request.model request.candidate rollback generation).stampVersion
          request.model request.candidate).IsCurrent request.model request.candidate := by
    intro u target hne hlater hcurrent
    obtain ⟨hbefore, _⟩ := hrecorded _ _ _ (fun h => h) hcurrent
    exact not_current_advanceVersion u _ _ hne hlater hbefore
  unfold settleRollback
  rw [hmodel, hversion]
  dsimp only
  split_ifs
  · refine ⟨?_, hsettled _ _ (by decide) (by decide)⟩
    exact hrestored.trans (LeavesCurrents.keeps (((hdrained _).then_advance (by decide)
      (by decide)).trans (hrecorded _)))
  · refine ⟨?_, hsettled _ _ (by decide) (by decide)⟩
    exact hrestored.trans (LeavesCurrents.keeps (((hdrained _).then_advance (by decide)
      (by decide)).trans (hrecorded _)))

/-- What follows the settling of a rollback touches neither versions nor bindings. -/
theorem leavesCurrents_finish (t : EngineState) (request : RollbackRequest)
    (candidate : ModelVersionRecord) (rollback : RollbackId) (generation : RollbackGeneration) :
    LeavesCurrents (t.settleRollback request candidate rollback generation)
      (t.finishRollback request candidate rollback generation) := by
  unfold finishRollback
  dsimp only
  generalize t.settleRollback request candidate rollback generation = settled
  split_ifs
  · obtain ⟨hauthority, hversions, _⟩ :=
      stopRollout_kept settled request.rollout rollback generation
    refine KeepsCurrents.trans (leavesCurrents_of_frame hversions hauthority) ?_
    exact leavesCurrents_of_frame rfl (touchScope_authority _ _)
  · exact leavesCurrents_of_frame rfl (touchScope_authority _ _)

/-- A scope that is taken over costs its bindings. -/
theorem TakenOver.keeps {g : GrantRequest} (h : TakenOver s g t) :
    KeepsCurrents moved (fun scope _ => scope = g.scope) s t := by
  refine keepsCurrents_of_table h.versions ?_
  intro scope b hb _ _ hstays
  rw [h.elsewhere scope hstays]
  exact hb

/-- A rollback leaves a current version a binding when it has one outside the scope, or is
one of the two versions that a valid target makes it move. -/
theorem rollback_currentsHold (hs : Coherent s) (hstanding : Standing s)
    (request : RollbackRequest) (hbeside : (s.evaluateRollback request).allowed = true →
      ∀ m v, s.IsCurrent m v → ¬(request.target.valid = true ∧ m = request.model ∧
        (v = request.candidate ∨ v = request.target)) →
          ∃ scope b, s.HeldBy scope b m v ∧ scope ≠ request.scope) (h : CurrentsHold s) :
    CurrentsHold (s.rollback request).1 := by
  have hgrants := rollback_grants_iff hs hstanding request
  cases rollsBack hs hstanding request with
  | refused _ _ hsame =>
    rw [hsame]
    exact h
  | denied hgate htarget hrefused =>
    obtain ⟨candidate, target, hpermitted⟩ := rollback_permitted hgate
    have hrollback := rollback_eq hgate hpermitted.candidateStored hpermitted.targetStored
    have hchain : Chain {} {} s (s.mapAuthority (·.supersedeScope request.scope)) :=
      chain_supersedeScope s request.scope
    have hcleared : KeepsCurrents (fun _ _ => False) (fun scope _ => scope = request.scope) s
        (s.mapAuthority (·.supersedeScope request.scope)) :=
      keepsCurrents_supersedeScope s request.scope
    have hgranted := hcleared.trans (LeavesCurrents.keeps (leavesCurrents_grantAuthority
      (hchain.coherent hs) (hchain.standing hstanding) (request.grant ⟨s.nextRollbackId⟩
        candidate.rollbackGeneration.nextGeneration)))
    dsimp only at hrollback
    split_ifs at hrollback
    · rw [hrollback]
      refine CurrentsHold.of_kept hgranted (fun _ _ hmove => hmove.elim) ?_
      intro m v _ hcurrent
      refine hbeside hgate m v hcurrent ?_
      rw [htarget]
      rintro ⟨hcontra, _⟩
      cases hcontra
    · rw [hrollback] at hrefused
      simp [Decision.allowed, OutcomeCode.isPositive] at hrefused
  | committed hgate hvalid _ candidate target hpermitted mid hmid hstate =>
    obtain ⟨hmodel, hversion⟩ :=
      versionKey_inj.mp (hs.versions _ candidate hpermitted.candidateStored)
    obtain ⟨hsettled, hmoved⟩ := settleRollback_keeps mid request hmodel.symm hversion.symm
      ⟨s.nextRollbackId⟩ candidate.rollbackGeneration.nextGeneration
    have hfinish := leavesCurrents_finish mid request candidate ⟨s.nextRollbackId⟩
      candidate.rollbackGeneration.nextGeneration
    have hkept : KeepsCurrents (fun m v => m = request.model ∧ v = request.target)
        (fun scope _ => scope = request.scope) s (s.rollback request).1 := by
      rw [hstate]
      exact (hmid.keeps.trans (KeepsOthers.withdraws hsettled)).trans
        (LeavesCurrents.keeps hfinish)
    have hdropped : ¬(s.rollback request).1.IsCurrent request.model request.candidate := by
      intro hcurrent
      rw [hstate] at hcurrent
      exact hmoved (hfinish _ _ (fun hm => hm) hcurrent).1
    have hpair : KeepsCurrents (fun m v => m = request.model ∧
        (v = request.candidate ∨ v = request.target)) (fun scope _ => scope = request.scope) s
        (s.rollback request).1 :=
      hkept.mono (fun _ _ hm => ⟨hm.1, Or.inr hm.2⟩) fun _ _ hw => hw
    refine CurrentsHold.of_kept hpair ?_ ?_
    · rintro _ _ ⟨rfl, rfl | rfl⟩ hcurrent
      · exact absurd hcurrent hdropped
      · exact (hgrants.mpr ⟨hgate, hvalid⟩).holds
    · intro m v hother hcurrent
      exact hbeside hgate m v hcurrent fun hboth => hother hboth.2

/-- A rollback by itself makes the target current, and takes the root scope. -/
theorem automatic_keeps {request : RolloutProgressRequest} {record : ModelVersionRecord}
    (hs : Coherent s) (hstanding : Standing s) (rollout : RolloutId)
    (hgate : (s.evaluateRollback (s.automaticRollback request plan record)).allowed = true) :
    KeepsCurrents (fun m v => m = plan.model ∧ v = plan.rollbackTarget)
      (fun scope _ => scope = plan.rootScope) s
      (s.commitAutomaticRollback rollout plan record) := by
  have htaken := automatic_takes_over hs hstanding hgate
  refine htaken.keeps.trans (KeepsOthers.withdraws ?_)
  have hrecorded : ∀ u : EngineState, LeavesCurrents u
      ((((u.recordRollback plan.model plan.candidate ⟨s.nextRollbackId⟩
        record.rollbackGeneration.nextGeneration).modifyRollout rollout fun plan =>
          markRollback ⟨s.nextRollbackId⟩ record.rollbackGeneration.nextGeneration
            plan.updatedSequence plan).commitRollback plan.id.raw ⟨s.nextRollbackId⟩
              record.rollbackGeneration.nextGeneration).advanceVersion plan.model plan.candidate
                .rolledBack) := by
    intro u
    refine KeepsCurrents.trans ?_ (leavesCurrents_advanceVersion _ _ _ (by decide) (by decide))
    have hmarked : LeavesCurrents u (u.recordRollback plan.model plan.candidate ⟨s.nextRollbackId⟩
        record.rollbackGeneration.nextGeneration) :=
      leavesCurrents_modifyVersion u plan.model plan.candidate fun _ h => h
    exact hmarked.trans (leavesCurrents_of_frame rfl rfl)
  unfold commitAutomaticRollback
  dsimp only
  refine KeepsCurrents.trans ?_ (LeavesCurrents.keeps (leavesCurrents_of_frame rfl
    (touchScope_authority _ _)))
  refine KeepsCurrents.trans ?_ (LeavesCurrents.keeps (hrecorded _))
  split
  · exact LeavesCurrents.keeps (LeavesCurrents.refl _)
  · exact (keepsOthers_modifyVersion _ _ _ _).trans
      (LeavesCurrents.keeps (leavesCurrents_stampVersion _ _ _))

theorem not_current_commitFailure (s : EngineState) (rollout : RolloutId) (plan : RolloutPlan)
    (reasons : List Reason) (leaveStage : Bool) :
    ¬(s.commitFailure rollout plan reasons leaveStage).IsCurrent plan.model plan.candidate := by
  intro hcurrent
  obtain ⟨hbefore, _⟩ := leavesCurrents_stampVersion _ _ _ _ _ (fun hm => hm) hcurrent
  exact not_current_advanceVersion _ _ _ (by decide) (by decide) hbefore

/-- A failed stage that is rolled back by itself leaves its target, and every other current
version but the candidate, what it holds outside the root scope. -/
theorem failure_currentsHold (hs : Grounded s) (h : CurrentsHold s)
    {request : RolloutProgressRequest} (hplan : s.rolloutOf request.rollout = some plan)
    (htripped : (s.evaluateStageAdvance request).has .stageFailureThresholdExceeded = true)
    (hbeside : s.rollsBackItself request plan = true → ∀ m v,
      s.IsCurrent m v ∨ m = plan.model ∧ v = plan.rollbackTarget →
        ¬(m = plan.model ∧ v = plan.candidate) →
          ∃ scope b, s.HeldBy scope b m v ∧ scope ≠ plan.rootScope) :
    CurrentsHold (s.failCurrentStage request plan (s.evaluateStageAdvance request)).1 := by
  have hleft := leavesCurrents_commitFailure hs hplan (s.evaluateStageAdvance request).reasons false
  have hauthority := (commitFailure_kept (s := s) request.rollout plan
    (s.evaluateStageAdvance request).reasons false).2
  have hchain := (moves_commitFailure (c := {}) (p := Permit.undriven (fun _ => False) False) s
    request.rollout plan (s.evaluateStageAdvance request).reasons false trivial False.elim).chain
  have hdropped := not_current_commitFailure s request.rollout plan
    (s.evaluateStageAdvance request).reasons false
  rcases failCurrentStage_cases plan htripped with
    ⟨_, hstate⟩ | ⟨hrolls, failed, _, hallowed, hstate⟩
  · rw [hstate]
    exact h.of_left hleft
  · rw [hstate]
    generalize s.commitFailure request.rollout plan (s.evaluateStageAdvance request).reasons
      false = t at hleft hauthority hchain hdropped hallowed
    have ht := hchain.grounded hs
    have htaken := automatic_takes_over ht.coherent ht.standing hallowed
    obtain ⟨_, _, _, _, hdistinct⟩ := bindingsFor_commitAutomaticRollback ht.coherent ht.standing
      request.rollout hallowed
    have hkept : ∀ {scope b m v}, s.HeldBy scope b m v → ¬(m = plan.model ∧ v = plan.candidate) →
        t.HeldBy scope b m v := by
      intro scope b m v hheld hother
      obtain ⟨rfl, rfl⟩ := ofVersion_iff.mp hheld.own
      refine ⟨?_, hheld.exclusive, hheld.own⟩
      rw [hauthority]
      exact mem_of_withdrawn hs.owned hs.coherent hplan (hs.generated _ plan hplan) hheld.stored
        hother
    refine CurrentsHold.of_kept (automatic_keeps ht.coherent ht.standing request.rollout hallowed)
      ?_ ?_
    · rintro _ _ ⟨rfl, rfl⟩ _
      have hother : ¬(plan.model = plan.model ∧ plan.rollbackTarget = plan.candidate) :=
        fun hsame => hdistinct hsame.2
      obtain ⟨scope, b, hheld, hscope⟩ := hbeside hrolls _ _ (Or.inr ⟨rfl, rfl⟩) hother
      refine ⟨scope, b, ?_, hheld.exclusive, hheld.own⟩
      rw [authority_commitAutomaticRollback, htaken.elsewhere scope hscope]
      exact (hkept hheld hother).stored
    · intro m v _ hcurrent
      obtain ⟨hbefore, _⟩ := hleft m v (fun hm => hm) hcurrent
      have hother : ¬(m = plan.model ∧ v = plan.candidate) := by
        rintro ⟨rfl, rfl⟩
        exact hdropped hcurrent
      obtain ⟨scope, b, hheld, hscope⟩ := hbeside hrolls m v (Or.inl hbefore) hother
      exact ⟨scope, b, hkept hheld hother, hscope⟩

/-! ## Retirements, revalidations and revisions -/

theorem retire_leavesCurrents (s : EngineState) (request : RetirementRequest) (hs : Coherent s) :
    LeavesCurrents s (s.retire request).1 := by
  cases hallowed : (s.evaluateRetirement request).allowed with
  | false =>
    rw [retire_same_of_refused hallowed]
    exact LeavesCurrents.refl s
  | true =>
    obtain ⟨record, hrecord, _, hretire⟩ := retire_of_allowed hallowed
    obtain ⟨hmodel, hversion⟩ := versionKey_inj.mp (hs.versions _ record hrecord)
    have hfenced : KeepsOthers request.model request.version s (s.fenceVersion record) := by
      refine keepsCurrents_of_table (fenceVersion_fences s record).1 ?_
      intro scope b hb _ hmoved _
      rw [fenceVersion_authority, supersedeVersion, bindingsFor_mapAll]
      refine List.mem_map.mpr ⟨b, hb, if_neg fun hown => hmoved ?_⟩
      obtain ⟨hsameModel, hsameVersion⟩ := ofVersion_iff.mp hown
      exact ⟨hsameModel.trans hmodel.symm, hsameVersion.trans hversion.symm⟩
    rw [hretire]
    exact (hfenced.then_advance (by decide) (by decide)).trans (leavesCurrents_stampVersion _ _ _)

theorem versions_supersedeScopes (bindings : List AuthorityBinding) (s : EngineState) :
    (bindings.foldl (fun s binding => s.mapAuthority (·.supersedeScope binding.scope))
      s).versions = s.versions := by
  induction bindings generalizing s with
  | nil => rfl
  | cons binding bindings ih => exact ih _

theorem leavesCurrents_withdrawStanding (s : EngineState) (request : RevalidationRequest)
    (record : ModelVersionRecord) : LeavesCurrents s (s.withdrawStanding request record) := by
  have hstripped := leavesCurrents_modifyVersion s request.model request.version
    (f := fun record => { record with compatibilityGeneration := {} }) fun _ h => h
  exact hstripped.trans (leavesCurrents_of_frame rfl rfl)

/-- A revalidation takes its version out of service, and withdraws the whole scopes in which
it holds a provisional binding. -/
theorem revalidate_keeps (hs : Coherent s) (request : RevalidationRequest) :
    (s.revalidate request).1 = s ∨ s.revalidates request = true ∧
      KeepsCurrents (fun _ _ => False) (fun scope _ =>
        s.authority.provisionalIn request.model request.version scope = true) s
        (s.revalidate request).1 ∧
      ¬(s.revalidate request).1.IsCurrent request.model request.version := by
  unfold revalidate
  cases hrecord : s.versionOf request.model request.version with
  | none => exact Or.inl rfl
  | some record =>
    dsimp only
    split_ifs with hretired hgeneration
    · exact Or.inl rfl
    · exact Or.inl rfl
    · obtain ⟨hmodel, hversion⟩ := versionKey_inj.mp (hs.versions _ record hrecord)
      refine Or.inr ⟨revalidates_of_checks hrecord hretired hgeneration, ?_, fun hcurrent =>
        not_current_advanceVersion _ _ _ (by decide) (by decide)
          (leavesCurrents_stampVersion _ _ _ _ _ (fun hm => hm) hcurrent).1⟩
      refine KeepsCurrents.trans ?_ (LeavesCurrents.keeps (leavesCurrents_stampVersion _ _ _))
      refine KeepsCurrents.trans ?_ (LeavesCurrents.keeps
        (leavesCurrents_advanceVersion _ _ _ (by decide) (by decide)))
      refine (LeavesCurrents.keeps (leavesCurrents_withdrawStanding s request record)).trans
        (keepsCurrents_of_table (versions_supersedeScopes _ _) ?_)
      intro scope b hb _ _ hstays
      refine (bindingsFor_supersedeScopes (s.authority.provisionals record.model record.version)
        (s.withdrawStanding request record) scope).symm ▸ ?_
      rw [if_neg]
      · exact hb
      · rw [mem_scopes_provisionals hs, ← hmodel, ← hversion]
        exact hstays

theorem versions_supersedeRevisedPlans (candidate : ModelVersionId) (keys : List UInt64)
    (s : EngineState) : (supersedeRevisedPlans candidate keys s).versions = s.versions := by
  induction keys generalizing s with
  | nil => rfl
  | cons key keys ih =>
    unfold supersedeRevisedPlans
    split
    · exact ih s
    · dsimp only
      split_ifs
      · exact ih s
      · exact ih _

/-- The plans of a revised version lose what they granted. -/
theorem supersedeRevisedPlans_keeps (candidate : ModelVersionId)
    (hrollouts : t.rollouts = s.rollouts) :
    KeepsCurrents (fun _ _ => False) (fun _ b =>
        s.grantedBy (RolloutPlan.liveFor candidate) s.rollouts.keys b = true) t
      (supersedeRevisedPlans candidate s.rollouts.keys t) := by
  refine keepsCurrents_of_table (versions_supersedeRevisedPlans candidate _ t) ?_
  intro scope b hb _ _ hstays
  rw [(planLoop_supersedeRevisedPlans candidate).bindingsFor s.rollouts.nodup_keys]
  refine List.mem_map.mpr ⟨b, hb, if_neg ?_⟩
  rw [grantedBy, hrollouts]
  exact hstays

theorem not_current_of_stored {record : ModelVersionRecord}
    (hrecord : s.versionOf model version = some record) (hne : record.state ≠ .current) :
    ¬s.IsCurrent model version := by
  rintro ⟨stored, hstored, hcurrent⟩
  obtain rfl := Option.some.inj (hrecord.symm.trans hstored)
  exact hne hcurrent

/-- A current version that is sent to its revalidation goes there. -/
theorem transition_revalidates (record : ModelVersionRecord) :
    (record.transition .revalidationRequired).1.state ≠ .current := by
  intro hcurrent
  have hbefore := transition_not_current record (by decide) hcurrent
  have hallowed : record.state.isTransitionAllowed .revalidationRequired = true := by
    rw [hbefore]
    decide
  unfold ModelVersionRecord.transition at hcurrent
  split_ifs at hcurrent with hsame hrefused
  · rw [hbefore] at hsame
    cases hsame
  · rw [hallowed] at hrefused
    cases hrefused
  · cases hcurrent

/-- A revision takes its version out of service, and withdraws what the plans of its
candidate granted. -/
theorem revise_keeps (hs : Coherent s) (request : ReviseVersionRequest) :
    (s.reviseVersion c request).1 = s ∨ s.revises c request = true ∧
      KeepsCurrents (fun _ _ => False) (fun _ b =>
        s.grantedBy (RolloutPlan.liveFor request.version) s.rollouts.keys b = true) s
        (s.reviseVersion c request).1 ∧
      ¬(s.reviseVersion c request).1.IsCurrent request.model request.version := by
  unfold reviseVersion
  cases hrecord : s.versionOf request.model request.version with
  | none => exact Or.inl rfl
  | some record =>
    obtain ⟨_, hversion⟩ := versionKey_inj.mp (hs.versions _ record hrecord)
    have hrevises := revises_of_checks (c := c) hrecord
    have hrevised : LeavesCurrents s
        { (s.bumpSequence.modifyVersion request.model request.version fun _ =>
            revisedRecord record request s.bumpSequence.sequence) with
          compatibility := s.compatibility.invalidateVersion record.version
          evidence := s.evidence.invalidateModelGeneration record.version
            (revisedRecord record request s.bumpSequence.sequence).generation } := by
      have hwritten := leavesCurrents_modifyVersions s (versionKey request.model request.version)
        (f := fun _ => revisedRecord record request s.bumpSequence.sequence) (by
          intro stored hstored hcurrent
          obtain rfl := Option.some.inj (hrecord.symm.trans hstored)
          exact hcurrent)
      exact hwritten.trans (leavesCurrents_of_frame rfl rfl)
    have hstored : (s.bumpSequence.modifyVersion request.model request.version fun _ =>
        revisedRecord record request s.bumpSequence.sequence).versionOf request.model
          request.version = some (revisedRecord record request s.bumpSequence.sequence) := by
      rw [versionOf_modifyVersion, versionOf_bumpSequence, hrecord, Option.map_some,
        if_pos ⟨rfl, rfl⟩]
    have hwithdrawn := hrevised.keeps.trans
      (supersedeRevisedPlans_keeps (s := s) request.version rfl)
    rw [hversion] at hwithdrawn hstored ⊢
    dsimp only
    split_ifs with hretired hgeneration hartifact hdigest hsame hterminal hkeeps
    · exact Or.inl rfl
    · exact Or.inl rfl
    · exact Or.inl rfl
    · exact Or.inl rfl
    · exact Or.inl rfl
    · refine Or.inr ⟨hrevises hretired hgeneration hartifact hdigest hsame,
        LeavesCurrents.keeps (hversion ▸ hrevised), ?_⟩
      refine not_current_of_stored hstored fun hcurrent => ?_
      rw [hcurrent] at hterminal
      cases hterminal
    · refine Or.inr ⟨hrevises hretired hgeneration hartifact hdigest hsame, hwithdrawn, ?_⟩
      refine not_current_of_stored (by
        rw [versionOf, versions_supersedeRevisedPlans]
        exact hstored) fun hcurrent => ?_
      rw [hcurrent] at hkeeps
      cases hkeeps
    · refine Or.inr ⟨hrevises hretired hgeneration hartifact hdigest hsame, ?_, ?_⟩
      · refine hwithdrawn.trans (LeavesCurrents.keeps ?_)
        exact leavesCurrents_modifyVersion _ request.model record.version
          fun stored => transition_not_current stored (by decide)
      · rintro ⟨after, hafter, hcurrent⟩
        rw [versionOf_modifyVersion, Option.map_eq_some_iff] at hafter
        obtain ⟨before, _, rfl⟩ := hafter
        rw [if_pos ⟨rfl, rfl⟩] at hcurrent
        exact transition_revalidates before hcurrent

end LifecycleFabric
