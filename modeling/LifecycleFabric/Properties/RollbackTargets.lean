import LifecycleFabric.Properties.CutoverBindings

/-!
# The version a promotion names to roll back to

A promotion retains the version it names where its grant displaces it. It does not where the
rollout that gave the version the scope was superseded first.
-/

namespace LifecycleFabric

open EngineState AuthorityTable

variable {c : EngineConfig} {s t : EngineState} {request : PromotionRequest}
  {record : ModelVersionRecord} {promotion : PromotionId} {generation : PromotionGeneration}
  {scope : ScopeId} {holder : AuthorityBinding}

/-! ## Retention -/

/-- A version that is retained for rollback is not retired, unless the policy permits it. -/
theorem retirement_refused_of_retained (hs : Coherent s) {retirement : RetirementRequest}
    (h : s.Holds scope retirement.model retirement.version .rollbackRetained)
    (hpolicy : s.policy.base.allowRetirementWithoutDrain = false) :
    (s.evaluateRetirement retirement).allowed = false := by
  rw [← Bool.not_eq_true]
  intro hallowed
  obtain ⟨record, hrecord, hfaults⟩ := evaluateRetirement_allowed_iff.mp hallowed
  obtain ⟨hmodel, hversion⟩ := versionKey_inj.mp (hs.versions _ record hrecord)
  simp only [retirementFaults, List.append_eq_nil_iff] at hfaults
  have hbindings := hfaults.1.2
  simp only [retirementBindingFaults, List.append_eq_nil_iff, faultIf_eq_nil] at hbindings
  rw [hmodel, hversion] at h
  apply hbindings.2
  exact ⟨holdsKind_of_holds h List.mem_cons_self, by simp [hpolicy]⟩

/-- The version a promotion names stays held back: it is retained in the scope, and where the
policy asks for a drain no retirement of it is permitted. -/
structure TargetKept (t : EngineState) (request : PromotionRequest) : Prop where
  retained : t.Holds request.scope request.model request.rollbackTarget .rollbackRetained
  unretired : t.policy.base.allowRetirementWithoutDrain = false →
    ∀ retirement : RetirementRequest, retirement.model = request.model →
      retirement.version = request.rollbackTarget →
        (t.evaluateRetirement retirement).allowed = false

theorem targetKept_iff (ht : Coherent t) : TargetKept t request ↔
    t.Holds request.scope request.model request.rollbackTarget .rollbackRetained := by
  constructor
  · exact TargetKept.retained
  · intro hretained
    refine ⟨hretained, ?_⟩
    rintro hpolicy retirement hmodel hversion
    rw [← hmodel, ← hversion] at hretained
    exact retirement_refused_of_retained ht hretained hpolicy

/-- Whether a version is retained in a scope by a binding that a promotion does not withdraw. -/
def EngineState.retainedBeside (s : EngineState) (request : PromotionRequest) : Bool :=
  (s.liveIn request.scope).any fun b =>
    b.ofVersion request.model request.rollbackTarget && decide (b.kind = .rollbackRetained) &&
      !s.withdraws request b

/-- A promotion retains the version it names exactly when its grant displaces it, or it was
retained already. -/
theorem CutsOver.holds_target_iff (h : CutsOver c s request record promotion generation)
    (hsingle : SingleHolder s) (hholds : HoldsExclusively s request.scope holder)
    (hown : holder.ofVersion request.model request.rollbackTarget = true)
    (hgeneration : request.rollbackTargetGeneration.valid = true →
      request.rollbackTargetGeneration = holder.modelGeneration) :
    (s.promote c request).1.Holds request.scope request.model request.rollbackTarget
        .rollbackRetained ↔
      s.withdraws request holder = false ∨ s.retainedBeside request = true := by
  obtain ⟨hmodel, hversion⟩ := AuthorityBinding.ofVersion_iff.mp hown
  obtain ⟨granted, retained, hgrants, _, hlist⟩ := h.list
  obtain ⟨granted', retained', _, hretained, hnamed, happended⟩ := h.appended hsingle
  have hsame : granted :: retained = granted' :: retained' := by
    rw [← happended, EngineState.appended, hlist, ← h.kept_length, List.drop_left']
    rfl
  obtain ⟨rfl, rfl⟩ := List.cons.inj hsame
  have hlive := liveIn_prepared (s := s) h.model h.version request.scope
  constructor
  · rintro ⟨b, hb, hblive, hbown, hbkind⟩
    rw [hlist] at hb
    rcases List.mem_append.mp hb with hold | hnew
    · right
      have hkept : b ∈ (s.prepared request record).liveIn request.scope :=
        mem_liveBindingsFor.mpr ⟨live_supersedeFirstExclusive hold hblive, hblive⟩
      rw [hlive, List.mem_filter] at hkept
      rw [EngineState.retainedBeside, List.any_eq_true]
      exact ⟨b, hkept.1, by simp [hbown, hbkind, hkept.2]⟩
    · left
      rcases List.mem_cons.mp hnew with rfl | hnew
      · rw [(AuthorityBinding.isLiveExclusive_iff.mp hgrants.exclusive).2] at hbkind
        cases hbkind
      · obtain ⟨other, hother, _, _⟩ := hretained b hnew
        rw [holdsExclusively_unique hsingle hholds hother.1]
        exact hother.2
  · rintro (hkept | hbeside)
    · obtain ⟨b, hb, hretains⟩ := hnamed holder ⟨hholds, hkept⟩ ⟨hversion.symm, hgeneration⟩
      refine ⟨b, ?_, hretains.live, ?_, hretains.kind⟩
      · rw [hlist]
        exact List.mem_append_right _ (List.mem_cons_of_mem granted hb)
      · rw [AuthorityBinding.ofVersion_iff]
        exact ⟨hretains.model.trans hmodel, hretains.version.trans hversion⟩
    · rw [EngineState.retainedBeside, List.any_eq_true] at hbeside
      obtain ⟨b, hb, hretains⟩ := hbeside
      simp only [Bool.and_eq_true, decide_eq_true_eq] at hretains
      obtain ⟨⟨hbown, hbkind⟩, hkept⟩ := hretains
      have hmem : b ∈ (s.prepared request record).liveIn request.scope := by
        rw [hlive, List.mem_filter]
        exact ⟨hb, hkept⟩
      obtain ⟨hmem, hblive⟩ := mem_liveBindingsFor.mp hmem
      have hshared : b.isLiveExclusive = false := by
        rw [AuthorityBinding.isLiveExclusive, hbkind]
        simp
      refine ⟨b, ?_, hblive, hbown, hbkind⟩
      rw [hlist]
      exact List.mem_append_left _ (mem_supersedeFirstExclusive hmem hshared)

/-- A version that holds the scope and that an accepted immediate promotion names as the one
to roll back to is retained, and not to be retired, exactly when its binding is not withdrawn
with a rollout that the promotion supersedes, or it was retained already. -/
theorem target_kept_iff (hs : ReachableState c s)
    (hallowed : (s.promote c request).2.decision.allowed = true)
    (himmediate : request.immediate = true) (hholds : HoldsExclusively s request.scope holder)
    (hown : holder.ofVersion request.model request.rollbackTarget = true)
    (hgeneration : request.rollbackTargetGeneration.valid = true →
      request.rollbackTargetGeneration = holder.modelGeneration) :
    TargetKept (s.promote c request).1 request ↔
      s.withdraws request holder = false ∨ s.retainedBeside request = true := by
  obtain ⟨record, promotion, generation, h⟩ :=
    cutsOver hs.coherent hs.standing hallowed himmediate
  have ht : ReachableState c (s.promote c request).1 :=
    Runs.Reachable.run (step c) hs [.promote request]
  rw [targetKept_iff ht.coherent]
  exact h.holds_target_iff hs.singleHolder hholds hown hgeneration

/-! ### A target whose rollout is superseded -/

/-- The first version holds the root scope by the committed first stage of its rollout, which
has a stage to go. -/
def firstStageCommitted : List Operation :=
  [.registerModel [109] [] .synthetic,
    .registerVersion
      { model := ⟨1⟩, label := [49]
        artifact := { setId := ⟨1⟩, generation := ⟨1⟩, digest := [97] } },
    .registerVersion
      { model := ⟨1⟩, label := [50]
        artifact := { setId := ⟨1⟩, generation := ⟨1⟩, digest := [97] } },
    .publishCompatibility ⟨1⟩ { key := [101] } .compatible [] .synthetic,
    .publishCompatibility ⟨2⟩ { key := [101] } .compatible [] .synthetic,
    .registerScope (text "global/site:a"),
    .promote { model := ⟨1⟩, candidate := ⟨1⟩, scope := ⟨1⟩, environmentKey := [101] },
    .createRollout
      { model := ⟨1⟩, candidate := ⟨1⟩, rootScope := ⟨1⟩
        cohorts := [{ name := [99], scopes := [⟨1⟩] }, { name := [100], scopes := [⟨2⟩] }]
        stages := [{ name := [115], cohortIndices := [0] },
          { name := [116], cohortIndices := [1] }] },
    .beginRollout { rollout := ⟨1⟩ },
    .advanceStage { rollout := ⟨1⟩ }]

/-- What holds the root scope after the runs below. -/
def rootHolder (ops : List Operation) : AuthorityBinding :=
  ((runOps {} (init {}) ops).holderOf ⟨1⟩).getD {}

theorem rootHolder_holds {ops : List Operation}
    (h : ((runOps {} (init {}) ops).holderOf ⟨1⟩).isSome = true) :
    HoldsExclusively (runOps {} (init {}) ops) ⟨1⟩ (rootHolder ops) := by
  have hs : ReachableState {} (runOps {} (init {}) ops) := ⟨ops, rfl⟩
  obtain ⟨holder, hholder⟩ := Option.isSome_iff_exists.mp h
  rw [rootHolder, hholder, Option.getD_some]
  exact (holderOf_eq_some_iff hs.singleHolder).mp hholder

theorem target_kept_witness :
    TargetKept ((runOps {} (init {}) firstOfTwo).promote {} (takeOver ⟨1⟩)).1 (takeOver ⟨1⟩) ↔
      (runOps {} (init {}) firstOfTwo).withdraws (takeOver ⟨1⟩) (rootHolder firstOfTwo) = false ∨
        (runOps {} (init {}) firstOfTwo).retainedBeside (takeOver ⟨1⟩) = true := by
  have hs : ReachableState {} (runOps {} (init {}) firstOfTwo) := ⟨firstOfTwo, rfl⟩
  refine target_kept_iff hs ?_ rfl (rootHolder_holds ?_) ?_ ?_
  · decide +kernel
  · decide +kernel
  · decide +kernel
  · decide +kernel

/-- The promotion supersedes the rollout, displaces nothing any more, and leaves the version it
names without authority and free to be retired. -/
theorem named_target_retirable :
    ¬∀ (c : EngineConfig) (s : EngineState) (request : PromotionRequest)
        (holder : AuthorityBinding), ReachableState c s →
      (s.promote c request).2.decision.allowed = true → request.immediate = true →
      HoldsExclusively s request.scope holder → request.candidate ≠ request.rollbackTarget →
      holder.ofVersion request.model request.rollbackTarget = true →
      (request.rollbackTargetGeneration.valid = true →
        request.rollbackTargetGeneration = holder.modelGeneration) →
      TargetKept (s.promote c request).1 request := by
  intro hclaim
  have hkept := hclaim {} (runOps {} (init {}) firstStageCommitted) (takeOver ⟨1⟩)
    (rootHolder firstStageCommitted) ⟨firstStageCommitted, rfl⟩ (by decide +kernel) rfl
    (rootHolder_holds (by decide +kernel)) (by decide) (by decide +kernel) (by decide +kernel)
  have hrefused := hkept.unretired (by decide +kernel) { model := ⟨1⟩, version := ⟨1⟩ } rfl rfl
  have hallowed : (((runOps {} (init {}) firstStageCommitted).promote {}
      (takeOver ⟨1⟩)).1.evaluateRetirement { model := ⟨1⟩, version := ⟨1⟩ }).allowed = true := by
    decide +kernel
  rw [hallowed] at hrefused
  cases hrefused

/-! ## Rolling a promotion back -/

/-- The rollback of a promotion as a state makes it out: it cites the generations, the policy
and the epoch of the state, and names no worker and no rollout. -/
def PromotionRequest.rollbackIn (request : PromotionRequest) (t : EngineState) :
    RollbackRequest where
  model := request.model
  candidate := request.candidate
  candidateGeneration :=
    ((t.versionOf request.model request.candidate).map ModelVersionRecord.generation).getD {}
  target := request.rollbackTarget
  targetGeneration :=
    ((t.versionOf request.model request.rollbackTarget).map ModelVersionRecord.generation).getD {}
  targetArtifactGeneration := ((t.versionOf request.model request.rollbackTarget).map
    fun record => record.artifact.generation).getD {}
  scope := request.scope
  scopeGeneration := ((t.scopes.find request.scope).map ScopeRecord.generation).getD {}
  policyGeneration := t.policy.base.generation
  epoch := t.epoch

/-- A version that the gate of a promotion lets pass as one to roll back to. -/
structure ModelVersionRecord.CanReturn (record : ModelVersionRecord) : Prop where
  active : record.retired = false
  artifact : record.artifact.valid = true
  compatible : record.hasCompatibility = true

theorem ModelVersionRecord.SameContent.canReturn {before after : ModelVersionRecord}
    (h : before.SameContent after) (hreturn : before.CanReturn) : after.CanReturn where
  active := h.retired.trans hreturn.active
  artifact := h.artifact ▸ hreturn.artifact
  compatible := by
    rw [hasCompatibility, h.compatibilityGeneration]
    exact hreturn.compatible

/-- What the gate of a promotion requires of the version it names. -/
theorem canReturn_of_permitted (hgate : (s.evaluatePromotion c request).allowed = true)
    (htarget : request.rollbackTarget.valid = true) :
    ∃ target, s.versionOf request.model request.rollbackTarget = some target ∧
      target.CanReturn := by
  obtain ⟨record, _, hfaults⟩ := evaluatePromotion_allowed_iff.mp hgate
  simp only [promotionFaults, List.append_eq_nil_iff] at hfaults
  obtain ⟨⟨⟨⟨_, hfaults⟩, _⟩, _⟩, _⟩ := hfaults
  rw [rollbackTargetFaults, if_pos htarget] at hfaults
  cases hstored : s.versionOf request.model request.rollbackTarget with
  | none =>
    rw [hstored] at hfaults
    cases hfaults
  | some target =>
    rw [hstored] at hfaults
    dsimp only at hfaults
    split_ifs at hfaults with hretired hartifact hcompatible
    exact ⟨target, rfl, by simpa using hretired, by simpa using hartifact,
      by simpa using hcompatible⟩

/-- Nothing is wrong with a caller that cites the epoch and the policy of the state. -/
theorem callerFaults_current (t : EngineState) :
    t.callerFaults t.epoch t.policy.base.generation {} {} = [] := by
  have hworker : ({} : WorkerId).valid = false := by decide
  simp [callerFaults, checkEpoch, checkPolicyGeneration, checkWorker, hworker, faultsOf]

/-- Where the candidate holds the scope and the target may return, the gate of a rollback
refuses only a target that is the candidate. -/
theorem rollbackIn_allowed_iff (ht : Coherent t) {candidate target : ModelVersionRecord}
    {binding : AuthorityBinding}
    (hcandidate : t.versionOf request.model request.candidate = some candidate)
    (hholds : HoldsExclusively t request.scope binding)
    (hown : binding.ofVersion request.model request.candidate = true)
    (hscope : (t.scopes.find request.scope).isSome = true)
    (htarget : t.versionOf request.model request.rollbackTarget = some target)
    (hreturn : target.CanReturn) (hvalid : request.rollbackTarget.valid = true) :
    (t.evaluateRollback (request.rollbackIn t)).allowed = true ↔
      request.rollbackTarget ≠ request.candidate := by
  obtain ⟨hmodel, hversion⟩ := versionKey_inj.mp (ht.versions _ candidate hcandidate)
  obtain ⟨_, hnamed⟩ := versionKey_inj.mp (ht.versions _ target htarget)
  obtain ⟨scopeRecord, hfound⟩ := Option.isSome_iff_exists.mp hscope
  have hplan : t.rollbackPlanFaults (request.rollbackIn t) candidate = [] := rfl
  have hserves : t.candidateHolds (request.rollbackIn t) candidate = true := by
    rw [candidateHolds, Bool.and_eq_true, List.any_eq_true]
    refine ⟨hscope, binding, hholds.1, ?_⟩
    rw [← hmodel, ← hversion, hown, hholds.2]
    decide
  have hscopes : t.rollbackScopeFaults (request.rollbackIn t) candidate = [] := by
    rw [rollbackScopeFaults, hserves]
    simp [PromotionRequest.rollbackIn, hfound, faultIf]
  have hpolicy : t.rollbackPolicyFaults (request.rollbackIn t) = [] := by
    simp [rollbackPolicyFaults, PromotionRequest.rollbackIn, hvalid, faultIf]
  have hdestination : t.rollbackDestinationFaults (request.rollbackIn t) candidate = [] ↔
      request.rollbackTarget ≠ request.candidate := by
    rw [rollbackDestinationFaults]
    simp only [PromotionRequest.rollbackIn, htarget, Option.map_some, Option.getD_some,
      List.append_eq_nil_iff, faultIf_eq_nil, hreturn.active, hreturn.artifact,
      hreturn.compatible, ← hnamed, ← hversion]
    simp
  have hcaller := callerFaults_current t
  rw [evaluateRollback_allowed_iff]
  constructor
  · rintro ⟨stored, hstored, hfaults⟩
    obtain rfl := Option.some.inj (hcandidate.symm.trans hstored)
    simp only [rollbackFaults, List.append_eq_nil_iff] at hfaults
    exact hdestination.mp hfaults.1.2
  · intro hother
    refine ⟨candidate, hcandidate, ?_⟩
    rw [rollbackFaults, hscopes, hplan, hdestination.mpr hother, hpolicy]
    simp [PromotionRequest.rollbackIn, hcaller, hcandidate, faultIf]

/-- After an accepted immediate promotion that names a version to roll back to, the rollback
to that version is permitted exactly when the version is not the candidate itself. -/
theorem promotion_reversible_iff (hs : ReachableState c s)
    (hallowed : (s.promote c request).2.decision.allowed = true)
    (himmediate : request.immediate = true) (hvalid : request.rollbackTarget.valid = true) :
    ((s.promote c request).1.evaluateRollback
        (request.rollbackIn (s.promote c request).1)).allowed = true ↔
      request.rollbackTarget ≠ request.candidate := by
  obtain ⟨record, promotion, generation, h⟩ :=
    cutsOver hs.coherent hs.standing hallowed himmediate
  have ht : ReachableState c (s.promote c request).1 :=
    Runs.Reachable.run (step c) hs [.promote request]
  obtain ⟨target, hstored, hreturn⟩ := canReturn_of_permitted h.gate hvalid
  obtain ⟨target', htarget, hsame⟩ := h.keepsContent.stored hstored
  obtain ⟨binding, after, hholds, hown, hafter, _⟩ := h.holds
  exact rollbackIn_allowed_iff ht.coherent hafter hholds hown h.registered htarget
    (hsame.canReturn hreturn) hvalid

theorem promotion_reversible_witness :
    (((runOps {} (init {}) firstOfTwo).promote {} (takeOver ⟨1⟩)).1.evaluateRollback
        ((takeOver ⟨1⟩).rollbackIn
          ((runOps {} (init {}) firstOfTwo).promote {} (takeOver ⟨1⟩)).1)).allowed = true ↔
      (takeOver ⟨1⟩).rollbackTarget ≠ (takeOver ⟨1⟩).candidate := by
  have hs : ReachableState {} (runOps {} (init {}) firstOfTwo) := ⟨firstOfTwo, rfl⟩
  refine promotion_reversible_iff hs ?_ rfl ?_
  · decide +kernel
  · decide

/-- A promotion that names its own candidate is accepted while it displaces another version
under a policy that requires a target, and cannot be rolled back to what it names. -/
theorem own_target_accepted :
    ¬∀ (c : EngineConfig) (s : EngineState) (request : PromotionRequest)
        (holder : AuthorityBinding), ReachableState c s →
      (s.policy.effective s.scopes request.scope).requireRollbackTarget = true →
      (s.promote c request).2.decision.allowed = true → request.immediate = true →
      s.displacedBy request holder →
      holder.ofVersion request.model request.candidate = false →
      request.rollbackTarget.valid = true →
      ((s.promote c request).1.evaluateRollback
        (request.rollbackIn (s.promote c request).1)).allowed = true := by
  intro hclaim
  have hdisplaced : (runOps {} (init {}) firstOfTwo).displacedBy (takeOver ⟨2⟩)
      (rootHolder firstOfTwo) :=
    ⟨rootHolder_holds (by decide +kernel), by decide +kernel⟩
  have hallowed := hclaim {} (runOps {} (init {}) firstOfTwo) (takeOver ⟨2⟩)
    (rootHolder firstOfTwo) ⟨firstOfTwo, rfl⟩ (by decide +kernel) (by decide +kernel) rfl
    hdisplaced (by decide +kernel) (by decide)
  have hrefused : (((runOps {} (init {}) firstOfTwo).promote {}
      (takeOver ⟨2⟩)).1.evaluateRollback ((takeOver ⟨2⟩).rollbackIn
        ((runOps {} (init {}) firstOfTwo).promote {} (takeOver ⟨2⟩)).1)).allowed = false := by
    decide +kernel
  rw [hrefused] at hallowed
  cases hallowed

end LifecycleFabric
