import LifecycleFabric.Engine.RollbackGate
import LifecycleFabric.Properties.AutomaticRollback
import LifecycleFabric.Properties.CommitLists
import LifecycleFabric.Properties.Promotions

/-!
# Authority of versions known as incompatible

The gate of a promotion looks at the fact published for one environment, and at none when
that environment has no fact. A rollback and a stage commit look only at a generation
number, which an incompatible fact advances like any other. A version whose facts are all
negative can therefore be granted a scope.
-/

namespace LifecycleFabric

open EngineState AuthorityTable

variable {c : EngineConfig} {s s' : EngineState} {model : ModelId} {version : ModelVersionId}

/-! ## What is known of a version -/

/-- Whether a fact is about the content a version has now. -/
def CompatibilityFact.concerns (fact : CompatibilityFact) (record : ModelVersionRecord) : Bool :=
  decide (fact.modelGeneration = record.generation) &&
    decide (fact.artifactGeneration = record.artifact.generation)

/-- The facts published for the content a version has now. -/
def EngineState.currentFacts (s : EngineState) (record : ModelVersionRecord) :
    List CompatibilityFact :=
  (s.compatibility.factsFor record.version).filter (·.concerns record)

/-- Whether facts are published for a version, and none of them is serving-compatible. -/
def EngineState.knownIncompatible (s : EngineState) (model : ModelId) (version : ModelVersionId) :
    Bool :=
  (s.versionOf model version).any fun record =>
    !(s.currentFacts record).isEmpty &&
      (s.currentFacts record).all fun fact => !fact.outcome.isServingCompatible

/-- One serving-compatible fact is enough. -/
theorem knownIncompatible_of_fact {record : ModelVersionRecord} {fact : CompatibilityFact}
    (hrecord : s.versionOf model version = some record) (hfact : fact ∈ s.currentFacts record)
    (hserving : fact.outcome.isServingCompatible = true) :
    s.knownIncompatible model version = false := by
  have hnotAll : (s.currentFacts record).all (fun fact => !fact.outcome.isServingCompatible) =
      false := by
    rw [List.all_eq_false]
    exact ⟨fact, hfact, by simp [hserving]⟩
  rw [knownIncompatible, hrecord, Option.any_some, hnotAll, Bool.and_false]

/-! ## What a step grants -/

/-- A step grants some scope exclusively to a version. -/
def GrantsTo (s s' : EngineState) (model : ModelId) (version : ModelVersionId) : Prop :=
  ∃ scope, ∃ b ∈ s.appended s' scope, b.isLiveExclusive = true ∧ b.ofVersion model version = true

/-- No version a step grants a scope exclusively is known only as incompatible. -/
def GrantsKnown (s s' : EngineState) : Prop :=
  ∀ model version, GrantsTo s s' model version → s.knownIncompatible model version = false

/-- A step grants scopes exclusively to no other version. -/
def GrantsOnly (s s' : EngineState) (model : ModelId) (version : ModelVersionId) : Prop :=
  ∀ model' version', GrantsTo s s' model' version' → model' = model ∧ version' = version

/-- A step that grants scopes exclusively to at most one version is sound when that version
is not known only as incompatible. -/
theorem grantsKnown_iff (honly : GrantsOnly s s' model version) :
    GrantsKnown s s' ↔ (GrantsTo s s' model version → s.knownIncompatible model version = false) := by
  constructor
  · intro h
    exact h model version
  · intro h model' version' hgrants
    obtain ⟨rfl, rfl⟩ := honly model' version' hgrants
    exact h hgrants

theorem not_grantsTo_of_appended_nil (h : ∀ scope, s.appended s' scope = []) :
    ¬GrantsTo s s' model version := by
  rintro ⟨scope, b, hb, _⟩
  rw [h scope] at hb
  cases hb

theorem appended_self (s : EngineState) (scope : ScopeId) : s.appended s scope = [] :=
  List.drop_length

/-- A chain whose permit allows one version, beside retained bindings, grants scopes
exclusively to no other. -/
theorem Chain.grantsOnly {p : Permit} (h : Chain c p s s')
    (hp : ∀ b, p.grants b → b.kind = .rollbackRetained ∨ b.model = model ∧ b.version = version) :
    GrantsOnly s s' model version := by
  rintro model' version' ⟨scope, b, hb, hexclusive, hown⟩
  obtain ⟨origin, hgrants, hfades⟩ := h.appended_permitted hb
  obtain ⟨hmodel', hversion'⟩ := AuthorityBinding.ofVersion_iff.mp hown
  obtain ⟨_, hmodel, hversion, _⟩ := hfades.same
  have horigin := hfades.exclusive_of_exclusive hexclusive
  rcases hp origin hgrants with hretained | ⟨horiginModel, horiginVersion⟩
  · rw [AuthorityBinding.isLiveExclusive, hretained, Bool.and_eq_true] at horigin
    cases horigin.2
  · exact ⟨by rw [← hmodel', hmodel, horiginModel], by rw [← hversion', hversion, horiginVersion]⟩

/-- A granted binding that stands at the end of its list makes the step grant its version. -/
theorem grantsTo_of_list {scope : ScopeId} {kept rest : List AuthorityBinding}
    {b : AuthorityBinding} (hlength : (s.authority.bindingsFor scope).length ≤ kept.length)
    (hlist : s'.authority.bindingsFor scope = kept ++ b :: rest)
    (hexclusive : b.isLiveExclusive = true) (hown : b.ofVersion model version = true) :
    GrantsTo s s' model version := by
  refine ⟨scope, b, ?_, hexclusive, hown⟩
  rw [appended, hlist, List.drop_append_of_le_length hlength]
  exact List.mem_append_right _ List.mem_cons_self

/-- The binding of a grant that moves exclusive authority is of its version. -/
theorem grantedBinding_grants (hs : Coherent s) {g : GrantRequest} {record : ModelVersionRecord}
    (hsupersede : g.supersedeExisting = true) (hrecord : s.versionOf g.model g.version = some record)
    (generation : ScopeGeneration) :
    (s.bumpSequence.grantedBinding g record generation).isLiveExclusive = true ∧
      (s.bumpSequence.grantedBinding g record generation).ofVersion g.model g.version = true := by
  obtain ⟨hmodel, hversion⟩ := versionKey_inj.mp (hs.versions _ record hrecord)
  constructor
  · simp [AuthorityBinding.isLiveExclusive, AuthorityBinding.live, grantedBinding, hsupersede]
  · exact AuthorityBinding.ofVersion_iff.mpr ⟨hmodel.symm, hversion.symm⟩

/-! ## Promotions -/

/-- The environment a promotion cites. -/
def PromotionRequest.citedKey (request : PromotionRequest) : Text :=
  if request.environmentKey.isEmpty then
    (request.environment.map EnvironmentProfile.key).getD []
  else request.environmentKey

/-- The fact published for the environment a promotion cites. -/
def EngineState.citedFact (s : EngineState) (request : PromotionRequest) :
    Option CompatibilityFact :=
  if request.citedKey.isEmpty then none
  else s.compatibility.lookup request.candidate request.citedKey

/-- The gate permits only what resolves as compatible. -/
theorem resolved_compatible {request : PromotionRequest} {record : ModelVersionRecord}
    (hfaults : s.compatibilityFaults request record = []) :
    (s.resolveCompatibilityFor record request.environmentKey request.environment).outcome =
      .compatible := by
  unfold compatibilityFaults at hfaults
  dsimp only at hfaults
  rw [List.append_eq_nil_iff] at hfaults
  revert hfaults
  generalize (s.resolveCompatibilityFor record request.environmentKey
    request.environment).outcome = outcome
  rintro ⟨hverdict, _⟩
  cases outcome <;> first | rfl | cases hverdict

/-- A cited fact decides what the candidate resolves as. -/
theorem resolved_of_fact {request : PromotionRequest} {record : ModelVersionRecord}
    {fact : CompatibilityFact} (hversion : request.candidate = record.version)
    (hfact : s.citedFact request = some fact) :
    (s.resolveCompatibilityFor record request.environmentKey request.environment).outcome =
      if fact.modelGeneration ≠ record.generation ∨
          fact.artifactGeneration ≠ record.artifact.generation then .staleEvidence
      else fact.outcome := by
  unfold resolveCompatibilityFor
  rw [citedFact, PromotionRequest.citedKey, hversion] at hfact
  dsimp only
  rw [hfact]
  dsimp only
  rw [apply_ite CompatibilityResult.outcome]

/-- The gate permits a candidate with a cited fact only where that fact is about its
content and positive. -/
theorem citedFact_compatible (hs : Coherent s) {request : PromotionRequest}
    (hgate : (s.evaluatePromotion c request).allowed = true) {fact : CompatibilityFact}
    (hfact : s.citedFact request = some fact) :
    s.knownIncompatible request.model request.candidate = false := by
  obtain ⟨record, hrecord, hfaults⟩ := evaluatePromotion_allowed_iff.mp hgate
  obtain ⟨_, hversion⟩ := versionKey_inj.mp (hs.versions _ record hrecord)
  simp only [promotionFaults, List.append_eq_nil_iff] at hfaults
  obtain ⟨⟨⟨⟨⟨_, hverdict⟩, _⟩, _⟩, _⟩, _⟩ := hfaults
  have hcompatible := resolved_compatible hverdict
  rw [resolved_of_fact hversion hfact] at hcompatible
  split_ifs at hcompatible with hstale
  rw [not_or, not_not, not_not] at hstale
  have hconcerns : fact.concerns record = true := by
    rw [CompatibilityFact.concerns, hstale.1, hstale.2]
    simp
  have hpublished : fact ∈ s.compatibility.factsFor record.version := by
    rw [citedFact] at hfact
    split_ifs at hfact
    rw [CompatibilityRegistry.factsFor, OrdMap.mem_values_iff]
    refine ⟨CompatibilityRegistry.keyOf record.version request.citedKey, ?_⟩
    rw [hversion, CompatibilityRegistry.lookup] at hfact
    rw [OrdMap.get?_filter, hfact, Option.filter_some, if_pos]
    simp [CompatibilityRegistry.keyOf]
  refine knownIncompatible_of_fact hrecord (List.mem_filter.mpr ⟨hpublished, hconcerns⟩) ?_
  rw [hcompatible]
  rfl

/-- Bringing a promotion about grants nothing before its own grant. -/
theorem chain_prepared_still (s : EngineState) (request : PromotionRequest)
    (record : ModelVersionRecord) :
    Chain c (Permit.undriven (fun _ => False) False) s (s.prepared request record) := by
  refine Chain.trans ?_ (chain_advanceTarget _ request)
  unfold clearInflight
  split_ifs
  · exact (progresses_supersedeInflight (fun _ => trivial) record _ s False.elim).chain
  · exact Chain.refl s

theorem authority_commitPromotion (s : EngineState) (request : PromotionRequest)
    (promotion : PromotionId) (promotionGeneration : PromotionGeneration) :
    (s.commitPromotion request promotion promotionGeneration).authority = s.authority := rfl

/-- A promotion grants its candidate exactly when it is immediate, is committed, and fits. -/
theorem promote_grants_iff (hs : Coherent s) (hstanding : Standing s)
    (request : PromotionRequest) :
    GrantsTo s (s.promote c request).1 request.model request.candidate ↔
      request.immediate = true ∧ s.reachesCommit c request = true ∧
        s.fitsPromotion request = true := by
  cases hcommit : s.reachesCommit c request with
  | false =>
    have hsame : (s.promote c request).1 = s := by
      cases promotes (c := c) hs hstanding request with
      | stopped _ _ hsame => exact hsame
      | committed hcommits _ _ => rw [hcommit] at hcommits; cases hcommits
      | aborted hcommits _ _ _ _ _ _ _ _ => rw [hcommit] at hcommits; cases hcommits
    rw [hsame]
    constructor
    · exact fun h => absurd h (not_grantsTo_of_appended_nil (appended_self s))
    · rintro ⟨_, hcontra, _⟩
      cases hcontra
  | true =>
    rw [reachesCommit, Bool.and_eq_true] at hcommit
    obtain ⟨hgate, hfree⟩ := hcommit
    obtain ⟨record, hrecord, _, _⟩ := promotion_permitted hgate
    have hstill := chain_prepared_still (c := c) s request record
    have hpromote := promote_eq hs hgate hrecord hfree
    dsimp only at hpromote
    rw [hpromote, grantPromotion_eq]
    cases himmediate : request.immediate with
    | false =>
      have hnone := hstill.appended_nil fun _ h => h
      rw [if_neg Bool.false_ne_true]
      constructor
      · exact fun h => absurd h (not_grantsTo_of_appended_nil hnone)
      · rintro ⟨hcontra, _⟩
        cases hcontra
    | true =>
      have hadmitted := admitted_prepared hgate hrecord
        ⟨(s.clearInflight request record).nextPromotionId⟩
        record.promotionGeneration.nextGeneration
      rw [if_pos rfl]
      cases hfits : s.fitsPromotion request with
      | false =>
        rw [hfits] at hadmitted
        obtain ⟨hdenied, hstate⟩ := grantAuthority_refused (hstill.coherent hs)
          (hstill.standing hstanding) hadmitted
        rw [hdenied]
        have hnone : ∀ t, t = s.prepared request record ∨
            t = (s.prepared request record).bumpSequence → ∀ scope,
              s.appended (t.advanceVersion request.model request.candidate .promotionBlocked)
                scope = [] := by
          rintro t (rfl | rfl) scope
          · exact hstill.appended_nil (fun _ h => h) scope
          · exact hstill.appended_nil (fun _ h => h) scope
        constructor
        · exact fun h => absurd h (not_grantsTo_of_appended_nil (hnone _ hstate))
        · rintro ⟨_, _, hcontra⟩
          cases hcontra
      | true =>
        rw [hfits] at hadmitted
        obtain ⟨hallowed, hgranted⟩ := grantAuthority_admitted (hstill.coherent hs)
          (hstill.standing hstanding) hadmitted
        rw [hallowed]
        refine iff_of_true ?_ ⟨rfl, rfl, rfl⟩
        obtain ⟨stored, scopeRecord, retained, hstored, _, _, hlist⟩ := hgranted.bindingsFor_self
        obtain ⟨hexclusive, hown⟩ := grantedBinding_grants (hstill.coherent hs) rfl hstored
          scopeRecord.generation
        have hlength := hstill.length_bindingsFor (fun _ h => h) request.scope
        rw [Bool.not_true, if_neg Bool.false_ne_true]
        refine grantsTo_of_list (le_of_eq ?_) ((congrArg (bindingsFor · request.scope)
          (authority_commitPromotion _ _ _ _)).trans hlist) hexclusive hown
        rw [← hlength]
        exact ((GrantRequest.weakens_keeps _ _).length_eq)

/-! ## Rollbacks -/

/-- No chain grants a scope to a version without identity. -/
theorem Chain.grants_valid {p : Permit} (h : Chain c p s s') (hgrants : GrantsTo s s' model version) :
    version.valid = true := by
  obtain ⟨scope, b, hb, _, hown⟩ := hgrants
  obtain ⟨origin, ⟨_, _, t, _, hgrantable⟩, hfades⟩ := (h.grew scope).added b hb
  obtain ⟨_, hversion, _⟩ := malformed_eq_none_iff.mp hgrantable.sound
  obtain ⟨_, _, hsame, _⟩ := hfades.same
  rw [← (AuthorityBinding.ofVersion_iff.mp hown).2, hsame]
  exact hversion

/-- A rollback grants its target exactly when the gate permits it and the target has an
identity. -/
theorem rollback_grants_iff (hs : Coherent s) (hstanding : Standing s)
    (request : RollbackRequest) :
    GrantsTo s (s.rollback request).1 request.model request.target ↔
      (s.evaluateRollback request).allowed = true ∧ request.target.valid = true := by
  have hchain := (rollback_progresses (c := {}) hs request fun h : False => h.elim).chain
  cases rollsBack hs hstanding request with
  | refused hgate _ hsame =>
    rw [hgate, hsame]
    constructor
    · exact fun h => absurd h (not_grantsTo_of_appended_nil (appended_self s))
    · rintro ⟨hcontra, _⟩
      cases hcontra
  | denied _ htarget _ =>
    rw [htarget]
    constructor
    · intro hgrants
      rw [hchain.grants_valid hgrants] at htarget
      cases htarget
    · rintro ⟨_, hcontra⟩
      cases hcontra
  | committed hgate hvalid _ candidate target hpermitted mid hmid hstate =>
    refine iff_of_true ?_ ⟨hgate, hvalid⟩
    obtain ⟨record, scopeRecord, hrecord, _, hhere⟩ := hmid.here
    obtain rfl : target = record := Option.some.inj (hpermitted.targetStored.symm.trans hrecord)
    obtain ⟨hexclusive, hown⟩ := grantedBinding_grants hs (g := request.grant ⟨s.nextRollbackId⟩
      candidate.rollbackGeneration.nextGeneration) rfl hrecord scopeRecord.generation
    rw [hstate]
    exact grantsTo_of_list (le_of_eq (List.length_map _).symm)
      (bindings_finishRollback hpermitted hhere) hexclusive hown

/-! ## Stage commits -/

/-- A stage commit grants its candidate exactly when it serves its stage. -/
theorem commit_grants_iff (hs : Coherent s) (hstanding : Standing s)
    {request : RolloutProgressRequest} {plan : RolloutPlan} (h : s.commit request = some plan) :
    GrantsTo s (s.advanceStage request).1 plan.model plan.candidate ↔ s.servesStage plan = true := by
  constructor
  · rintro ⟨scope, b, hb, hexclusive, _⟩
    by_contra hunserved
    obtain ⟨rest, hlist, hrest⟩ := bindingsFor_commit hs hstanding h scope
    have hwithin := (commitGrants_unserved hs hstanding h (by simpa using hunserved) scope).append
      fun b hb => not_exclusive_of_canary (hrest b hb)
    rw [appended, hlist] at hb
    exact absurd ((hwithin.2 b hb).symm.trans hexclusive) Bool.false_ne_true
  · intro hserves
    obtain ⟨scope, kept, b, more, hlength, hgranted, hexclusive, hmodel, hversion⟩ :=
      commitGrants_serves hs hstanding h hserves
    obtain ⟨rest, hlist, _⟩ := bindingsFor_commit hs hstanding h scope
    rw [hgranted, List.append_assoc, List.cons_append] at hlist
    exact grantsTo_of_list hlength.ge hlist hexclusive
      (AuthorityBinding.ofVersion_iff.mpr ⟨hmodel, hversion⟩)

/-! ## Stage failures -/

/-- Whether a failed stage is rolled back by itself: the policy authorizes it, and the gate
of the rollback permits it once the bindings of the rollout are withdrawn. -/
def EngineState.rollsBackItself (s : EngineState) (request : RolloutProgressRequest)
    (plan : RolloutPlan) : Bool :=
  (s.evaluateStageAdvance request).has .stageFailureThresholdExceeded &&
    s.policy.base.allowAutomaticRollback &&
    (s.versionOf plan.model plan.candidate).any fun record =>
      ((s.mapAuthority (·.supersedeRollout plan.id plan.generation)).evaluateRollback
        (s.automaticRollback request plan record)).allowed

/-- The gate of an automatic rollback answers what it would before the failure, once the
bindings of the rollout are withdrawn. -/
theorem evaluateRollback_commitFailure (request : RolloutProgressRequest) (plan : RolloutPlan)
    (reasons : List Reason) {record failed : ModelVersionRecord}
    (hsame : record.SameContent failed) :
    let t := s.commitFailure request.rollout plan reasons false
    t.evaluateRollback (t.automaticRollback request plan failed) =
      (s.mapAuthority (·.supersedeRollout plan.id plan.generation)).evaluateRollback
        (s.automaticRollback request plan record) := by
  intro t
  have hground := sameGround_commitFailure (s := s) request.rollout plan reasons false
  have hscopes : t.scopes = s.scopes := hground.scopes
  have hpolicy : t.policy = s.policy := hground.policy
  have hrequest : t.automaticRollback request plan failed =
      s.automaticRollback request plan record := by
    rw [automaticRollback, automaticRollback, hscopes, hpolicy, hsame.generation]
  rw [hrequest]
  exact evaluateRollback_congr hground _

/-- What a tripped stage comes to: its failure, followed by a permitted rollback exactly
when it is rolled back by itself. -/
theorem failCurrentStage_cases {request : RolloutProgressRequest} (plan : RolloutPlan)
    (htripped : (s.evaluateStageAdvance request).has .stageFailureThresholdExceeded = true) :
    let t := s.commitFailure request.rollout plan (s.evaluateStageAdvance request).reasons false
    let state := (s.failCurrentStage request plan (s.evaluateStageAdvance request)).1
    s.rollsBackItself request plan = false ∧ state = t ∨
      s.rollsBackItself request plan = true ∧ ∃ failed,
        t.versionOf plan.model plan.candidate = some failed ∧
        (t.evaluateRollback (t.automaticRollback request plan failed)).allowed = true ∧
        state = t.commitAutomaticRollback request.rollout plan failed := by
  intro t state
  have hpolicy : t.policy = s.policy :=
    (sameGround_commitFailure request.rollout plan _ false).policy
  have hversions := keepsContent_commitFailure (s := s) request.rollout plan
    (s.evaluateStageAdvance request).reasons false plan.model plan.candidate
  have hstate : state = (s.failCurrentStage request plan (s.evaluateStageAdvance request)).1 := rfl
  unfold failCurrentStage at hstate
  unfold rollsBackItself
  dsimp only at hstate
  rw [htripped, Bool.true_and]
  rw [PolicySet.effective_allowAutomaticRollback, hpolicy] at hstate
  cases hautomatic : s.policy.base.allowAutomaticRollback with
  | false =>
    rw [hautomatic, Bool.not_false, if_pos rfl] at hstate
    exact Or.inl ⟨Bool.false_and _, hstate⟩
  | true =>
    rw [hautomatic, Bool.not_true, if_neg Bool.false_ne_true] at hstate
    rw [Bool.true_and]
    rcases rel_cases hversions with ⟨hbefore, hafter⟩ | ⟨record, failed, hbefore, hafter, hsame⟩
    · rw [hafter] at hstate
      rw [hbefore]
      exact Or.inl ⟨rfl, hstate⟩
    · have hgate := evaluateRollback_commitFailure (s := s) request plan
        (s.evaluateStageAdvance request).reasons hsame
      rw [hafter] at hstate
      dsimp only at hstate hgate
      rw [hbefore, Option.any_some, ← hgate]
      cases hallowed : (t.evaluateRollback (t.automaticRollback request plan failed)).allowed with
      | false =>
        rw [hallowed, Bool.not_false, if_pos rfl] at hstate
        exact Or.inl ⟨rfl, hstate⟩
      | true =>
        obtain ⟨_, target, hpermitted⟩ := rollback_permitted hallowed
        have htarget : t.versionOf plan.model plan.rollbackTarget = some target :=
          hpermitted.targetStored
        rw [hallowed, Bool.not_true, if_neg Bool.false_ne_true, htarget] at hstate
        exact Or.inr ⟨rfl, failed, hafter, hallowed, hstate⟩

/-- A stage failure grants its candidate exactly when it is rolled back by itself. -/
theorem failure_grants_iff (hs : Coherent s) (hstanding : Standing s)
    {request : RolloutProgressRequest} {plan : RolloutPlan}
    (htripped : (s.evaluateStageAdvance request).has .stageFailureThresholdExceeded = true) :
    GrantsTo s (s.failCurrentStage request plan (s.evaluateStageAdvance request)).1 plan.model
        plan.candidate ↔ s.rollsBackItself request plan = true := by
  have hchain := (moves_commitFailure (c := {}) (p := Permit.undriven (fun _ => False) False) s
    request.rollout plan (s.evaluateStageAdvance request).reasons false trivial False.elim).chain
  rcases failCurrentStage_cases plan htripped with
    ⟨hstays, hstate⟩ | ⟨hrolls, failed, _, hallowed, hstate⟩
  · rw [hstays, hstate]
    refine iff_of_false ?_ Bool.false_ne_true
    exact not_grantsTo_of_appended_nil (hchain.appended_nil fun _ h => h)
  · rw [hrolls, hstate]
    refine iff_of_true ?_ rfl
    obtain ⟨stored, scopeRecord, hstored, hlist, _⟩ := bindingsFor_commitAutomaticRollback
      (hchain.coherent hs) (hchain.standing hstanding) request.rollout hallowed
    obtain ⟨hexclusive, hown⟩ := grantedBinding_grants (hchain.coherent hs)
      (g := plan.automaticGrant
        ⟨(s.commitFailure request.rollout plan (s.evaluateStageAdvance request).reasons
          false).nextRollbackId⟩ failed.rollbackGeneration.nextGeneration) rfl hstored
      scopeRecord.generation
    refine grantsTo_of_list ?_ hlist hexclusive hown
    rw [List.length_map]
    exact (hchain.length_bindingsFor (fun _ h => h) plan.rootScope).ge

/-- A gate that permits a stage found no failure criterion tripped. -/
theorem not_tripped_of_commit {request : RolloutProgressRequest} {plan : RolloutPlan}
    (h : s.commit request = some plan) :
    (s.evaluateStageAdvance request).has .stageFailureThresholdExceeded = false := by
  obtain ⟨hplan, hfaults, _⟩ := commit_permitted h
  rw [commit] at h
  split_ifs at h with hallowed
  rw [evaluateStageAdvance, hplan] at hallowed ⊢
  dsimp only at hallowed ⊢
  split_ifs at hallowed ⊢
  · rw [gateDecision_allowed_iff rfl stageRank_pos] at hallowed
    cases hallowed
  · rw [has_normalize, hfaults]
    rfl

/-- A tripped failure criterion takes the failure path. -/
theorem advanceStage_tripped {request : RolloutProgressRequest} {plan : RolloutPlan}
    {record : ModelVersionRecord} (hplan : s.rolloutOf request.rollout = some plan)
    (htripped : (s.evaluateStageAdvance request).has .stageFailureThresholdExceeded = true)
    (hrecord : s.versionOf plan.model plan.candidate = some record) :
    s.advanceStage request = s.failCurrentStage request plan (s.evaluateStageAdvance request) := by
  unfold advanceStage
  simp only [hplan, htripped, hrecord, Bool.not_true, Bool.false_eq_true, and_false, if_false,
    if_true]

/-- What a stage advance grants its candidate. -/
theorem advance_grants_iff (hs : Coherent s) (hstanding : Standing s)
    {request : RolloutProgressRequest} {plan : RolloutPlan}
    (hplan : s.rolloutOf request.rollout = some plan) :
    GrantsTo s (s.advanceStage request).1 plan.model plan.candidate ↔
      (s.evaluateStageAdvance request).allowed = true ∧ s.servesStage plan = true ∨
        s.rollsBackItself request plan = true := by
  cases hallowed : (s.evaluateStageAdvance request).allowed with
  | true =>
    have hcommit : s.commit request = some plan := by
      rw [commit, if_pos hallowed, hplan]
    have hpassed : s.rollsBackItself request plan = false := by
      rw [rollsBackItself, not_tripped_of_commit hcommit, Bool.false_and, Bool.false_and]
    rw [commit_grants_iff hs hstanding hcommit, hpassed]
    simp
  | false =>
    have hnone : ¬GrantsTo s s plan.model plan.candidate :=
      not_grantsTo_of_appended_nil (appended_self s)
    rw [Bool.false_eq_true, false_and, false_or]
    cases htripped : (s.evaluateStageAdvance request).has .stageFailureThresholdExceeded with
    | false =>
      have hkept : (s.advanceStage request).1 = s := by
        unfold advanceStage
        simp only [hplan, hallowed, htripped, Bool.not_false, and_self, if_true]
      rw [hkept, rollsBackItself, htripped, Bool.false_and, Bool.false_and]
      exact iff_of_false hnone Bool.false_ne_true
    | true =>
      cases hrecord : s.versionOf plan.model plan.candidate with
      | none =>
        have hkept : (s.advanceStage request).1 = s := by
          unfold advanceStage
          simp only [hplan, hallowed, htripped, hrecord, Bool.not_true, Bool.false_eq_true,
            and_false, if_false]
        rw [hkept, rollsBackItself, hrecord, Option.any_none, Bool.and_false]
        exact iff_of_false hnone Bool.false_ne_true
      | some record =>
        rw [advanceStage_tripped hplan htripped hrecord]
        exact failure_grants_iff hs hstanding htripped

/-! ## Runs -/

/-- The operations that can make a version authoritative. -/
def Operation.makesAuthoritative : Operation → Bool
  | .promote _ | .advanceStage _ | .rollback _ => true
  | _ => false

/-- An operation that makes a version authoritative makes only versions so that are not
known only as incompatible. -/
def Operation.GrantsKnown (c : EngineConfig) (s : EngineState) (op : Operation) : Prop :=
  op.makesAuthoritative = true → LifecycleFabric.GrantsKnown s (step c s op)

/-- What decides whether an operation makes only such versions authoritative: the version
an accepted operation names is not known only as incompatible. A promotion that cites an
environment with a published fact need not be asked. -/
def Operation.TargetsKnown (c : EngineConfig) (s : EngineState) : Operation → Prop
  | .promote request =>
    request.immediate = true → s.reachesCommit c request = true →
      s.fitsPromotion request = true → s.citedFact request = none →
        s.knownIncompatible request.model request.candidate = false
  | .rollback request =>
    (s.evaluateRollback request).allowed = true → request.target.valid = true →
      s.knownIncompatible request.model request.target = false
  | .advanceStage request =>
    ∀ plan ∈ s.rolloutOf request.rollout,
      (s.evaluateStageAdvance request).allowed = true ∧ s.servesStage plan = true ∨
          s.rollsBackItself request plan = true →
        s.knownIncompatible plan.model plan.candidate = false
  | _ => True

theorem promote_known_iff (hs : Coherent s) (hstanding : Standing s) (request : PromotionRequest) :
    GrantsKnown s (s.promote c request).1 ↔ (Operation.promote request).TargetsKnown c s := by
  have honly : GrantsOnly s (s.promote c request).1 request.model request.candidate :=
    (promote_progresses (c := c) hs request fun h : False => h.elim).chain.grantsOnly
      fun _ hb => hb.2
  rw [grantsKnown_iff honly, promote_grants_iff hs hstanding]
  constructor
  · exact fun h himmediate hcommit hfits _ => h ⟨himmediate, hcommit, hfits⟩
  · rintro h ⟨himmediate, hcommit, hfits⟩
    cases hcited : s.citedFact request with
    | none => exact h himmediate hcommit hfits hcited
    | some fact =>
      rw [reachesCommit, Bool.and_eq_true] at hcommit
      exact citedFact_compatible hs hcommit.1 hcited

theorem rollback_known_iff (hs : Coherent s) (hstanding : Standing s) (request : RollbackRequest) :
    GrantsKnown s (s.rollback request).1 ↔ (Operation.rollback request).TargetsKnown c s := by
  have honly : GrantsOnly s (s.rollback request).1 request.model request.target :=
    (rollback_progresses (c := {}) hs request fun h : False => h.elim).chain.grantsOnly
      fun _ hb => hb.2
  rw [grantsKnown_iff honly, rollback_grants_iff hs hstanding]
  exact and_imp

theorem advance_known_iff (hs : Coherent s) (hstanding : Standing s)
    (request : RolloutProgressRequest) :
    GrantsKnown s (s.advanceStage request).1 ↔ (Operation.advanceStage request).TargetsKnown c s := by
  cases hplan : s.rolloutOf request.rollout with
  | none =>
    have hsame : (s.advanceStage request).1 = s := by
      simp [advanceStage, hplan]
    rw [hsame]
    refine iff_of_true ?_ ?_
    · exact fun _ _ hgrants => absurd hgrants (not_grantsTo_of_appended_nil (appended_self s))
    · intro plan hmem
      rw [hplan] at hmem
      cases hmem
  | some plan =>
    have honly : GrantsOnly s (s.advanceStage request).1 plan.model plan.candidate :=
      (advanceStage_progresses (c := {}) hs request hplan
        fun h : False => h.elim).chain.grantsOnly fun _ hb => hb.2
    rw [grantsKnown_iff honly, advance_grants_iff hs hstanding hplan, Operation.TargetsKnown, hplan]
    constructor
    · rintro h found hfound
      obtain rfl := Option.some.inj hfound
      exact h
    · exact fun h => h plan rfl

/-- A step makes only versions authoritative that are not known only as incompatible
exactly when the version it names is none. -/
theorem step_grants_known_iff (hs : Coherent s) (hstanding : Standing s) (op : Operation) :
    op.GrantsKnown c s ↔ op.TargetsKnown c s := by
  cases op with
  | promote request => exact forall_prop_of_true rfl |>.trans (promote_known_iff hs hstanding request)
  | rollback request => exact forall_prop_of_true rfl |>.trans (rollback_known_iff hs hstanding request)
  | advanceStage request =>
    exact forall_prop_of_true rfl |>.trans (advance_known_iff hs hstanding request)
  | _ => exact iff_of_true (fun h => absurd h Bool.false_ne_true) trivial

/-- In every run only versions that are not known only as incompatible are made
authoritative exactly when each operation names such a version. -/
theorem grants_known_iff (c : EngineConfig) (ops : List Operation) :
    Runs.Along (step c) (fun s op => op.GrantsKnown c s) (init c) ops ↔
      Runs.Along (step c) (fun s op => op.TargetsKnown c s) (init c) ops :=
  Runs.along_iff (P := fun s => Coherent s ∧ Standing s) (step c)
    (fun _ op hs => ⟨(step_cases hs.1 op).coherent hs.1, (step_cases hs.1 op).standing hs.2⟩)
    (fun _ op hs => step_grants_known_iff hs.1 hs.2 op) ⟨coherent_init c, standing_init c⟩

/-- A version serves, and the one fact published for another is negative. -/
def incompatibleTarget : List Operation :=
  [.registerModel [109] [] .synthetic,
    .registerVersion
      { model := ⟨1⟩, label := [49]
        artifact := { setId := ⟨1⟩, generation := ⟨1⟩, digest := [97] } },
    .publishCompatibility ⟨1⟩ { key := [101] } .compatible [] .synthetic,
    .registerVersion
      { model := ⟨1⟩, label := [50]
        artifact := { setId := ⟨1⟩, generation := ⟨1⟩, digest := [97] } },
    .publishCompatibility ⟨2⟩ { key := [101] } .incompatibleRuntime [] .synthetic,
    .promote
      { model := ⟨1⟩, candidate := ⟨1⟩, scope := ⟨1⟩, environmentKey := [101]
        requestImmediateCutover := true }]

/-- A rollback makes it authoritative. -/
theorem grants_known_counterexample :
    ¬∀ (c : EngineConfig) (ops : List Operation),
      Runs.Along (step c) (fun s op => op.GrantsKnown c s) (init c) ops := by
  intro hclaim
  obtain ⟨_, hlast, _⟩ := (Runs.along_append (step {})).mp (hclaim {} (incompatibleTarget ++
    [.rollback { model := ⟨1⟩, candidate := ⟨1⟩, target := ⟨2⟩, scope := ⟨1⟩ }]))
  have hs : ReachableState {} (runOps {} (init {}) incompatibleTarget) := ⟨incompatibleTarget, rfl⟩
  have hknown := (step_grants_known_iff hs.coherent hs.standing _).mp hlast
  have hunknown := hknown (by decide +kernel) rfl
  revert hunknown
  decide +kernel

end LifecycleFabric
