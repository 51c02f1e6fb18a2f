import LifecycleFabric.Engine.RollbackGate
import LifecycleFabric.Properties.CommittedStages
import LifecycleFabric.Properties.CompatibleGrants
import LifecycleFabric.Properties.Promotions
import LifecycleFabric.Properties.Query
import LifecycleFabric.Properties.ScopeGenerations

/-!
# What an immediate promotion leaves

An accepted immediate promotion supersedes the rollouts in flight of the other candidates,
brings its candidate to `CURRENT`, and only then takes the scope over from whoever holds it
still.
-/

namespace LifecycleFabric

open EngineState AuthorityTable

variable {c : EngineConfig} {s t : EngineState} {request : PromotionRequest}
  {record : ModelVersionRecord} {promotion : PromotionId} {generation : PromotionGeneration}
  {scope : ScopeId}

/-! ## Rollouts in flight -/

/-- Whether a promotion supersedes a rollout: it is live, of another candidate of the model,
and the policy of the scope asks for it. -/
def EngineState.overtakes (s : EngineState) (request : PromotionRequest) (plan : RolloutPlan) :
    Bool :=
  (s.policy.effective s.scopes request.scope).supersedeInflightRolloutOnNewPromotion &&
    (plan.live && decide (plan.model = request.model) &&
      decide (plan.candidate ≠ request.candidate))

/-- Whether a promotion withdraws a binding with the rollout that granted it. -/
def EngineState.withdraws (s : EngineState) (request : PromotionRequest)
    (binding : AuthorityBinding) : Bool :=
  s.grantedBy (s.overtakes request) s.rollouts.keys binding

theorem withdraws_iff {binding : AuthorityBinding} :
    s.withdraws request binding = true ↔ ∃ key plan, s.rollouts.get? key = some plan ∧
      s.overtakes request plan = true ∧ binding.ofPlan plan = true := grantedBy_keys_iff

/-- Where the policy asks for it, a promotion supersedes the live plans of the other
candidates. -/
theorem overtakes_eq (hmodel : record.model = request.model)
    (hversion : record.version = request.candidate)
    (hclears : (s.policy.effective s.scopes request.scope).supersedeInflightRolloutOnNewPromotion =
      true) : s.overtakes request = RolloutPlan.inflightBeside record := by
  funext plan
  rw [EngineState.overtakes, RolloutPlan.inflightBeside, hclears, hmodel, hversion, Bool.true_and]

/-- Clearing the rollouts in flight marks the plans that the promotion overtakes. -/
theorem plan_clearInflight (hmodel : record.model = request.model)
    (hversion : record.version = request.candidate) {key : UInt64} {plan : RolloutPlan}
    (hplan : s.rollouts.get? key = some plan) :
    ∃ updated, (s.clearInflight request record).rollouts.get? key =
      some (if s.overtakes request plan then
        supersededPlan updated (text "a newer promotion superseded this rollout") plan
      else plan) := by
  have hkey : key ∈ s.rollouts.keys := OrdMap.mem_keys_iff.mpr ⟨plan, hplan⟩
  unfold clearInflight
  split_ifs with hclears hovertaken hovertaken
  · obtain ⟨updated, hmarked⟩ :=
      (planLoop_supersedeInflight record).plan s.rollouts.nodup_keys hkey hplan
    rw [overtakes_eq hmodel hversion hclears] at hovertaken
    rw [if_pos hovertaken] at hmarked
    exact ⟨updated, hmarked⟩
  · obtain ⟨updated, hmarked⟩ :=
      (planLoop_supersedeInflight record).plan s.rollouts.nodup_keys hkey hplan
    rw [overtakes_eq hmodel hversion hclears] at hovertaken
    rw [if_neg hovertaken] at hmarked
    exact ⟨updated, hmarked⟩
  · rw [EngineState.overtakes, Bool.and_eq_true] at hovertaken
    exact absurd hovertaken.1 hclears
  · exact ⟨s.sequence, hplan⟩

/-- Clearing the rollouts in flight supersedes what they granted, in its place. -/
theorem bindingsFor_prepared (hmodel : record.model = request.model)
    (hversion : record.version = request.candidate) (scope : ScopeId) :
    (s.prepared request record).authority.bindingsFor scope =
      (s.authority.bindingsFor scope).map fun b =>
        if s.withdraws request b then b.supersede else b := by
  change (s.clearInflight request record).authority.bindingsFor scope = _
  unfold clearInflight EngineState.withdraws
  split_ifs with hclears
  · rw [(planLoop_supersedeInflight record).bindingsFor s.rollouts.nodup_keys,
      overtakes_eq hmodel hversion hclears]
  · have hnone : ∀ b, s.grantedBy (s.overtakes request) s.rollouts.keys b = false := by
      intro b
      rw [← Bool.not_eq_true, grantedBy_keys_iff]
      rintro ⟨key, plan, _, hovertaken, _⟩
      rw [EngineState.overtakes, Bool.and_eq_true] at hovertaken
      exact hclears hovertaken.1
    simp only [hnone, Bool.false_eq_true, if_false, List.map_id']

theorem liveIn_prepared (hmodel : record.model = request.model)
    (hversion : record.version = request.candidate) (scope : ScopeId) :
    (s.prepared request record).liveIn scope =
      (s.liveIn scope).filter fun b => !s.withdraws request b :=
  liveIn_of_withdrawn (bindingsFor_prepared hmodel hversion scope)

/-- The holder of a scope is its live exclusive binding. -/
theorem holderOf_eq_some_iff (hsingle : SingleHolder s) {holder : AuthorityBinding} :
    s.holderOf scope = some holder ↔ HoldsExclusively s scope holder := by
  constructor
  · intro hholder
    have hexclusive := List.find?_some hholder
    obtain ⟨hlive, hkind⟩ := AuthorityBinding.isLiveExclusive_iff.mp hexclusive
    exact ⟨mem_liveBindingsFor.mpr ⟨List.mem_of_find?_eq_some hholder, hlive⟩, hkind⟩
  · rintro ⟨hmem, hkind⟩
    obtain ⟨hb, hlive⟩ := mem_liveBindingsFor.mp hmem
    cases hfound : s.holderOf scope with
    | none =>
      have hnone := List.find?_eq_none.mp hfound holder hb
      exact absurd (AuthorityBinding.isLiveExclusive_iff.mpr ⟨hlive, hkind⟩) hnone
    | some other =>
      have hexclusive := List.find?_some hfound
      obtain ⟨hlive', hkind'⟩ := AuthorityBinding.isLiveExclusive_iff.mp hexclusive
      have hother : HoldsExclusively s scope other :=
        ⟨mem_liveBindingsFor.mpr ⟨List.mem_of_find?_eq_some hfound, hlive'⟩, hkind'⟩
      rw [holdsExclusively_unique hsingle hother ⟨hmem, hkind⟩]

theorem singleHolder_prepared (hsingle : SingleHolder s) :
    SingleHolder (s.prepared request record) :=
  Runs.chain_preserves (P := SingleHolder) (fun _ _ hab => hab.singleHolder)
    (chain_prepared (c := {}) s request record) hsingle

/-- What a promotion displaces is the holder of the scope, unless it was withdrawn with its
rollout. -/
theorem holderOf_prepared_iff (hsingle : SingleHolder s) (hmodel : record.model = request.model)
    (hversion : record.version = request.candidate) {holder : AuthorityBinding} :
    (s.prepared request record).holderOf scope = some holder ↔
      HoldsExclusively s scope holder ∧ s.withdraws request holder = false := by
  rw [holderOf_eq_some_iff (singleHolder_prepared hsingle)]
  unfold HoldsExclusively
  have hlive := liveIn_prepared (s := s) hmodel hversion scope
  rw [liveIn, liveIn] at hlive
  rw [hlive, List.mem_filter, Bool.not_eq_true']
  constructor
  · rintro ⟨⟨hmem, hkept⟩, hkind⟩
    exact ⟨⟨hmem, hkind⟩, hkept⟩
  · rintro ⟨⟨hmem, hkind⟩, hkept⟩
    exact ⟨⟨hmem, hkept⟩, hkind⟩

/-! ## The cutover -/

/-- What the grant of a promotion displaces is the holder of the scope. -/
theorem displaces_grant (t : EngineState) (request : PromotionRequest) (promotion : PromotionId)
    (generation : PromotionGeneration) :
    (request.grant promotion generation).displaces t = t.holderOf request.scope := rfl

/-- An accepted immediate promotion: its gate permits it, its grant is admitted once the
rollouts in flight are cleared, and its commit follows. -/
structure CutsOver (c : EngineConfig) (s : EngineState) (request : PromotionRequest)
    (record : ModelVersionRecord) (promotion : PromotionId) (generation : PromotionGeneration) :
    Prop where
  gate : (s.evaluatePromotion c request).allowed = true
  stored : s.versionOf request.model request.candidate = some record
  model : record.model = request.model
  version : record.version = request.candidate
  coherent : Coherent s
  standing : Standing s
  admitted : (request.grant promotion generation).admitted (s.prepared request record) = true
  state : (s.promote c request).1 = ((s.prepared request record).grantAuthority
    (request.grant promotion generation)).1.commitPromotion request promotion generation

theorem cutsOver (hs : Coherent s) (hstanding : Standing s)
    (hallowed : (s.promote c request).2.decision.allowed = true)
    (himmediate : request.immediate = true) :
    ∃ record promotion generation, CutsOver c s request record promotion generation := by
  cases promotes (c := c) hs hstanding request with
  | stopped _ hrefused _ =>
    rw [hallowed] at hrefused
    cases hrefused
  | aborted _ _ _ hrefused =>
    rw [hallowed] at hrefused
    cases hrefused
  | committed hcommit hfits _ =>
    rw [reachesCommit, Bool.and_eq_true] at hcommit
    obtain ⟨hgate, hfree⟩ := hcommit
    obtain ⟨record, hrecord, _⟩ := promotion_permitted hgate
    obtain ⟨hmodel, hversion⟩ := versionKey_inj.mp (hs.versions _ record hrecord)
    have hchain := chain_prepared (c := c) s request record
    have hadmitted := admitted_prepared hgate hrecord
      ⟨(s.clearInflight request record).nextPromotionId⟩ record.promotionGeneration.nextGeneration
    rw [hfits himmediate] at hadmitted
    have hgranted := (grantAuthority_admitted (hchain.coherent hs) (hchain.standing hstanding)
      hadmitted).1
    have hpromote := promote_eq hs hgate hrecord hfree
    dsimp only at hpromote
    rw [grantPromotion_eq, if_pos himmediate, hgranted, Bool.not_true,
      if_neg Bool.false_ne_true] at hpromote
    exact ⟨record, _, _, hgate, hrecord, hmodel.symm, hversion.symm, hs,
      hstanding, hadmitted, congrArg Prod.fst hpromote⟩

/-- A binding that a promotion grants its candidate: live, exclusive, at the generation of
the candidate, and of no rollout. -/
structure PromotionRequest.Grants (request : PromotionRequest) (record : ModelVersionRecord)
    (granted : AuthorityBinding) : Prop where
  exclusive : granted.isLiveExclusive = true
  own : granted.ofVersion request.model request.candidate = true
  generation : granted.modelGeneration = record.generation
  rollout : granted.rollout = {}

section Prepared

variable (h : CutsOver c s request record promotion generation)

include h

theorem CutsOver.coherent_prepared : Coherent (s.prepared request record) :=
  (chain_prepared (c := c) s request record).coherent h.coherent

theorem CutsOver.standing_prepared : Standing (s.prepared request record) :=
  (chain_prepared (c := c) s request record).standing h.standing

/-- The candidate is at its target when the grant is asked for. -/
theorem CutsOver.stored_prepared :
    (s.prepared request record).versionOf request.model request.candidate =
      some (record.advanceLifecycleTo request.targetState).1 :=
  versionOf_prepared h.coherent h.stored

/-- The binding of the candidate. -/
theorem CutsOver.granted {found : ModelVersionRecord} (scopeGeneration : ScopeGeneration)
    (hfound : (s.prepared request record).versionOf request.model request.candidate =
      some found) :
    request.Grants record ((s.prepared request record).bumpSequence.grantedBinding
      (request.grant promotion generation) found scopeGeneration) := by
  obtain ⟨hmodel, hversion⟩ := versionKey_inj.mp (h.coherent_prepared.versions _ found hfound)
  have hgeneration : found.generation = record.generation := by
    obtain rfl := Option.some.inj (h.stored_prepared.symm.trans hfound)
    exact advance_generation record request.targetState
  refine ⟨rfl, ?_, hgeneration, rfl⟩
  rw [AuthorityBinding.ofVersion_iff]
  exact ⟨hmodel.symm, hversion.symm⟩

end Prepared

/-- Bringing the candidate to its target keeps the content of the versions. -/
theorem keepsContent_prepared (s : EngineState) (request : PromotionRequest)
    (record : ModelVersionRecord) : s.KeepsContent (s.prepared request record) := by
  have htarget : request.targetState ≠ .retired := by
    unfold PromotionRequest.targetState
    split_ifs
    · decide
    · decide
  refine EngineState.KeepsContent.trans ?_ (keepsContent_advance _ _ _ htarget)
  unfold clearInflight
  split_ifs
  · exact keepsContent_supersedeInflight record s.rollouts.keys s
  · exact keepsContent_of_versions rfl

/-- An admitted grant moves the version it displaces, and changes nothing else of the
versions. -/
theorem keepsContent_grantAuthority {g : GrantRequest} (hs : Coherent s) (hstanding : Standing s)
    (hadmitted : g.admitted s = true) : s.KeepsContent (s.grantAuthority g).1 := by
  cases hholder : g.displaces s with
  | none =>
    have hversions := (grantAuthority_admitted hs hstanding hadmitted).2.versions hholder
    exact keepsContent_of_versions hversions
  | some holder =>
    obtain ⟨record, scopeRecord, previous, _, _, _, _, hstate⟩ :=
      grantAuthority_displaced hs hstanding hadmitted hholder
    rw [hstate]
    refine EngineState.KeepsContent.trans ?_
      (keepsContent_of_versions (touchScope_versions _ _))
    refine EngineState.KeepsContent.trans ?_ (keepsContent_demoteDisplaced _ _ _)
    have hplaced : (g.placedState s record scopeRecord).versions = s.versions := rfl
    generalize g.placedState s record scopeRecord = placed at hplaced ⊢
    split_ifs
    · exact keepsContent_of_versions hplaced
    · exact keepsContent_of_versions hplaced

/-- A cutover moves versions along the lifecycle, and keeps their content. -/
theorem CutsOver.keepsContent (h : CutsOver c s request record promotion generation) :
    s.KeepsContent (s.promote c request).1 := by
  rw [h.state]
  refine (keepsContent_prepared s request record).trans
    ((keepsContent_grantAuthority h.coherent_prepared h.standing_prepared h.admitted).trans ?_)
  have hstamped : ∀ (t : EngineState) (updated : Sequence), t.KeepsContent
      (t.modifyVersion request.model request.candidate fun record =>
        { record with
          lastPromotion := promotion
          promotionGeneration := generation
          updatedSequence := updated }) := by
    intro t updated
    exact keepsContent_modifyVersion t _ _ fun record : ModelVersionRecord =>
      ⟨rfl, rfl, rfl, rfl, rfl, rfl⟩
  unfold commitPromotion
  refine EngineState.KeepsContent.trans (keepsContent_of_versions (bumpSequence_versions _)) ?_
  exact (hstamped _ _).trans (keepsContent_of_versions rfl)

/-- A binding that retains a displaced one for its version. -/
structure AuthorityBinding.RetainsFor (retained holder : AuthorityBinding) : Prop where
  live : retained.live = true
  kind : retained.kind = .rollbackRetained
  model : retained.model = holder.model
  version : retained.version = holder.version
  generation : retained.modelGeneration = holder.modelGeneration
  rollout : retained.rollout = holder.rollout
  rolloutGeneration : retained.rolloutGeneration = holder.rolloutGeneration

/-- The list of the scope after a cutover: what was there, the exclusive binding withdrawn,
then the binding of the candidate, then that of the holder if the request names it. -/
theorem CutsOver.list (h : CutsOver c s request record promotion generation) :
    ∃ granted retained, request.Grants record granted ∧
      List.Forall₂ (fun holder b => AuthorityBinding.RetainsFor b holder)
        (((s.prepared request record).holderOf request.scope).toList.filter
          (isRetentionTarget (request.grant promotion generation))) retained ∧
      (s.promote c request).1.authority.bindingsFor request.scope =
        supersedeFirstExclusive
          ((s.prepared request record).authority.bindingsFor request.scope) ++
              granted :: retained := by
  cases hholder : (s.prepared request record).holderOf request.scope with
  | none =>
    obtain ⟨found, scopeRecord, hfound, _, hstate⟩ := grantAuthority_alone h.coherent_prepared
      h.standing_prepared h.admitted ((displaces_grant _ _ _ _).trans hholder)
    refine ⟨_, [], h.granted scopeRecord.generation hfound, .nil, ?_⟩
    rw [h.state, hstate]
    exact bindingsFor_placedTable (request.grant promotion generation) rfl
  | some holder =>
    obtain ⟨found, scopeRecord, previous, hfound, _, _, _, hstate⟩ := grantAuthority_displaced
      h.coherent_prepared h.standing_prepared h.admitted ((displaces_grant _ _ _ _).trans hholder)
    have hgrants := h.granted scopeRecord.generation hfound
    have hscope : ((s.prepared request record).bumpSequence.grantedBinding
        (request.grant promotion generation) found scopeRecord.generation).scope =
          request.scope := rfl
    have hplaced := bindingsFor_placedTable (s := s.prepared request record)
      (request.grant promotion generation) hscope
    rw [h.state, hstate, authority_commitPromotion, touchScope_authority,
      (demoteDisplaced_kept _ _ _).1]
    by_cases htarget : isRetentionTarget (request.grant promotion generation) holder = true
    · rw [if_pos htarget, mapAuthority_authority]
      generalize hretained : ((request.grant promotion generation).placedState
        (s.prepared request record) found scopeRecord).bumpSequence.retentionBinding
          scopeRecord.generation holder.supersede previous
            (request.grant promotion generation).scope = retained
      have hscope : retained.scope = request.scope := by rw [← hretained]; rfl
      have hretains : retained.RetainsFor holder := by
        rw [← hretained]
        constructor <;> rfl
      refine ⟨_, [retained], hgrants, ?_, ?_⟩
      · simp [htarget, hretains]
      · rw [bindingsFor_push, hscope, if_pos rfl]
        refine (congrArg (· ++ [retained]) hplaced).trans ?_
        rw [List.append_assoc]
        rfl
    · rw [if_neg htarget]
      refine ⟨_, [], hgrants, ?_, hplaced⟩
      simp [htarget]

/-! ## The lifecycle of the candidate -/

/-- Of the versions, a grant that displaces a binding demotes that of the binding, and does so
once the table is as the grant leaves it. -/
theorem grantAuthority_demotes {g : GrantRequest} (hs : Coherent s) (hstanding : Standing s)
    (hadmitted : g.admitted s = true) {holder : AuthorityBinding}
    (hholder : g.displaces s = some holder) :
    ∃ t : EngineState, t.versions = s.versions ∧
      t.authority = (s.grantAuthority g).1.authority ∧
      (s.grantAuthority g).1.versions =
        (t.demoteDisplaced holder.model holder.version).versions := by
  obtain ⟨record, scopeRecord, previous, _, _, _, _, hstate⟩ :=
    grantAuthority_displaced hs hstanding hadmitted hholder
  refine ⟨_, ?_, ?_, by rw [hstate]; rfl⟩
  · have hplaced : (g.placedState s record scopeRecord).versions = s.versions := rfl
    generalize g.placedState s record scopeRecord = placed at hplaced ⊢
    split_ifs
    · exact hplaced
    · exact hplaced
  · rw [hstate]
    exact (demoteDisplaced_kept _ _ _).1.symm

/-- Demoting a version leaves the records of the others. -/
theorem versionOf_demoteDisplaced_of_ne {model other : ModelId} {version others : ModelVersionId}
    (hother : ¬(other = model ∧ others = version)) :
    (t.demoteDisplaced model version).versionOf other others = t.versionOf other others := by
  unfold demoteDisplaced advanceVersion
  split_ifs
  · rw [versionOf_modifyVersion]
    simp only [if_neg hother, Option.map_id']
  · split
    · split_ifs
      · rw [versionOf_modifyVersion]
        simp only [if_neg hother, Option.map_id']
      · rfl
    · rfl

/-- A current version that still holds a scope is demoted to partially promoted. -/
theorem versionOf_demoteDisplaced_holding {model : ModelId} {version : ModelVersionId}
    (hholds : t.holdsLiveAuthority model version false = true)
    (hrecord : t.versionOf model version = some record) (hcurrent : record.state = .current) :
    ∃ after, (t.demoteDisplaced model version).versionOf model version = some after ∧
      after.state = .partiallyPromoted := by
  unfold demoteDisplaced
  rw [hholds, hrecord]
  simp only [Bool.not_true, Bool.false_eq_true, if_false, hcurrent, if_true, advanceVersion,
    versionOf_modifyVersion, hrecord, Option.map_some, and_self]
  refine ⟨_, rfl, ModelVersionRecord.advanceLifecycleTo_state ?_⟩
  rw [hcurrent]
  decide

/-- The commit of a promotion stamps its candidate. -/
theorem versionOf_commitPromotion (t : EngineState) (model : ModelId) (version : ModelVersionId) :
    (t.commitPromotion request promotion generation).versionOf model version =
      (t.versionOf model version).map fun record =>
        if model = request.model ∧ version = request.candidate then
          { record with
            lastPromotion := promotion
            promotionGeneration := generation
            updatedSequence := t.bumpSequence.sequence }
        else record := by
  change (t.bumpSequence.modifyVersion _ _ _).versionOf model version = _
  rw [versionOf_modifyVersion, versionOf_bumpSequence]

section Candidate

variable (h : CutsOver c s request record promotion generation)
  (himmediate : request.immediate = true)

include h

/-- The commit leaves the state and the generation of the candidate. -/
theorem CutsOver.committed {granted : ModelVersionRecord}
    (hgranted : ((s.prepared request record).grantAuthority
      (request.grant promotion generation)).1.versionOf request.model request.candidate =
        some granted) :
    ∃ after, (s.promote c request).1.versionOf request.model request.candidate = some after ∧
      after.state = granted.state ∧ after.generation = granted.generation := by
  rw [h.state, versionOf_commitPromotion, hgranted]
  simp only [and_self, if_true, Option.map_some]
  exact ⟨_, rfl, rfl, rfl⟩

include himmediate

/-- The grant of an immediate promotion is asked for a current candidate. -/
theorem CutsOver.current_prepared :
    (record.advanceLifecycleTo request.targetState).1.state = .current := by
  have hadvanced := advanceDecision_prepared h.coherent h.gate h.stored
  rw [advanceDecision, versionOf_clearInflight h.coherent h.stored] at hadvanced
  dsimp only at hadvanced
  rw [ModelVersionRecord.advanceLifecycleTo_allowed] at hadvanced
  rw [ModelVersionRecord.advanceLifecycleTo_state hadvanced, PromotionRequest.targetState,
    if_pos himmediate]

/-- A candidate that displaces another version, or nothing, ends current. -/
theorem CutsOver.ends_current
    (hother : ∀ holder, (s.prepared request record).holderOf request.scope = some holder →
      holder.ofVersion request.model request.candidate = false) :
    ∃ after, (s.promote c request).1.versionOf request.model request.candidate = some after ∧
      after.state = .current ∧ after.generation = record.generation := by
  have hgeneration := advance_generation record request.targetState
  have hstate := h.current_prepared himmediate
  suffices hgranted : ((s.prepared request record).grantAuthority
      (request.grant promotion generation)).1.versionOf request.model request.candidate =
        some (record.advanceLifecycleTo request.targetState).1 by
    obtain ⟨after, hafter, hkept, hsame⟩ := h.committed hgranted
    exact ⟨after, hafter, hkept.trans hstate, hsame.trans hgeneration⟩
  cases hholder : (s.prepared request record).holderOf request.scope with
  | none =>
    have hversions := (grantAuthority_admitted h.coherent_prepared h.standing_prepared
      h.admitted).2.versions hholder
    rw [versionOf, hversions]
    exact h.stored_prepared
  | some holder =>
    obtain ⟨t, hversions, _, hdemoted⟩ := grantAuthority_demotes h.coherent_prepared
      h.standing_prepared h.admitted hholder
    have hne : ¬(request.model = holder.model ∧ request.candidate = holder.version) := by
      rintro ⟨hmodel, hversion⟩
      have hown := hother holder hholder
      rw [AuthorityBinding.ofVersion, hmodel, hversion] at hown
      simp at hown
    rw [versionOf, hdemoted]
    refine (versionOf_demoteDisplaced_of_ne hne).trans ?_
    rw [versionOf, hversions]
    exact h.stored_prepared

/-- A candidate that displaces itself ends partially promoted: it holds the scope again by
the time what it displaced is demoted. -/
theorem CutsOver.ends_demoted {holder : AuthorityBinding}
    (hholder : (s.prepared request record).holderOf request.scope = some holder)
    (hown : holder.ofVersion request.model request.candidate = true) :
    ∃ after, (s.promote c request).1.versionOf request.model request.candidate = some after ∧
      after.state = .partiallyPromoted := by
  obtain ⟨t, hversions, hauthority, hdemoted⟩ := grantAuthority_demotes h.coherent_prepared
    h.standing_prepared h.admitted hholder
  obtain ⟨hmodel, hversion⟩ := AuthorityBinding.ofVersion_iff.mp hown
  have hstored : t.versionOf request.model request.candidate =
      some (record.advanceLifecycleTo request.targetState).1 := by
    rw [versionOf, hversions]
    exact h.stored_prepared
  have hholds : t.holdsLiveAuthority request.model request.candidate false = true := by
    obtain ⟨granted, retained, hgrants, _, hlist⟩ := h.list
    obtain ⟨hlive, hkind⟩ := AuthorityBinding.isLiveExclusive_iff.mp hgrants.exclusive
    rw [h.state, authority_commitPromotion, ← hauthority] at hlist
    rw [holdsLiveAuthority, List.any_eq_true]
    refine ⟨granted, ?_, by simp [hlive, hkind]⟩
    rw [bindingsForVersion, List.mem_filter]
    refine ⟨mem_allBindings_iff.mpr ⟨request.scope, ?_⟩, hgrants.own⟩
    rw [hlist]
    exact List.mem_append_right _ List.mem_cons_self
  obtain ⟨demoted, hafter, hstate⟩ :=
    versionOf_demoteDisplaced_holding hholds hstored (h.current_prepared himmediate)
  rw [hmodel, hversion] at hdemoted
  have hgranted : ((s.prepared request record).grantAuthority
      (request.grant promotion generation)).1.versionOf request.model request.candidate =
        some demoted := by
    rw [versionOf, hdemoted]
    exact hafter
  obtain ⟨after, hcommitted, hkept, _⟩ := h.committed hgranted
  exact ⟨after, hcommitted, hkept.trans hstate⟩

end Candidate

/-- An accepted immediate promotion leaves its candidate current exactly when the candidate
did not hold the scope already, other than by a rollout that the promotion supersedes. -/
theorem promoted_current_iff (hs : ReachableState c s)
    (hallowed : (s.promote c request).2.decision.allowed = true)
    (himmediate : request.immediate = true) :
    (∃ after, (s.promote c request).1.versionOf request.model request.candidate = some after ∧
      after.state = .current) ↔
      ∀ holder, HoldsExclusively s request.scope holder →
        holder.ofVersion request.model request.candidate = true →
          s.withdraws request holder = true := by
  obtain ⟨record, promotion, generation, h⟩ :=
    cutsOver hs.coherent hs.standing hallowed himmediate
  have hdisplaced : ∀ holder, (s.prepared request record).holderOf request.scope = some holder ↔
      HoldsExclusively s request.scope holder ∧ s.withdraws request holder = false :=
    fun _ => holderOf_prepared_iff hs.singleHolder h.model h.version
  constructor
  · rintro ⟨after, hafter, hcurrent⟩ holder hholds hown
    by_contra hkept
    have hholder := (hdisplaced holder).mpr ⟨hholds, by simpa using hkept⟩
    obtain ⟨demoted, hdemoted, hstate⟩ := h.ends_demoted himmediate hholder hown
    obtain rfl := Option.some.inj (hafter.symm.trans hdemoted)
    rw [hcurrent] at hstate
    cases hstate
  · intro hfree
    obtain ⟨after, hafter, hstate, _⟩ := h.ends_current himmediate fun holder hholder => by
      obtain ⟨hholds, hkept⟩ := (hdisplaced holder).mp hholder
      by_contra hown
      rw [hfree holder hholds (by simpa using hown)] at hkept
      cases hkept
    exact ⟨after, hafter, hstate⟩

/-! ### A promotion of the holder -/

/-- The promotion of the one version into the root scope. -/
def promoteRoot : PromotionRequest where
  model := ⟨1⟩
  candidate := ⟨1⟩
  scope := ⟨1⟩
  environmentKey := [101]
  requestImmediateCutover := true

/-- A version is registered with its compatibility published. -/
def readyVersion : List Operation :=
  [.registerModel [109] [] .synthetic,
    .registerVersion
      { model := ⟨1⟩, label := [49]
        artifact := { setId := ⟨1⟩, generation := ⟨1⟩, digest := [97] } },
    .publishCompatibility ⟨1⟩ { key := [101] } .compatible [] .synthetic]

/-- The version is promoted, and has to be revalidated while it holds the scope. -/
def revalidatedHolder : List Operation :=
  readyVersion ++
    [.promote promoteRoot, .revalidate { model := ⟨1⟩, version := ⟨1⟩ },
      .publishCompatibility ⟨1⟩ { key := [101] } .compatible [] .synthetic]

theorem promoted_current_witness :
    (∃ after, ((runOps {} (init {}) readyVersion).promote {} promoteRoot).1.versionOf
        promoteRoot.model promoteRoot.candidate = some after ∧ after.state = .current) ↔
      ∀ holder, HoldsExclusively (runOps {} (init {}) readyVersion) promoteRoot.scope holder →
        holder.ofVersion promoteRoot.model promoteRoot.candidate = true →
          (runOps {} (init {}) readyVersion).withdraws promoteRoot holder = true := by
  have hs : ReachableState {} (runOps {} (init {}) readyVersion) := ⟨readyVersion, rfl⟩
  refine promoted_current_iff hs ?_ rfl
  decide +kernel

/-- The holder that is promoted again ends partially promoted. -/
theorem promoted_holder_not_current :
    ((runOps {} (init {}) revalidatedHolder).promote {} promoteRoot).2.decision.allowed = true ∧
      promoteRoot.immediate = true ∧
      ¬∃ after, ((runOps {} (init {}) revalidatedHolder).promote {} promoteRoot).1.versionOf
        promoteRoot.model promoteRoot.candidate = some after ∧ after.state = .current := by
  have hstate : (((runOps {} (init {}) revalidatedHolder).promote {} promoteRoot).1.versionOf
      promoteRoot.model promoteRoot.candidate).map ModelVersionRecord.state =
        some .partiallyPromoted := by
    decide +kernel
  refine ⟨by decide +kernel, by decide, ?_⟩
  rintro ⟨after, hafter, hcurrent⟩
  rw [hafter, Option.map_some, hcurrent] at hstate
  cases hstate

end LifecycleFabric
