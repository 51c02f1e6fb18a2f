import LifecycleFabric.Engine.ActiveGenerations
import LifecycleFabric.Properties.CommitLists
import LifecycleFabric.Properties.Query

/-!
# The scopes of a committed stage

What an accepted commit leaves of the list of each scope of its stage: the holder is
superseded, the candidate holds the scope, a holder the plan named is retained, what the
plan replaces drains, and canaries of the next stage may follow.
-/

namespace LifecycleFabric

open EngineState AuthorityTable

variable {c : EngineConfig} {s : EngineState} {plan : RolloutPlan}

/-- A version has a live binding of a kind in a list. -/
def HeldIn (bindings : List AuthorityBinding) (model : ModelId) (version : ModelVersionId)
    (kind : AuthorityKind) : Prop :=
  ∃ b ∈ bindings, b.live = true ∧ b.ofVersion model version = true ∧ b.kind = kind

/-- A version holds a scope by a live binding of a kind. -/
def EngineState.Holds (s : EngineState) (scope : ScopeId) (model : ModelId)
    (version : ModelVersionId) (kind : AuthorityKind) : Prop :=
  HeldIn (s.authority.bindingsFor scope) model version kind

/-- A version that holds a scope by a kind has a live binding of it. -/
theorem holdsKind_of_holds {scope : ScopeId} {record : ModelVersionRecord} {kind : AuthorityKind}
    {kinds : List AuthorityKind} (h : s.Holds scope record.model record.version kind)
    (hkind : kind ∈ kinds) : s.holdsKind record kinds = true := by
  obtain ⟨b, hb, hlive, hown, rfl⟩ := h
  rw [holdsKind, List.any_eq_true]
  refine ⟨b, ?_, ?_⟩
  · rw [bindingsForVersion, List.mem_filter]
    exact ⟨mem_allBindings_iff.mpr ⟨scope, hb⟩, hown⟩
  · rw [hlive, Bool.true_and]
    exact List.contains_iff_mem.mpr hkind

/-- Whether the plan names the holder of a scope as the generation to retain. -/
def EngineState.retainsHolder (s : EngineState) (plan : RolloutPlan) (scope : ScopeId) : Bool :=
  (s.holderOf scope).any
    (isRetentionTarget (stageGrant plan plan.currentStage .exclusive true scope))

/-- What the commit of a stage makes of each binding of a scope it granted. -/
def EngineState.stageDrain (s : EngineState) (plan : RolloutPlan) :
    AuthorityBinding → AuthorityBinding :=
  if s.drainsStage plan then drain plan.model plan.previous else id

/-- What an accepted commit leaves of the list of a scope of its stage. -/
structure StageLeaves (s : EngineState) (plan : RolloutPlan) (scope : ScopeId)
    (after : List AuthorityBinding) : Prop where
  list : ∃ (granted : AuthorityBinding) (retained canaries : List AuthorityBinding),
    granted.isLiveExclusive = true ∧ granted.held = s.heldBy plan.model plan.candidate ∧
      (∀ b ∈ retained, b.kind = .rollbackRetained) ∧
      (s.retainsHolder plan scope = false → retained = []) ∧ (∀ b ∈ canaries, b.kind = .canary) ∧
      after = (supersedeFirstExclusive (s.authority.bindingsFor scope) ++
        granted :: retained).map (s.stageDrain plan) ++ canaries
  retained : ∀ holder, s.holderOf scope = some holder → s.retainsHolder plan scope = true →
    ∃ b ∈ after, b.live = true ∧ b.kind = .rollbackRetained ∧ b.model = holder.model ∧
      b.version = holder.version

/-! ## One scope -/

theorem live_supersedeFirstExclusive {bindings : List AuthorityBinding} {b : AuthorityBinding}
    (hb : b ∈ supersedeFirstExclusive bindings) (hlive : b.live = true) : b ∈ bindings := by
  induction bindings with
  | nil => exact hb
  | cons head rest ih =>
    rw [supersedeFirstExclusive] at hb
    split_ifs at hb
    · rcases List.mem_cons.mp hb with rfl | hb
      · cases hlive
      · exact List.mem_cons_of_mem head hb
    · rcases List.mem_cons.mp hb with rfl | hb
      · exact List.mem_cons_self
      · exact List.mem_cons_of_mem head (ih hb)

theorem mem_supersedeFirstExclusive {bindings : List AuthorityBinding} {b : AuthorityBinding}
    (hb : b ∈ bindings) (hshared : b.isLiveExclusive = false) :
    b ∈ supersedeFirstExclusive bindings := by
  induction bindings with
  | nil => exact hb
  | cons head rest ih =>
    rw [supersedeFirstExclusive]
    split_ifs with hhead
    · rcases List.mem_cons.mp hb with rfl | hb
      · exact absurd (hshared.symm.trans hhead) Bool.false_ne_true
      · exact List.mem_cons_of_mem _ hb
    · rcases List.mem_cons.mp hb with rfl | hb
      · exact List.mem_cons_self
      · exact List.mem_cons_of_mem head (ih hb)

/-- Where one binding holds a scope exclusively, none does once it is superseded. -/
theorem not_exclusive_supersedeFirst {bindings : List AuthorityBinding}
    (hone : bindings.countP AuthorityBinding.isLiveExclusive ≤ 1) {b : AuthorityBinding}
    (hb : b ∈ supersedeFirstExclusive bindings) : b.isLiveExclusive = false := by
  have hnone : (supersedeFirstExclusive bindings).countP AuthorityBinding.isLiveExclusive = 0 := by
    rw [countP_supersedeFirstExclusive]
    omega
  simpa using List.countP_eq_zero.mp hnone b hb

theorem stageDrain_kept (s : EngineState) (plan : RolloutPlan) (b : AuthorityBinding) :
    (s.stageDrain plan b).live = b.live ∧
      ∀ model version, (s.stageDrain plan b).ofVersion model version = b.ofVersion model version := by
  unfold stageDrain
  split_ifs
  · rw [drain]
    split_ifs
    · exact ⟨rfl, fun _ _ => rfl⟩
    · exact ⟨rfl, fun _ _ => rfl⟩
  · exact ⟨rfl, fun _ _ => rfl⟩

theorem stageDrain_retained {b : AuthorityBinding} (h : b.kind = .rollbackRetained) :
    s.stageDrain plan b = b := by
  unfold stageDrain
  split_ifs
  · rw [drain, if_neg]
    rintro ⟨_, _, _, hserving⟩
    exact hserving h
  · rfl

theorem bindingsFor_drained (plan : RolloutPlan) (scope : ScopeId) {t u : EngineState}
    (hpolicy : t.policy = s.policy) (h : u = drainPrevious plan plan.currentStage scope t) :
    u.authority.bindingsFor scope = (t.authority.bindingsFor scope).map (s.stageDrain plan) := by
  have hsame : t.drainsStage plan = s.drainsStage plan := by
    rw [drainsStage, hpolicy, drainsStage]
  rw [h, bindingsFor_drainPrevious, hsame, stageDrain]
  cases s.drainsStage plan with
  | true => rw [if_pos ⟨rfl, rfl⟩, if_pos rfl]
  | false =>
    rw [if_neg fun hdrains => Bool.false_ne_true hdrains.1, if_neg Bool.false_ne_true, List.map_id]

theorem heldBy_drainPrevious (plan : RolloutPlan) (stage : StageDefinition) (scope : ScopeId)
    (t : EngineState) (model : ModelId) (version : ModelVersionId) :
    (drainPrevious plan stage scope t).heldBy model version = t.heldBy model version := by
  unfold drainPrevious
  dsimp only
  split
  · split
    · rfl
    · split
      · rfl
      · exact heldBy_advanceVersion _ plan.model plan.previous .draining
  · rfl

/-- An accepted commit leaves in each scope of its stage what the grant of that scope left,
drained, and canaries of the next stage. -/
theorem commit_leaves (hs : Coherent s) (hstanding : Standing s) {request : RolloutProgressRequest}
    (h : s.commit request = some plan) (hallowed : (s.advanceStage request).2.allowed = true)
    {scope : ScopeId} (hscope : scope ∈ plan.stageScopes plan.currentStage) :
    StageLeaves s plan scope ((s.advanceStage request).1.authority.bindingsFor scope) := by
  have hfits := (commit_spec hs hstanding h).1
  rw [hallowed, fitsCommit] at hfits
  have hgrants : (s.commitGrants request.rollout plan).2.allowed = true := by
    rw [(commitGrants_spec hs hstanding h).1]
    exact (Bool.and_eq_true _ _ ▸ hfits.symm).1
  have hstart := (steady_advancedState hs hstanding h).1
  have hheld : (s.advancedState request.rollout).heldBy plan.model plan.candidate =
      s.heldBy plan.model plan.candidate := by
    unfold heldBy versionOf
    rw [advancedState_versions]
  obtain ⟨u, hu, hgeneration, hlist, hadmitted, hlast⟩ := grantOver_at (fun _ => rfl)
    (fun scope t ht => namesStored_commit hs hstanding h scope t ht)
    (fun scope t ht => ht.chain (chain_drainPrevious (c := {}) (p := Permit.still fun _ => True)
      plan plan.currentStage scope t) fun _ hedits => hedits)
    (P := fun t => t.heldBy plan.model plan.candidate = s.heldBy plan.model plan.candidate)
    (fun next t _ hsame => by rw [heldBy_drainPrevious, heldBy_grantAuthority, hsame])
    (fun next other t hne => by rw [bindingsFor_drainPrevious, if_neg fun hcontra => hne hcontra.2])
    (nodup_stageScopes plan plan.currentStage) hscope hstart hheld hgrants
  have hbefore : u.authority.bindingsFor scope = s.authority.bindingsFor scope := by
    rw [hlist, advancedState_authority]
  obtain ⟨canaries, hcommitted, hcanaries⟩ := bindingsFor_commit hs hstanding h scope
  rw [grantAuthority_allowed hu.coherent hu.standing] at hadmitted
  have hgranted := (grantAuthority_admitted hu.coherent hu.standing hadmitted).2
  have hpolicy := (hu.grant (namesStored_commit hs hstanding h scope u hu.plans)).policy.trans
    (advancedState_policy s request.rollout)
  have hdrained := bindingsFor_drained (s := s) plan scope hpolicy rfl
  have hholder : (stageGrant (s.committedPlan plan) plan.currentStage .exclusive true
      scope).displaces u = s.holderOf scope := by
    rw [GrantRequest.displaces, holderOf, holderOf]
    exact (if_pos rfl).trans (congrArg (List.find? _) hbefore)
  have hretains : (stageGrant (s.committedPlan plan) plan.currentStage .exclusive true
      scope).retains u = s.retainsHolder plan scope := by
    rw [GrantRequest.retains, hholder]
    rfl
  rw [hcommitted]
  unfold commitGrants
  rw [hlast, hdrained]
  constructor
  · obtain ⟨record, scopeRecord, retained, hrecord, _, hlength, hretained, hself⟩ :=
      hgranted.bindingsFor_placed
    obtain ⟨hmodel, hversion⟩ := versionKey_inj.mp (hu.coherent.versions _ record hrecord)
    refine ⟨u.bumpSequence.grantedBinding (stageGrant (s.committedPlan plan) plan.currentStage
      .exclusive true scope) record scopeRecord.generation, retained, canaries, rfl, ?_, hretained,
      ?_, hcanaries, ?_⟩
    · rw [← hgeneration, heldBy]
      have hstored : u.versionOf plan.model plan.candidate = some record := hrecord
      rw [hstored]
      exact Prod.ext hmodel.symm (Prod.ext hversion.symm rfl)
    · intro hnone
      rw [hretains, hnone] at hlength
      exact List.length_eq_zero_iff.mp hlength
    · have hhere : ((u.grantAuthority (stageGrant (s.committedPlan plan) plan.currentStage
          .exclusive true scope)).1.authority.bindingsFor scope) = _ := hself
      rw [hhere]
      have hkept : (stageGrant (s.committedPlan plan) plan.currentStage .exclusive true
          scope).keeps (u.authority.bindingsFor scope) =
            supersedeFirstExclusive (s.authority.bindingsFor scope) := by
        rw [hbefore]
        rfl
      exact congrArg (fun kept => (kept ++ _ :: retained).map (s.stageDrain plan) ++ canaries) hkept
  · intro holder hfound htarget
    obtain ⟨b, hb, hlive, hkind, hmodel, hversion⟩ := hgranted.retained holder
      (hholder.trans hfound) (by rw [retainsHolder, hfound] at htarget; exact htarget)
    refine ⟨b, List.mem_append_left _ (List.mem_map.mpr ⟨b, hb, ?_⟩), hlive, hkind, hmodel, hversion⟩
    exact stageDrain_retained hkind

end LifecycleFabric
