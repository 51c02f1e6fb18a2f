import LifecycleFabric.Properties.Cutovers

/-!
# The bindings after a cutover

An accepted immediate promotion makes its candidate the answer of the scope. It supersedes
the binding it displaces and retains its version exactly when the request names that version
as the one to roll back to. In the other scopes it withdraws what the rollouts it supersedes
granted, and nothing else.
-/

namespace LifecycleFabric

open EngineState AuthorityTable

variable {c : EngineConfig} {s t : EngineState} {request : PromotionRequest}
  {record : ModelVersionRecord} {promotion : PromotionId} {generation : PromotionGeneration}
  {scope : ScopeId} {bindings : List AuthorityBinding}

/-! ## The statement -/

/-- The grant of a promotion displaces the holder of the scope, unless the binding was
withdrawn with its rollout before. -/
def EngineState.displacedBy (s : EngineState) (request : PromotionRequest)
    (holder : AuthorityBinding) : Prop :=
  HoldsExclusively s request.scope holder ∧ s.withdraws request holder = false

/-- A promotion names the version of a binding as the one to roll back to, at the generation
of the binding if it names one. -/
def PromotionRequest.namesTarget (request : PromotionRequest) (holder : AuthorityBinding) :
    Prop :=
  request.rollbackTarget = holder.version ∧
    (request.rollbackTargetGeneration.valid = true →
      request.rollbackTargetGeneration = holder.modelGeneration)

/-- A binding of another scope is as it was, or withdrawn with a rollout in flight of the
model that the promotion superseded. -/
def WithdrawnWithRollout (s t : EngineState) (request : PromotionRequest)
    (before after : AuthorityBinding) : Prop :=
  after = before ∨ after = before.supersede ∧
    ∃ key plan plan', s.rollouts.get? key = some plan ∧ plan.live = true ∧
      plan.model = request.model ∧ before.ofPlan plan = true ∧
      t.rollouts.get? key = some plan' ∧ plan'.superseded = true

/-- What a cutover leaves. -/
structure CutoverLeaves (s t : EngineState) (request : PromotionRequest) : Prop where
  /-- The query of the scope answers the candidate at its current generation. -/
  answers : ∃ binding record, (t.queryAuthority request.scope).outcome = .ok ∧
    (t.queryAuthority request.scope).binding = some binding ∧
    binding.ofVersion request.model request.candidate = true ∧
    t.versionOf request.model request.candidate = some record ∧
    binding.modelGeneration = record.generation
  /-- What held the scope exclusively is superseded in its place. -/
  displaced : ∀ (i : ℕ) (holder : AuthorityBinding),
    (s.authority.bindingsFor request.scope)[i]? = some holder → holder.isLiveExclusive = true →
      (t.authority.bindingsFor request.scope)[i]? = some holder.supersede
  /-- The displaced version is retained if it is the named one and may serve. -/
  retained : ∀ holder, s.displacedBy request holder →
    ((∃ b ∈ s.appended t request.scope, b.RetainsFor holder) ↔
      request.namesTarget holder ∧ s.mayServe holder.model holder.version = true)
  /-- What else is appended is the binding of the candidate. -/
  appended : ∀ b ∈ s.appended t request.scope,
    b.isLiveExclusive = true ∧ b.ofVersion request.model request.candidate = true ∨
      ∃ holder, s.displacedBy request holder ∧ b.RetainsFor holder
  elsewhere : ∀ scope, scope ≠ request.scope →
    List.Forall₂ (WithdrawnWithRollout s t request) (s.authority.bindingsFor scope)
      (t.authority.bindingsFor scope)

/-! ## The list of the scope -/

/-- Where at most one binding is live and exclusive, superseding the first supersedes all. -/
theorem supersedeFirstExclusive_eq_map
    (hone : bindings.countP AuthorityBinding.isLiveExclusive ≤ 1) :
    supersedeFirstExclusive bindings =
      bindings.map fun b => if b.isLiveExclusive then b.supersede else b := by
  induction bindings with
  | nil => rfl
  | cons head rest ih =>
    rw [List.countP_cons] at hone
    rw [supersedeFirstExclusive, List.map_cons]
    by_cases hhead : head.isLiveExclusive = true
    · rw [if_pos hhead] at hone
      have hnone : rest.countP AuthorityBinding.isLiveExclusive = 0 := by omega
      have hrest : ∀ b ∈ rest, (if b.isLiveExclusive then b.supersede else b) = b := by
        intro b hb
        exact if_neg (List.countP_eq_zero.mp hnone b hb)
      rw [if_pos hhead, if_pos hhead, List.map_congr_left hrest, List.map_id']
    · rw [if_neg hhead, ih (by omega), if_neg hhead]

section Cutover

variable (h : CutsOver c s request record promotion generation) (hsingle : SingleHolder s)

include h

/-- What the promotion leaves of the bindings that were there. -/
theorem CutsOver.kept_length :
    (supersedeFirstExclusive
      ((s.prepared request record).authority.bindingsFor request.scope)).length =
        (s.authority.bindingsFor request.scope).length := by
  rw [length_supersedeFirstExclusive, bindingsFor_prepared h.model h.version, List.length_map]

/-- The candidate holds the scope after the promotion, at its generation. -/
theorem CutsOver.holds :
    ∃ binding after, HoldsExclusively (s.promote c request).1 request.scope binding ∧
      binding.ofVersion request.model request.candidate = true ∧
      (s.promote c request).1.versionOf request.model request.candidate = some after ∧
      binding.modelGeneration = after.generation := by
  obtain ⟨granted, retained, hgrants, _, hlist⟩ := h.list
  obtain ⟨hlive, hkind⟩ := AuthorityBinding.isLiveExclusive_iff.mp hgrants.exclusive
  obtain ⟨after, hafter, hsame⟩ := h.keepsContent.stored h.stored
  refine ⟨granted, after, ⟨?_, hkind⟩, hgrants.own, hafter,
    hgrants.generation.trans hsame.generation.symm⟩
  rw [mem_liveBindingsFor, hlist]
  exact ⟨List.mem_append_right _ List.mem_cons_self, hlive⟩

/-- The grant of the promotion touches no plan. -/
theorem CutsOver.rollouts :
    (s.promote c request).1.rollouts = (s.clearInflight request record).rollouts := by
  have hnames : (request.grant promotion generation).NamesStored (s.prepared request record) := by
    intro plan hplan
    cases hplan
  have hgrant := (grantAuthority_progresses (c := {}) (p := Permit.still fun _ => True)
    h.coherent_prepared _ hnames fun _ _ => trivial).chain
  have hcommit : ∀ t : EngineState,
      (t.commitPromotion request promotion generation).rollouts = t.rollouts := fun _ => rfl
  have hadvance : (s.prepared request record).rollouts =
      (s.clearInflight request record).rollouts := rfl
  rw [h.state, hcommit, hgrant.rollouts_eq fun _ hedits => hedits, hadvance]

/-- The scope of the promotion is registered. -/
theorem CutsOver.registered :
    ((s.promote c request).1.scopes.find request.scope).isSome = true := by
  have hgranted := (grantAuthority_admitted h.coherent_prepared h.standing_prepared h.admitted).2
  obtain ⟨_, _, _, hregistered, _⟩ := GrantRequest.admitted_iff.mp h.admitted
  have hcommit : ∀ t : EngineState,
      (t.commitPromotion request promotion generation).scopes = t.scopes := fun _ => rfl
  rw [h.state, hcommit, hgranted.scopes, ScopeRegistry.find_touch, Option.isSome_map]
  exact hregistered

/-- A plan that the promotion overtakes is superseded after it. -/
theorem CutsOver.overtaken {key : UInt64} {plan : RolloutPlan}
    (hplan : s.rollouts.get? key = some plan) (hovertaken : s.overtakes request plan = true) :
    ∃ after, (s.promote c request).1.rollouts.get? key = some after ∧
      after.superseded = true := by
  obtain ⟨updated, hmarked⟩ := plan_clearInflight h.model h.version hplan
  rw [if_pos hovertaken] at hmarked
  rw [h.rollouts, hmarked]
  exact ⟨_, rfl, rfl⟩

/-- The promotion withdraws in another scope what the rollouts it overtakes granted. -/
theorem CutsOver.bindingsFor_of_ne (hne : scope ≠ request.scope) :
    (s.promote c request).1.authority.bindingsFor scope =
      (s.authority.bindingsFor scope).map fun b =>
        if s.withdraws request b then b.supersede else b := by
  have hgranted := (grantAuthority_admitted h.coherent_prepared h.standing_prepared h.admitted).2
  rw [h.state, authority_commitPromotion, hgranted.bindingsFor_of_ne hne,
    bindingsFor_prepared h.model h.version]

/-- In another scope, what a superseded rollout granted is withdrawn, and nothing else. -/
theorem CutsOver.elsewhere (hne : scope ≠ request.scope) :
    List.Forall₂ (WithdrawnWithRollout s (s.promote c request).1 request)
      (s.authority.bindingsFor scope) ((s.promote c request).1.authority.bindingsFor scope) := by
  rw [h.bindingsFor_of_ne hne, List.forall₂_map_right_iff, List.forall₂_same]
  intro b _
  by_cases hwithdrawn : s.withdraws request b = true
  · obtain ⟨key, plan, hplan, hovertaken, hown⟩ := withdraws_iff.mp hwithdrawn
    obtain ⟨after, hafter, hsuperseded⟩ := h.overtaken hplan hovertaken
    simp only [EngineState.overtakes, Bool.and_eq_true, decide_eq_true_eq] at hovertaken
    obtain ⟨_, ⟨hlive, hmodel⟩, _⟩ := hovertaken
    rw [if_pos hwithdrawn]
    exact Or.inr ⟨rfl, key, plan, after, hplan, hlive, hmodel, hown, hafter, hsuperseded⟩
  · rw [if_neg hwithdrawn]
    exact Or.inl rfl

include hsingle

theorem CutsOver.displaced_iff {holder : AuthorityBinding} :
    (s.prepared request record).holderOf request.scope = some holder ↔
      s.displacedBy request holder :=
  holderOf_prepared_iff hsingle h.model h.version

/-- The grant retains the displaced binding of the version that the request names. -/
theorem CutsOver.isRetentionTarget_iff {holder : AuthorityBinding}
    (hholder : s.displacedBy request holder) :
    isRetentionTarget (request.grant promotion generation) holder = true ↔
      request.namesTarget holder := by
  have hstands := displaces_stands h.standing_prepared
    ((displaces_grant _ request promotion generation).trans ((h.displaced_iff hsingle).mpr hholder))
  obtain ⟨_, hvalid, _⟩ := malformed_eq_none_iff.mp hstands.1
  unfold isRetentionTarget PromotionRequest.namesTarget PromotionRequest.grant
  simp only [Bool.and_eq_true, Bool.or_eq_true, decide_eq_true_eq, Bool.not_eq_true']
  constructor
  · rintro ⟨⟨_, hversion⟩, hgeneration⟩
    refine ⟨hversion, fun hgiven => ?_⟩
    rcases hgeneration with hnone | hsame
    · rw [hgiven] at hnone
      cases hnone
    · exact hsame
  · rintro ⟨hversion, hgeneration⟩
    refine ⟨⟨hversion ▸ hvalid, hversion⟩, ?_⟩
    cases hgiven : request.rollbackTargetGeneration.valid with
    | false => exact Or.inl rfl
    | true => exact Or.inr (hgeneration hgiven)

theorem CutsOver.displaced_superseded {i : ℕ} {holder : AuthorityBinding}
    (hi : (s.authority.bindingsFor request.scope)[i]? = some holder)
    (hexclusive : holder.isLiveExclusive = true) :
    ((s.promote c request).1.authority.bindingsFor request.scope)[i]? =
      some holder.supersede := by
  obtain ⟨granted, retained, _, _, hlist⟩ := h.list
  obtain ⟨hlt, _⟩ := List.getElem?_eq_some_iff.mp hi
  have hone : ((s.prepared request record).authority.bindingsFor request.scope).countP
      AuthorityBinding.isLiveExclusive ≤ 1 := singleHolder_prepared hsingle request.scope
  rw [hlist, List.getElem?_append_left (by rw [h.kept_length]; exact hlt),
    supersedeFirstExclusive_eq_map hone, bindingsFor_prepared h.model h.version, List.map_map,
    List.getElem?_map, hi, Option.map_some, Function.comp_apply]
  congr 1
  by_cases hwithdrawn : s.withdraws request holder = true
  · rw [if_pos hwithdrawn]
    exact if_neg Bool.false_ne_true
  · rw [if_neg hwithdrawn, if_pos hexclusive]

/-- What the promotion appends to the list of the scope. -/
theorem CutsOver.appended :
    ∃ granted retained, request.Grants record granted ∧
      (∀ b ∈ retained, ∃ holder, s.displacedBy request holder ∧ request.namesTarget holder ∧
        b.RetainsFor holder) ∧
      (∀ holder, s.displacedBy request holder → request.namesTarget holder →
        ∃ b ∈ retained, b.RetainsFor holder) ∧
      s.appended (s.promote c request).1 request.scope = granted :: retained := by
  obtain ⟨granted, retained, hgrants, hretained, hlist⟩ := h.list
  refine ⟨granted, retained, hgrants, ?_, ?_, ?_⟩
  · intro b hb
    obtain ⟨i, hi, rfl⟩ := List.mem_iff_getElem.mp hb
    have hi' := hretained.length_eq ▸ hi
    have hretains := hretained.get hi' hi
    have hmem := List.getElem_mem hi'
    rw [List.mem_filter, Option.mem_toList, h.displaced_iff hsingle] at hmem
    exact ⟨_, hmem.1, (h.isRetentionTarget_iff hsingle hmem.1).mp hmem.2, hretains⟩
  · intro holder hholder hnamed
    have hmem : holder ∈ ((s.prepared request record).holderOf request.scope).toList.filter
        (isRetentionTarget (request.grant promotion generation)) := by
      rw [List.mem_filter, Option.mem_toList, h.displaced_iff hsingle]
      exact ⟨hholder, (h.isRetentionTarget_iff hsingle hholder).mpr hnamed⟩
    obtain ⟨i, hi, rfl⟩ := List.mem_iff_getElem.mp hmem
    have hi' := hretained.length_eq ▸ hi
    exact ⟨_, List.getElem_mem hi', hretained.get hi hi'⟩
  · rw [EngineState.appended, hlist, ← h.kept_length, List.drop_left']
    rfl

end Cutover

/-- After every accepted immediate promotion the query of the scope answers the candidate,
the displaced binding is superseded, its version is retained exactly when the request names
it, and the other scopes lose only what superseded rollouts of the model granted. -/
theorem cutover_leaves (hs : ReachableState c s)
    (hallowed : (s.promote c request).2.decision.allowed = true)
    (himmediate : request.immediate = true) :
    CutoverLeaves s (s.promote c request).1 request := by
  obtain ⟨record, promotion, generation, h⟩ :=
    cutsOver hs.coherent hs.standing hallowed himmediate
  obtain ⟨granted, retained, hgrants, hretained, hnamed, happended⟩ :=
    h.appended hs.singleHolder
  constructor
  · have ht : ReachableState c (s.promote c request).1 :=
      Runs.Reachable.run (step c) hs [.promote request]
    obtain ⟨binding, after, hholds, hbinding, hafter, hgeneration⟩ := h.holds
    obtain ⟨scopeRecord, hfound⟩ := Option.isSome_iff_exists.mp h.registered
    obtain ⟨hok, hanswer⟩ := ((query_agrees_with_reference c _ ht request.scope h.registered).1
      binding).mp (.held hfound hholds)
    exact ⟨binding, after, hok, hanswer, hbinding, hafter, hgeneration⟩
  · exact fun i holder hi hholder => h.displaced_superseded hs.singleHolder hi hholder
  · intro holder hholder
    rw [happended]
    constructor
    · rintro ⟨b, hb, hretains⟩
      have hkept : b ∈ retained := by
        rcases List.mem_cons.mp hb with rfl | hb
        · have hkind := (AuthorityBinding.isLiveExclusive_iff.mp hgrants.exclusive).2
          rw [hretains.kind] at hkind
          cases hkind
        · exact hb
      obtain ⟨other, hother, hnames, _⟩ := hretained b hkept
      obtain rfl := holdsExclusively_unique hs.singleHolder hother.1 hholder.1
      obtain ⟨hmem, hlive⟩ := mem_liveBindingsFor.mp hholder.1.1
      obtain ⟨stored, hstored, _, hserves⟩ := (hs.standing.bindings _ _ hmem).served
      exact ⟨hnames, mayServe_iff.mpr ⟨stored, hstored, hserves hlive⟩⟩
    · rintro ⟨hnames, _⟩
      obtain ⟨b, hb, hretains⟩ := hnamed holder hholder hnames
      exact ⟨b, List.mem_cons_of_mem granted hb, hretains⟩
  · intro b hb
    rw [happended] at hb
    rcases List.mem_cons.mp hb with rfl | hb
    · exact Or.inl ⟨hgrants.exclusive, hgrants.own⟩
    · obtain ⟨holder, hholder, _, hretains⟩ := hretained b hb
      exact Or.inr ⟨holder, hholder, hretains⟩
  · exact fun scope hne => h.elsewhere hne

/-! ### A version taken over -/

/-- The first of two versions serves the root scope. -/
def firstOfTwo : List Operation :=
  [.registerModel [109] [] .synthetic,
    .registerVersion
      { model := ⟨1⟩, label := [49]
        artifact := { setId := ⟨1⟩, generation := ⟨1⟩, digest := [97] } },
    .registerVersion
      { model := ⟨1⟩, label := [50]
        artifact := { setId := ⟨1⟩, generation := ⟨1⟩, digest := [97] } },
    .publishCompatibility ⟨1⟩ { key := [101] } .compatible [] .synthetic,
    .publishCompatibility ⟨2⟩ { key := [101] } .compatible [] .synthetic,
    .promote
      { model := ⟨1⟩, candidate := ⟨1⟩, scope := ⟨1⟩, environmentKey := [101]
        requestImmediateCutover := true }]

/-- The promotion of the second version, with a version to roll back to. -/
def takeOver (target : ModelVersionId) : PromotionRequest where
  model := ⟨1⟩
  candidate := ⟨2⟩
  scope := ⟨1⟩
  rollbackTarget := target
  environmentKey := [101]
  requestImmediateCutover := true

theorem cutover_leaves_witness :
    CutoverLeaves (runOps {} (init {}) firstOfTwo)
      ((runOps {} (init {}) firstOfTwo).promote {} (takeOver ⟨1⟩)).1 (takeOver ⟨1⟩) := by
  have hs : ReachableState {} (runOps {} (init {}) firstOfTwo) := ⟨firstOfTwo, rfl⟩
  refine cutover_leaves hs ?_ rfl
  decide +kernel

end LifecycleFabric
