import LifecycleFabric.Engine.PartialGrants
import LifecycleFabric.Properties.AutomaticRollback
import LifecycleFabric.Properties.Completions
import LifecycleFabric.Properties.References
import LifecycleFabric.Properties.Supersessions

/-!
# Partial authority of ended plans

The entry of a stage grants its candidate canaries, which cite the plan. A plan that fails in
a stage, is superseded or is revised loses them all. One that completes keeps them, and one
that a rollback stops loses those of the scope of the rollback only.
-/

namespace LifecycleFabric

open EngineState AuthorityTable AuthorityBinding

variable {c : EngineConfig} {s t : EngineState} {plan : RolloutPlan} {key : UInt64}
  {added : AuthorityBinding → Prop}

/-! ## The statement -/

/-- A binding cites the plan that is stored under the rollout it names. -/
def EngineState.Cites (s : EngineState) (b : AuthorityBinding) (plan : RolloutPlan) : Prop :=
  b.rollout.valid = true ∧ s.rolloutOf b.rollout = some plan

/-- Every plan that a partial binding cites is live. -/
def PartialsServed (s : EngineState) : Prop :=
  ∀ scope, ∀ b ∈ s.authority.bindingsFor scope, b.isLivePartial = true →
    ∀ plan, s.Cites b plan → plan.live = true

/-- A binding that a commit of the current stage of a plan drains. -/
def EngineState.DrainsAt (s : EngineState) (plan : RolloutPlan) (scope : ScopeId)
    (b : AuthorityBinding) : Prop :=
  scope ∈ plan.stageScopes plan.currentStage ∧ s.drainsStage plan = true ∧
    b.ofVersion plan.model plan.previous = true

/-- An operation that completes a plan, or stops it by a rollback, finds no partial binding
of the plan that it would leave: a commit of the last stage drains them all, and a rollback
finds them in its own scope only. -/
def Operation.EndsClean (s : EngineState) : Operation → Prop
  | .advanceStage request =>
    ∀ plan, s.commit request = some plan → s.fitsCommit plan = true →
      plan.stages.length ≤ plan.currentStageIndex + 1 →
        ∀ scope, ∀ b ∈ s.authority.bindingsFor scope, b.isLivePartial = true →
          s.Cites b plan → s.DrainsAt plan scope b
  | .rollback request =>
    (s.evaluateRollback request).allowed = true → request.target.valid = true →
      request.rollout.valid = true → ∀ plan, s.rolloutOf request.rollout = some plan →
        plan.live = true → ∀ scope, ∀ b ∈ s.authority.bindingsFor scope,
          b.isLivePartial = true → s.Cites b plan → scope = request.scope
  | _ => True

/-! ## One step -/

/-- A plan that was live still is, or no partial binding of it is left. -/
def PartialsSettled (t : EngineState) (key : UInt64) (plan : RolloutPlan) : Prop :=
  ∀ after, t.rollouts.get? key = some after → after.live = true ∨
    ∀ scope, ∀ b ∈ t.authority.bindingsFor scope, b.rollout.valid = true →
      b.ofPlan plan = true → b.isLivePartial = false

theorem settled_of_live {after : RolloutPlan} (hafter : t.rollouts.get? key = some after)
    (hlive : after.live = true) : PartialsSettled t key plan := by
  intro found hfound
  obtain rfl := Option.some.inj (hafter.symm.trans hfound)
  exact Or.inl hlive

theorem settled_of_kept (h : t.rollouts.get? key = s.rollouts.get? key)
    (hplan : s.rollouts.get? key = some plan) (hlive : plan.live = true) :
    PartialsSettled t key plan :=
  settled_of_live (h.trans hplan) hlive

/-- A binding cites the plan that granted it. -/
theorem cited_of_referenced (hs : Coherent s) (href : Referenced s) {scope : ScopeId}
    {b : AuthorityBinding} (hb : b ∈ s.authority.bindingsFor scope)
    (hvalid : b.rollout.valid = true) :
    ∃ plan, s.Cites b plan ∧ b.ofPlan plan = true := by
  obtain ⟨plan, hplan, hgeneration⟩ := (href scope b hb).rollout hvalid
  have hid : plan.id = b.rollout := Ident.ext (hs.rollouts _ plan hplan)
  refine ⟨plan, ⟨hvalid, hplan⟩, ?_⟩
  rw [AuthorityBinding.ofPlan, hid, hgeneration, decide_eq_true rfl, decide_eq_true rfl]
  rfl

/-- The plan a binding names by its identity is the one it cites. -/
theorem cites_of_ofPlan (hs : Coherent s) (hplan : s.rollouts.get? key = some plan)
    {b : AuthorityBinding} (hvalid : b.rollout.valid = true) (hown : b.ofPlan plan = true) :
    s.Cites b plan := by
  rw [AuthorityBinding.ofPlan, Bool.and_eq_true, decide_eq_true_eq] at hown
  refine ⟨hvalid, ?_⟩
  rw [rolloutOf, hown.1, hs.rollouts key plan hplan]
  exact hplan

/-- What a step must show: what it adds cites live plans, and each live plan is settled. -/
theorem PartialsServed.next (hs : Coherent s) (href : Referenced s) (h : PartialsServed s)
    (hadds : AddsPartials added s t)
    (hadded : ∀ b plan, added b → t.Cites b plan → plan.live = true)
    (hsettled : ∀ key plan, s.rollouts.get? key = some plan → plan.live = true →
      PartialsSettled t key plan) : PartialsServed t := by
  intro scope b hb hshares after hafter
  rcases hadds scope b hb hshares with hold | hnew
  · obtain ⟨plan, hcites, hown⟩ := cited_of_referenced hs href hold hafter.1
    have hlive := h scope b hold hshares plan hcites
    rcases hsettled _ plan hcites.2 hlive after hafter.2 with hkept | hgone
    · exact hkept
    · have hnone := hgone scope b hb hafter.1 hown
      rw [hshares] at hnone
      cases hnone
  · exact hadded b after hnew hafter

/-- A step that adds nothing partial. -/
theorem PartialsServed.next_of_none (hs : Coherent s) (href : Referenced s)
    (h : PartialsServed s) (hadds : AddsNoPartial s t)
    (hsettled : ∀ key plan, s.rollouts.get? key = some plan → plan.live = true →
      PartialsSettled t key plan) : PartialsServed t :=
  h.next hs href hadds (fun _ _ hnone => hnone.elim) hsettled

/-- Where what a plan granted is withdrawn, nothing partial of it is left. -/
theorem settled_of_withdrawn
    (h : ∀ scope, ∀ b ∈ t.authority.bindingsFor scope, b.rollout.valid = true →
      b.ofPlan plan = true → b.live = false) : PartialsSettled t key plan :=
  fun _ _ => Or.inr fun scope b hb hvalid hown => not_partial_of_dead (h scope b hb hvalid hown)

/-! ## Operations that leave plans live -/

/-- The stamps of a restart leave every plan live or ended as it was. -/
theorem stampEntered_plan (keys : List UInt64) (s : EngineState) {plan : RolloutPlan}
    (hplan : s.rollouts.get? key = some plan) :
    ∃ after, (stampEntered keys s).rollouts.get? key = some after ∧ after.live = plan.live := by
  induction keys generalizing s plan with
  | nil => exact ⟨plan, hplan, rfl⟩
  | cons stamped keys ih =>
    unfold stampEntered
    split
    · exact ih s hplan
    · split
      · exact ih s hplan
      · by_cases hkey : key = stamped
        · subst hkey
          have hstamped := OrdMap.get?_modify_self s.rollouts key fun plan =>
            { plan with updatedSequence := s.bumpSequence.sequence }
          rw [hplan] at hstamped
          obtain ⟨after, hafter, hlive⟩ := ih
            { s.bumpSequence with
              rollouts := s.rollouts.modify key fun plan =>
                { plan with updatedSequence := s.bumpSequence.sequence } } hstamped
          exact ⟨after, hafter, hlive⟩
        · exact ih _ ((OrdMap.get?_modify_of_ne _ _ hkey).trans hplan)

theorem invalidateVolatileState_settled (cause : Text) (hplan : s.rollouts.get? key = some plan)
    (hlive : plan.live = true) : PartialsSettled (s.invalidateVolatileState cause) key plan := by
  obtain ⟨after, hafter, hsame⟩ := stampEntered_plan s.rollouts.keys
    { s with
      workers := s.workers.mapValues fun _ => fencedLease (clampDetail cause maxReasonDetail)
      workerLiveness := s.workerLiveness.mapValues fun _ _ => false
      rolloutDriverBoot := OrdMap.empty
      evidence := s.evidence.removeKinds
        (EvidenceKind.all.filter fun kind => !kind.isDurable) } hplan
  exact settled_of_live hafter (hsame.trans hlive)

/-- The creation of a rollout keeps the stored plans. -/
theorem createRollout_plan (request : RolloutPlanRequest)
    (hplan : s.rollouts.get? key = some plan) :
    (s.createRollout c request).1.rollouts.get? key = some plan := by
  rw [createRollout_rollouts]
  cases s.plannedRollout c request with
  | none => exact hplan
  | some planned =>
    dsimp only
    rw [OrdMap.get?_insertNew]
    split_ifs with hkey
    · rw [← hkey, hplan]
      rfl
    · exact hplan

/-- A revalidation withdraws authority and leaves the plans alone. -/
theorem revalidate_plans (request : RevalidationRequest) :
    (s.revalidate request).1.rollouts = s.rollouts := by
  unfold revalidate
  split
  · rfl
  · rename_i record _
    split
    · rfl
    · split
      · rfl
      · have hwithdraws : Chain {} (Permit.still fun _ => False) s _ :=
          (chain_withdrawStanding s request record).trans (chain_supersedeScopes
            (((s.withdrawStanding request record).authority.bindingsForVersion record.model
              record.version).filter
                fun binding => binding.live && decide (binding.kind ≠ .exclusive)) _)
        exact hwithdraws.rollouts_eq fun _ hedits => hedits

/-! ## Operations that withdraw what they end -/

theorem revise_settled (hs : Coherent s) (revision : ReviseVersionRequest)
    (hplan : s.rollouts.get? key = some plan) (hlive : plan.live = true) :
    PartialsSettled (s.reviseVersion c revision).1 key plan := by
  rcases revise_plans (c := c) hs revision with ⟨hsame, _⟩ |
    ⟨mid, _, hrollouts, _, hafter, htable⟩
  · exact settled_of_kept (by rw [hsame]) hplan hlive
  · have hmem : key ∈ s.rollouts.keys := OrdMap.mem_keys_iff.mpr ⟨plan, hplan⟩
    rw [← hrollouts] at hplan
    have hloop := planLoop_supersedeRevisedPlans revision.version
    by_cases hpicked : plan.liveFor revision.version = true
    · apply settled_of_withdrawn
      intro scope b hb _ hown
      rw [htable, hloop.bindingsFor s.rollouts.nodup_keys, ← hrollouts] at hb
      refine not_live_of_withdrawn hb ?_ hown
      intro origin _ horigin
      exact grantedBy_keys_iff.mpr ⟨key, plan, hplan, hpicked, horigin⟩
    · obtain ⟨updated, hkept⟩ := hloop.plan s.rollouts.nodup_keys hmem hplan
      rw [if_neg hpicked, ← hafter] at hkept
      exact settled_of_live hkept hlive

theorem promote_settled (hs : ReachableState c s) (request : PromotionRequest)
    (hplan : s.rollouts.get? key = some plan) (hlive : plan.live = true) :
    PartialsSettled (s.promote c request).1 key plan := by
  rcases promote_cases (c := c) hs.coherent hs.standing request with hsame |
    ⟨record, hmodel, hversion, hrollouts, _⟩
  · exact settled_of_kept (by rw [hsame]) hplan hlive
  · obtain ⟨updated, hmarked⟩ := plan_clearInflight hmodel hversion hplan
    rw [← hrollouts] at hmarked
    by_cases hovertaken : s.overtakes request plan = true
    · rw [if_pos hovertaken] at hmarked
      exact settled_of_withdrawn (promote_ends hs request hplan hlive hmarked rfl).withdrawn
    · rw [if_neg hovertaken] at hmarked
      exact settled_of_live hmarked hlive

theorem supersedeRollout_settled {rollout : RolloutId} {generation : RolloutGeneration}
    {epoch : CoordinatorEpoch} {detail : Text} (hplan : s.rollouts.get? key = some plan)
    (hlive : plan.live = true) :
    PartialsSettled (s.supersedeRollout rollout generation epoch detail).1 key plan := by
  intro after hafter
  cases hended : after.live with
  | true => exact Or.inl rfl
  | false =>
    right
    have hsuperseded : after.superseded = true := by
      rcases supersedeRollout_plans (s := s) rollout generation epoch detail with hsame |
        ⟨found, updated, _, hrollouts, _⟩
      · rw [hsame, hplan] at hafter
        obtain rfl := Option.some.inj hafter
        rw [hlive] at hended
        cases hended
      · rw [hrollouts, OrdMap.get?_modify, hplan, Option.map_some] at hafter
        obtain rfl := Option.some.inj hafter
        split_ifs at hended ⊢
        · rfl
        · rw [hlive] at hended
          cases hended
    have hends := supersedeRollout_ends hplan hlive hafter hsuperseded
    exact fun scope b hb hvalid hown => not_partial_of_dead (hends.withdrawn scope b hb hvalid hown)

/-- A committed failure leaves nothing live of what its plan granted. -/
theorem commitFailure_withdraws (rollout : RolloutId) (reasons : List Reason)
    (leaveStage : Bool) {scope : ScopeId} {b : AuthorityBinding}
    (hb : b ∈ (s.commitFailure rollout plan reasons leaveStage).authority.bindingsFor scope)
    (hown : b.ofPlan plan = true) : b.live = false := by
  rw [(commitFailure_kept rollout plan reasons leaveStage).2, bindingsFor_supersedeRollout] at hb
  exact not_live_of_withdrawn hb (fun _ _ h => h) hown

theorem failStage_settled (request : RolloutProgressRequest)
    (hplan : s.rollouts.get? key = some plan) (hlive : plan.live = true) :
    PartialsSettled (s.failStage request).1 key plan := by
  unfold failStage
  cases hfound : s.rolloutOf request.rollout with
  | none => exact settled_of_live hplan hlive
  | some found =>
    dsimp only
    split
    · exact settled_of_live hplan hlive
    · split
      · exact settled_of_live hplan hlive
      · by_cases hkey : key = request.rollout.raw
        · subst hkey
          obtain rfl : found = plan := Option.some.inj (hfound.symm.trans hplan)
          exact settled_of_withdrawn fun scope b hb _ hown => commitFailure_withdraws _ _ _ hb hown
        · have hfails := (moves_commitFailure (c := {})
            (p := Permit.ending request.rollout (fun _ => False) False) s request.rollout found
            (detailReason .stageFailureThresholdExceeded request.detail) true rfl False.elim).chain
          exact settled_of_kept (hfails.plan_kept hkey) hplan hlive

/-! ## What is added -/

theorem promote_addsNoPartial (hs : Coherent s) (hstanding : Standing s)
    (request : PromotionRequest) : AddsNoPartial s (s.promote c request).1 := by
  rcases promote_cases (c := c) hs hstanding request with hsame |
    ⟨record, hmodel, hversion, _, hauthority⟩
  · exact addsPartials_of_authority (by rw [hsame])
  · have hprepared : AddsNoPartial s (s.prepared request record) := by
      intro scope b hb hshares
      rw [bindingsFor_prepared hmodel hversion] at hb
      refine Or.inl (mem_of_weakens (weakens_list_map ?_ _) hb hshares)
      intro origin
      split_ifs
      · exact weakens_supersede origin
      · exact Weakens.refl origin
    rcases hauthority with hsame | ⟨promotion, generation, h⟩
    · exact hprepared.trans (addsPartials_of_authority hsame)
    · refine hprepared.trans ?_
      intro scope b hb hshares
      by_cases hscope : scope = request.scope
      · subst hscope
        obtain ⟨granted, retained, hgrants, hretained, hlist⟩ := h.list
        rw [hlist] at hb
        rcases List.mem_append.mp hb with hold | hnew
        · exact Or.inl (mem_of_weakens (weakens_supersedeFirstExclusive _) hold hshares)
        · obtain ⟨_, hkind⟩ := isLivePartial_iff.mp hshares
          have hother : b.kind = .exclusive ∨ b.kind = .rollbackRetained := by
            rcases List.mem_cons.mp hnew with rfl | hnew
            · exact Or.inl (isLiveExclusive_iff.mp hgrants.exclusive).2
            · obtain ⟨i, hi, rfl⟩ := List.mem_iff_getElem.mp hnew
              exact Or.inr (hretained.get (hretained.length_eq ▸ hi) hi).kind
          rcases hkind with hkind | hkind
          · rw [hkind] at hother
            simp at hother
          · rw [hkind] at hother
            simp at hother
      · rw [h.bindingsFor_of_ne hscope, ← bindingsFor_prepared hmodel hversion] at hb
        exact Or.inl hb

/-! ## Rollbacks -/

/-- Stopping a plan ends it, and leaves every other plan alone. -/
theorem stopRollout_plan (rollout : RolloutId) (rollback : RollbackId)
    (generation : RollbackGeneration) (hplan : s.rollouts.get? key = some plan) :
    ∃ after, (s.stopRollout rollout rollback generation).rollouts.get? key = some after ∧
      after.live = (plan.live && !decide (key = rollout.raw)) := by
  unfold stopRollout
  by_cases hkey : key = rollout.raw
  · subst hkey
    have hfound : s.rolloutOf rollout = some plan := hplan
    rw [hfound, decide_eq_true rfl, Bool.not_true, Bool.and_false]
    dsimp only
    cases hlive : plan.live with
    | true =>
      rw [if_pos rfl]
      have hstopped := OrdMap.get?_modify_self s.rollouts rollout.raw
        (rolledBackPlan s.bumpSequence.sequence)
      rw [hplan] at hstopped
      refine ⟨_, (OrdMap.get?_modify_self _ _ _).trans (congrArg _ hstopped), ?_⟩
      simp [RolloutPlan.live, markRollback, rolledBackPlan]
    | false =>
      rw [if_neg Bool.false_ne_true]
      exact ⟨_, (OrdMap.get?_modify_self _ _ _).trans (congrArg _ hplan), hlive⟩
  · rw [decide_eq_false hkey, Bool.not_false, Bool.and_true]
    cases s.rolloutOf rollout with
    | none => exact ⟨plan, hplan, rfl⟩
    | some found =>
      dsimp only
      refine ⟨plan, (OrdMap.get?_modify_of_ne _ _ hkey).trans ?_, rfl⟩
      split_ifs
      · exact (OrdMap.get?_modify_of_ne _ _ hkey).trans hplan
      · exact hplan

/-- What follows the grant of a rollback ends the plan the rollback names. -/
theorem finishRollback_plan (request : RollbackRequest) (candidate : ModelVersionRecord)
    (rollback : RollbackId) (generation : RollbackGeneration)
    (hplan : s.rollouts.get? key = some plan) :
    ∃ after, (s.finishRollback request candidate rollback generation).rollouts.get? key =
        some after ∧
      after.live =
        (plan.live && !(request.rollout.valid && decide (key = request.rollout.raw))) := by
  have hsettled : (s.settleRollback request candidate rollback generation).rollouts =
      s.rollouts :=
    (chain_settleRollback (c := {}) (p := Permit.still fun _ => False) s request candidate rollback
      generation).rollouts_eq fun _ hedits => hedits
  rw [← hsettled] at hplan
  unfold finishRollback
  cases hvalid : request.rollout.valid with
  | true =>
    rw [Bool.true_and]
    exact stopRollout_plan request.rollout rollback generation hplan
  | false =>
    rw [Bool.false_and, Bool.not_false, Bool.and_true]
    exact ⟨plan, hplan, rfl⟩

/-- The grant of a permitted rollback. -/
def EngineState.rollbackGrant (s : EngineState) (request : RollbackRequest)
    (candidate : ModelVersionRecord) : EngineState × Decision :=
  (s.mapAuthority (·.supersedeScope request.scope)).grantAuthority
    (request.grant ⟨s.nextRollbackId⟩ candidate.rollbackGeneration.nextGeneration)

/-- What a permitted rollback makes of plans and lists: it clears its scope, grants it to the
target, and goes on when that is granted. -/
structure RollbackGrants (s : EngineState) (request : RollbackRequest)
    (candidate : ModelVersionRecord) : Prop where
  plans : (s.rollbackGrant request candidate).1.rollouts = s.rollouts
  adds : AddsNoPartial (s.mapAuthority (·.supersedeScope request.scope))
    (s.rollbackGrant request candidate).1
  elsewhere : ∀ scope, scope ≠ request.scope →
    (s.rollbackGrant request candidate).1.authority.bindingsFor scope =
      s.authority.bindingsFor scope
  denied : request.target.valid = false →
    (s.rollback request).1 = (s.rollbackGrant request candidate).1
  granted : request.target.valid = true →
    (s.rollback request).1 = (s.rollbackGrant request candidate).1.finishRollback request
      candidate ⟨s.nextRollbackId⟩ candidate.rollbackGeneration.nextGeneration

theorem rollback_grants (hs : Coherent s) (hstanding : Standing s) {request : RollbackRequest}
    (hgate : (s.evaluateRollback request).allowed = true) :
    ∃ candidate, RollbackGrants s request candidate := by
  obtain ⟨candidate, target, hpermitted⟩ := rollback_permitted hgate
  have hfence : Chain {} (Permit.still fun _ => False) s
      (s.mapAuthority (·.supersedeScope request.scope)) := chain_supersedeScope s request.scope
  have hfenced := hfence.coherent hs
  have hstands := hfence.standing hstanding
  have hgrant := (grantAuthority_progresses (c := {}) (p := Permit.still fun _ => True) hfenced
    (request.grant ⟨s.nextRollbackId⟩ candidate.rollbackGeneration.nextGeneration)
    (namesStored_none rfl) fun _ _ => trivial).chain
  have hrollback : s.rollback request =
      if !(s.rollbackGrant request candidate).2.allowed then
        ((s.rollbackGrant request candidate).1,
          { decision := (s.rollbackGrant request candidate).2 })
      else ((s.rollbackGrant request candidate).1.finishRollback request candidate
          ⟨s.nextRollbackId⟩ candidate.rollbackGeneration.nextGeneration,
        { decision := { outcome := .rollbackAllowed }
          rollback := ⟨s.nextRollbackId⟩
          rollbackGeneration := candidate.rollbackGeneration.nextGeneration
          restoredScopes := [request.scope] }) :=
    rollback_eq hgate hpermitted.candidateStored hpermitted.targetStored
  have hdecides : (s.rollback request).2.decision.allowed =
      (s.rollbackGrant request candidate).2.allowed := by
    rw [hrollback]
    cases hallowed : (s.rollbackGrant request candidate).2.allowed with
    | false =>
      rw [Bool.not_false, if_pos rfl]
      exact hallowed
    | true => rfl
  refine ⟨candidate, hgrant.rollouts_eq fun _ hedits => hedits,
    grantAuthority_addsNoPartial hfenced hstands rfl, ?_, ?_, ?_⟩
  · intro scope hscope
    refine (grantAuthority_elsewhere hfenced hstands _ hscope).trans ?_
    exact (bindingsFor_mapScope s.authority request.scope scope _).trans (if_neg hscope)
  · intro htarget
    have hrefused : (s.rollback request).2.decision.allowed = false := by
      cases rollsBack hs hstanding request with
      | refused _ hrefused _ => exact hrefused
      | denied _ _ hrefused => exact hrefused
      | committed _ hvalid =>
        rw [htarget] at hvalid
        cases hvalid
    rw [hrollback, ← hdecides, hrefused]
    rfl
  · intro htarget
    have hallowed : (s.rollback request).2.decision.allowed = true := by
      cases rollsBack hs hstanding request with
      | refused hdenied =>
        rw [hgate] at hdenied
        cases hdenied
      | denied _ hinvalid =>
        rw [htarget] at hinvalid
        cases hinvalid
      | committed _ _ hallowed => exact hallowed
    rw [hrollback, ← hdecides, hallowed]
    rfl

/-- What follows the grant of a rollback marks bindings of its scope as draining. -/
theorem finishRollback_addsNoPartial (request : RollbackRequest) (candidate : ModelVersionRecord)
    (rollback : RollbackId) (generation : RollbackGeneration) :
    AddsNoPartial s (s.finishRollback request candidate rollback generation) := by
  intro scope b hb hshares
  rw [(finishRollback_kept s request candidate rollback generation).1] at hb
  have hweakened := weakened_markDraining s.authority candidate.model candidate.version
    request.scope
  exact Or.inl (mem_of_weakens (hweakened.bindings scope) hb hshares)

/-- A permitted rollback leaves nothing partial in its scope. -/
theorem rollback_addsNoPartial (hs : Coherent s) (hstanding : Standing s)
    {request : RollbackRequest} (hgate : (s.evaluateRollback request).allowed = true) :
    AddsNoPartial (s.mapAuthority (·.supersedeScope request.scope)) (s.rollback request).1 := by
  obtain ⟨candidate, h⟩ := rollback_grants hs hstanding hgate
  cases htarget : request.target.valid with
  | false =>
    rw [h.denied htarget]
    exact h.adds
  | true =>
    rw [h.granted htarget]
    exact h.adds.trans (finishRollback_addsNoPartial _ _ _ _)

theorem rollback_same_of_refused {request : RollbackRequest}
    (hrefused : (s.evaluateRollback request).allowed = false) : (s.rollback request).1 = s := by
  unfold EngineState.rollback
  dsimp only
  rw [hrefused, Bool.not_false, if_pos rfl]

/-- A rollback that ends cleanly settles every live plan. -/
theorem rollback_settled (hs : Coherent s) (hstanding : Standing s) {request : RollbackRequest}
    (hclean : (Operation.rollback request).EndsClean s)
    (hplan : s.rollouts.get? key = some plan) (hlive : plan.live = true) :
    PartialsSettled (s.rollback request).1 key plan := by
  cases hgate : (s.evaluateRollback request).allowed with
  | false =>
    rw [rollback_same_of_refused hgate]
    exact settled_of_live hplan hlive
  | true =>
    have hadds := rollback_addsNoPartial hs hstanding hgate
    obtain ⟨candidate, h⟩ := rollback_grants hs hstanding hgate
    cases htarget : request.target.valid with
    | false =>
      rw [h.denied htarget]
      exact settled_of_kept (by rw [h.plans]) hplan hlive
    | true =>
      rw [← h.plans] at hplan
      obtain ⟨after, hafter, hends⟩ := finishRollback_plan request candidate
        ⟨s.nextRollbackId⟩ candidate.rollbackGeneration.nextGeneration hplan
      rw [h.plans] at hplan
      rw [← h.granted htarget] at hafter
      by_cases hstopped : request.rollout.valid = true ∧ key = request.rollout.raw
      · obtain ⟨hvalid, rfl⟩ := hstopped
        refine fun _ _ => Or.inr ?_
        intro scope b hb hcited hown
        by_contra hshares
        rw [Bool.not_eq_false] at hshares
        rcases hadds scope b hb hshares with hold | hnone
        · have hheld := mem_of_weakens
            ((weakened_supersedeScope s.authority request.scope).bindings scope) hold hshares
          have hscope := hclean hgate htarget hvalid plan hplan hlive scope b hheld hshares
            (cites_of_ofPlan hs hplan hcited hown)
          rw [hscope] at hold
          rw [not_partial_of_dead (not_live_of_supersedeScope hold)] at hshares
          cases hshares
        · exact hnone
      · refine settled_of_live hafter ?_
        rw [hends, hlive, Bool.true_and, Bool.not_eq_true']
        by_contra hcontra
        rw [Bool.not_eq_false, Bool.and_eq_true, decide_eq_true_eq] at hcontra
        exact hstopped hcontra

/-- A rollback that leaves partial bindings only of live plans ends cleanly. -/
theorem rollback_clean (hs : Coherent s) (hstanding : Standing s) {request : RollbackRequest}
    (h : PartialsServed (s.rollback request).1) : (Operation.rollback request).EndsClean s := by
  intro hgate htarget hvalid plan hplan hlive scope b hb hshares hcites
  by_contra hscope
  obtain ⟨candidate, hgrants⟩ := rollback_grants hs hstanding hgate
  have hcited : b.rollout = request.rollout :=
    Ident.ext ((hs.rollouts _ plan hcites.2).symm.trans (hs.rollouts _ plan hplan))
  have hstored : (s.rollbackGrant request candidate).1.rollouts.get? request.rollout.raw =
      some plan := by
    rw [hgrants.plans]
    exact hplan
  obtain ⟨after, hafter, hends⟩ := finishRollback_plan request candidate ⟨s.nextRollbackId⟩
    candidate.rollbackGeneration.nextGeneration hstored
  have hleft : b ∈ (s.rollback request).1.authority.bindingsFor scope := by
    rw [hgrants.granted htarget, (finishRollback_kept _ _ _ _ _).1, markDraining,
      bindingsFor_mapScope, if_neg hscope, hgrants.elsewhere scope hscope]
    exact hb
  rw [← hgrants.granted htarget] at hafter
  have hserved := h scope b hleft hshares after
    ⟨hcites.1, by rw [rolloutOf, hcited]; exact hafter⟩
  rw [hends, hvalid, decide_eq_true rfl, Bool.and_self, Bool.not_true, Bool.and_false] at hserved
  cases hserved

/-! ## Failed stages -/

/-- An automatic rollback clears the root scope and grants it exclusively. -/
theorem automaticRollback_addsNoPartial (hs : Coherent s) (hstanding : Standing s)
    (rollout : RolloutId) (plan : RolloutPlan) (record : ModelVersionRecord) :
    AddsNoPartial s (s.commitAutomaticRollback rollout plan record) := by
  have hfence : Chain {} (Permit.still fun _ => False) s
      (s.mapAuthority (·.supersedeScope plan.rootScope)) := chain_supersedeScope s plan.rootScope
  have hgrant := grantAuthority_addsNoPartial (hfence.coherent hs) (hfence.standing hstanding)
    (g := plan.automaticGrant ⟨s.nextRollbackId⟩ record.rollbackGeneration.nextGeneration) rfl
  have hgranted := (hfence.addsPartials fun _ hgrants => hgrants.elim).trans hgrant
  exact hgranted.trans (addsPartials_of_authority (authority_commitAutomaticRollback s _ _ _))

/-- What follows a committed failure adds nothing partial. -/
theorem afterFailure_addsNoPartial (hs : Coherent s) (hstanding : Standing s)
    (request : RolloutProgressRequest) (gate : Decision) :
    AddsNoPartial (s.commitFailure request.rollout plan gate.reasons false)
      (s.failCurrentStage request plan gate).1 := by
  have hfail := (moves_commitFailure (c := {}) (p := {}) s request.rollout plan gate.reasons false
    trivial False.elim).chain
  unfold failCurrentStage
  dsimp only
  split
  · exact addsPartials_of_authority rfl
  · split
    · exact addsPartials_of_authority rfl
    · split
      · exact addsPartials_of_authority rfl
      · split
        · exact addsPartials_of_authority rfl
        · exact automaticRollback_addsNoPartial (hfail.coherent hs) (hfail.standing hstanding)
            _ _ _

/-- A failed stage leaves nothing partial of its plan. -/
theorem failCurrentStage_settled (hs : Coherent s) (hstanding : Standing s)
    (request : RolloutProgressRequest) (gate : Decision) {found : RolloutPlan}
    (hfound : s.rolloutOf request.rollout = some found) (hplan : s.rollouts.get? key = some plan)
    (hlive : plan.live = true) :
    PartialsSettled (s.failCurrentStage request found gate).1 key plan := by
  by_cases hkey : key = request.rollout.raw
  · subst hkey
    obtain rfl : found = plan := Option.some.inj (hfound.symm.trans hplan)
    refine fun _ _ => Or.inr ?_
    intro scope b hb _ hown
    by_contra hshares
    rw [Bool.not_eq_false] at hshares
    rcases afterFailure_addsNoPartial hs hstanding request gate scope b hb hshares with hold | hnone
    · rw [not_partial_of_dead (commitFailure_withdraws _ _ _ hold hown)] at hshares
      cases hshares
    · exact hnone
  · have hfails : Chain {} (Permit.ending request.rollout (found.grantsIn [found.rootScope]) False)
        s (s.failCurrentStage request found gate).1 :=
      (failCurrentStage_moves hs request hfound gate False.elim).chain
    exact settled_of_kept (hfails.plan_kept hkey) hplan hlive

end LifecycleFabric
