import LifecycleFabric.Properties.CutoverBindings
import LifecycleFabric.Properties.LivePlans
import LifecycleFabric.Properties.Retirements

/-!
# How a live plan is superseded

Four operations mark plans superseded. A promotion and an explicit supersession end a live
plan alike: the current stage is recorded as superseded and left, and what the plan granted is
withdrawn. A retirement never finds a live plan to mark. A revision withdraws the authority and
leaves the stage as it was.
-/

namespace LifecycleFabric

open EngineState AuthorityTable

variable {c : EngineConfig} {s t : EngineState} {plan after : RolloutPlan} {key : UInt64}

/-! ## The statement -/

/-- The operations that mark plans superseded. -/
def Operation.supersedesPlans : Operation → Bool
  | .promote _ | .supersedeRollout _ _ _ _ | .reviseVersion _ | .retire _ => true
  | _ => false

/-- A revision of the content of a version. -/
def Operation.isRevision : Operation → Bool
  | .reviseVersion _ => true
  | _ => false

/-- A plan ended by supersession: its current stage is recorded as superseded, once, and left,
and every binding it granted is withdrawn. -/
structure EndsSuperseded (t : EngineState) (key : UInt64) (plan : RolloutPlan) : Prop where
  recorded : ∃ after entry, t.rollouts.get? key = some after ∧
    after.history = plan.history ++ [entry] ∧ entry.decision = .superseded ∧
    entry.stage = plan.currentStage.id ∧ entry.generation = plan.currentStageGeneration ∧
    after.stageEntered = false
  withdrawn : ∀ scope, ∀ b ∈ t.authority.bindingsFor scope, b.rollout.valid = true →
    b.ofPlan plan = true → b.live = false

/-- A step that leaves a live plan as it was does not mark it superseded. -/
theorem not_superseded_of_live (hlive : plan.live = true) : plan.superseded = false := by
  simp only [RolloutPlan.live, Bool.and_eq_true, Bool.not_eq_true'] at hlive
  exact hlive.2

/-- Where what a plan granted is superseded in its place, no binding of it is live. -/
theorem not_live_of_withdrawn {bindings : List AuthorityBinding}
    {withdrawn : AuthorityBinding → Bool} {b : AuthorityBinding}
    (hb : b ∈ bindings.map fun b => if withdrawn b then b.supersede else b)
    (hwithdrawn : ∀ origin ∈ bindings, origin.ofPlan plan = true → withdrawn origin = true)
    (hown : b.ofPlan plan = true) : b.live = false := by
  obtain ⟨origin, horigin, rfl⟩ := List.mem_map.mp hb
  by_cases hpicked : withdrawn origin = true
  · rw [if_pos hpicked]
    rfl
  · rw [if_neg hpicked] at hown
    exact absurd (hwithdrawn origin horigin hown) hpicked

/-! ## Retirements -/

/-- The gate of a retirement finds no live plan of the version. -/
theorem not_live_of_retirement (hs : Coherent s) {retirement : RetirementRequest}
    (hallowed : (s.evaluateRetirement retirement).allowed = true)
    (hplan : s.rollouts.get? key = some plan) (hlive : plan.live = true) :
    plan.candidate ≠ retirement.version := by
  obtain ⟨record, hrecord, hfaults⟩ := evaluateRetirement_allowed_iff.mp hallowed
  obtain ⟨_, hversion⟩ := versionKey_inj.mp (hs.versions _ record hrecord)
  simp only [retirementFaults, List.append_eq_nil_iff] at hfaults
  obtain ⟨⟨⟨_, hrollouts⟩, _⟩, _⟩ := hfaults
  rw [retirementRolloutFaults, List.append_eq_nil_iff, List.flatMap_eq_nil_iff] at hrollouts
  have hnone := hrollouts.2 plan (OrdMap.mem_values_iff.mpr ⟨key, hplan⟩)
  rw [hlive, Bool.not_true, if_neg Bool.false_ne_true, List.append_eq_nil_iff,
    faultIf_eq_nil] at hnone
  rw [hversion]
  exact hnone.1

/-- A retirement leaves every live plan as it was. -/
theorem retire_live_plan (hs : Coherent s) (retirement : RetirementRequest)
    (hplan : s.rollouts.get? key = some plan) (hlive : plan.live = true) :
    (s.retire retirement).1.rollouts.get? key = some plan := by
  cases hallowed : (s.evaluateRetirement retirement).allowed with
  | false =>
    rw [retire_same_of_refused hallowed]
    exact hplan
  | true =>
    obtain ⟨record, hrecord, _, hretire⟩ := retire_of_allowed hallowed
    obtain ⟨_, hversion⟩ := versionKey_inj.mp (hs.versions _ record hrecord)
    have hother := not_live_of_retirement hs hallowed hplan hlive
    have hkept : (s.retire retirement).1.rollouts = (s.fenceVersion record).rollouts := by
      rw [hretire]
      simp [stampVersion, advanceVersion]
    rw [hkept, fenceVersion]
    have htouched : ∀ scopes : List ScopeId, (scopes.foldl touchScope
        (s.mapAuthority (·.supersedeVersion record.model record.version))).rollouts =
          s.rollouts := by
      intro scopes
      exact (chain_touchScopes (c := {}) (p := Permit.still fun _ => True) scopes _).rollouts_eq
        fun _ hedits => hedits
    have hmem : key ∈ s.rollouts.keys := OrdMap.mem_keys_iff.mpr ⟨plan, hplan⟩
    generalize hscopes : List.map AuthorityBinding.scope _ = scopes
    rw [htouched]
    obtain ⟨updated, hafter⟩ := (planLoop_withdrawPlans record.version).plan
      s.rollouts.nodup_keys hmem ((congrArg (·.get? key) (htouched scopes)).trans hplan)
    rw [hafter, if_neg]
    rw [decide_eq_true_eq, ← hversion]
    exact hother

/-! ## Revisions -/

/-- A revision adds nothing to the history of a plan. -/
theorem revise_history (hs : Coherent s) (revision : ReviseVersionRequest)
    (hplan : s.rollouts.get? key = some plan) :
    ∃ after, (s.reviseVersion c revision).1.rollouts.get? key = some after ∧
      after.history = plan.history := by
  rcases revise_plans (c := c) hs revision with ⟨hsame, _⟩ | ⟨t, _, hrollouts, _, hafter, _⟩
  · rw [hsame]
    exact ⟨plan, hplan, rfl⟩
  · have hmem : key ∈ s.rollouts.keys := OrdMap.mem_keys_iff.mpr ⟨plan, hplan⟩
    rw [← hrollouts] at hplan
    obtain ⟨updated, hmarked⟩ := (planLoop_supersedeRevisedPlans revision.version).plan
      s.rollouts.nodup_keys hmem hplan
    rw [hafter, hmarked]
    refine ⟨_, rfl, ?_⟩
    split_ifs
    · rfl
    · rfl

/-! ## Explicit supersessions -/

/-- What an explicit supersession makes of the plans and the table. -/
theorem supersedeRollout_plans (rollout : RolloutId) (generation : RolloutGeneration)
    (epoch : CoordinatorEpoch) (detail : Text) :
    (s.supersedeRollout rollout generation epoch detail).1 = s ∨
      ∃ plan updated, s.rolloutOf rollout = some plan ∧
        (s.supersedeRollout rollout generation epoch detail).1.rollouts =
          s.rollouts.modify rollout.raw (explicitSupersession updated detail) ∧
        (s.supersedeRollout rollout generation epoch detail).1.authority =
          s.authority.supersedeRollout plan.id plan.generation := by
  unfold EngineState.supersedeRollout
  cases hplan : s.rolloutOf rollout with
  | none => exact Or.inl rfl
  | some plan =>
    dsimp only
    split_ifs
    · exact Or.inl rfl
    · exact Or.inl rfl
    · exact Or.inl rfl
    · right
      refine ⟨plan, s.bumpSequence.sequence, rfl, ?_⟩
      split
      · exact ⟨rfl, rfl⟩
      · split_ifs
        · exact ⟨rfl, rfl⟩
        · exact ⟨rfl, rfl⟩

theorem supersedeRollout_ends {rollout : RolloutId}
    {generation : RolloutGeneration} {epoch : CoordinatorEpoch} {detail : Text}
    (hplan : s.rollouts.get? key = some plan) (hlive : plan.live = true)
    (hafter : (s.supersedeRollout rollout generation epoch detail).1.rollouts.get? key =
      some after) (hsuperseded : after.superseded = true) :
    EndsSuperseded (s.supersedeRollout rollout generation epoch detail).1 key plan := by
  rcases supersedeRollout_plans (s := s) rollout generation epoch detail with hsame |
    ⟨found, updated, hfound, hrollouts, htable⟩
  · rw [hsame, hplan] at hafter
    obtain rfl := Option.some.inj hafter
    rw [not_superseded_of_live hlive] at hsuperseded
    cases hsuperseded
  · by_cases hkey : key = rollout.raw
    · subst hkey
      obtain rfl : found = plan := Option.some.inj (hfound.symm.trans hplan)
      constructor
      · rw [hrollouts, OrdMap.get?_modify_self, hplan, Option.map_some]
        exact ⟨_, _, rfl, rfl, rfl, rfl, rfl, rfl⟩
      · intro scope b hb _ hown
        rw [htable, bindingsFor_supersedeRollout] at hb
        exact not_live_of_withdrawn hb (fun _ _ h => h) hown
    · rw [hrollouts, OrdMap.get?_modify_of_ne _ _ hkey, hplan] at hafter
      obtain rfl := Option.some.inj hafter
      rw [not_superseded_of_live hlive] at hsuperseded
      cases hsuperseded

/-! ## Promotions -/

variable {request : PromotionRequest} {record : ModelVersionRecord} {promotion : PromotionId}
  {generation : PromotionGeneration}

/-- A promotion changes nothing, or clears the rollouts in flight, after which it either grants
nothing or takes its scope over. -/
theorem promote_cases (hs : Coherent s) (hstanding : Standing s) (request : PromotionRequest) :
    (s.promote c request).1 = s ∨
      ∃ record, record.model = request.model ∧ record.version = request.candidate ∧
        (s.promote c request).1.rollouts = (s.clearInflight request record).rollouts ∧
        ((s.promote c request).1.authority = (s.prepared request record).authority ∨
          ∃ promotion generation, CutsOver c s request record promotion generation) := by
  by_cases hallowed : (s.promote c request).2.decision.allowed = true ∧ request.immediate = true
  · obtain ⟨record, promotion, generation, h⟩ := cutsOver hs hstanding hallowed.1 hallowed.2
    exact Or.inr ⟨record, h.model, h.version, h.rollouts, Or.inr ⟨promotion, generation, h⟩⟩
  · cases hcommit : s.reachesCommit c request with
    | false =>
      cases promotes (c := c) hs hstanding request with
      | stopped _ _ hsame => exact Or.inl hsame
      | committed hcontra _ _ =>
        rw [hcommit] at hcontra
        cases hcontra
      | aborted hcontra _ _ _ =>
        rw [hcommit] at hcontra
        cases hcontra
    | true =>
      rw [reachesCommit, Bool.and_eq_true] at hcommit
      obtain ⟨hgate, hfree⟩ := hcommit
      obtain ⟨record, hrecord, _⟩ := promotion_permitted hgate
      obtain ⟨hmodel, hversion⟩ := versionKey_inj.mp (hs.versions _ record hrecord)
      have hchain := chain_prepared (c := c) s request record
      have hpromote := promote_eq hs hgate hrecord hfree
      dsimp only at hpromote
      refine Or.inr ⟨record, hmodel.symm, hversion.symm, ?_⟩
      by_cases himmediate : request.immediate = true
      · have hrefused : ((s.prepared request record).grantAuthority
            (request.grant ⟨(s.clearInflight request record).nextPromotionId⟩
              record.promotionGeneration.nextGeneration)).2.allowed = false := by
          by_contra hgranted
          rw [Bool.not_eq_false] at hgranted
          rw [grantPromotion_eq, if_pos himmediate, hgranted] at hpromote
          refine hallowed ⟨?_, himmediate⟩
          rw [hpromote]
          rfl
        have hdenied := grantAuthority_allowed (hchain.coherent hs) (hchain.standing hstanding)
          (request.grant ⟨(s.clearInflight request record).nextPromotionId⟩
            record.promotionGeneration.nextGeneration)
        rw [hrefused] at hdenied
        obtain ⟨_, hstate⟩ := grantAuthority_refused (hchain.coherent hs)
          (hchain.standing hstanding) hdenied.symm
        rw [grantPromotion_eq, if_pos himmediate, hrefused, Bool.not_false, if_pos rfl] at hpromote
        rw [hpromote]
        rcases hstate with hsame | hbumped
        · rw [hsame]
          exact ⟨rfl, Or.inl rfl⟩
        · rw [hbumped]
          exact ⟨rfl, Or.inl rfl⟩
      · rw [grantPromotion_eq, if_neg himmediate] at hpromote
        rw [hpromote]
        exact ⟨rfl, Or.inl rfl⟩

/-- What the plans a promotion overtakes granted is withdrawn, and nothing takes its place. -/
theorem CutsOver.withdrawn (h : CutsOver c s request record promotion generation)
    (hsingle : SingleHolder s) (hplan : s.rollouts.get? key = some plan)
    (hovertaken : s.overtakes request plan = true) {scope : ScopeId} {b : AuthorityBinding}
    (hb : b ∈ (s.promote c request).1.authority.bindingsFor scope) (hrollout : b.rollout.valid = true)
    (hown : b.ofPlan plan = true) : b.live = false := by
  have hwithdraws : ∀ origin : AuthorityBinding, origin.ofPlan plan = true →
      s.withdraws request origin = true := by
    intro origin horigin
    exact withdraws_iff.mpr ⟨key, plan, hplan, hovertaken, horigin⟩
  by_cases hscope : scope = request.scope
  · subst hscope
    obtain ⟨granted, retained, hgrants, hretained, hlist⟩ := h.list
    rw [hlist] at hb
    rcases List.mem_append.mp hb with hold | hnew
    · by_contra hlive
      rw [Bool.not_eq_false] at hlive
      have hkept := live_supersedeFirstExclusive hold hlive
      rw [bindingsFor_prepared h.model h.version] at hkept
      rw [not_live_of_withdrawn hkept (fun origin _ => hwithdraws origin) hown] at hlive
      cases hlive
    · rcases List.mem_cons.mp hnew with rfl | hnew
      · rw [hgrants.rollout] at hrollout
        cases hrollout
      · obtain ⟨i, hi, rfl⟩ := List.mem_iff_getElem.mp hnew
        have hi' := hretained.length_eq ▸ hi
        have hretains := hretained.get hi' hi
        have hmem := List.getElem_mem hi'
        rw [List.mem_filter, Option.mem_toList, h.displaced_iff hsingle] at hmem
        have hholder := hwithdraws _ (by
          rw [AuthorityBinding.ofPlan] at hown ⊢
          exact hretains.rollout ▸ hretains.rolloutGeneration ▸ hown)
        exact absurd hholder (by simpa using hmem.1.2)
  · rw [h.bindingsFor_of_ne hscope] at hb
    exact not_live_of_withdrawn hb (fun origin _ => hwithdraws origin) hown

/-- A promotion ends the plans it overtakes. -/
theorem promote_ends (hs : ReachableState c s) (request : PromotionRequest)
    (hplan : s.rollouts.get? key = some plan) (hlive : plan.live = true)
    (hafter : (s.promote c request).1.rollouts.get? key = some after)
    (hsuperseded : after.superseded = true) :
    EndsSuperseded (s.promote c request).1 key plan := by
  rcases promote_cases (c := c) hs.coherent hs.standing request with hsame |
    ⟨record, hmodel, hversion, hrollouts, htable⟩
  · rw [hsame, hplan] at hafter
    obtain rfl := Option.some.inj hafter
    rw [not_superseded_of_live hlive] at hsuperseded
    cases hsuperseded
  · obtain ⟨updated, hmarked⟩ := plan_clearInflight hmodel hversion hplan
    rw [hrollouts, hmarked] at hafter
    have hovertaken : s.overtakes request plan = true := by
      by_contra hleft
      rw [if_neg hleft] at hafter
      obtain rfl := Option.some.inj hafter
      rw [not_superseded_of_live hlive] at hsuperseded
      cases hsuperseded
    rw [if_pos hovertaken] at hmarked
    constructor
    · rw [hrollouts, hmarked]
      refine ⟨_, _, rfl, rfl, rfl, ?_, rfl, rfl⟩
      rw [supersessionRecord, RolloutPlan.currentStage]
      cases plan.stages[plan.currentStageIndex]? with
      | none => rfl
      | some stage => rfl
    · intro scope b hb hrollout hown
      rcases htable with hsame | ⟨promotion, generation, h⟩
      · rw [hsame, bindingsFor_prepared hmodel hversion] at hb
        refine not_live_of_withdrawn hb ?_ hown
        intro origin _ horigin
        exact withdraws_iff.mpr ⟨key, plan, hplan, hovertaken, horigin⟩
      · exact h.withdrawn hs.singleHolder hplan hovertaken hb hrollout hown

/-! ## All four -/

/-- Of the operations that mark a live plan superseded, all but a revision record the
supersession, leave the stage and withdraw what the plan granted. A revision never does. -/
theorem supersession_uniform_iff (hs : ReachableState c s) {op : Operation}
    (hop : op.supersedesPlans = true) (hplan : s.rollouts.get? key = some plan)
    (hlive : plan.live = true) (hafter : (step c s op).rollouts.get? key = some after)
    (hsuperseded : after.superseded = true) :
    EndsSuperseded (step c s op) key plan ↔ op.isRevision = false := by
  cases op with
  | promote request =>
    exact iff_of_true (promote_ends hs request hplan hlive hafter hsuperseded) rfl
  | supersedeRollout rollout generation epoch detail =>
    exact iff_of_true (supersedeRollout_ends hplan hlive hafter hsuperseded) rfl
  | retire retirement =>
    have hkept := retire_live_plan hs.coherent retirement hplan hlive
    obtain rfl := Option.some.inj (hkept.symm.trans hafter)
    rw [not_superseded_of_live hlive] at hsuperseded
    cases hsuperseded
  | reviseVersion revision =>
    refine iff_of_false ?_ (Bool.true_eq_false ▸ id)
    intro hends
    obtain ⟨later, entry, hlater, hgrown, _⟩ := hends.recorded
    obtain ⟨kept, hkept, hsame⟩ := revise_history (c := c) hs.coherent revision hplan
    obtain rfl := Option.some.inj (hkept.symm.trans hlater)
    have hlength := congrArg List.length (hgrown.symm.trans hsame)
    rw [List.length_append, List.length_singleton] at hlength
    omega
  | _ => cases hop

/-! ### A revision in the middle of a stage -/

/-- A plan is under way in its first stage. -/
def enteredPlan : List Operation := plannedTo {} ++ [.beginRollout { rollout := ⟨1⟩ }]

/-- The plan stored after a run. -/
def firstPlan (ops : List Operation) : RolloutPlan :=
  ((runOps {} (init {}) ops).rollouts.get? 1).getD {}

theorem firstPlan_stored {ops : List Operation}
    (h : ((runOps {} (init {}) ops).rollouts.get? 1).isSome = true) :
    (runOps {} (init {}) ops).rollouts.get? 1 = some (firstPlan ops) := by
  obtain ⟨plan, hplan⟩ := Option.isSome_iff_exists.mp h
  rw [firstPlan, hplan, Option.getD_some]

theorem firstPlan_step {ops : List Operation} {op : Operation}
    (h : ((runOps {} (init {}) (ops ++ [op])).rollouts.get? 1).isSome = true) :
    (step {} (runOps {} (init {}) ops) op).rollouts.get? 1 = some (firstPlan (ops ++ [op])) := by
  have hstored := firstPlan_stored h
  rw [runOps, Runs.run_append] at hstored
  exact hstored

/-- The candidate of the plan is revised. -/
def revisedCandidate : Operation :=
  .reviseVersion
    { model := ⟨1⟩, version := ⟨1⟩
      artifact := { setId := ⟨1⟩, generation := ⟨2⟩, digest := [98] } }

theorem supersession_uniform_witness :
    EndsSuperseded (step {} (runOps {} (init {}) enteredPlan) (.supersedeRollout ⟨1⟩ ⟨1⟩ {} []))
        1 (firstPlan enteredPlan) ↔
      (Operation.supersedeRollout ⟨1⟩ ⟨1⟩ {} []).isRevision = false := by
  have hs : ReachableState {} (runOps {} (init {}) enteredPlan) := ⟨enteredPlan, rfl⟩
  refine supersession_uniform_iff hs rfl (firstPlan_stored ?_) ?_ (firstPlan_step ?_) ?_
  · decide +kernel
  · decide +kernel
  · decide +kernel
  · decide +kernel

/-- The revision marks the plan superseded and leaves its stage entered, with no record. -/
theorem revised_plan_unrecorded :
    ¬∀ (c : EngineConfig) (s : EngineState) (op : Operation) (key : UInt64)
        (plan after : RolloutPlan), ReachableState c s → op.supersedesPlans = true →
      s.rollouts.get? key = some plan → plan.live = true →
      (step c s op).rollouts.get? key = some after → after.superseded = true →
      EndsSuperseded (step c s op) key plan := by
  intro hclaim
  have hafter : (step {} (runOps {} (init {}) enteredPlan) revisedCandidate).rollouts.get? 1 =
      some (firstPlan (enteredPlan ++ [revisedCandidate])) := firstPlan_step (by decide +kernel)
  have hends := hclaim {} (runOps {} (init {}) enteredPlan) revisedCandidate 1
    (firstPlan enteredPlan) _ ⟨enteredPlan, rfl⟩ rfl (firstPlan_stored (by decide +kernel))
    (by decide +kernel) hafter (by decide +kernel)
  obtain ⟨after, _, hstored, _, _, _, _, hleft⟩ := hends.recorded
  obtain rfl := Option.some.inj (hafter.symm.trans hstored)
  have hentered : (firstPlan (enteredPlan ++ [revisedCandidate])).stageEntered = true := by
    decide +kernel
  rw [hentered] at hleft
  cases hleft

end LifecycleFabric
