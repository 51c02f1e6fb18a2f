import LifecycleFabric.Engine.Gates
import LifecycleFabric.Engine.PlanSteps

/-!
# Composite operations are chains

Each composite operation refuses without effect, or is a chain of effects during which
the sequence advances. Its permit says which bindings it may append and which plan it
may drive on.
-/

namespace LifecycleFabric

open EngineState AuthorityTable

variable {c : EngineConfig} {p : Permit} {s s' : EngineState}

/-- The permit of an operation that drives no plan on. -/
def Permit.undriven (grants : AuthorityBinding → Prop) (strict : Prop := True) : Permit :=
  { grants, drives := fun _ => False, retires := False, strict }

/-- The permit of a part of an operation that edits no plan. -/
def Permit.still (grants : AuthorityBinding → Prop) : Permit :=
  { grants, edits := fun _ => False, drives := fun _ => False, retires := False, strict := True }

/-- The permit of the stages of one plan. -/
def Permit.driving (rollout : RolloutId) (grants : AuthorityBinding → Prop)
    (strict : Prop := True) : Permit :=
  { grants, edits := (· = rollout.raw), drives := (· = rollout.raw), retires := False, strict }

/-- The permit of an operation that may end one plan. -/
def Permit.ending (rollout : RolloutId) (grants : AuthorityBinding → Prop)
    (strict : Prop := True) : Permit :=
  { grants, edits := (· = rollout.raw), drives := fun _ => False, retires := False, strict }

/-- A part of an operation that edits no plan is one of an operation that may. -/
theorem Chain.of_still {grants : AuthorityBinding → Prop}
    (h : Chain c (Permit.still grants) s s') (hgrants : ∀ b, grants b → p.grants b) :
    Chain c p s s' :=
  Chain.mono hgrants (fun _ hedits => False.elim hedits) (fun _ hdrives => False.elim hdrives)
    (fun hretires => False.elim hretires) (fun _ => trivial) h

theorem Moves.of_still {grants : AuthorityBinding → Prop}
    (h : Moves c (Permit.still grants) s s') (hgrants : ∀ b, grants b → p.grants b) :
    Moves c p s s' := by
  obtain ⟨mid, hbefore, hafter⟩ := h
  exact ⟨mid, hbefore.of_still hgrants, hafter.of_still hgrants⟩

/-! ## Versions and revisions -/

/-- An advance that is refused leaves the version as it was. -/
theorem advanceVersion_of_refused {model : ModelId} {version : ModelVersionId}
    {target : LifecycleState} (h : (s.advanceDecision model version target).allowed = false) :
    s.advanceVersion model version target = s := by
  have hversions : (s.advanceVersion model version target).versions = s.versions := by
    refine OrdMap.ext_get? ?_
    intro key
    simp only [advanceVersion, modifyVersion, OrdMap.get?_modify]
    cases hrecord : s.versions.get? key with
    | none => rfl
    | some record =>
      by_cases hkey : key = versionKey model version
      · rw [hkey] at hrecord
        simp only [advanceDecision, versionOf, hrecord] at h
        rcases ModelVersionRecord.advanceLifecycleTo_cases record target with
          ⟨hallowed, _⟩ | ⟨_, hsame⟩
        · rw [hallowed] at h
          cases h
        · simp [hkey, hsame]
      · simp [hkey]
  exact congrArg (fun versions => { s with versions }) hversions

theorem chain_supersedeRevisedPlans (hp : ∀ key, p.edits key) (candidate : ModelVersionId)
    (keys : List UInt64) (s : EngineState) :
    Chain c p s (supersedeRevisedPlans candidate keys s) := by
  induction keys generalizing s with
  | nil => exact Chain.refl s
  | cons key keys ih =>
    unfold supersedeRevisedPlans
    cases s.rollouts.get? key with
    | none => exact ih s
    | some plan =>
      dsimp only
      split_ifs
      · exact ih s
      · have hbump := (Chain.refl (c := c) (p := p) s).bump
        have hedit := hbump.tail (.editPlan _ key (revisedPlan s.bumpSequence.sequence) (hp key)
          fun _ _ => planStep_revisedPlan _)
        exact (hedit.trans (chain_supersedeRolloutBindings _ plan.id plan.generation)).trans (ih _)

theorem reviseVersion_progresses (s : EngineState) (request : ReviseVersionRequest) :
    Progresses c (Permit.undriven fun _ => False) s (s.reviseVersion c request).1 := by
  unfold reviseVersion
  cases hrecord : s.versionOf request.model request.version with
  | none => exact Progresses.refl s
  | some record =>
    dsimp only
    split_ifs with _ _ _ hdigest
    · exact Progresses.refl s
    · exact Progresses.refl s
    · exact Progresses.refl s
    · exact Progresses.refl s
    · exact Progresses.refl s
    all_goals
      have hrevise := (moves_bump (c := c) (p := Permit.undriven fun _ => False) s).then
        (Effect.editVersion s.bumpSequence request.model request.version
          (fun _ => revisedRecord record request s.bumpSequence.sequence) (by
            intro stored hstored
            obtain rfl : record = stored := Option.some.inj (hrecord.symm.trans hstored)
            exact .revise record request _ (by simpa using hdigest))).chain
      have hfacts := hrevise.then (Effect.withdrawFacts _ record.version).chain
      have hevidence := hfacts.then (Effect.withdrawEvidence _ record.version
        (revisedRecord record request s.bumpSequence.sequence).generation).chain
    · exact hevidence.progresses
    · exact (hevidence.then (chain_supersedeRevisedPlans (fun _ => trivial) _ _ _)).progresses
    · refine ((hevidence.then (chain_supersedeRevisedPlans (fun _ => trivial) _ _ _)).then
        (Effect.editVersion _ request.model request.version _ ?_).chain).progresses
      exact fun stored _ => versionEdit_transition stored (by decide)

/-! ## Promotion -/

/-- What a promotion may append: bindings of the candidate, and retained ones, in the
requested scope. -/
def PromotionRequest.permit (request : PromotionRequest) (strict : Prop := False) : Permit :=
  Permit.undriven (fun b => b.scope = request.scope ∧
    (b.kind = .rollbackRetained ∨ b.model = request.model ∧ b.version = request.candidate)) strict

/-- The live plans of the other candidates of a model await the decision of their current
stage. -/
def EngineState.InflightOpen (s : EngineState) (record : ModelVersionRecord) : Prop :=
  ∀ plan ∈ s.rollouts.values, plan.live = true → plan.model = record.model →
    plan.candidate ≠ record.version → plan.stageSettled = false

/-- A promotion supersedes only plans whose current stage has no decision yet. -/
def PromotionRequest.settlesOpen (c : EngineConfig) (s : EngineState)
    (request : PromotionRequest) : Prop :=
  (s.evaluatePromotion c request).allowed = true →
    ∀ record ∈ s.versionOf request.model request.candidate,
      (s.livePlansFor record.version).isEmpty = true →
      (s.policy.effective s.scopes request.scope).supersedeInflightRolloutOnNewPromotion = true →
        s.InflightOpen record

/-- A plan that ended is no longer among those in flight. -/
theorem inflightOpen_of_modify {record : ModelVersionRecord} {key : UInt64}
    {f : RolloutPlan → RolloutPlan} (hs : s.InflightOpen record) (hf : ∀ plan, (f plan).live = false)
    (hrollouts : s'.rollouts = s.rollouts.modify key f) : s'.InflightOpen record := by
  intro plan hplan hlive hmodel hcandidate
  obtain ⟨key', hkey'⟩ := OrdMap.mem_values_iff.mp hplan
  rw [hrollouts, OrdMap.get?_modify, Option.map_eq_some_iff] at hkey'
  obtain ⟨before, hbefore, rfl⟩ := hkey'
  by_cases hkey : key' = key
  · rw [if_pos hkey, hf] at hlive
    cases hlive
  · rw [if_neg hkey] at hlive hmodel hcandidate ⊢
    exact hs before (OrdMap.mem_values_iff.mpr ⟨key', hbefore⟩) hlive hmodel hcandidate

theorem progresses_supersedeInflight (hp : ∀ key, p.edits key) (record : ModelVersionRecord)
    (keys : List UInt64) (s : EngineState) (hopen : p.strict → s.InflightOpen record) :
    Progresses c p s (supersedeInflight record keys s) := by
  induction keys generalizing s with
  | nil => exact Progresses.refl s
  | cons key keys ih =>
    unfold supersedeInflight
    cases hplan : s.rollouts.get? key with
    | none => exact ih s hopen
    | some plan =>
      dsimp only
      split_ifs with hskip
      · exact ih s hopen
      · simp only [not_or, not_not] at hskip
        obtain ⟨hlive, hmodel, hcandidate⟩ := hskip
        have hedit := (moves_bump (c := c) (p := p) s).then
          (Effect.editPlan s.bumpSequence key _ (hp key) (by
            intro stored hstored
            obtain rfl : plan = stored := Option.some.inj (hplan.symm.trans hstored)
            exact planStep_supersededPlan s.bumpSequence.sequence
              (text "a newer promotion superseded this rollout")
              fun hstrict => hopen hstrict plan (OrdMap.mem_values_iff.mpr ⟨key, hplan⟩) hlive hmodel
                hcandidate)).chain
        have hweaken := hedit.then (chain_supersedeRolloutBindings _ plan.id plan.generation)
        have hended : ∀ plan, (supersededPlan s.bumpSequence.sequence
            (text "a newer promotion superseded this rollout") plan).live = false := by
          simp [RolloutPlan.live, supersededPlan]
        have hrest : ∀ t : EngineState, t.rollouts = s.rollouts.modify key
              (supersededPlan s.bumpSequence.sequence
                (text "a newer promotion superseded this rollout")) →
            Progresses c p t (supersedeInflight record keys t) := fun t ht =>
          ih t fun hstrict => inflightOpen_of_modify (hopen hstrict) hended ht
        split
        · exact (hweaken.then (hrest _ rfl).chain).progresses
        · split_ifs
          · exact (hweaken.then (hrest _ rfl).chain).progresses
          · exact ((hweaken.then (chain_advanceVersion _ _ _ _ (by decide))).then
              (hrest _ rfl).chain).progresses

theorem moves_commitPromotion (s : EngineState) (request : PromotionRequest)
    (promotion : PromotionId) (generation : PromotionGeneration) :
    Moves c p s (s.commitPromotion request promotion generation) :=
  ((moves_bump s).then (chain_annotate _ request.model request.candidate
    fun _ => by constructor <;> rfl)).then (Effect.spendPromotion _ promotion).chain

/-- A grant that names no plan. -/
theorem namesStored_none {g : GrantRequest} (h : g.plan = none) : g.NamesStored s := by
  intro plan hplan
  rw [h] at hplan
  cases hplan

theorem chain_advanceTarget (s : EngineState) (request : PromotionRequest) :
    Chain c p s (s.advanceVersion request.model request.candidate request.targetState) := by
  refine chain_advanceVersion s _ _ _ ?_
  unfold PromotionRequest.targetState
  split_ifs <;> decide

theorem progresses_clearInflight (s : EngineState) (request : PromotionRequest)
    (record : ModelVersionRecord) {strict : Prop}
    (hopen : strict →
      (s.policy.effective s.scopes request.scope).supersedeInflightRolloutOnNewPromotion = true →
        s.InflightOpen record) :
    Progresses c (request.permit strict) s (s.clearInflight request record) := by
  unfold clearInflight
  split_ifs with hclears
  · exact progresses_supersedeInflight (fun _ => trivial) record _ s
      fun hstrict => hopen hstrict hclears
  · exact Progresses.refl s

/-- The grant of a promotion advances the sequence when there is one to make. -/
theorem grantPromotion_progresses (hs : Coherent s) (request : PromotionRequest)
    (promotion : PromotionId) (generation : PromotionGeneration) {record : ModelVersionRecord}
    (hrecord : s.versionOf request.model request.candidate = some record)
    (hretired : record.retired = false) (hscope : (s.scopes.find request.scope).isSome = true)
    (strict : Prop) :
    s.grantPromotion request promotion generation = (s, .accepted) ∨
      Moves c (request.permit strict) s (s.grantPromotion request promotion generation).1 := by
  unfold grantPromotion
  split_ifs
  · exact Or.inr (grantAuthority_moves hs _ (namesStored_none rfl) (fun b hb => hb) hrecord
      hretired hscope)
  · exact Or.inl rfl

theorem promote_progresses (hs : Coherent s) (request : PromotionRequest) {strict : Prop}
    (hopen : strict → request.settlesOpen c s) :
    Progresses c (request.permit strict) s (s.promote c request).1 := by
  unfold promote
  dsimp only
  split
  · exact Progresses.refl s
  · rename_i hgate
    obtain ⟨record, hrecord, hretired, hscope⟩ := promotion_permitted (by simpa using hgate)
    rw [hrecord]
    dsimp only
    split
    · exact Progresses.refl s
    · rename_i hfree
      have hclear := progresses_clearInflight (c := c) s request record fun hstrict =>
        hopen hstrict (by simpa using hgate) record hrecord (by simpa using hfree)
      have hadvance := hclear.chain.trans (chain_advanceTarget (c := c) _ request)
      split
      · rename_i hrefused
        rw [advanceVersion_of_refused (by simpa using hrefused)]
        exact hclear
      · obtain ⟨stored, hstored, hkept⟩ := hadvance.version_stands (fun h => h) hrecord
        rcases grantPromotion_progresses (c := c) (hadvance.coherent hs) request
          ⟨(s.clearInflight request record).nextPromotionId⟩
          record.promotionGeneration.nextGeneration hstored (hkept.trans hretired)
          (hadvance.scope_stands hscope) strict with hnone | hgrant
        · rw [hnone]
          exact (hadvance.moves (moves_commitPromotion _ _ _ _)).progresses
        · have hmoved := hadvance.moves hgrant
          split
          · exact (hmoved.then (chain_advanceVersion _ _ _ _ (by decide))).progresses
          · exact (hmoved.then (moves_commitPromotion _ _ _ _).chain).progresses

/-! ## Rollback -/

/-- What a rollback may append: bindings of the target, and retained ones, in the
requested scope. -/
def RollbackRequest.grants (request : RollbackRequest) (b : AuthorityBinding) : Prop :=
  b.scope = request.scope ∧
    (b.kind = .rollbackRetained ∨ b.model = request.model ∧ b.version = request.target)

def RollbackRequest.permit (request : RollbackRequest) (strict : Prop := False) : Permit :=
  Permit.undriven request.grants strict

/-- A rollback stops only a plan whose current stage has no decision yet. -/
def RollbackRequest.settlesOpen (s : EngineState) (request : RollbackRequest) : Prop :=
  (s.evaluateRollback request).allowed = true → request.rollout.valid = true →
    ∀ plan ∈ s.rolloutOf request.rollout, plan.live = true → plan.stageSettled = false

/-- Stopping a plan that has no committed rollback is a chain. -/
theorem chain_stopRollout (s : EngineState) (rollout : RolloutId) (rollback : RollbackId)
    (generation : RollbackGeneration) (hp : p.edits rollout.raw)
    (hnone : ∀ plan, s.rolloutOf rollout = some plan → plan.lastRollback.valid = false)
    (hopen : p.strict → ∀ plan, s.rolloutOf rollout = some plan → plan.live = true →
      plan.stageSettled = false) :
    Chain c p s (s.stopRollout rollout rollback generation) := by
  unfold stopRollout
  cases hplan : s.rolloutOf rollout with
  | none => exact Chain.refl s
  | some plan =>
    have hunmarked := hnone plan hplan
    dsimp only
    split
    · rename_i hlive
      have hend := (Chain.refl (c := c) (p := p) s).bump.trans (chain_modifyRollout _ rollout
        (f := rolledBackPlan s.bumpSequence.sequence) hp (by
          intro stored hstored
          obtain rfl : plan = stored := Option.some.inj (hplan.symm.trans hstored)
          exact planStep_rolledBackPlan _ fun hstrict => hopen hstrict plan hplan hlive))
      refine hend.bump.trans (chain_modifyRollout _ rollout hp ?_)
      intro stored hstored
      have hsame : stored.lastRollback = plan.lastRollback := by
        have hmodified : (s.rollouts.modify rollout.raw
            (rolledBackPlan s.bumpSequence.sequence)).get? rollout.raw = some stored := hstored
        rw [OrdMap.get?_modify_self, ← rolloutOf, hplan] at hmodified
        obtain rfl := Option.some.inj hmodified
        rfl
      exact planStep_markRollback _ _ _ fun _ => by rw [hsame, hunmarked]
    · refine (Chain.refl s).bump.trans (chain_modifyRollout _ rollout hp ?_)
      intro stored hstored
      exact planStep_markRollback _ _ _ fun _ => hnone stored hstored

theorem chain_settleRollback (s : EngineState) (request : RollbackRequest)
    (candidate : ModelVersionRecord) (rollback : RollbackId) (generation : RollbackGeneration) :
    Chain c p s (s.settleRollback request candidate rollback generation) := by
  unfold settleRollback
  refine Chain.trans ?_ (moves_stampVersion _ _ _).chain
  refine Chain.trans ?_ (chain_recordRollback _ _ _ _ _)
  have hdrain := ((chain_advanceVersion (c := c) (p := p) s request.model request.target
    .current (by decide)).trans
      (moves_stampVersion _ request.model request.target).chain).trans
      (chain_markDraining _ candidate.model candidate.version request.scope)
  split
  · exact hdrain.trans (chain_advanceVersion _ _ _ _ (by decide))
  · exact hdrain.trans (chain_advanceVersion _ _ _ _ (by decide))

theorem rollback_progresses (hs : Coherent s) (request : RollbackRequest) {strict : Prop}
    (hopen : strict → request.settlesOpen s) :
    Progresses c (request.permit strict) s (s.rollback request).1 := by
  unfold rollback
  dsimp only
  split
  · exact Progresses.refl s
  · rename_i hgate
    obtain ⟨candidate, target, hpermitted⟩ := rollback_permitted (by simpa using hgate)
    rw [hpermitted.candidateStored, hpermitted.targetStored]
    dsimp only
    have hfence : Chain c (Permit.still request.grants) s _ :=
      chain_supersedeScope s request.scope
    obtain ⟨stored, hstored, hkept⟩ := hfence.version_stands (fun h => h) hpermitted.targetStored
    have hgrant := hfence.moves (grantAuthority_moves (hfence.coherent hs)
      { model := request.model
        version := request.target
        scope := request.scope
        kind := .exclusive
        rollback := ⟨s.nextRollbackId⟩
        rollbackGeneration := candidate.rollbackGeneration.nextGeneration
        supersedeExisting := true }
      (namesStored_none rfl) (fun b hb => hb) hstored (hkept.trans hpermitted.notRetired)
      (hfence.scope_stands hpermitted.scope))
    split
    · exact (hgrant.of_still fun _ h => h).progresses
    · have hsettle := hgrant.then (chain_settleRollback _ request candidate ⟨s.nextRollbackId⟩
        candidate.rollbackGeneration.nextGeneration)
      have hmoved : Moves c (request.permit strict) s _ := hsettle.of_still fun _ h => h
      refine Moves.progresses (Moves.then (Moves.then (hmoved.then ?_)
        (Effect.spendRollback _ _ _ _).chain) (chain_touchScope _ _))
      split
      · rename_i hvalid
        -- The plan is still the one the gate saw: nothing before this edits a plan.
        have hkept := hsettle.chain.rollouts_eq fun _ h => h
        refine chain_stopRollout _ _ _ _ trivial ?_ ?_
        · intro plan hplan
          rw [rolloutOf, hkept, ← rolloutOf] at hplan
          obtain ⟨seen, hseen, _, hnone⟩ := hpermitted.plan hvalid
          rw [hplan] at hseen
          obtain rfl := Option.some.inj hseen
          exact hnone
        · intro hstrict plan hplan
          rw [rolloutOf, hkept, ← rolloutOf] at hplan
          exact hopen hstrict (by simpa using hgate) hvalid plan hplan
      · exact Chain.refl _

/-! ## Rollouts -/

/-- What the stages of a plan may append: bindings of its candidate, and retained ones, in
some scopes. -/
def RolloutPlan.grantsIn (plan : RolloutPlan) (scopes : List ScopeId) (b : AuthorityBinding) :
    Prop :=
  b.scope ∈ scopes ∧
    (b.kind = .rollbackRetained ∨ b.model = plan.model ∧ b.version = plan.candidate)

/-- Granting a stage over scopes of its plan is a chain. -/
theorem chain_grantStage (hs : Coherent s) (plan : RolloutPlan) (stage : StageDefinition)
    (kind : AuthorityKind) (supersedeExisting : Bool)
    (after : ScopeId → EngineState → EngineState) {stored : RolloutPlan}
    {scopes granted : List ScopeId}
    (hafter : ∀ scope s, Chain c (Permit.still (plan.grantsIn granted)) s (after scope s))
    (hstored : s.rollouts.get? plan.id.raw = some stored)
    (hsame : stored.generation = plan.generation ∧ stored.model = plan.model ∧
      stored.candidate = plan.candidate) (hscopes : scopes ⊆ granted) :
    Chain c (Permit.still (plan.grantsIn granted)) s
      (grantOver (stageGrant plan stage kind supersedeExisting) after scopes s).1 := by
  refine chain_grantOver (fun _ h => h) hafter hs ?_ ?_
  · intro scope _ named hnamed
    obtain rfl : plan = named := Option.some.inj hnamed
    exact ⟨stored, hstored, hsame⟩
  · rintro scope hscope b ⟨rfl, hb⟩
    exact ⟨hscopes hscope, hb⟩

theorem beginRollout_progresses (hs : Coherent s) (request : RolloutProgressRequest)
    {plan : RolloutPlan} (hplan : s.rolloutOf request.rollout = some plan) :
    Progresses c (Permit.driving request.rollout
        (plan.grantsIn (plan.stageScopes plan.firstStage))) s
      (s.beginRollout request).1 := by
  unfold beginRollout
  rw [hplan]
  dsimp only
  cases hrefusal : s.beginRefusal request plan with
  | some refusal => exact Progresses.refl s
  | none =>
    cases hrecord : s.versionOf plan.model plan.candidate with
    | none => exact Progresses.refl s
    | some record =>
      dsimp only
      split
      · exact Progresses.refl s
      · have henter := (moves_bump (c := c) (p := Permit.driving request.rollout
            (plan.grantsIn (plan.stageScopes plan.firstStage))) s).then
          (chain_modifyRollout _ request.rollout
            (f := enterStage plan.firstStage s.bumpSequence.sequence) rfl (by
              intro stored hstored
              obtain rfl : plan = stored := Option.some.inj (hplan.symm.trans hstored)
              obtain ⟨hlive, hentered, hindex, _⟩ := begin_permitted hrefusal
              exact (planStep_enterStage _ hlive hentered hindex).drive rfl))
        have hadvance := henter.then (chain_advanceVersion _ plan.model plan.candidate
          .canaryActive (by decide))
        split
        · exact hadvance.progresses
        · have hstamp := (hadvance.then (chain_recordStage _ plan.model plan.candidate
            plan.firstStage.id (enterStage plan.firstStage
              s.bumpSequence.sequence plan).currentStageGeneration)).then
                (moves_stampVersion _ plan.model plan.candidate).chain
          have hkey : plan.id.raw = request.rollout.raw := hs.rollouts _ plan hplan
          have hstored : (s.rollouts.modify request.rollout.raw (enterStage plan.firstStage
              s.bumpSequence.sequence)).get? plan.id.raw =
                some (enterStage plan.firstStage s.bumpSequence.sequence plan) := by
            rw [hkey, OrdMap.get?_modify_self, ← rolloutOf, hplan]
            rfl
          have hgrant := hstamp.then (Chain.of_still (chain_grantStage (hstamp.chain.coherent hs)
            (enterStage plan.firstStage s.bumpSequence.sequence plan) plan.firstStage .canary false
            (fun _ s => s) (fun _ _ => Chain.refl _) hstored ⟨rfl, rfl, rfl⟩
            (List.Subset.refl _))
            fun _ h => h)
          split
          · exact hgrant.progresses
          · exact (hgrant.then (chain_refreshRoot _ _ _ rfl rfl)).progresses

end LifecycleFabric
