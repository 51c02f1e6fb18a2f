import LifecycleFabric.Engine.Chains

/-!
# How plans and versions end, as chains

The commit and the failure of a stage, the supersession of a plan, and the retirement
and revalidation of a version. The failure path of a stage advance grants in the root
scope of the plan only; the success path grants in the scopes of the current stage and
the next one only.
-/

namespace LifecycleFabric

open EngineState AuthorityTable

variable {c : EngineConfig} {p : Permit} {s s' : EngineState}

/-! ## Stage failure -/

theorem moves_commitFailure (s : EngineState) (rollout : RolloutId) (plan : RolloutPlan)
    (reasons : List Reason) (leaveStage : Bool) (hp : p.edits rollout.raw)
    (hopen : p.strict → ∀ stored, s.rolloutOf rollout = some stored →
      stored.stageSettled = false) :
    Moves c p s (s.commitFailure rollout plan reasons leaveStage) := by
  have hfail := ((moves_bump (c := c) (p := p) s).then (moves_bump _).chain).then
    (chain_modifyRollout s.bumpSequence.bumpSequence rollout
      (f := failedPlan s.bumpSequence.sequence s.bumpSequence.bumpSequence.sequence reasons
        leaveStage) hp fun stored hstored => planStep_failedPlan _ _ _ _
          fun hstrict => hopen hstrict stored hstored)
  have hwithdraw := hfail.then (chain_supersedeRolloutBindings _ plan.id plan.generation)
  exact (hwithdraw.then (chain_advanceVersion _ plan.model plan.candidate .canaryFailed
    (by decide))).then (moves_stampVersion _ plan.model plan.candidate).chain

/-- The failed plan is what a committed failure leaves under its key. -/
theorem rolloutOf_commitFailure {rollout : RolloutId} {plan : RolloutPlan}
    (hplan : s.rolloutOf rollout = some plan) (reasons : List Reason) (leaveStage : Bool) :
    (s.commitFailure rollout plan reasons leaveStage).rolloutOf rollout =
      some (failedPlan s.bumpSequence.sequence s.bumpSequence.bumpSequence.sequence reasons
        leaveStage plan) := by
  change (s.rollouts.modify rollout.raw _).get? rollout.raw = _
  rw [OrdMap.get?_modify_self, ← rolloutOf, hplan]
  rfl

/-- A stage advance fails only a stage that has no decision yet. -/
def RolloutProgressRequest.settlesOpen (s : EngineState) (request : RolloutProgressRequest) :
    Prop :=
  (s.evaluateStageAdvance request).has .stageFailureThresholdExceeded = true →
    ∀ plan ∈ s.rolloutOf request.rollout, plan.stageSettled = false

/-- The target of an automatic rollback takes up service, if it is still stored. -/
def EngineState.resumeTarget (s : EngineState) (plan : RolloutPlan) : EngineState :=
  match s.versionOf plan.model plan.rollbackTarget with
  | none => s
  | some _ => (s.advanceVersion plan.model plan.rollbackTarget .current).stampVersion
      plan.model plan.rollbackTarget

theorem chain_resumeTarget (s : EngineState) (plan : RolloutPlan) (p : Permit) :
    Chain c p s (s.resumeTarget plan) := by
  unfold resumeTarget
  split
  · exact Chain.refl s
  · exact (chain_advanceVersion _ _ _ _ (by decide)).trans (moves_stampVersion _ _ _).chain

/-- An automatic rollback is a chain when the gate permits it. -/
theorem chain_commitAutomaticRollback (hs : Coherent s) (rollout : RolloutId) {plan : RolloutPlan}
    (record : ModelVersionRecord)
    (hnone : ∀ stored, s.rolloutOf rollout = some stored →
      stored.id.valid = true → stored.lastRollback.valid = false) :
    Chain c (Permit.ending rollout (plan.grantsIn [plan.rootScope])) s
      (s.commitAutomaticRollback rollout plan record) := by
  have hfence : Chain c (Permit.still (plan.grantsIn [plan.rootScope])) s _ :=
    chain_supersedeScope s plan.rootScope
  have hgrant := hfence.trans (grantAuthority_progresses (c := c)
    (p := Permit.still (plan.grantsIn [plan.rootScope])) (hfence.coherent hs)
    { model := plan.model
      version := plan.candidate
      scope := plan.rootScope
      kind := .exclusive
      rollback := ⟨s.nextRollbackId⟩
      rollbackGeneration := record.rollbackGeneration.nextGeneration
      supersedeExisting := true
      retentionTarget := plan.rollbackTarget
      retentionGeneration := plan.rollbackTargetGeneration }
    (namesStored_none rfl) (fun b hb => ⟨by simp [hb.1], hb.2⟩)).chain
  unfold commitAutomaticRollback
  dsimp only
  have hrecord := (hgrant.trans (chain_resumeTarget _ plan _)).trans (chain_recordRollback _ plan.model
    plan.candidate ⟨s.nextRollbackId⟩ record.rollbackGeneration.nextGeneration)
  have hmark := (hrecord.of_still (p := Permit.ending rollout (plan.grantsIn [plan.rootScope]))
    fun _ h => h).trans (chain_modifyRollout _ rollout
      (f := fun plan => markRollback ⟨s.nextRollbackId⟩
        record.rollbackGeneration.nextGeneration plan.updatedSequence plan) rfl (by
        intro stored hstored
        rw [rolloutOf, hrecord.rollouts_eq fun _ h => h, ← rolloutOf] at hstored
        exact planStep_markRollback _ _ _ (hnone stored hstored)))
  refine Chain.trans ?_ (chain_touchScope _ _)
  refine Chain.trans ?_ (chain_advanceVersion _ _ _ _ (by decide))
  exact hmark.tail (.spendRollback _ _ _ _)

/-- After the failure is committed, the failure path is a chain. -/
theorem chain_afterFailure (hs : Coherent s) (request : RolloutProgressRequest)
    {plan : RolloutPlan} (hplan : s.rolloutOf request.rollout = some plan) (gate : Decision) :
    Chain c (Permit.ending request.rollout (plan.grantsIn [plan.rootScope]))
      (s.commitFailure request.rollout plan gate.reasons false)
      (s.failCurrentStage request plan gate).1 := by
  have hfail := moves_commitFailure (c := c)
    (p := Permit.ending request.rollout (plan.grantsIn [plan.rootScope]) False) s request.rollout
    plan gate.reasons false rfl False.elim
  unfold failCurrentStage
  dsimp only
  split
  · exact Chain.refl _
  · split
    · exact Chain.refl _
    · rename_i record _
      split
      · exact Chain.refl _
      · rename_i hgate
        split
        · exact Chain.refl _
        · refine chain_commitAutomaticRollback (hfail.chain.coherent hs) _ _ ?_
          intro stored hstored hvalid
          obtain ⟨candidate, target, hpermitted⟩ := rollback_permitted (by simpa using hgate)
          -- The gate looked the plan up by its own identity, which is its key.
          have hkey : plan.id = request.rollout := Ident.ext (hs.rollouts _ plan hplan)
          rw [rolloutOf_commitFailure hplan] at hstored
          obtain rfl := Option.some.inj hstored
          obtain ⟨seen, hseen, _, hnone⟩ := hpermitted.plan hvalid
          simp only [automaticRollback, hkey, rolloutOf_commitFailure hplan,
            Option.some.injEq] at hseen
          rw [← hseen] at hnone
          exact hnone

/-- The failure path of a stage advance always commits the failure. -/
theorem failCurrentStage_moves (hs : Coherent s) (request : RolloutProgressRequest)
    {plan : RolloutPlan} (hplan : s.rolloutOf request.rollout = some plan) (gate : Decision)
    {strict : Prop} (hopen : strict → plan.stageSettled = false) :
    Moves c (Permit.ending request.rollout (plan.grantsIn [plan.rootScope]) strict) s
      (s.failCurrentStage request plan gate).1 := by
  have hfail := moves_commitFailure (c := c)
    (p := Permit.ending request.rollout (plan.grantsIn [plan.rootScope]) strict) s request.rollout
    plan gate.reasons false rfl (by
      intro hstrict stored hstored
      obtain rfl : plan = stored := Option.some.inj (hplan.symm.trans hstored)
      exact hopen hstrict)
  have hafter := chain_afterFailure (c := c) hs request hplan gate
  exact hfail.then (hafter.imp_strict fun _ => trivial)

/-! ## Stage commit -/

theorem chain_drainPrevious (plan : RolloutPlan) (stage : StageDefinition) (scope : ScopeId)
    (s : EngineState) : Chain c p s (drainPrevious plan stage scope s) := by
  unfold drainPrevious
  dsimp only
  split
  · have hdrain := chain_markDraining (c := c) (p := p) s plan.model plan.previous scope
    split
    · exact hdrain
    · split
      · exact hdrain
      · exact hdrain.trans (chain_advanceVersion _ _ _ _ (by decide))
  · exact Chain.refl s

/-- Leaving a committed stage completes the plan or enters its next stage. -/
theorem leaveStage_chain (hs : Coherent s) (rollout : RolloutId) {plan : RolloutPlan}
    (hplan : s.rolloutOf rollout = some plan) (hlive : plan.live = true)
    (hentered : plan.stageEntered = true) (hadvanced : plan.stageAdvanced = true)
    {granted : List ScopeId} (hscopes : plan.stageScopes plan.nextStage ⊆ granted) :
    Chain c (Permit.driving rollout (plan.grantsIn granted)) s (s.leaveStage rollout plan).1 := by
  have hbump := (Chain.refl (c := c)
    (p := Permit.driving rollout (plan.grantsIn granted)) s).bump
  unfold leaveStage
  split
  · refine (hbump.trans (chain_modifyRollout _ rollout rfl ?_)).trans
      (chain_advanceVersion _ _ _ _ (by decide))
    intro stored hstored
    obtain rfl : plan = stored := Option.some.inj (hplan.symm.trans hstored)
    exact planStep_completedPlan _ hlive hadvanced
  · rename_i hlast
    have hkey : plan.id.raw = rollout.raw := hs.rollouts _ plan hplan
    have henter := hbump.trans (chain_modifyRollout _ rollout
      (f := nextStagePlan plan.nextStage s.bumpSequence.sequence) rfl (by
        intro stored hstored
        have hsame : s.rolloutOf rollout = some stored := hstored
        rw [hplan] at hsame
        obtain rfl := Option.some.inj hsame
        exact (planStep_nextStagePlan _ hlive hentered hadvanced (by omega)).drive rfl))
    have hrecord := (henter.trans (chain_advanceVersion _ plan.model plan.candidate
      .partiallyPromoted (by decide))).trans (chain_recordStage _ plan.model
        plan.candidate plan.nextStage.id
        (nextStagePlan plan.nextStage s.bumpSequence.sequence plan).currentStageGeneration)
    have hstored : (s.rollouts.modify rollout.raw (nextStagePlan plan.nextStage
        s.bumpSequence.sequence)).get? plan.id.raw =
          some (nextStagePlan plan.nextStage s.bumpSequence.sequence plan) := by
      rw [hkey, OrdMap.get?_modify_self, ← rolloutOf, hplan]
      rfl
    exact hrecord.trans (Chain.of_still (chain_grantStage (hrecord.coherent hs)
      (nextStagePlan plan.nextStage s.bumpSequence.sequence plan) plan.nextStage .canary false
      (fun _ s => s) (fun _ _ => Chain.refl _) hstored ⟨rfl, rfl, rfl⟩ hscopes) fun _ h => h)

/-- The scopes a stage commit may grant in: those of the current stage and the next. -/
def RolloutPlan.frontier (plan : RolloutPlan) : List ScopeId :=
  plan.stageScopes plan.currentStage ++ plan.stageScopes plan.nextStage

/-- The advanced plan is live in the same stage, which is now advanced. -/
theorem stageAdvanced_advancedPlan (decided updated : Sequence) (plan : RolloutPlan) :
    (advancedPlan decided updated plan).stageAdvanced = true := by
  simp [RolloutPlan.stageAdvanced, advancedPlan]

theorem commitStage_moves (hs : Coherent s) (rollout : RolloutId) {plan : RolloutPlan}
    (hplan : s.rolloutOf rollout = some plan) (hlive : plan.live = true)
    (hentered : plan.stageEntered = true) (hstage : plan.currentStageIndex < plan.stages.length)
    (hopen : plan.stageSettled = false) :
    Moves c (Permit.driving rollout (plan.grantsIn plan.frontier)) s
      (s.commitStage rollout plan).1 := by
  have hkey : plan.id.raw = rollout.raw := hs.rollouts _ plan hplan
  have hadvance := ((moves_bump (c := c)
    (p := Permit.driving rollout (plan.grantsIn plan.frontier)) s).then (moves_bump _).chain).then
      (chain_modifyRollout s.bumpSequence.bumpSequence rollout
        (f := advancedPlan s.bumpSequence.sequence s.bumpSequence.bumpSequence.sequence) rfl (by
          intro stored hstored
          obtain rfl : plan = stored := Option.some.inj (hplan.symm.trans hstored)
          exact planStep_advancedPlan _ _ hlive hentered hstage hopen))
  have hstored : (s.rollouts.modify rollout.raw (advancedPlan s.bumpSequence.sequence
      s.bumpSequence.bumpSequence.sequence)).get? rollout.raw = some (advancedPlan
        s.bumpSequence.sequence s.bumpSequence.bumpSequence.sequence plan) := by
    rw [OrdMap.get?_modify_self, ← rolloutOf, hplan]
    rfl
  have hscopes : plan.stageScopes plan.currentStage ⊆ plan.frontier :=
    List.subset_append_left _ _
  have hstill := chain_grantStage (c := c) (hadvance.chain.coherent hs)
    (advancedPlan s.bumpSequence.sequence s.bumpSequence.bumpSequence.sequence plan)
    plan.currentStage .exclusive true (drainPrevious plan plan.currentStage)
    (fun _ _ => chain_drainPrevious _ _ _ _) (hkey ▸ hstored) ⟨rfl, rfl, rfl⟩ hscopes
  have hgrant := hadvance.then (hstill.of_still fun _ h => h)
  unfold commitStage
  dsimp only
  split
  · exact hgrant
  · have hrollouts := hstill.rollouts_eq fun _ h => h
    have hadvanced : rolloutOf _ rollout = some (advancedPlan s.bumpSequence.sequence
        s.bumpSequence.bumpSequence.sequence plan) :=
      (congrArg (OrdMap.get? · rollout.raw) hrollouts).trans hstored
    have hnext : plan.stageScopes plan.nextStage ⊆ plan.frontier := List.subset_append_right _ _
    have hleave := hgrant.then
      (leaveStage_chain (hgrant.chain.coherent hs) rollout hadvanced hlive hentered
        (stageAdvanced_advancedPlan _ _ plan) hnext)
    split
    · exact hleave
    · exact (hleave.then (chain_refreshRoot _ rollout plan.rootScope rfl rfl)).then
        (moves_stampVersion _ plan.model plan.candidate).chain

/-- What a stage advance may do: it grants only for its plan's candidate, in the root
scope or at the frontier, and drives only its plan. -/
def RolloutPlan.advancePermit (plan : RolloutPlan) (rollout : RolloutId)
    (strict : Prop := False) : Permit :=
  Permit.driving rollout (plan.grantsIn (plan.rootScope :: plan.frontier)) strict

/-- What a stage advance of a stored plan comes to: nothing changes, the current stage
fails, or the stage of a live and current plan commits. -/
inductive AdvanceCase (s : EngineState) (request : RolloutProgressRequest) (plan : RolloutPlan) :
    Prop
  | refused (hsame : (s.advanceStage request).1 = s)
  | failed
      (htripped : (s.evaluateStageAdvance request).has .stageFailureThresholdExceeded = true)
      (hstate : (s.advanceStage request).1 =
        (s.failCurrentStage request plan (s.evaluateStageAdvance request)).1)
  | committed (hlive : plan.live = true) (hcurrent : s.checkPlanBindings plan = none)
      (hentered : plan.stageEntered = true) (hstage : plan.currentStageIndex < plan.stages.length)
      (hopen : plan.stageSettled = false)
      (hstate : (s.advanceStage request).1 = (s.commitStage request.rollout plan).1)

theorem advanceStage_cases {request : RolloutProgressRequest} {plan : RolloutPlan}
    (hplan : s.rolloutOf request.rollout = some plan) : AdvanceCase s request plan := by
  have hadvance : (s.advanceStage request).1 = (s.advanceStage request).1 := rfl
  conv_rhs at hadvance =>
    unfold advanceStage
    simp only [hplan]
  split at hadvance
  · exact .refused hadvance
  · rename_i hrefused
    split at hadvance
    · exact .refused hadvance
    · split at hadvance
      · rename_i htripped
        exact .failed htripped hadvance
      · rename_i hpassed
        have hallowed : (s.evaluateStageAdvance request).allowed = true := by
          by_contra hdenied
          exact hrefused ⟨by simpa using hdenied, by simpa using hpassed⟩
        obtain ⟨found, hfound, hfaults⟩ := stage_permitted hallowed
        obtain rfl : plan = found := Option.some.inj (hplan.symm.trans hfound)
        obtain ⟨hlive, hcurrent⟩ := stage_permitted_live hfaults
        obtain ⟨hentered, hstage, hopen⟩ := stage_permitted_open hfaults
        exact .committed hlive hcurrent hentered hstage hopen hadvance

theorem advanceStage_progresses (hs : Coherent s) (request : RolloutProgressRequest)
    {plan : RolloutPlan} (hplan : s.rolloutOf request.rollout = some plan) {strict : Prop}
    (hopen : strict → request.settlesOpen s) :
    Progresses c (plan.advancePermit request.rollout strict) s (s.advanceStage request).1 := by
  cases advanceStage_cases hplan with
  | refused hsame =>
    rw [hsame]
    exact Progresses.refl s
  | failed htripped hstate =>
    obtain ⟨mid, hbefore, hafter⟩ := failCurrentStage_moves (c := c) hs request hplan
      (s.evaluateStageAdvance request) fun hstrict => hopen hstrict htripped plan hplan
    have hgrants : ∀ b, plan.grantsIn [plan.rootScope] b →
        plan.grantsIn (plan.rootScope :: plan.frontier) b := by
      rintro b ⟨hscope, hb⟩
      exact ⟨List.mem_cons.mpr (Or.inl (List.mem_singleton.mp hscope)), hb⟩
    have hwiden : ∀ {t t' : EngineState},
        Chain c (Permit.ending request.rollout (plan.grantsIn [plan.rootScope]) strict) t t' →
          Chain c (plan.advancePermit request.rollout strict) t t' :=
      Chain.mono hgrants (fun _ h => h) (fun _ h => False.elim h) (fun h => h) fun h => h
    rw [hstate]
    exact Moves.progresses ⟨mid, hwiden hbefore, hwiden hafter⟩
  | committed hlive _ hentered hstage hundecided hstate =>
    obtain ⟨mid, hbefore, hafter⟩ := commitStage_moves (c := c) hs request.rollout hplan hlive
      hentered hstage hundecided
    have hgrants : ∀ b, plan.grantsIn plan.frontier b →
        plan.grantsIn (plan.rootScope :: plan.frontier) b :=
      fun b hb => ⟨List.mem_cons_of_mem _ hb.1, hb.2⟩
    have hwiden : ∀ {t t' : EngineState},
        Chain c (Permit.driving request.rollout (plan.grantsIn plan.frontier)) t t' →
          Chain c (plan.advancePermit request.rollout strict) t t' :=
      Chain.mono hgrants (fun _ h => h) (fun _ h => h) (fun h => h) fun _ => trivial
    rw [hstate]
    exact Moves.progresses ⟨mid, hwiden hbefore, hwiden hafter⟩

end LifecycleFabric
