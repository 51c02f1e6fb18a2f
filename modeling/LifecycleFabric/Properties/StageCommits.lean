import LifecycleFabric.Engine.StageGrants

/-!
# Refused stages

Entering and committing a stage write the plan and the lifecycle first, and grant the
scopes of the stage one by one afterwards. A refused grant leaves the rest behind, so a
refusal leaves no trace exactly when the grants of the stage fit.
-/

namespace LifecycleFabric

open EngineState AuthorityTable

variable {c : EngineConfig} {s s' : EngineState} {plan : RolloutPlan}

/-- The progress of a plan: its stage, generation, entered flag and history. -/
def RolloutPlan.progress (plan : RolloutPlan) :
    ℕ × RolloutStageGeneration × Bool × List StageRecord :=
  (plan.currentStageIndex, plan.currentStageGeneration, plan.stageEntered, plan.history)

/-- What a refused stage must leave as it was. -/
structure StageUntouched (s : EngineState) (rollout : RolloutId) (s' : EngineState) : Prop where
  authority : s'.authority = s.authority
  lifecycle : ∀ model version, (s'.versionOf model version).map ModelVersionRecord.state =
    (s.versionOf model version).map ModelVersionRecord.state
  plan : (s'.rolloutOf rollout).map RolloutPlan.progress =
    (s.rolloutOf rollout).map RolloutPlan.progress
  scopes : s'.scopes = s.scopes
  policy : s'.policy = s.policy

theorem StageUntouched.refl (s : EngineState) (rollout : RolloutId) : StageUntouched s rollout s :=
  ⟨rfl, fun _ _ => rfl, rfl, rfl, rfl⟩

/-- A plan whose history has grown is not untouched. -/
theorem not_untouched_of_grown {rollout : RolloutId} {plan' : RolloutPlan}
    (hplan : s.rolloutOf rollout = some plan) (hplan' : s'.rolloutOf rollout = some plan')
    {added : List StageRecord} (hadded : plan'.history = plan.history ++ added)
    (hsome : added ≠ []) : ¬StageUntouched s rollout s' := by
  intro huntouched
  have hsame := huntouched.plan
  rw [hplan, hplan', Option.map_some, Option.map_some, Option.some.injEq] at hsame
  have hhistory : plan'.history = plan.history := congrArg (fun progress => progress.2.2.2) hsame
  rw [hadded] at hhistory
  exact hsome (List.append_cancel_left (hhistory.trans (List.append_nil _).symm))

/-! ## The grants of a stage -/

/-- What a grant of a stage finds depends on its plan, not on the progress of it. -/
theorem stageGrant_same (s : EngineState) (plan plan' : RolloutPlan)
    (hmodel : plan'.model = plan.model) (hcandidate : plan'.candidate = plan.candidate)
    (htarget : plan'.rollbackTarget = plan.rollbackTarget)
    (hgeneration : plan'.rollbackTargetGeneration = plan.rollbackTargetGeneration)
    (stage : StageDefinition) (kind : AuthorityKind) (supersedeExisting : Bool) (scope : ScopeId) :
    (∀ taken used, (stageGrant plan' stage kind supersedeExisting scope).admittedAfter s taken used =
        (stageGrant plan stage kind supersedeExisting scope).admittedAfter s taken used) ∧
      (stageGrant plan' stage kind supersedeExisting scope).places s =
        (stageGrant plan stage kind supersedeExisting scope).places s := by
  constructor
  · intro taken used
    unfold GrantRequest.admittedAfter stageGrant
    dsimp only
    rw [hmodel, hcandidate]
  · have hretention : isRetentionTarget (stageGrant plan' stage kind supersedeExisting scope) =
        isRetentionTarget (stageGrant plan stage kind supersedeExisting scope) := by
      funext binding
      unfold isRetentionTarget stageGrant
      dsimp only
      rw [htarget, hgeneration]
    rw [GrantRequest.places, GrantRequest.places, GrantRequest.retains, GrantRequest.retains,
      hretention]
    rfl

/-- Which grants a stage asks for depends on its plan, not on the progress of it. -/
theorem admitsOver_stageGrant (s : EngineState) (plan plan' : RolloutPlan)
    (hmodel : plan'.model = plan.model)
    (hcandidate : plan'.candidate = plan.candidate)
    (htarget : plan'.rollbackTarget = plan.rollbackTarget)
    (hgeneration : plan'.rollbackTargetGeneration = plan.rollbackTargetGeneration)
    (stage : StageDefinition) (kind : AuthorityKind) (supersedeExisting : Bool)
    (taken : List ScopeId) (used : ℕ) (scopes : List ScopeId) :
    s.admitsOver (stageGrant plan' stage kind supersedeExisting) taken used scopes =
        s.admitsOver (stageGrant plan stage kind supersedeExisting) taken used scopes ∧
      s.placesOver (stageGrant plan' stage kind supersedeExisting) scopes =
        s.placesOver (stageGrant plan stage kind supersedeExisting) scopes := by
  have hsame := stageGrant_same s plan plan' hmodel hcandidate htarget hgeneration stage kind
    supersedeExisting
  constructor
  · induction scopes generalizing taken used with
    | nil => rfl
    | cons scope scopes ih =>
      unfold EngineState.admitsOver
      rw [(hsame scope).1, (hsame scope).2, ih]
  · rw [EngineState.placesOver, EngineState.placesOver]
    exact congrArg List.sum (List.map_congr_left fun scope _ => (hsame scope).2)

theorem nodup_stageScopes (plan : RolloutPlan) (stage : StageDefinition) :
    (plan.stageScopes stage).Nodup :=
  List.nodup_dedup _

theorem forStage_stageGrant (plan : RolloutPlan) (stage : StageDefinition) (kind : AuthorityKind)
    (supersedeExisting : Bool) (hkind : supersedeExisting = false → kind = .canary)
    (scope : ScopeId) :
    (stageGrant plan stage kind supersedeExisting scope).scope = scope ∧
      (stageGrant plan stage kind supersedeExisting scope).forStage plan.model plan.candidate :=
  ⟨rfl, rfl, rfl, hkind⟩

/-- A plan that matches the registry has a candidate that may serve. -/
theorem mayServe_of_bindings (h : s.checkPlanBindings plan = none) :
    s.mayServe plan.model plan.candidate = true := by
  unfold checkPlanBindings at h
  cases hrecord : s.versionOf plan.model plan.candidate with
  | none => simp [hrecord] at h
  | some record =>
    rw [hrecord] at h
    dsimp only at h
    split_ifs at h with hretired
    all_goals exact mayServe_iff.mpr ⟨record, hrecord, by simpa using hretired⟩

/-! ## Entering the first stage -/

/-- The plan whose first stage a request enters, when no check refuses it and no evidence
blocks it. -/
def EngineState.entry (s : EngineState) (request : RolloutProgressRequest) : Option RolloutPlan := do
  let plan ← s.rolloutOf request.rollout
  let record ← s.versionOf plan.model plan.candidate
  let effective := s.policy.effective s.scopes plan.rootScope
  if (s.beginRefusal request plan).isNone && (s.entryBlocked record plan.firstStage
      (plan.firstStage.requireResidencyBeforeEntry || effective.requireResidencyBeforeStageEntry)
      (plan.stageScopes plan.firstStage)).isNone then
    some plan
  else none

/-- Whether every scope of the first stage can be granted to the candidate. -/
def EngineState.fitsEntry (s : EngineState) (plan : RolloutPlan) : Bool :=
  s.admitsOver (stageGrant plan plan.firstStage .canary false) [] 0
    (plan.stageScopes plan.firstStage)

/-- The state in which the scopes of the first stage are granted. -/
def EngineState.enteredState (s : EngineState) (request : RolloutProgressRequest)
    (plan : RolloutPlan) : EngineState :=
  let t := s.bumpSequence
  let entered := enterStage plan.firstStage t.sequence plan
  let t := t.modifyRollout request.rollout (enterStage plan.firstStage t.sequence)
  let t := t.advanceVersion plan.model plan.candidate .canaryActive
  let t := t.recordStage plan.model plan.candidate plan.firstStage.id entered.currentStageGeneration
  t.stampVersion plan.model plan.candidate

/-- The plan as it is when the scopes of its first stage are granted. -/
def EngineState.enteredPlan (s : EngineState) (plan : RolloutPlan) : RolloutPlan :=
  enterStage plan.firstStage s.bumpSequence.sequence plan

theorem entry_permitted {request : RolloutProgressRequest} (h : s.entry request = some plan) :
    s.rolloutOf request.rollout = some plan ∧ s.beginRefusal request plan = none ∧
      ∃ record, s.versionOf plan.model plan.candidate = some record ∧
        s.entryBlocked record plan.firstStage
          (plan.firstStage.requireResidencyBeforeEntry ||
            (s.policy.effective s.scopes plan.rootScope).requireResidencyBeforeStageEntry)
          (plan.stageScopes plan.firstStage) = none := by
  unfold entry at h
  cases hplan : s.rolloutOf request.rollout with
  | none => simp [hplan] at h
  | some stored =>
    cases hrecord : s.versionOf stored.model stored.candidate with
    | none => simp [hplan, hrecord] at h
    | some record =>
      simp only [hplan, hrecord, Option.bind_eq_bind, Option.bind_some, Bool.and_eq_true,
        Option.isNone_iff_eq_none, Option.ite_none_right_eq_some, Option.some.injEq] at h
      obtain ⟨⟨hrefusal, hblocked⟩, rfl⟩ := h
      exact ⟨rfl, hrefusal, record, hrecord, hblocked⟩

/-- A request that enters no stage changes nothing. -/
theorem begin_stopped {request : RolloutProgressRequest} (h : s.entry request = none) :
    (s.beginRollout request).1 = s := by
  unfold beginRollout
  cases hplan : s.rolloutOf request.rollout with
  | none => rfl
  | some plan =>
    dsimp only
    cases hrefusal : s.beginRefusal request plan with
    | some refusal => rfl
    | none =>
      dsimp only
      cases hrecord : s.versionOf plan.model plan.candidate with
      | none => rfl
      | some record =>
        dsimp only
        split
        · rfl
        · rename_i hblocked
          simp [entry, hplan, hrecord, hrefusal, hblocked] at h

/-- A candidate that may serve can always become an active canary. -/
theorem advanceDecision_canaryActive (hserves : s.mayServe plan.model plan.candidate = true) :
    (s.advanceDecision plan.model plan.candidate .canaryActive).allowed = true := by
  obtain ⟨record, hrecord, hretired⟩ := mayServe_iff.mp hserves
  have hne : record.state ≠ .retired := by simpa [ModelVersionRecord.retired] using hretired
  obtain ⟨_, _, _, hreaches, _⟩ := LifecycleState.reaches_of_ne_retired hne
  rw [advanceDecision, hrecord]
  dsimp only
  rw [ModelVersionRecord.advanceLifecycleTo_allowed, hreaches]

/-- A request that enters a stage is settled by the grants of the stage. -/
theorem begin_eq {request : RolloutProgressRequest} (h : s.entry request = some plan) :
    s.beginRollout request =
      let granted := grantOver (stageGrant (s.enteredPlan plan) plan.firstStage .canary false)
        (fun _ s => s) (plan.stageScopes plan.firstStage) (s.enteredState request plan)
      if !granted.2.allowed then
        (granted.1, ({ outcome := granted.2.outcome } : Decision).addAll granted.2.reasons)
      else (granted.1.refreshRoot request.rollout plan.rootScope, { outcome := .canaryAllowed }) := by
  obtain ⟨hplan, hrefusal, record, hrecord, hblocked⟩ := entry_permitted h
  have hserves := mayServe_of_bindings (begin_permitted hrefusal).2.2.2
  have hadvanced : ((s.bumpSequence.modifyRollout request.rollout
      (enterStage plan.firstStage s.bumpSequence.sequence)).advanceDecision plan.model
        plan.candidate .canaryActive).allowed = true :=
    advanceDecision_canaryActive (s := s.bumpSequence.modifyRollout request.rollout
      (enterStage plan.firstStage s.bumpSequence.sequence)) hserves
  unfold beginRollout
  rw [hplan]
  dsimp only
  rw [hrefusal]
  dsimp only
  rw [hrecord]
  dsimp only
  rw [hblocked]
  dsimp only
  rw [hadvanced, Bool.not_true, if_neg Bool.false_ne_true]
  rfl

theorem rolloutOf_enteredState {request : RolloutProgressRequest}
    (hplan : s.rolloutOf request.rollout = some plan) :
    (s.enteredState request plan).rolloutOf request.rollout = some (s.enteredPlan plan) := by
  have hrollouts : (s.enteredState request plan).rollouts = s.rollouts.modify request.rollout.raw
      (enterStage plan.firstStage s.bumpSequence.sequence) := rfl
  rw [rolloutOf, hrollouts, OrdMap.get?_modify_self, ← rolloutOf, hplan]
  rfl

theorem chain_enteredState {request : RolloutProgressRequest} (h : s.entry request = some plan) :
    Chain c (Permit.driving request.rollout fun _ => True) s (s.enteredState request plan) := by
  obtain ⟨hplan, hrefusal, _⟩ := entry_permitted h
  obtain ⟨hlive, hentered, hindex, _⟩ := begin_permitted hrefusal
  have henter := (Chain.refl (c := c)
    (p := Permit.driving request.rollout fun _ => True) s).bump.trans
      (chain_modifyRollout _ request.rollout
        (f := enterStage plan.firstStage s.bumpSequence.sequence) rfl (by
          intro stored hstored
          obtain rfl : plan = stored := Option.some.inj (hplan.symm.trans hstored)
          exact (planStep_enterStage _ hlive hentered hindex).drive rfl))
  have hadvance := henter.trans (chain_advanceVersion _ plan.model plan.candidate .canaryActive
    (by decide))
  exact (hadvance.trans (chain_recordStage _ plan.model plan.candidate plan.firstStage.id
    (s.enteredPlan plan).currentStageGeneration)).trans
      (moves_stampVersion _ plan.model plan.candidate).chain

theorem authority_enteredState (s : EngineState) (request : RolloutProgressRequest)
    (plan : RolloutPlan) :
    (s.enteredState request plan).authority = s.authority ∧
      (s.enteredState request plan).scopes = s.scopes := by
  simp [enteredState, stampVersion, recordStage, advanceVersion]

/-- A grant for a stage names the plan that is stored. -/
theorem namesStored_stageGrant (plan : RolloutPlan) {t : EngineState} {rollout : RolloutId}
    {stored : RolloutPlan} (hstored : t.rolloutOf rollout = some stored)
    (hkey : plan.id.raw = rollout.raw)
    (hsame : stored.generation = plan.generation ∧ stored.model = plan.model ∧
      stored.candidate = plan.candidate) (stage : StageDefinition) (kind : AuthorityKind)
    (supersedeExisting : Bool) (scope : ScopeId) :
    (stageGrant plan stage kind supersedeExisting scope).NamesStored t := by
  intro named hnamed
  obtain rfl : plan = named := Option.some.inj hnamed
  rw [hkey]
  exact ⟨stored, hstored, hsame⟩

/-- The grants of the first stage keep the entered plan. -/
theorem rolloutOf_entryGrants (hs : Coherent s) {request : RolloutProgressRequest}
    (h : s.entry request = some plan) :
    (grantOver (stageGrant (s.enteredPlan plan) plan.firstStage .canary false) (fun _ s => s)
      (plan.stageScopes plan.firstStage) (s.enteredState request plan)).1.rolloutOf
        request.rollout = some (s.enteredPlan plan) := by
  have hplan := (entry_permitted h).1
  have hkey : plan.id.raw = request.rollout.raw := hs.rollouts _ plan hplan
  have hstored := rolloutOf_enteredState hplan
  have hkept := (chain_grantStage (c := {}) ((chain_enteredState (c := {}) h).coherent hs)
    (s.enteredPlan plan) plan.firstStage .canary false (fun _ s => s) (fun _ _ => Chain.refl _)
    (hkey ▸ hstored) ⟨rfl, rfl, rfl⟩
    (List.Subset.refl (plan.stageScopes plan.firstStage))).rollouts_eq fun _ hedits => hedits
  rw [rolloutOf, hkept]
  exact hstored

/-- The grants of the first stage succeed exactly when it fits. -/
theorem begin_spec (hs : Coherent s) (hstanding : Standing s) {request : RolloutProgressRequest}
    (h : s.entry request = some plan) :
    (s.beginRollout request).2.allowed = s.fitsEntry plan ∧
      (s.fitsEntry plan = false → ∃ plan', ∃ added : List StageRecord, added ≠ [] ∧
        (s.beginRollout request).1.rolloutOf request.rollout = some plan' ∧
        plan'.history = plan.history ++ added) := by
  obtain ⟨hplan, hrefusal, _⟩ := entry_permitted h
  have hserves := mayServe_of_bindings (begin_permitted hrefusal).2.2.2
  have hkey : plan.id.raw = request.rollout.raw := hs.rollouts _ plan hplan
  have hstored := rolloutOf_enteredState hplan
  have hchain := chain_enteredState (c := {}) h
  have hahead : Ahead s (s.enteredState request plan).rollouts plan.model plan.candidate [] 0
      (s.enteredState request plan) :=
    (Ahead.start hs hstanding hserves).keep hchain id
      (authority_enteredState s request plan).1 (authority_enteredState s request plan).2
  obtain ⟨hallowed, _⟩ := grantOver_spec _ (fun _ s => s)
    (forStage_stageGrant (s.enteredPlan plan) plan.firstStage .canary false fun _ => rfl)
    (fun scope t ht => namesStored_stageGrant (s.enteredPlan plan)
      (by rw [rolloutOf, ht]; exact hstored) hkey ⟨rfl, rfl, rfl⟩ plan.firstStage .canary false scope)
    (fun _ _ _ _ _ ht => ht) (nodup_stageScopes plan plan.firstStage)
    (fun _ _ hsupersede => absurd hsupersede Bool.false_ne_true) hahead
  rw [(admitsOver_stageGrant s plan (s.enteredPlan plan) rfl rfl rfl rfl _ _ _ _ _ _).1,
    ← fitsEntry] at hallowed
  rw [begin_eq h]
  dsimp only
  rw [hallowed]
  cases hfits : s.fitsEntry plan with
  | true => exact ⟨rfl, fun hcontra => absurd hcontra.symm Bool.false_ne_true⟩
  | false =>
    rw [hfits] at hallowed
    rw [Bool.not_false, if_pos rfl]
    constructor
    · rw [Decision.allowed, Decision.outcome_addAll]
      exact hallowed
    · intro _
      refine ⟨s.enteredPlan plan, [{ stage := plan.firstStage.id
                                     generation := plan.currentStageGeneration.nextGeneration
                                     enteredSequence := s.bumpSequence.sequence
                                     decision := .entered }], List.cons_ne_nil _ _, ?_, rfl⟩
      exact rolloutOf_entryGrants hs h

/-! ## Committing a stage -/

/-- The plan whose current stage a request commits, when the gate permits it. -/
def EngineState.commit (s : EngineState) (request : RolloutProgressRequest) : Option RolloutPlan :=
  if (s.evaluateStageAdvance request).allowed then s.rolloutOf request.rollout else none

/-- Whether the candidate can be granted every scope of the current stage, and after these
every scope of the next one. -/
def EngineState.fitsCommit (s : EngineState) (plan : RolloutPlan) : Bool :=
  let current := stageGrant plan plan.currentStage .exclusive true
  let scopes := plan.stageScopes plan.currentStage
  s.admitsOver current [] 0 scopes &&
    (decide (plan.stages.length ≤ plan.currentStageIndex + 1) ||
      s.admitsOver (stageGrant plan plan.nextStage .canary false) scopes.reverse
        (s.placesOver current scopes) (plan.stageScopes plan.nextStage))

/-- What a permitted commit relies on. -/
theorem commit_permitted {request : RolloutProgressRequest} (h : s.commit request = some plan) :
    s.rolloutOf request.rollout = some plan ∧ s.stageFaults request plan = [] ∧
      s.advanceStage request = s.commitStage request.rollout plan := by
  unfold commit at h
  split_ifs at h with hallowed
  obtain ⟨found, hfound, hfaults⟩ := stage_permitted hallowed
  obtain rfl : plan = found := Option.some.inj (h.symm.trans hfound)
  refine ⟨h, hfaults, ?_⟩
  obtain ⟨record, hrecord, _⟩ := mayServe_iff.mp
    (mayServe_of_bindings (stage_permitted_live hfaults).2)
  have hpassed : (s.evaluateStageAdvance request).has .stageFailureThresholdExceeded = false := by
    rw [evaluateStageAdvance, h] at hallowed ⊢
    dsimp only at hallowed ⊢
    split_ifs at hallowed ⊢
    · rw [gateDecision_allowed_iff rfl stageRank_pos] at hallowed
      cases hallowed
    · rw [has_normalize, hfaults]
      rfl
  unfold advanceStage
  rw [h]
  dsimp only
  rw [hallowed, hpassed, if_neg (by simp), hrecord]
  rfl

/-- Whether a stage failure was committed: a Failed record was appended to the plan. -/
def FailsStage (s : EngineState) (rollout : RolloutId) (s' : EngineState) : Prop :=
  ∃ plan plan', s.rolloutOf rollout = some plan ∧ s'.rolloutOf rollout = some plan' ∧
    ∃ entry ∈ plan'.history.drop plan.history.length, entry.decision = .failed

/-- A request that commits no stage takes the failure path, or changes nothing. -/
theorem advance_uncommitted {request : RolloutProgressRequest} (h : s.commit request = none) :
    (s.advanceStage request).1 = s ∨ ∃ plan, s.rolloutOf request.rollout = some plan ∧
      (s.evaluateStageAdvance request).has .stageFailureThresholdExceeded = true ∧
      (s.advanceStage request).1 =
        (s.failCurrentStage request plan (s.evaluateStageAdvance request)).1 := by
  unfold advanceStage
  dsimp only
  cases hplan : s.rolloutOf request.rollout with
  | none => exact Or.inl rfl
  | some plan =>
    have hdenied : (s.evaluateStageAdvance request).allowed = false := by
      by_contra hallowed
      rw [commit, if_pos (by simpa using hallowed), hplan] at h
      cases h
    dsimp only
    split
    · exact Or.inl rfl
    · rename_i hfailed
      rw [hdenied] at hfailed
      simp only [Bool.not_false, Bool.not_eq_true', true_and, Bool.not_eq_false] at hfailed
      split
      · exact Or.inl rfl
      · rw [hfailed, if_pos rfl]
        exact Or.inr ⟨plan, rfl, rfl, rfl⟩

/-- A request that commits no stage fails one, or changes nothing. -/
theorem advance_stopped (hs : Coherent s) {request : RolloutProgressRequest}
    (h : s.commit request = none) :
    (s.advanceStage request).1 = s ∨
      FailsStage s request.rollout (s.advanceStage request).1 := by
  rcases advance_uncommitted h with hsame | ⟨plan, hplan, _, hfails⟩
  · exact Or.inl hsame
  · right
    have hcommitted := rolloutOf_commitFailure hplan (s.evaluateStageAdvance request).reasons
      false
    obtain ⟨plan', hplan', hstep⟩ := (chain_afterFailure (c := {}) hs request hplan
      (s.evaluateStageAdvance request)).plan_stands hcommitted
    obtain ⟨added, hadded⟩ := hstep.history
    rw [hfails]
    refine ⟨plan, plan', hplan, hplan', failedRecord s.bumpSequence.sequence
      (s.evaluateStageAdvance request).reasons plan, ?_, rfl⟩
    rw [← hadded, failedPlan, List.append_assoc, List.drop_left]
    exact List.mem_append_left _ (List.mem_singleton_self _)

/-- The state in which the scopes of the next stage are granted. -/
def EngineState.nextState (t : EngineState) (rollout : RolloutId) (plan : RolloutPlan) :
    EngineState :=
  let t := t.bumpSequence
  let entered := nextStagePlan plan.nextStage t.sequence plan
  let t := t.modifyRollout rollout (nextStagePlan plan.nextStage t.sequence)
  let t := t.advanceVersion plan.model plan.candidate .partiallyPromoted
  t.recordStage plan.model plan.candidate plan.nextStage.id entered.currentStageGeneration

/-- The plan as it is when the scopes of its next stage are granted. -/
def EngineState.nextPlan (t : EngineState) (plan : RolloutPlan) : RolloutPlan :=
  nextStagePlan plan.nextStage t.bumpSequence.sequence plan

theorem leaveStage_eq (t : EngineState) (rollout : RolloutId)
    (hlast : ¬plan.stages.length ≤ plan.currentStageIndex + 1) :
    t.leaveStage rollout plan =
      grantOver (stageGrant (t.nextPlan plan) plan.nextStage .canary false) (fun _ s => s)
        (plan.stageScopes plan.nextStage) (t.nextState rollout plan) := by
  unfold leaveStage
  rw [if_neg hlast]
  rfl

theorem authority_nextState (t : EngineState) (rollout : RolloutId) (plan : RolloutPlan) :
    (t.nextState rollout plan).authority = t.authority ∧
      (t.nextState rollout plan).scopes = t.scopes := by
  simp [nextState, recordStage, advanceVersion]

theorem rolloutOf_nextState {t : EngineState} {rollout : RolloutId}
    (hplan : t.rolloutOf rollout = some plan) :
    (t.nextState rollout plan).rolloutOf rollout = some (t.nextPlan plan) := by
  have hrollouts : (t.nextState rollout plan).rollouts = t.rollouts.modify rollout.raw
      (nextStagePlan plan.nextStage t.bumpSequence.sequence) := rfl
  rw [rolloutOf, hrollouts, OrdMap.get?_modify_self, ← rolloutOf, hplan]
  rfl

theorem chain_nextState {t : EngineState} {rollout : RolloutId}
    (hplan : t.rolloutOf rollout = some plan) (hlive : plan.live = true)
    (hentered : plan.stageEntered = true) (hadvanced : plan.stageAdvanced = true)
    (hlast : ¬plan.stages.length ≤ plan.currentStageIndex + 1) :
    Chain c (Permit.driving rollout fun _ => True) t (t.nextState rollout plan) := by
  have henter := (Chain.refl (c := c) (p := Permit.driving rollout fun _ => True) t).bump.trans
    (chain_modifyRollout _ rollout (f := nextStagePlan plan.nextStage t.bumpSequence.sequence) rfl
      (by
        intro stored hstored
        obtain rfl : plan = stored := Option.some.inj (hplan.symm.trans hstored)
        exact (planStep_nextStagePlan _ hlive hentered hadvanced (by omega)).drive rfl))
  have hadvance := henter.trans (chain_advanceVersion _ plan.model plan.candidate
    .partiallyPromoted (by decide))
  exact hadvance.trans (chain_recordStage _ plan.model plan.candidate plan.nextStage.id
    (t.nextPlan plan).currentStageGeneration)

/-- Leaving a stage that is not the last one stores the plan at its next stage. -/
theorem rolloutOf_nextGrants {t : EngineState} {rollout : RolloutId} (ht : Coherent t)
    (hplan : t.rolloutOf rollout = some plan) (hlive : plan.live = true)
    (hentered : plan.stageEntered = true) (hadvanced : plan.stageAdvanced = true)
    (hlast : ¬plan.stages.length ≤ plan.currentStageIndex + 1) :
    (t.leaveStage rollout plan).1.rolloutOf rollout = some (t.nextPlan plan) := by
  have hkey : plan.id.raw = rollout.raw := ht.rollouts _ plan hplan
  have hstored := rolloutOf_nextState hplan
  have hchain := chain_nextState (c := {}) hplan hlive hentered hadvanced hlast
  have hkept := (chain_grantStage (c := {}) (hchain.coherent ht) (t.nextPlan plan) plan.nextStage
    .canary false (fun _ s => s) (fun _ _ => Chain.refl _) (hkey ▸ hstored) ⟨rfl, rfl, rfl⟩
    (List.Subset.refl (plan.stageScopes plan.nextStage))).rollouts_eq fun _ hedits => hedits
  rw [leaveStage_eq t rollout hlast, rolloutOf, hkept]
  exact hstored

/-- Leaving a stage succeeds exactly when it is the last one or the next one fits after the
grants made so far. -/
theorem leaveStage_spec {t : EngineState} {rollout : RolloutId} {taken : List ScopeId} {used : ℕ}
    (hahead : Ahead s t.rollouts plan.model plan.candidate taken used t)
    (hplan : t.rolloutOf rollout = some plan) (hlive : plan.live = true)
    (hentered : plan.stageEntered = true) (hadvanced : plan.stageAdvanced = true) :
    (t.leaveStage rollout plan).2.allowed =
        (decide (plan.stages.length ≤ plan.currentStageIndex + 1) ||
          s.admitsOver (stageGrant plan plan.nextStage .canary false) taken used
            (plan.stageScopes plan.nextStage)) ∧
      ((t.leaveStage rollout plan).2.allowed = false → ∃ plan',
        (t.leaveStage rollout plan).1.rolloutOf rollout = some plan' ∧
          ∃ entry, plan'.history = plan.history ++ [entry] ∧ entry.decision ≠ .failed) := by
  by_cases hlast : plan.stages.length ≤ plan.currentStageIndex + 1
  · unfold leaveStage
    rw [if_pos hlast, decide_eq_true hlast]
    exact ⟨rfl, fun hrefused => absurd hrefused.symm Bool.false_ne_true⟩
  · have hkey : plan.id.raw = rollout.raw := hahead.coherent.rollouts _ plan hplan
    have hstored := rolloutOf_nextState hplan
    have hchain := chain_nextState (c := {}) hplan hlive hentered hadvanced hlast
    have hnext := hahead.keep hchain id (authority_nextState t rollout plan).1
      (authority_nextState t rollout plan).2
    obtain ⟨hallowed, _⟩ := grantOver_spec _ (fun _ s => s)
      (forStage_stageGrant (t.nextPlan plan) plan.nextStage .canary false fun _ => rfl)
      (fun scope u hu => namesStored_stageGrant (t.nextPlan plan)
        (by rw [rolloutOf, hu]; exact hstored) hkey ⟨rfl, rfl, rfl⟩ plan.nextStage .canary false scope)
      (fun _ _ _ _ _ hu => hu) (nodup_stageScopes plan plan.nextStage)
      (fun _ _ hsupersede => absurd hsupersede Bool.false_ne_true) hnext
    have hkept := rolloutOf_nextGrants hahead.coherent hplan hlive hentered hadvanced hlast
    rw [leaveStage_eq t rollout hlast] at hkept ⊢
    rw [decide_eq_false hlast, Bool.false_or, hallowed]
    exact ⟨(admitsOver_stageGrant s plan (t.nextPlan plan) rfl rfl rfl rfl _ _ _ _ _ _).1,
      fun _ => ⟨t.nextPlan plan, hkept, _, rfl, by simp⟩⟩

/-- The state in which the scopes of the current stage are granted. -/
def EngineState.advancedState (s : EngineState) (rollout : RolloutId) : EngineState :=
  s.bumpSequence.bumpSequence.modifyRollout rollout
    (advancedPlan s.bumpSequence.sequence s.bumpSequence.bumpSequence.sequence)

/-- The plan as it is when the scopes of its current stage are granted. -/
def EngineState.committedPlan (s : EngineState) (plan : RolloutPlan) : RolloutPlan :=
  advancedPlan s.bumpSequence.sequence s.bumpSequence.bumpSequence.sequence plan

section AdvancedState

variable (s : EngineState) (rollout : RolloutId)

@[simp] theorem advancedState_authority : (s.advancedState rollout).authority = s.authority := by
  simp [advancedState]

@[simp] theorem advancedState_scopes : (s.advancedState rollout).scopes = s.scopes := by
  simp [advancedState]

@[simp] theorem advancedState_versions : (s.advancedState rollout).versions = s.versions := by
  simp [advancedState]

@[simp] theorem advancedState_policy : (s.advancedState rollout).policy = s.policy := by
  simp [advancedState, modifyRollout, bumpSequence]

end AdvancedState

theorem rolloutOf_advancedState {request : RolloutProgressRequest}
    (h : s.commit request = some plan) :
    (s.advancedState request.rollout).rolloutOf request.rollout = some (s.committedPlan plan) := by
  have hrollouts : (s.advancedState request.rollout).rollouts =
    s.rollouts.modify request.rollout.raw (advancedPlan s.bumpSequence.sequence
      s.bumpSequence.bumpSequence.sequence) := rfl
  rw [rolloutOf, hrollouts, OrdMap.get?_modify_self, ← rolloutOf, (commit_permitted h).1]
  rfl

theorem chain_advancedState {request : RolloutProgressRequest} (h : s.commit request = some plan) :
    Chain c (Permit.driving request.rollout fun _ => True) s (s.advancedState request.rollout) := by
  obtain ⟨hplan, hfaults, _⟩ := commit_permitted h
  obtain ⟨hlive, _⟩ := stage_permitted_live hfaults
  obtain ⟨hentered, hstage, hopen⟩ := stage_permitted_open hfaults
  refine (Chain.refl s).bump.bump.trans (chain_modifyRollout _ request.rollout rfl ?_)
  intro stored hfound
  obtain rfl : plan = stored := Option.some.inj (hplan.symm.trans hfound)
  exact planStep_advancedPlan _ _ hlive hentered hstage hopen

theorem ahead_advancedState (hs : Coherent s) (hstanding : Standing s)
    {request : RolloutProgressRequest} (h : s.commit request = some plan) :
    Ahead s (s.advancedState request.rollout).rollouts plan.model plan.candidate [] 0
      (s.advancedState request.rollout) := by
  obtain ⟨_, hfaults, _⟩ := commit_permitted h
  obtain ⟨_, hbindings⟩ := stage_permitted_live hfaults
  exact (Ahead.start hs hstanding (mayServe_of_bindings hbindings)).keep
    (chain_advancedState (c := {}) h) id (advancedState_authority s _) (advancedState_scopes s _)

theorem history_committedPlan (s : EngineState) (plan : RolloutPlan) : ∃ advanced : StageRecord,
    (s.committedPlan plan).history = plan.history ++ [advanced] ∧ advanced.decision ≠ .failed := by
  refine ⟨_, rfl, ?_⟩
  simp

/-- Draining what a stage displaced in a taken scope keeps a state where it is. -/
theorem ahead_drainPrevious {t : EngineState} {plans : OrdMap UInt64 RolloutPlan} {model : ModelId}
    {version : ModelVersionId} {taken : List ScopeId} {used : ℕ} {scope : ScopeId}
    (h : Ahead s plans model version taken used t) (hscope : scope ∈ taken)
    (stage : StageDefinition) :
    Ahead s plans model version taken used (drainPrevious plan stage scope t) := by
  unfold drainPrevious
  dsimp only
  split
  · have hdrained := h.drain plan.model plan.previous hscope
    split
    · exact hdrained
    · split
      · exact hdrained
      · have hadvanced := hdrained.keep (chain_advanceVersion (c := {}) (p := Permit.still fun _ =>
          True) _ plan.model plan.previous .draining (by decide)) id rfl rfl
        rw [← hdrained.plans]
        exact hadvanced
  · exact h

/-- A commit is settled by the grants of the current stage, then by those of the next. -/
theorem commitStage_eq (s : EngineState) (rollout : RolloutId) (plan : RolloutPlan) :
    s.commitStage rollout plan =
      let refusal (granted : Decision) : Decision :=
        ({ outcome := granted.outcome } : Decision).addAll granted.reasons
      let granted := grantOver (stageGrant (s.committedPlan plan) plan.currentStage .exclusive true)
        (drainPrevious plan plan.currentStage) (plan.stageScopes plan.currentStage)
        (s.advancedState rollout)
      if !granted.2.allowed then (granted.1, refusal granted.2)
      else
        let left := granted.1.leaveStage rollout (s.committedPlan plan)
        if !left.2.allowed then (left.1, refusal left.2)
        else
          ((left.1.refreshRoot rollout plan.rootScope).stampVersion plan.model plan.candidate,
            { outcome := .stageAdvanceAllowed }) := rfl

/-- The grants of the current stage, as a commit makes them. -/
def EngineState.commitGrants (s : EngineState) (rollout : RolloutId) (plan : RolloutPlan) :
    EngineState × Decision :=
  grantOver (stageGrant (s.committedPlan plan) plan.currentStage .exclusive true)
    (drainPrevious plan plan.currentStage) (plan.stageScopes plan.currentStage)
    (s.advancedState rollout)

/-- The grants of the current stage keep the advanced plan, and succeed exactly when they
are admitted one after the other. -/
theorem commitGrants_spec (hs : Coherent s) (hstanding : Standing s)
    {request : RolloutProgressRequest} (h : s.commit request = some plan) :
    (s.commitGrants request.rollout plan).2.allowed =
        s.admitsOver (stageGrant plan plan.currentStage .exclusive true) [] 0
          (plan.stageScopes plan.currentStage) ∧
      (s.commitGrants request.rollout plan).1.rolloutOf request.rollout =
        some (s.committedPlan plan) ∧
      ((s.commitGrants request.rollout plan).2.allowed = true →
        Ahead s (s.commitGrants request.rollout plan).1.rollouts plan.model plan.candidate
          (plan.stageScopes plan.currentStage).reverse
          (s.placesOver (stageGrant plan plan.currentStage .exclusive true)
            (plan.stageScopes plan.currentStage)) (s.commitGrants request.rollout plan).1) := by
  have hkey : plan.id.raw = request.rollout.raw := hs.rollouts _ plan (commit_permitted h).1
  have hstored := rolloutOf_advancedState h
  have hchain := chain_advancedState (c := {}) h
  have hahead := ahead_advancedState hs hstanding h
  obtain ⟨hallowed, hgranted⟩ := grantOver_spec _ (drainPrevious plan plan.currentStage)
    (forStage_stageGrant (s.committedPlan plan) plan.currentStage .exclusive true
      fun hcanary => absurd hcanary.symm Bool.false_ne_true)
    (fun scope t ht => namesStored_stageGrant (s.committedPlan plan)
      (by rw [rolloutOf, ht]; exact hstored) hkey ⟨rfl, rfl, rfl⟩ plan.currentStage .exclusive true
      scope)
    (fun _ _ _ _ hscope ht => ahead_drainPrevious ht hscope plan.currentStage)
    (nodup_stageScopes plan plan.currentStage) (fun _ _ _ htaken => absurd htaken List.not_mem_nil)
    hahead
  obtain ⟨hadmits, hplaces⟩ := admitsOver_stageGrant s plan (s.committedPlan plan) rfl rfl rfl rfl
    plan.currentStage .exclusive true [] 0 (plan.stageScopes plan.currentStage)
  rw [List.append_nil, Nat.zero_add, hplaces] at hgranted
  rw [hadmits] at hallowed
  have hkept := (chain_grantStage (c := {}) (hchain.coherent hs) (s.committedPlan plan)
    plan.currentStage .exclusive true (drainPrevious plan plan.currentStage)
    (fun _ _ => chain_drainPrevious _ _ _ _) (hkey ▸ hstored) ⟨rfl, rfl, rfl⟩
    (List.Subset.refl (plan.stageScopes plan.currentStage))).rollouts_eq fun _ hedits => hedits
  refine ⟨hallowed, ?_, ?_⟩
  · rw [rolloutOf, commitGrants, hkept]
    exact hstored
  · intro hsucceeds
    have hafter := hgranted hsucceeds
    rw [commitGrants, hafter.plans]
    exact hafter

/-- A permitted commit succeeds exactly when its grants fit. -/
theorem commit_spec (hs : Coherent s) (hstanding : Standing s) {request : RolloutProgressRequest}
    (h : s.commit request = some plan) :
    (s.advanceStage request).2.allowed = s.fitsCommit plan ∧
      (s.fitsCommit plan = false → ∃ plan', ∃ added : List StageRecord, added ≠ [] ∧
        (s.advanceStage request).1.rolloutOf request.rollout = some plan' ∧
        plan'.history = plan.history ++ added ∧ ∀ entry ∈ added, entry.decision ≠ .failed) := by
  obtain ⟨_, hfaults, heq⟩ := commit_permitted h
  obtain ⟨hlive, _⟩ := stage_permitted_live hfaults
  obtain ⟨hentered, _, _⟩ := stage_permitted_open hfaults
  obtain ⟨hallowed, hcommitted, hgranted⟩ := commitGrants_spec hs hstanding h
  rw [heq, commitStage_eq, fitsCommit]
  dsimp only
  rw [← commitGrants]
  generalize s.commitGrants request.rollout plan = granted at hallowed hcommitted hgranted
  cases hfits : s.admitsOver (stageGrant plan plan.currentStage .exclusive true) [] 0
      (plan.stageScopes plan.currentStage) with
  | false =>
    rw [hfits] at hallowed
    rw [hallowed, Bool.not_false, if_pos rfl, Bool.false_and]
    constructor
    · rw [Decision.allowed, Decision.outcome_addAll]
      exact hallowed
    · intro _
      obtain ⟨advanced, hcommit, hadvance⟩ := history_committedPlan s plan
      refine ⟨s.committedPlan plan, [advanced], List.cons_ne_nil _ _, hcommitted, hcommit, ?_⟩
      intro entry hentry
      rw [List.mem_singleton.mp hentry]
      exact hadvance
  | true =>
    rw [hfits] at hallowed
    have hadvanced : (s.committedPlan plan).stageAdvanced = true :=
      stageAdvanced_advancedPlan _ _ plan
    have hahead : Ahead s granted.1.rollouts (s.committedPlan plan).model
        (s.committedPlan plan).candidate _ _ granted.1 := hgranted hallowed
    obtain ⟨hleft, hleaves⟩ := leaveStage_spec hahead hcommitted hlive hentered hadvanced
    rw [(admitsOver_stageGrant s plan (s.committedPlan plan) rfl rfl rfl rfl
      (s.committedPlan plan).nextStage .canary false _ _ _).1] at hleft
    rw [hallowed, Bool.not_true, if_neg Bool.false_ne_true, Bool.true_and]
    generalize granted.1.leaveStage request.rollout (s.committedPlan plan) = left at hleft hleaves ⊢
    cases hfitsNext : left.2.allowed with
    | true =>
      rw [hfitsNext] at hleft
      rw [Bool.not_true, if_neg Bool.false_ne_true]
      refine ⟨hleft, fun hunfit => ?_⟩
      exact absurd (hleft.trans hunfit) (by simp)
    | false =>
      rw [hfitsNext] at hleft
      rw [Bool.not_false, if_pos rfl]
      constructor
      · rw [Decision.allowed, Decision.outcome_addAll]
        exact hfitsNext.trans hleft
      · intro _
        obtain ⟨plan', hplan', entry, hhistory, hentry⟩ := hleaves hfitsNext
        obtain ⟨advanced, hcommit, hadvance⟩ := history_committedPlan s plan
        refine ⟨plan', [advanced, entry], List.cons_ne_nil _ _, hplan', ?_, ?_⟩
        · rw [hhistory, hcommit, List.append_assoc, List.singleton_append]
        · intro other hother
          rcases List.mem_cons.mp hother with rfl | hother
          · exact hadvance
          · rw [List.mem_singleton.mp hother]
            exact hentry

/-! ## Refusals -/

/-- A refused entry leaves no trace. -/
def BeginUntouched (s : EngineState) (request : RolloutProgressRequest) : Prop :=
  (s.beginRollout request).2.allowed = false →
    StageUntouched s request.rollout (s.beginRollout request).1

/-- A refused advance that fails no stage leaves no trace. -/
def AdvanceUntouched (s : EngineState) (request : RolloutProgressRequest) : Prop :=
  (s.advanceStage request).2.allowed = false →
    ¬FailsStage s request.rollout (s.advanceStage request).1 →
      StageUntouched s request.rollout (s.advanceStage request).1

theorem begin_untouched_iff (hs : Coherent s) (hstanding : Standing s)
    (request : RolloutProgressRequest) : BeginUntouched s request ↔
      ∀ plan, s.entry request = some plan → s.fitsEntry plan = true := by
  cases hentry : s.entry request with
  | none =>
    constructor
    · intro _ plan hplan
      cases hplan
    · intro _ _
      rw [begin_stopped hentry]
      exact StageUntouched.refl s request.rollout
  | some plan =>
    obtain ⟨hallowed, hleaves⟩ := begin_spec hs hstanding hentry
    have hplan := (entry_permitted hentry).1
    constructor
    · intro huntouched stored hstored
      obtain rfl : plan = stored := Option.some.inj hstored
      by_contra hunfit
      have hfits : s.fitsEntry plan = false := by simpa using hunfit
      obtain ⟨plan', added, hsome, hplan', hadded⟩ := hleaves hfits
      exact not_untouched_of_grown hplan hplan' hadded hsome (huntouched (hallowed.trans hfits))
    · intro hfits hrefused
      rw [hallowed, hfits plan rfl] at hrefused
      cases hrefused

theorem advance_untouched_iff (hs : Coherent s) (hstanding : Standing s)
    (request : RolloutProgressRequest) : AdvanceUntouched s request ↔
      ∀ plan, s.commit request = some plan → s.fitsCommit plan = true := by
  cases hcommit : s.commit request with
  | none =>
    constructor
    · intro _ plan hplan
      cases hplan
    · intro _ _ hfails
      rcases advance_stopped hs hcommit with hkept | hfailed
      · rw [hkept]
        exact StageUntouched.refl s request.rollout
      · exact absurd hfailed hfails
  | some plan =>
    obtain ⟨hallowed, hleaves⟩ := commit_spec hs hstanding hcommit
    have hplan := (commit_permitted hcommit).1
    constructor
    · intro huntouched stored hstored
      obtain rfl : plan = stored := Option.some.inj hstored
      by_contra hunfit
      have hfits : s.fitsCommit plan = false := by simpa using hunfit
      obtain ⟨plan', added, hsome, hplan', hadded, hnone⟩ := hleaves hfits
      refine not_untouched_of_grown hplan hplan' hadded hsome
        (huntouched (hallowed.trans hfits) ?_)
      rintro ⟨before, after, hbefore, hafter, entry, hentry, hfailed⟩
      obtain rfl : plan = before := Option.some.inj (hplan.symm.trans hbefore)
      obtain rfl : plan' = after := Option.some.inj (hplan'.symm.trans hafter)
      rw [hadded, List.drop_left] at hentry
      exact hnone entry hentry hfailed
    · intro hfits hrefused
      rw [hallowed, hfits plan rfl] at hrefused
      cases hrefused

/-- A refused entry or advance of a stage leaves no trace exactly when the stages it would
enter or commit fit. -/
theorem refused_stage_untouched_iff (hs : ReachableState c s) (request : RolloutProgressRequest) :
    (BeginUntouched s request ↔
        ∀ plan, s.entry request = some plan → s.fitsEntry plan = true) ∧
      (AdvanceUntouched s request ↔
        ∀ plan, s.commit request = some plan → s.fitsCommit plan = true) :=
  ⟨begin_untouched_iff hs.coherent hs.standing request,
    advance_untouched_iff hs.coherent hs.standing request⟩

/-! ### A stage the policy keeps out -/

/-- A registry whose policy permits no two generations in one scope. -/
def unsplit : EngineConfig := { policy := { allowSplitTraffic := false } }

/-- A version serves the root scope, and a rollout of a second one there is created. -/
def canaryKeptOut : List Operation :=
  [.registerModel [109] [] .synthetic,
    .registerVersion
      { model := ⟨1⟩, label := [49]
        artifact := { setId := ⟨1⟩, generation := ⟨1⟩, digest := [97] } },
    .publishCompatibility ⟨1⟩ { key := [101] } .compatible [] .synthetic,
    .registerVersion
      { model := ⟨1⟩, label := [50]
        artifact := { setId := ⟨1⟩, generation := ⟨1⟩, digest := [97] } },
    .publishCompatibility ⟨2⟩ { key := [101] } .compatible [] .synthetic,
    .promote { model := ⟨1⟩, candidate := ⟨2⟩, scope := ⟨1⟩, environmentKey := [101] },
    .promote
      { model := ⟨1⟩, candidate := ⟨1⟩, scope := ⟨1⟩, environmentKey := [101]
        requestImmediateCutover := true },
    .createRollout
      { model := ⟨1⟩, candidate := ⟨2⟩, rootScope := ⟨1⟩, rollbackTarget := ⟨1⟩
        cohorts := [{ name := [99], scopes := [⟨1⟩] }]
        stages := [{ name := [115], cohortIndices := [0] }] }]

theorem refused_stage_untouched_witness :
    BeginUntouched (runOps {} (init {}) canaryKeptOut) { rollout := ⟨1⟩ } ∧
      AdvanceUntouched (runOps {} (init {}) canaryKeptOut) { rollout := ⟨1⟩ } := by
  obtain ⟨hbegin, hadvance⟩ :=
    refused_stage_untouched_iff (c := {}) ⟨canaryKeptOut, rfl⟩ { rollout := ⟨1⟩ }
  constructor
  · refine hbegin.mpr ?_
    decide +kernel
  · refine hadvance.mpr ?_
    decide +kernel

/-- The entry the policy refuses is recorded all the same. -/
theorem refused_entry_recorded :
    ¬BeginUntouched (runOps unsplit (init unsplit) canaryKeptOut) { rollout := ⟨1⟩ } := by
  intro huntouched
  have hrefused : ((runOps unsplit (init unsplit) canaryKeptOut).beginRollout
      { rollout := ⟨1⟩ }).2.allowed = false := by decide +kernel
  have hmoved : (((runOps unsplit (init unsplit) canaryKeptOut).beginRollout
        { rollout := ⟨1⟩ }).1.rolloutOf ⟨1⟩).map (·.stageEntered) ≠
      ((runOps unsplit (init unsplit) canaryKeptOut).rolloutOf ⟨1⟩).map (·.stageEntered) := by
    decide +kernel
  have hsame := congrArg (Option.map fun progress => progress.2.2.1) (huntouched hrefused).plan
  rw [Option.map_map, Option.map_map] at hsame
  exact hmoved hsame

end LifecycleFabric
