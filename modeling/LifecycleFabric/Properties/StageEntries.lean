import LifecycleFabric.Properties.StageCommits

/-!
# Entered and committed stages

Which stages a step enters and commits, read off the history it leaves. The begin of a
rollout enters the first stage. An advance the gate permits commits the current stage, and
enters the next one where it moves the plan on. The failure path does neither.
-/

namespace LifecycleFabric

open EngineState

variable {c : EngineConfig} {s s' t : EngineState} {plan plan' : RolloutPlan}
  {rollout : RolloutId}

/-! ## Entries and commits -/

/-- A step enters a stage of a plan: it records the entry and leaves the plan there. -/
structure EntersStage (s s' : EngineState) (rollout : RolloutId) (plan : RolloutPlan)
    (stage : StageDefinition) : Prop where
  before : s.rolloutOf rollout = some plan
  after : ∃ plan' added, s'.rolloutOf rollout = some plan' ∧
    plan'.history = plan.history ++ added ∧ (∃ entry ∈ added, entry.decision = .entered) ∧
    plan'.currentStage = stage

/-- A step commits the current stage of a plan: it records the advance. -/
structure CommitsStage (s s' : EngineState) (rollout : RolloutId) (plan : RolloutPlan) : Prop where
  before : s.rolloutOf rollout = some plan
  after : ∃ plan' added, s'.rolloutOf rollout = some plan' ∧
    plan'.history = plan.history ++ added ∧ ∃ entry ∈ added, entry.decision = .advanced

/-- A step that leaves a plan with a known history enters the stage it is then at, if it
recorded an entry, and none otherwise. -/
theorem entersStage_iff {added : List StageRecord} (other : RolloutPlan) (stage : StageDefinition)
    (hplan : s.rolloutOf rollout = some plan) (hplan' : s'.rolloutOf rollout = some plan')
    (hadded : plan'.history = plan.history ++ added) :
    EntersStage s s' rollout other stage ↔
      other = plan ∧ (∃ entry ∈ added, entry.decision = .entered) ∧ plan'.currentStage = stage := by
  constructor
  · rintro ⟨hother, after, recorded, hafter, hrecorded, hentered, hstage⟩
    obtain rfl : plan = other := Option.some.inj (hplan.symm.trans hother)
    obtain rfl : plan' = after := Option.some.inj (hplan'.symm.trans hafter)
    obtain rfl : added = recorded := List.append_cancel_left (hadded.symm.trans hrecorded)
    exact ⟨rfl, hentered, hstage⟩
  · rintro ⟨rfl, hentered, hstage⟩
    exact ⟨hplan, plan', added, hplan', hadded, hentered, hstage⟩

/-- It commits the stage the plan was at if it recorded an advance. -/
theorem commitsStage_iff {added : List StageRecord} (other : RolloutPlan)
    (hplan : s.rolloutOf rollout = some plan) (hplan' : s'.rolloutOf rollout = some plan')
    (hadded : plan'.history = plan.history ++ added) :
    CommitsStage s s' rollout other ↔
      other = plan ∧ ∃ entry ∈ added, entry.decision = .advanced := by
  constructor
  · rintro ⟨hother, after, recorded, hafter, hrecorded, hadvanced⟩
    obtain rfl : plan = other := Option.some.inj (hplan.symm.trans hother)
    obtain rfl : plan' = after := Option.some.inj (hplan'.symm.trans hafter)
    obtain rfl : added = recorded := List.append_cancel_left (hadded.symm.trans hrecorded)
    exact ⟨rfl, hadvanced⟩
  · rintro ⟨rfl, hadvanced⟩
    exact ⟨hplan, plan', added, hplan', hadded, hadvanced⟩

/-- A step that leaves a plan as it was enters and commits no stage of it. -/
theorem enters_commits_nothing (hsame : s'.rolloutOf rollout = s.rolloutOf rollout)
    (plan : RolloutPlan) :
    (∀ stage, ¬EntersStage s s' rollout plan stage) ∧ ¬CommitsStage s s' rollout plan := by
  constructor
  · intro stage henters
    have hplan := henters.before
    have hiff := entersStage_iff plan stage hplan (hsame.trans hplan) (List.append_nil _).symm
    simpa using hiff.mp henters
  · intro hcommits
    have hplan := hcommits.before
    have hiff := commitsStage_iff plan hplan (hsame.trans hplan) (List.append_nil _).symm
    simpa using hiff.mp hcommits

/-- Refreshing the root binding changes nothing else of a plan. -/
theorem rolloutOf_refreshRoot (root : ScopeId) (hplan : t.rolloutOf rollout = some plan) :
    ∃ generation, (t.refreshRoot rollout root).rolloutOf rollout =
      some { plan with rootScopeGeneration := generation } := by
  unfold refreshRoot
  cases t.scopes.find root with
  | none => exact ⟨plan.rootScopeGeneration, hplan⟩
  | some record =>
    refine ⟨record.generation, ?_⟩
    rw [rolloutOf, rollouts_modifyRollout, OrdMap.get?_modify_self, ← rolloutOf, hplan]
    rfl

/-! ## The first stage -/

/-- Where the begin of a rollout leaves its plan. -/
theorem rolloutOf_begin (hs : Coherent s) {request : RolloutProgressRequest}
    (h : s.entry request = some plan) :
    ∃ generation, (s.beginRollout request).1.rolloutOf request.rollout =
      some { s.enteredPlan plan with rootScopeGeneration := generation } := by
  have hgranted := rolloutOf_entryGrants hs h
  rw [begin_eq h]
  dsimp only
  generalize grantOver (stageGrant (s.enteredPlan plan) plan.firstStage .canary false)
    (fun _ s => s) (plan.stageScopes plan.firstStage) (s.enteredState request plan) = granted
    at hgranted ⊢
  split
  · exact ⟨(s.enteredPlan plan).rootScopeGeneration, hgranted⟩
  · exact rolloutOf_refreshRoot plan.rootScope hgranted

/-! ## Later stages -/

/-- Whether a permitted advance moves a plan on: there is a next stage, and the candidate is
granted every scope of the current one. -/
def EngineState.movesOn (s : EngineState) (plan : RolloutPlan) : Bool :=
  decide (plan.currentStageIndex + 1 < plan.stages.length) &&
    s.admitsOver (stageGrant plan plan.currentStage .exclusive true) [] 0
      (plan.stageScopes plan.currentStage)

/-- Where leaving a committed stage leaves its plan. -/
theorem rolloutOf_leaveStage (ht : Coherent t) (hplan : t.rolloutOf rollout = some plan)
    (hlive : plan.live = true) (hentered : plan.stageEntered = true)
    (hadvanced : plan.stageAdvanced = true) :
    (t.leaveStage rollout plan).1.rolloutOf rollout =
      some (if plan.stages.length ≤ plan.currentStageIndex + 1 then
        completedPlan t.bumpSequence.sequence plan else t.nextPlan plan) := by
  by_cases hlast : plan.stages.length ≤ plan.currentStageIndex + 1
  · rw [if_pos hlast]
    unfold leaveStage
    rw [if_pos hlast]
    have hrollouts : ((t.bumpSequence.modifyRollout rollout (completedPlan
        t.bumpSequence.sequence)).advanceVersion plan.model plan.candidate .current).rollouts =
        t.rollouts.modify rollout.raw (completedPlan t.bumpSequence.sequence) := rfl
    rw [rolloutOf, hrollouts, OrdMap.get?_modify_self, ← rolloutOf, hplan]
    rfl
  · rw [if_neg hlast]
    exact rolloutOf_nextGrants ht hplan hlive hentered hadvanced hlast

/-- What a permitted advance makes of its plan, up to its root binding: once the candidate is
granted every scope of the stage, the plan completes or enters its next stage. -/
def EngineState.leftPlan (s : EngineState) (plan : RolloutPlan) (updated : Sequence) :
    RolloutPlan :=
  if s.admitsOver (stageGrant plan plan.currentStage .exclusive true) [] 0
      (plan.stageScopes plan.currentStage) = true then
    if plan.stages.length ≤ plan.currentStageIndex + 1 then
      completedPlan updated (s.committedPlan plan)
    else nextStagePlan plan.nextStage updated (s.committedPlan plan)
  else s.committedPlan plan

/-- A permitted advance completes its plan where it is accepted at the last stage, and leaves
it committed or at its next stage otherwise. -/
theorem leftPlan_cases (s : EngineState) (plan : RolloutPlan) (updated : Sequence) :
    (s.fitsCommit plan = true ∧ plan.stages.length ≤ plan.currentStageIndex + 1) ∧
        s.leftPlan plan updated = completedPlan updated (s.committedPlan plan) ∨
      ¬(s.fitsCommit plan = true ∧ plan.stages.length ≤ plan.currentStageIndex + 1) ∧
        (s.leftPlan plan updated = nextStagePlan plan.nextStage updated (s.committedPlan plan) ∨
          s.leftPlan plan updated = s.committedPlan plan) := by
  rw [fitsCommit, Bool.and_eq_true, Bool.or_eq_true, decide_eq_true_eq]
  unfold EngineState.leftPlan
  by_cases hadmitted : s.admitsOver (stageGrant plan plan.currentStage .exclusive true) [] 0
      (plan.stageScopes plan.currentStage) = true
  · rw [if_pos hadmitted]
    by_cases hlast : plan.stages.length ≤ plan.currentStageIndex + 1
    · rw [if_pos hlast]
      exact Or.inl ⟨⟨⟨hadmitted, Or.inl hlast⟩, hlast⟩, rfl⟩
    · rw [if_neg hlast]
      exact Or.inr ⟨fun hends => hlast hends.2, Or.inl rfl⟩
  · rw [if_neg hadmitted]
    exact Or.inr ⟨fun hends => hadmitted hends.1.1, Or.inr rfl⟩

theorem rolloutOf_committed (hs : Coherent s) (hstanding : Standing s)
    {request : RolloutProgressRequest} (h : s.commit request = some plan) :
    ∃ updated generation, (s.advanceStage request).1.rolloutOf request.rollout =
      some { s.leftPlan plan updated with rootScopeGeneration := generation } := by
  obtain ⟨_, hfaults, heq⟩ := commit_permitted h
  obtain ⟨hlive, _⟩ := stage_permitted_live hfaults
  obtain ⟨hentered, _, _⟩ := stage_permitted_open hfaults
  obtain ⟨hallowed, hcommitted, hgranted⟩ := commitGrants_spec hs hstanding h
  unfold EngineState.leftPlan
  rw [heq, commitStage_eq, ← hallowed]
  dsimp only
  rw [← commitGrants]
  generalize s.commitGrants request.rollout plan = granted at hallowed hcommitted hgranted
  cases hsucceeds : granted.2.allowed with
  | false => exact ⟨{}, (s.committedPlan plan).rootScopeGeneration, hcommitted⟩
  | true =>
    have hcoherent : Coherent granted.1 := (hgranted hsucceeds).coherent
    have hleft := rolloutOf_leaveStage hcoherent hcommitted hlive hentered
      (stageAdvanced_advancedPlan _ _ plan)
    refine ⟨granted.1.bumpSequence.sequence, ?_⟩
    simp only [Bool.not_true, Bool.false_eq_true, if_false, if_true]
    generalize granted.1.leaveStage request.rollout (s.committedPlan plan) = left at hleft
    -- Whatever follows leaves the plan where it is, up to its root binding.
    split
    · exact ⟨_, hleft⟩
    · exact rolloutOf_refreshRoot plan.rootScope hleft

/-- What a permitted advance leaves of its plan: it records the commit of the current stage,
and the entry of the next one exactly when it moves the plan on, which is then at that
stage. -/
theorem rolloutOf_commit (hs : Coherent s) (hstanding : Standing s)
    {request : RolloutProgressRequest} (h : s.commit request = some plan) :
    ∃ plan' added, (s.advanceStage request).1.rolloutOf request.rollout = some plan' ∧
      plan'.history = plan.history ++ added ∧
      ((∃ entry ∈ added, entry.decision = .entered) ↔ s.movesOn plan = true) ∧
      (s.movesOn plan = true → plan'.currentStage = plan.nextStage) ∧
      ∃ entry ∈ added, entry.decision = .advanced := by
  obtain ⟨updated, generation, hplan'⟩ := rolloutOf_committed hs hstanding h
  rw [EngineState.movesOn]
  cases hadmitted : s.admitsOver (stageGrant plan plan.currentStage .exclusive true) [] 0
      (plan.stageScopes plan.currentStage) with
  | false =>
    have hleft : s.leftPlan plan updated = s.committedPlan plan := by
      rw [EngineState.leftPlan, hadmitted, if_neg Bool.false_ne_true]
    rw [hleft] at hplan'
    refine ⟨_, _, hplan', rfl, ?_, ?_, ?_⟩
    · simp
    · simp
    · exact ⟨_, List.mem_singleton_self _, rfl⟩
  | true =>
    simp only [Bool.and_true, decide_eq_true_eq]
    by_cases hlast : plan.stages.length ≤ plan.currentStageIndex + 1
    · have hleft : s.leftPlan plan updated = completedPlan updated (s.committedPlan plan) := by
        rw [EngineState.leftPlan, hadmitted, if_pos rfl, if_pos hlast]
      rw [hleft] at hplan'
      refine ⟨_, _, hplan', rfl, ?_, ?_, ?_⟩
      · simp only [List.mem_singleton, exists_eq_left, reduceCtorEq, false_iff]
        omega
      · intro hnext
        omega
      · exact ⟨_, List.mem_singleton_self _, rfl⟩
    · have hleft : s.leftPlan plan updated =
          nextStagePlan plan.nextStage updated (s.committedPlan plan) := by
        rw [EngineState.leftPlan, hadmitted, if_pos rfl, if_neg hlast]
      rw [hleft] at hplan'
      refine ⟨_, _, hplan', List.append_assoc _ _ _, ?_, fun _ => rfl, ?_⟩
      · exact iff_of_true ⟨_, List.mem_append_right _ (List.mem_singleton_self _), rfl⟩ (by omega)
      · exact ⟨_, List.mem_append_left _ (List.mem_singleton_self _), rfl⟩

/-- A plan that is not live completes no more, and enters and commits no stage, whatever is
still recorded of it. -/
theorem dead_enters_nothing {strict : Prop} {plan' : RolloutPlan}
    (h : Relation.ReflTransGen (PlanEdit strict) plan plan') (hdead : plan.live = false) :
    plan'.live = false ∧ plan'.completed = plan.completed ∧
      ∃ added, plan'.history = plan.history ++ added ∧
        ∀ entry ∈ added, entry.decision ≠ .entered ∧ entry.decision ≠ .advanced := by
  induction h with
  | refl => exact ⟨hdead, rfl, [], (List.append_nil _).symm, fun entry hentry => by cases hentry⟩
  | tail _ hedit ih =>
    obtain ⟨hstill, hsame, added, hadded, hnone⟩ := ih
    cases hedit with
    | note _ _ _ hhistory hcompleted _ _ hlive =>
      refine ⟨?_, hcompleted.trans hsame, added, hhistory.trans hadded, hnone⟩
      by_contra halive
      rw [(hlive (by simpa using halive)).1] at hstill
      cases hstill
    | settle record _ _ _ hhistory _ hsettles hadvances hcompleted _ _ hended =>
      refine ⟨hended, hcompleted.trans hsame, added ++ [record], ?_, ?_⟩
      · rw [hhistory, hadded, List.append_assoc]
      · intro entry hentry
        rcases List.mem_append.mp hentry with hentry | hentry
        · exact hnone entry hentry
        · rw [List.mem_singleton.mp hentry]
          exact ⟨hsettles, hadvances⟩
    | advance _ _ hlive => rw [hlive] at hstill; cases hstill
    | complete _ hlive => rw [hlive] at hstill; cases hstill
    | enter _ hlive => rw [hlive] at hstill; cases hstill
    | next _ hlive => rw [hlive] at hstill; cases hstill

/-! ## What an operation enters and commits -/

/-- The begin of a rollout enters the first stage of a plan it admits. -/
theorem begin_enters_iff (hs : Coherent s) {request : RolloutProgressRequest}
    {stage : StageDefinition} :
    EntersStage s (s.beginRollout request).1 request.rollout plan stage ↔
      s.entry request = some plan ∧ plan.firstStage = stage := by
  cases hentry : s.entry request with
  | none =>
    rw [begin_stopped hentry]
    exact iff_of_false ((enters_commits_nothing rfl plan).1 stage) (fun h => by cases h.1)
  | some admitted =>
    obtain ⟨hplan, hrefusal, _⟩ := entry_permitted hentry
    obtain ⟨generation, hplan'⟩ := rolloutOf_begin hs hentry
    have hfirst : admitted.currentStageIndex = 0 := (begin_permitted hrefusal).2.2.1
    have hstage : ({ s.enteredPlan admitted with
        rootScopeGeneration := generation } : RolloutPlan).currentStage = admitted.firstStage := by
      simp [RolloutPlan.currentStage, RolloutPlan.firstStage, enteredPlan, enterStage, hfirst]
    rw [entersStage_iff _ _ hplan hplan' rfl, hstage]
    constructor
    · rintro ⟨rfl, _, hsame⟩
      exact ⟨rfl, hsame⟩
    · rintro ⟨hadmitted, hsame⟩
      obtain rfl := Option.some.inj hadmitted
      exact ⟨rfl, ⟨_, List.mem_singleton_self _, rfl⟩, hsame⟩

/-- The begin of a rollout commits nothing. -/
theorem begin_commits_nothing (hs : Coherent s) {request : RolloutProgressRequest} :
    ¬CommitsStage s (s.beginRollout request).1 request.rollout plan := by
  cases hentry : s.entry request with
  | none =>
    rw [begin_stopped hentry]
    exact (enters_commits_nothing rfl plan).2
  | some admitted =>
    obtain ⟨generation, hplan'⟩ := rolloutOf_begin hs hentry
    rw [commitsStage_iff _ (entry_permitted hentry).1 hplan' rfl]
    simp

/-- The failure path enters and commits no stage. -/
theorem fail_enters_commits_nothing (hs : Coherent s) {request : RolloutProgressRequest}
    (hplan : s.rolloutOf request.rollout = some plan') (gate : Decision) :
    (∀ stage, ¬EntersStage s (s.failCurrentStage request plan' gate).1 request.rollout plan stage) ∧
      ¬CommitsStage s (s.failCurrentStage request plan' gate).1 request.rollout plan := by
  have hcommitted := rolloutOf_commitFailure hplan gate.reasons false
  obtain ⟨after, hafter, hstep⟩ :=
    (chain_afterFailure (c := {}) hs request hplan gate).plan_stands hcommitted
  obtain ⟨_, _, added, hadded, hnone⟩ := dead_enters_nothing hstep.edits (by simp [failedPlan,
    RolloutPlan.live])
  have hhistory : after.history = plan'.history ++
      (failedRecord s.bumpSequence.sequence gate.reasons plan' :: added) := by
    rw [hadded, failedPlan, List.append_assoc, List.singleton_append]
  constructor
  · intro stage
    rw [entersStage_iff _ _ hplan hafter hhistory]
    rintro ⟨_, ⟨entry, hentry, hentered⟩, _⟩
    rcases List.mem_cons.mp hentry with rfl | hentry
    · cases hentered
    · exact (hnone entry hentry).1 hentered
  · rw [commitsStage_iff _ hplan hafter hhistory]
    rintro ⟨_, entry, hentry, hadvanced⟩
    rcases List.mem_cons.mp hentry with rfl | hentry
    · cases hadvanced
    · exact (hnone entry hentry).2 hadvanced

/-- A request that commits nothing enters nothing either. -/
theorem uncommitted_enters_nothing (hs : Coherent s) {request : RolloutProgressRequest}
    (h : s.commit request = none) :
    (∀ stage, ¬EntersStage s (s.advanceStage request).1 request.rollout plan stage) ∧
      ¬CommitsStage s (s.advanceStage request).1 request.rollout plan := by
  rcases advance_uncommitted h with hsame | ⟨reported, hplan, _, hfails⟩
  · rw [hsame]
    exact enters_commits_nothing rfl plan
  · rw [hfails]
    exact fail_enters_commits_nothing hs hplan _

/-- An advance enters the next stage of a plan it moves on. -/
theorem advance_enters_iff (hs : Coherent s) (hstanding : Standing s)
    {request : RolloutProgressRequest} {stage : StageDefinition} :
    EntersStage s (s.advanceStage request).1 request.rollout plan stage ↔
      s.commit request = some plan ∧ s.movesOn plan = true ∧ plan.nextStage = stage := by
  cases hcommit : s.commit request with
  | none => exact iff_of_false ((uncommitted_enters_nothing hs hcommit).1 stage) fun h => by cases h.1
  | some committed =>
    obtain ⟨hplan, _⟩ := commit_permitted hcommit
    obtain ⟨after, added, hafter, hadded, hentered, hstage, _⟩ :=
      rolloutOf_commit hs hstanding hcommit
    rw [entersStage_iff _ _ hplan hafter hadded, hentered]
    constructor
    · rintro ⟨rfl, hmoves, hsame⟩
      exact ⟨rfl, hmoves, (hstage hmoves).symm.trans hsame⟩
    · rintro ⟨hsome, hmoves, hsame⟩
      obtain rfl := Option.some.inj hsome
      exact ⟨rfl, hmoves, (hstage hmoves).trans hsame⟩

/-- An advance commits the current stage of a plan exactly when the gate permits it. -/
theorem advance_commits_iff (hs : Coherent s) (hstanding : Standing s)
    {request : RolloutProgressRequest} :
    CommitsStage s (s.advanceStage request).1 request.rollout plan ↔
      s.commit request = some plan := by
  cases hcommit : s.commit request with
  | none => exact iff_of_false (uncommitted_enters_nothing hs hcommit).2 fun h => by cases h
  | some committed =>
    obtain ⟨hplan, _⟩ := commit_permitted hcommit
    obtain ⟨after, added, hafter, hadded, _, _, hadvanced⟩ := rolloutOf_commit hs hstanding hcommit
    rw [commitsStage_iff _ hplan hafter hadded]
    constructor
    · rintro ⟨rfl, _⟩
      rfl
    · intro hsome
      exact ⟨(Option.some.inj hsome).symm, hadvanced⟩

end LifecycleFabric
