import LifecycleFabric.Properties.Fencing

/-!
# Late reports about a stage

A report that names another stage or stage generation than the current one, or an advance
of a plan that is stale or no longer live, is refused without effect. There are two
exceptions: an advance whose plan has a tripped failure criterion fails the current stage,
and a failure report is never compared with the stage it names.
-/

namespace LifecycleFabric

open EngineState

variable {c : EngineConfig} {s s' : EngineState}

/-! ## Late reports -/

/-- A request that names a stage, or a stage generation, other than the current one. -/
def RolloutProgressRequest.CitesAnother (request : RolloutProgressRequest) (plan : RolloutPlan) :
    Prop :=
  (request.stage.valid = true ∧
      (plan.stageAt plan.currentStageIndex).map StageDefinition.id ≠ some request.stage) ∨
    (request.stageGeneration.valid = true ∧
      request.stageGeneration ≠ plan.currentStageGeneration)

/-- A late report: it cites another stage than the current one, or it asks to advance a plan
that is stale or no longer live. -/
def Operation.IsLate (s : EngineState) : Operation → Prop
  | .advanceStage request => ∃ plan, s.rolloutOf request.rollout = some plan ∧
      (request.CitesAnother plan ∨ s.checkPlanBindings plan ≠ none ∨ plan.live = false)
  | .failStage request => ∃ plan, s.rolloutOf request.rollout = some plan ∧
      request.CitesAnother plan
  | _ => False

/-- The plan an operation reports about. -/
def Operation.reported : Operation → RolloutId
  | .advanceStage request => request.rollout
  | .failStage request => request.rollout
  | _ => {}

/-- The plan of a report, the authority table and the lifecycle states are as before. -/
structure Unsettled (rollout : RolloutId) (s s' : EngineState) : Prop where
  plan : s'.rolloutOf rollout = s.rolloutOf rollout
  authority : s'.authority = s.authority
  states : ∀ model version, (s'.versionOf model version).map ModelVersionRecord.state =
    (s.versionOf model version).map ModelVersionRecord.state

theorem Unsettled.refl (rollout : RolloutId) (s : EngineState) : Unsettled rollout s s :=
  ⟨rfl, rfl, fun _ _ => rfl⟩

/-! ## Failure reports -/

/-- What a failure report is checked for: the rollout and stage generations it cites, its
caller, and that the current stage of a live plan is entered and undecided. The stage it
names is not among them. -/
structure EngineState.FailureAdmitted (s : EngineState) (request : RolloutProgressRequest)
    (plan : RolloutPlan) : Prop where
  rolloutGeneration : request.rolloutGeneration.valid = true →
    request.rolloutGeneration = plan.generation
  stageGeneration : request.stageGeneration.valid = true →
    request.stageGeneration = plan.currentStageGeneration
  epoch : (s.checkEpoch request.epoch).allowed = true
  worker : (s.checkWorker request.worker request.boot request.epoch).allowed = true
  live : plan.live = true
  entered : plan.stageEntered = true
  undecided : plan.stageSettled = false

theorem failRefusal_eq_none_iff {request : RolloutProgressRequest} {plan : RolloutPlan} :
    s.failRefusal request plan = none ↔ s.FailureAdmitted request plan := by
  simp only [failRefusal, firstRefusal_eq_none, List.append_eq_nil_iff, refuseIf_eq_nil,
    refusalOf_eq_nil, not_and, not_not, not_or, Bool.not_eq_true, Bool.not_eq_true']
  constructor
  · rintro ⟨⟨⟨⟨⟨⟨⟨hrollout, hstage⟩, hepoch⟩, hworker⟩, hsuperseded⟩, hended⟩, hentered⟩, hsettled⟩
    refine ⟨hrollout, hstage, hepoch, hworker, ?_, by simpa using hentered, hsettled⟩
    simp [RolloutPlan.live, hsuperseded, hended.1, hended.2]
  · intro h
    have hlive := h.live
    simp only [RolloutPlan.live, Bool.and_eq_true, Bool.not_eq_true'] at hlive
    exact ⟨⟨⟨⟨⟨⟨⟨h.rolloutGeneration, h.stageGeneration⟩, h.epoch⟩, h.worker⟩, hlive.2⟩,
      hlive.1.1, hlive.1.2⟩, by simpa using h.entered⟩, h.undecided⟩

/-- A report that settles the current stage as failed although it is late. -/
def Operation.SettlesAnyway (s : EngineState) : Operation → Prop
  | .failStage request => ∃ plan, s.rolloutOf request.rollout = some plan ∧
      s.FailureAdmitted request plan ∧ (s.versionOf plan.model plan.candidate).isSome = true
  | op => op.TripsFailure s

/-- A failure report is accepted exactly when it passes its checks. -/
theorem failStage_allowed_iff {request : RolloutProgressRequest} :
    (s.failStage request).2.allowed = true ↔ (Operation.failStage request).SettlesAnyway s := by
  unfold failStage
  simp only [Operation.SettlesAnyway, ← failRefusal_eq_none_iff]
  cases hplan : s.rolloutOf request.rollout with
  | none => simp [OutcomeCode.isPositive]
  | some plan =>
    cases hrefusal : s.failRefusal request plan with
    | some refusal => simp [hrefusal, refusal.refuses]
    | none =>
      cases hrecord : s.versionOf plan.model plan.candidate with
      | none => simp [hrefusal, hrecord, OutcomeCode.isPositive]
      | some record => simp [hrefusal, hrecord]

/-- A refused failure report changes nothing. -/
theorem failStage_of_refused {request : RolloutProgressRequest}
    (h : (s.failStage request).2.allowed = false) : (s.failStage request).1 = s := by
  unfold failStage at h ⊢
  split
  · rfl
  · rename_i plan hplan
    simp only [hplan] at h
    split
    · rfl
    · rename_i hrefusal
      simp only [hrefusal] at h
      split
      · rfl
      · rename_i record hrecord
        simp [hrecord] at h

/-! ## Advances -/

/-- A late advance does not pass the stage gate. -/
theorem evaluateStageAdvance_of_late {request : RolloutProgressRequest}
    (h : (Operation.advanceStage request).IsLate s) :
    (s.evaluateStageAdvance request).allowed = false := by
  obtain ⟨plan, hplan, hlate⟩ := h
  by_contra hallowed
  obtain ⟨plan', hplan', hfaults⟩ := stage_permitted (by simpa using hallowed)
  obtain rfl := Option.some.inj (hplan'.symm.trans hplan)
  obtain ⟨hlive, hbindings⟩ := stage_permitted_live hfaults
  simp only [stageFaults, List.append_eq_nil_iff] at hfaults
  obtain ⟨⟨⟨⟨⟨hprogress, _⟩, _⟩, _⟩, _⟩, _⟩ := hfaults
  simp only [progressFaults, List.append_eq_nil_iff, faultIf_eq_nil] at hprogress
  obtain ⟨⟨⟨_, hstage⟩, hgeneration⟩, _⟩ := hprogress
  rcases hlate with (⟨hvalid, hother⟩ | hcites) | hstale | hended
  · cases hat : plan'.stageAt plan'.currentStageIndex with
    | none => simp [hat] at hstage
    | some stage =>
      simp only [hat, faultIf_eq_nil, not_and, not_not] at hstage
      rw [hat, Option.map_some, ← hstage hvalid] at hother
      exact hother rfl
  · exact hgeneration hcites
  · exact hstale hbindings
  · rw [hlive] at hended
    cases hended

/-- An advance that neither passes the gate nor trips a failure criterion changes nothing. -/
theorem advanceStage_of_refused {request : RolloutProgressRequest}
    (hgate : (s.evaluateStageAdvance request).allowed = false)
    (htrips : ¬(Operation.advanceStage request).TripsFailure s) :
    s.advanceStage request = (s, s.evaluateStageAdvance request) := by
  have hfailure : (s.evaluateStageAdvance request).has .stageFailureThresholdExceeded = false :=
    Bool.eq_false_iff.mpr fun hhas => htrips (stageFailure_iff.mp hhas)
  unfold advanceStage
  cases s.rolloutOf request.rollout with
  | none => rfl
  | some plan => simp [hgate, hfailure]

/-- A tripped failure criterion lengthens the history of the plan, whoever asks. -/
theorem advanceStage_fails (hs : Coherent s) {request : RolloutProgressRequest}
    (htrips : (Operation.advanceStage request).TripsFailure s) :
    (s.advanceStage request).1.rolloutOf request.rollout ≠ s.rolloutOf request.rollout := by
  obtain ⟨plan, hplan, _, record, hrecord, _⟩ := id htrips
  have hfailure := stageFailure_iff.mpr htrips
  have hpath : s.advanceStage request =
      s.failCurrentStage request plan (s.evaluateStageAdvance request) := by
    simp [advanceStage, hplan, hrecord, hfailure]
  rw [hpath]
  intro hsame
  have hfailed := rolloutOf_commitFailure hplan (s.evaluateStageAdvance request).reasons false
  obtain ⟨plan', hplan', hstep⟩ :=
    (chain_afterFailure (c := {}) hs request hplan (s.evaluateStageAdvance request)).plan_stands
      hfailed
  rw [← rolloutOf, hsame, hplan] at hplan'
  obtain rfl := Option.some.inj hplan'
  have hlength := hstep.history.length_le
  simp [failedPlan] at hlength

/-! ## Late reports are refused -/

/-- A late report is refused and leaves its plan, the authority table and the lifecycle
states as they were, exactly when it does not settle the current stage anyway. -/
theorem late_report_refused_iff (hs : ReachableState c s) {op : Operation} (hlate : op.IsLate s) :
    ((s.perform c op).2.allowed = false ∧ Unsettled op.reported s (step c s op)) ↔
      ¬op.SettlesAnyway s := by
  cases op with
  | advanceStage request =>
    constructor
    · rintro ⟨_, hunsettled⟩ htrips
      exact advanceStage_fails hs.coherent htrips hunsettled.plan
    · intro htrips
      have hgate := evaluateStageAdvance_of_late hlate
      have heq := advanceStage_of_refused hgate htrips
      simp only [step, perform, heq]
      exact ⟨hgate, .refl _ s⟩
  | failStage request =>
    have hiff : (s.failStage request).2.allowed = true ↔
      (Operation.failStage request).SettlesAnyway s := failStage_allowed_iff
    constructor
    · rintro ⟨hrefused, _⟩ hsettles
      have hallowed : (s.failStage request).2.allowed = false := hrefused
      rw [hiff.mpr hsettles] at hallowed
      cases hallowed
    · intro hsettles
      have hrefused : (s.failStage request).2.allowed = false :=
        Bool.eq_false_iff.mpr fun hallowed => hsettles (hiff.mp hallowed)
      refine ⟨hrefused, ?_⟩
      have hsame : step c s (.failStage request) = s := failStage_of_refused hrefused
      rw [hsame]
      exact .refl _ s
  | _ => exact hlate.elim

/-- A canary whose error rate meets a failure criterion, while its first stage is entered. -/
def trippedCanary : List Operation := failingCanary.take 7

/-- An advance that cites a stage generation the plan is not at. -/
def supersededAdvance : Operation := .advanceStage { rollout := ⟨1⟩, stageGeneration := ⟨9⟩ }

/-- A failure report about a stage the plan does not have. -/
def foreignFailure : Operation := .failStage { rollout := ⟨1⟩, stage := ⟨9⟩ }

/-- A plan at its first stage and first stage generation makes both reports late. -/
theorem late_of_first (h : (s.rolloutOf ⟨1⟩).map (fun plan =>
      ((plan.stageAt plan.currentStageIndex).map StageDefinition.id, plan.currentStageGeneration)) =
        some (some ⟨1⟩, ⟨1⟩)) :
    supersededAdvance.IsLate s ∧ foreignFailure.IsLate s := by
  obtain ⟨plan, hplan, hat⟩ := Option.map_eq_some_iff.mp h
  rw [Prod.mk.injEq] at hat
  refine ⟨⟨plan, hplan, Or.inl (Or.inr ⟨rfl, ?_⟩)⟩, ⟨plan, hplan, Or.inl ⟨rfl, ?_⟩⟩⟩
  · rw [hat.2]
    decide
  · rw [hat.1]
    decide

theorem late_report_refused_witness :
    ((runOps {} (init {}) (failingCanary.take 6)).perform {} supersededAdvance).2.allowed = false ∧
        Unsettled supersededAdvance.reported (runOps {} (init {}) (failingCanary.take 6))
          (step {} (runOps {} (init {}) (failingCanary.take 6)) supersededAdvance) ↔
      ¬supersededAdvance.SettlesAnyway (runOps {} (init {}) (failingCanary.take 6)) :=
  late_report_refused_iff ⟨_, rfl⟩ (late_of_first (by decide +kernel)).1

/-- Both reports are late, and yet the one fails the stage with its tripped criterion and
the other is accepted. -/
theorem late_reports_settle :
    (supersededAdvance.IsLate (runOps {} (init {}) trippedCanary) ∧
        ¬Unsettled supersededAdvance.reported (runOps {} (init {}) trippedCanary)
          (step {} (runOps {} (init {}) trippedCanary) supersededAdvance)) ∧
      foreignFailure.IsLate (runOps {} (init {}) trippedCanary) ∧
        ((runOps {} (init {}) trippedCanary).perform {} foreignFailure).2.allowed = true := by
  obtain ⟨hadvance, hfailure⟩ := late_of_first (s := runOps {} (init {}) trippedCanary)
    (by decide +kernel)
  refine ⟨⟨hadvance, ?_⟩, hfailure, by decide +kernel⟩
  intro hunsettled
  have hchanged : (step {} (runOps {} (init {}) trippedCanary) supersededAdvance).rolloutOf ⟨1⟩ ≠
      (runOps {} (init {}) trippedCanary).rolloutOf ⟨1⟩ := by decide +kernel
  exact hchanged hunsettled.plan

end LifecycleFabric
