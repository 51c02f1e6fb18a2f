import LifecycleFabric.Engine.Reachable

/-!
# Fencing of superseded callers

A call that cites an older epoch, or names a worker whose lease is fenced or of another
boot, is refused without effect. The one exception is a stage advance whose plan has a
tripped failure criterion: its failure commits whoever asks.
-/

namespace LifecycleFabric

open EngineState

variable {c : EngineConfig} {s s' : EngineState}

/-! ## Superseded callers -/

namespace EngineState

/-- An epoch that is cited and older than the current one. -/
def StaleEpoch (s : EngineState) (epoch : CoordinatorEpoch) : Prop :=
  epoch.valid = true ∧ epoch < s.epoch

/-- A named worker whose lease is fenced, or of another boot. -/
def DeadWorker (s : EngineState) (worker : WorkerId) (boot : WorkerBootId) : Prop :=
  worker.valid = true ∧ ∃ lease, s.workerOf worker = some lease ∧
    (lease.fenced = true ∨ lease.boot ≠ boot)

/-- A caller that is superseded in either way. -/
def StaleCaller (s : EngineState) (epoch : CoordinatorEpoch) (worker : WorkerId)
    (boot : WorkerBootId) : Prop :=
  s.StaleEpoch epoch ∨ s.DeadWorker worker boot

end EngineState

/-- An operation that comes from a superseded caller. -/
def Operation.FromStaleCaller (s : EngineState) : Operation → Prop
  | .promote request => s.StaleCaller request.epoch request.worker request.boot
  | .createRollout request => s.StaleCaller request.epoch request.worker request.boot
  | .beginRollout request => s.StaleCaller request.epoch request.worker request.boot
  | .advanceStage request => s.StaleCaller request.epoch request.worker request.boot
  | .failStage request => s.StaleCaller request.epoch request.worker request.boot
  | .rollback request => s.StaleCaller request.epoch request.worker request.boot
  | .beginAttempt request => s.StaleCaller request.epoch request.worker request.boot
  | .supersedeRollout _ _ epoch _ => s.StaleEpoch epoch
  | .retire request => s.StaleEpoch request.epoch
  | .completeAttempt completion => s.StaleEpoch completion.epoch
  | .reconcileAttempt _ _ epoch _ => s.StaleEpoch epoch
  | .registerWorker registration => s.StaleEpoch registration.epoch
  | .fenceWorker _ _ epoch _ => s.StaleEpoch epoch
  | _ => False

theorem checkEpoch_of_stale {epoch : CoordinatorEpoch} (h : s.StaleEpoch epoch) :
    (s.checkEpoch epoch).allowed = false ∧ faultsOf (s.checkEpoch epoch) ≠ [] := by
  have hrefused : s.checkEpoch epoch = .because .conflict .coordinatorEpochStale
      (text "frame carries a superseded coordinator epoch") := by
    simp [checkEpoch, h.1, h.2.ne]
  rw [hrefused]
  exact ⟨rfl, faultsOf_because rfl (by decide)⟩

theorem checkWorker_of_dead {worker : WorkerId} {boot : WorkerBootId} (epoch : CoordinatorEpoch)
    (h : s.DeadWorker worker boot) :
    (s.checkWorker worker boot epoch).allowed = false ∧
      faultsOf (s.checkWorker worker boot epoch) ≠ [] := by
  obtain ⟨hvalid, lease, hlease, hdead⟩ := h
  have hrefused : ∃ detail,
      s.checkWorker worker boot epoch = .because .rejected .workerBootStale detail := by
    unfold checkWorker
    simp only [hvalid, Bool.not_true, Bool.false_eq_true, if_false, hlease]
    split_ifs with hfenced hboot
    · exact ⟨_, rfl⟩
    · exact ⟨_, rfl⟩
    · exact absurd (Or.inr (hdead.resolve_left hfenced)) hboot
    · exact absurd (Or.inr (hdead.resolve_left hfenced)) hboot
  obtain ⟨detail, hrefused⟩ := hrefused
  rw [hrefused]
  exact ⟨rfl, faultsOf_because rfl (by decide)⟩

/-- The two shared checks do not both let a superseded caller pass. -/
theorem not_both_allowed {epoch : CoordinatorEpoch} {worker : WorkerId} {boot : WorkerBootId}
    (h : s.StaleCaller epoch worker boot) :
    ¬((s.checkEpoch epoch).allowed = true ∧ (s.checkWorker worker boot epoch).allowed = true) := by
  rintro ⟨hepoch, hworker⟩
  rcases h with hstale | hdead
  · rw [(checkEpoch_of_stale hstale).1] at hepoch
    cases hepoch
  · rw [(checkWorker_of_dead epoch hdead).1] at hworker
    cases hworker

theorem faults_of_stale {epoch : CoordinatorEpoch} {worker : WorkerId} {boot : WorkerBootId}
    (h : s.StaleCaller epoch worker boot) :
    faultsOf (s.checkEpoch epoch) ≠ [] ∨ faultsOf (s.checkWorker worker boot epoch) ≠ [] :=
  h.imp (fun h => (checkEpoch_of_stale h).2) fun h => (checkWorker_of_dead epoch h).2

/-! ## Refusals -/

/-- An operation that is refused and changes nothing. -/
def RefusesUnchanged (c : EngineConfig) (s : EngineState) (op : Operation) : Prop :=
  (s.perform c op).2.allowed = false ∧ step c s op = s

theorem planRefusal_of_stale {request : RolloutPlanRequest} (record : ModelVersionRecord)
    (h : s.StaleCaller request.epoch request.worker request.boot) :
    s.planRefusal c request record ≠ none := by
  intro hnone
  simp only [planRefusal, firstRefusal_eq_none, List.append_eq_nil_iff, refusalOf_eq_nil] at hnone
  obtain ⟨⟨⟨_, hepoch⟩, hworker⟩, _⟩ := hnone
  exact not_both_allowed h ⟨hepoch, hworker⟩

theorem beginRefusal_of_stale {request : RolloutProgressRequest} (plan : RolloutPlan)
    (h : s.StaleCaller request.epoch request.worker request.boot) :
    s.beginRefusal request plan ≠ none := by
  intro hnone
  simp only [beginRefusal, firstRefusal_eq_none, List.append_eq_nil_iff, refusalOf_eq_nil] at hnone
  obtain ⟨⟨⟨⟨⟨⟨⟨_, hepoch⟩, hworker⟩, _⟩, _⟩, _⟩, _⟩, _⟩ := hnone
  exact not_both_allowed h ⟨hepoch, hworker⟩

theorem failRefusal_of_stale {request : RolloutProgressRequest} (plan : RolloutPlan)
    (h : s.StaleCaller request.epoch request.worker request.boot) :
    s.failRefusal request plan ≠ none := by
  intro hnone
  simp only [failRefusal, firstRefusal_eq_none, List.append_eq_nil_iff, refusalOf_eq_nil] at hnone
  obtain ⟨⟨⟨⟨⟨⟨⟨_, _⟩, hepoch⟩, hworker⟩, _⟩, _⟩, _⟩, _⟩ := hnone
  exact not_both_allowed h ⟨hepoch, hworker⟩

theorem attemptRefusal_of_stale {request : AttemptRequest}
    (h : s.StaleCaller request.epoch request.worker request.boot) :
    s.attemptRefusal c request ≠ none := by
  intro hnone
  simp only [attemptRefusal, firstRefusal_eq_none, List.append_eq_nil_iff, refusalOf_eq_nil]
    at hnone
  obtain ⟨⟨⟨_, hepoch⟩, hworker⟩, _⟩ := hnone
  exact not_both_allowed h ⟨hepoch, hworker⟩

theorem completionRefusal_of_stale {completion : CompletionRecord} (attempt : Attempt)
    (h : s.StaleEpoch completion.epoch) : s.completionRefusal completion attempt ≠ none := by
  intro hnone
  simp only [completionRefusal, firstRefusal_eq_none, List.append_eq_nil_iff, refuseIf_eq_nil]
    at hnone
  obtain ⟨⟨⟨⟨⟨⟨⟨_, _⟩, hepoch⟩, _⟩, _⟩, _⟩, _⟩, _⟩ := hnone
  exact hepoch ⟨h.1, h.2.ne⟩

theorem evaluatePromotion_of_stale {request : PromotionRequest}
    (h : s.StaleCaller request.epoch request.worker request.boot) :
    (s.evaluatePromotion c request).allowed = false := by
  by_contra hallowed
  obtain ⟨record, _, hfaults⟩ := evaluatePromotion_allowed_iff.mp (by simpa using hallowed)
  simp only [promotionFaults, callerFaults, List.append_eq_nil_iff] at hfaults
  obtain ⟨⟨⟨⟨⟨⟨⟨⟨⟨hepoch, _⟩, hworker⟩, _⟩, _⟩, _⟩, _⟩, _⟩, _⟩, _⟩ := hfaults
  exact (faults_of_stale h).elim (· hepoch) (· hworker)

theorem evaluateRollback_of_stale {request : RollbackRequest}
    (h : s.StaleCaller request.epoch request.worker request.boot) :
    (s.evaluateRollback request).allowed = false := by
  by_contra hallowed
  obtain ⟨candidate, _, hfaults⟩ := evaluateRollback_allowed_iff.mp (by simpa using hallowed)
  simp only [rollbackFaults, callerFaults, List.append_eq_nil_iff] at hfaults
  obtain ⟨⟨⟨⟨⟨_, ⟨hepoch, _⟩, hworker⟩, _⟩, _⟩, _⟩, _⟩ := hfaults
  exact (faults_of_stale h).elim (· hepoch) (· hworker)

theorem evaluateRetirement_of_stale {request : RetirementRequest}
    (h : s.StaleEpoch request.epoch) : (s.evaluateRetirement request).allowed = false := by
  by_contra hallowed
  obtain ⟨record, _, hfaults⟩ := evaluateRetirement_allowed_iff.mp (by simpa using hallowed)
  simp only [retirementFaults, List.append_eq_nil_iff] at hfaults
  obtain ⟨⟨⟨⟨⟨_, hepoch⟩, _⟩, _⟩, _⟩, _⟩ := hfaults
  exact (checkEpoch_of_stale h).2 hepoch

theorem evaluateStageAdvance_of_stale {request : RolloutProgressRequest}
    (h : s.StaleCaller request.epoch request.worker request.boot) :
    (s.evaluateStageAdvance request).allowed = false := by
  by_contra hallowed
  obtain ⟨plan, _, hfaults⟩ := stage_permitted (by simpa using hallowed)
  simp only [stageFaults, List.append_eq_nil_iff] at hfaults
  obtain ⟨⟨⟨⟨⟨_, hepoch⟩, hworker⟩, _⟩, _⟩, _⟩ := hfaults
  exact (faults_of_stale h).elim (· hepoch) (· hworker)

/-! ## The failure path of a stage advance -/

namespace EngineState

/-- Some failure criterion of the plan's current stage is met by current evidence, in a
scope of the stage. -/
def FailureTripped (s : EngineState) (plan : RolloutPlan) : Prop :=
  ∃ record, s.versionOf plan.model plan.candidate = some record ∧
    ∃ stage, plan.stageAt plan.currentStageIndex = some stage ∧
      ∃ scope ∈ plan.stageScopes stage, ∃ criterion ∈ stage.failure,
        (s.evaluateCriterion criterion (stageSubject record plan stage scope)).present = true ∧
          criterion.holds
            (s.evaluateCriterion criterion (stageSubject record plan stage scope)).value = true

end EngineState

/-- A stage advance of a stored plan, at its generation if one is cited, whose current
stage has a tripped failure criterion. -/
def Operation.TripsFailure (s : EngineState) : Operation → Prop
  | .advanceStage request => ∃ plan, s.rolloutOf request.rollout = some plan ∧
      (request.rolloutGeneration.valid = true → request.rolloutGeneration = plan.generation) ∧
        s.FailureTripped plan
  | _ => False

theorem checkEpoch_has (epoch : CoordinatorEpoch) :
    (s.checkEpoch epoch).has .stageFailureThresholdExceeded = false := by
  unfold checkEpoch
  split_ifs <;> rfl

theorem checkWorker_has (worker : WorkerId) (boot : WorkerBootId) (epoch : CoordinatorEpoch) :
    (s.checkWorker worker boot epoch).has .stageFailureThresholdExceeded = false := by
  unfold checkWorker
  split_ifs
  · rfl
  · split
    · rfl
    · split_ifs <;> rfl

theorem evidenceComplaint_code {requirement : EvidenceRequirement} {lookup : EvidenceLookup}
    {outcome : OutcomeCode} {code : ReasonCode} {detail : Text}
    (h : evidenceComplaint requirement lookup = some (outcome, code, detail)) :
    code ≠ .stageFailureThresholdExceeded := by
  unfold evidenceComplaint at h
  rintro rfl
  dsimp only at h
  split at h
  · split at h
    · cases h
    · split_ifs at h
      simp at h
  all_goals simp at h

theorem checkEvidenceList_has (requirements : List EvidenceRequirement)
    (subject : EvidenceSubject) :
    (s.checkEvidenceList requirements subject).has .stageFailureThresholdExceeded = false := by
  rw [checkEvidenceList, has_normalize]
  refine List.foldlRecOn requirements _
    (motive := fun d : Decision => d.has .stageFailureThresholdExceeded = false) rfl ?_
  intro d hd requirement _
  dsimp only
  split
  · exact hd
  · rename_i outcome code detail hcomplaint
    rw [Bool.eq_false_iff, ne_eq, has_add (by decide), not_or]
    refine ⟨?_, evidenceComplaint_code hcomplaint⟩
    simpa [Decision.has] using hd

/-- Faults none of which reports a tripped failure criterion. -/
def SparesFailure (faults : List Fault) : Prop :=
  ∀ f ∈ faults, f.code ≠ .stageFailureThresholdExceeded

theorem sparesFailure_faultsOf {d : Decision}
    (h : d.has .stageFailureThresholdExceeded = false) : SparesFailure (faultsOf d) := by
  intro f hf hcode
  rw [← hcode, has_of_mem_faultsOf hf] at h
  cases h

theorem sparesFailure_progress (request : RolloutProgressRequest) (plan : RolloutPlan) :
    SparesFailure (progressFaults request plan) := by
  intro f hf
  unfold progressFaults at hf
  simp only [List.mem_append, mem_faultIf, List.mem_map] at hf
  rcases hf with ((((⟨_, rfl⟩ | ⟨_, rfl⟩) | ⟨_, rfl⟩) | hstage) | ⟨_, rfl⟩) | ⟨_, _, rfl⟩
  · decide
  · decide
  · decide
  · split at hstage
    · rw [List.mem_singleton] at hstage
      subst hstage
      decide
    · obtain ⟨_, rfl⟩ := mem_faultIf.mp hstage
      decide
  · decide
  · decide

theorem sparesFailure_binding (s : EngineState) (request : RolloutProgressRequest)
    (plan : RolloutPlan) : SparesFailure (s.bindingFaults request plan) := by
  intro f hf
  unfold bindingFaults at hf
  rcases List.mem_append.mp hf with hbinding | hscope
  · split at hbinding
    · cases hbinding
    · rw [List.mem_singleton] at hbinding
      subst hbinding
      exact fun h => by cases h
  · split at hscope
    · rw [List.mem_singleton] at hscope
      subst hscope
      decide
    · obtain ⟨_, rfl⟩ := mem_faultIf.mp hscope
      decide

theorem sparesFailure_progression (s : EngineState) (request : RolloutProgressRequest)
    (plan : RolloutPlan) : SparesFailure (s.progressionFaults request plan) := by
  intro f hf
  unfold progressionFaults at hf
  rcases List.mem_append.mp hf with happroval | hradius
  · obtain ⟨_, rfl⟩ := mem_faultIf.mp happroval
    decide
  · split at hradius
    · cases hradius
    · obtain ⟨_, rfl⟩ := mem_faultIf.mp hradius
      decide

theorem sparesFailure_acceptance (s : EngineState) (subject : EvidenceSubject)
    (criterion : Criterion) : SparesFailure (s.acceptanceFaults subject criterion) := by
  intro f hf
  unfold acceptanceFaults at hf
  dsimp only at hf
  split at hf
  · rw [List.mem_singleton] at hf
    subst hf
    exact fun h => by cases h
  · obtain ⟨_, rfl⟩ := mem_faultIf.mp hf
    exact fun h => by cases h

/-- A failure criterion reports that it is tripped exactly when current evidence meets it. -/
theorem failureFaults_trips_iff {subject : EvidenceSubject} {criterion : Criterion} :
    (∃ f ∈ s.failureFaults subject criterion, f.code = .stageFailureThresholdExceeded) ↔
      (s.evaluateCriterion criterion subject).present = true ∧
        criterion.holds (s.evaluateCriterion criterion subject).value = true := by
  unfold failureFaults
  dsimp only
  split_ifs with hpresent
  · simp_all
  · simp only [mem_faultIf]
    simp_all

theorem stageScopeFaults_trips_iff {plan : RolloutPlan} {record : ModelVersionRecord}
    {stage : StageDefinition} {scope : ScopeId} :
    (∃ f ∈ s.stageScopeFaults plan record stage scope,
        f.code = .stageFailureThresholdExceeded) ↔
      ∃ criterion ∈ stage.failure,
        (s.evaluateCriterion criterion (stageSubject record plan stage scope)).present = true ∧
          criterion.holds
            (s.evaluateCriterion criterion (stageSubject record plan stage scope)).value = true := by
  unfold stageScopeFaults
  simp only [← failureFaults_trips_iff]
  constructor
  · rintro ⟨f, hf, hcode⟩
    rcases List.mem_append.mp hf with hf | hf
    · rcases List.mem_append.mp hf with hf | hf
      · split_ifs at hf
        · exact absurd hcode (sparesFailure_faultsOf (checkEvidenceList_has _ _) f hf)
        · cases hf
      · obtain ⟨criterion, hcriterion, hf⟩ := List.mem_flatMap.mp hf
        exact ⟨criterion, hcriterion, f, hf, hcode⟩
    · obtain ⟨criterion, _, hf⟩ := List.mem_flatMap.mp hf
      exact absurd hcode (sparesFailure_acceptance s _ criterion f hf)
  · rintro ⟨criterion, hcriterion, f, hf, hcode⟩
    refine ⟨f, ?_, hcode⟩
    exact List.mem_append_left _ (List.mem_append_right _
      (List.mem_flatMap.mpr ⟨criterion, hcriterion, hf⟩))

theorem feedbackFaults_trips_iff {plan : RolloutPlan} :
    (∃ f ∈ s.feedbackFaults plan, f.code = .stageFailureThresholdExceeded) ↔
      s.FailureTripped plan := by
  unfold feedbackFaults FailureTripped
  cases s.versionOf plan.model plan.candidate with
  | none => simp
  | some record =>
    cases plan.stageAt plan.currentStageIndex with
    | none => simp
    | some stage =>
      simp only [Option.some.injEq, exists_eq_left', List.mem_flatMap,
        ← stageScopeFaults_trips_iff]
      constructor
      · rintro ⟨f, ⟨scope, hscope, hf⟩, hcode⟩
        exact ⟨scope, hscope, f, hf, hcode⟩
      · rintro ⟨scope, hscope, f, hf, hcode⟩
        exact ⟨f, ⟨scope, hscope, hf⟩, hcode⟩

/-- Of the faults of a stage advance, only feedback reports a tripped failure criterion. -/
theorem stageFaults_trips_iff {request : RolloutProgressRequest} {plan : RolloutPlan} :
    (∃ f ∈ s.stageFaults request plan, f.code = .stageFailureThresholdExceeded) ↔
      s.FailureTripped plan := by
  rw [← feedbackFaults_trips_iff]
  constructor
  · rintro ⟨f, hf, hcode⟩
    refine ⟨f, ?_, hcode⟩
    simp only [stageFaults, List.mem_append] at hf
    rcases hf with ((((hf | hf) | hf) | hf) | hf) | hf
    · exact absurd hcode (sparesFailure_progress request plan f hf)
    · exact absurd hcode (sparesFailure_faultsOf (checkEpoch_has _) f hf)
    · exact absurd hcode (sparesFailure_faultsOf (checkWorker_has _ _ _) f hf)
    · exact absurd hcode (sparesFailure_binding s request plan f hf)
    · exact absurd hcode (sparesFailure_progression s request plan f hf)
    · exact hf
  · rintro ⟨f, hf, hcode⟩
    exact ⟨f, List.mem_append_right _ hf, hcode⟩

/-- The gate reports a tripped failure criterion exactly when there is one, whatever else
it finds. -/
theorem stageFailure_iff {request : RolloutProgressRequest} :
    (s.evaluateStageAdvance request).has .stageFailureThresholdExceeded = true ↔
      (Operation.advanceStage request).TripsFailure s := by
  unfold evaluateStageAdvance
  simp only [Operation.TripsFailure]
  cases hplan : s.rolloutOf request.rollout with
  | none =>
    rw [has_gateDecision (by decide)]
    simp
  | some plan =>
    dsimp only
    split
    · rename_i hstale
      rw [has_gateDecision (by decide)]
      simp [hstale]
    · rename_i hfresh
      have hgeneration : request.rolloutGeneration.valid = true →
          request.rolloutGeneration = plan.generation := by
        intro hvalid
        by_contra hne
        exact hfresh ⟨hvalid, hne⟩
      rw [has_normalize, has_gateDecision (by decide), stageFaults_trips_iff]
      simp only [Option.some.injEq, exists_eq_left']
      exact ⟨fun htripped => ⟨hgeneration, htripped⟩, fun h => h.2⟩

/-- The failure path always lengthens the history of its plan. -/
theorem failCurrentStage_changes (hs : Coherent s) (request : RolloutProgressRequest)
    {plan : RolloutPlan} (hplan : s.rolloutOf request.rollout = some plan) (gate : Decision) :
    (s.failCurrentStage request plan gate).1.rollouts ≠ s.rollouts := by
  intro hsame
  have hfailed := rolloutOf_commitFailure hplan gate.reasons false
  obtain ⟨plan', hplan', hstep⟩ :=
    (chain_afterFailure (c := {}) hs request hplan gate).plan_stands hfailed
  rw [hsame, ← rolloutOf, hplan] at hplan'
  obtain rfl := Option.some.inj hplan'
  have hlength := hstep.history.length_le
  simp [failedPlan] at hlength

/-! ## Superseded callers are refused -/

/-- The tables of two states agree. -/
structure SameTables (s s' : EngineState) : Prop where
  models : s'.models = s.models
  versions : s'.versions = s.versions
  authority : s'.authority = s.authority
  scopes : s'.scopes = s.scopes
  policy : s'.policy = s.policy
  rollouts : s'.rollouts = s.rollouts
  evidence : s'.evidence = s.evidence
  workers : s'.workers = s.workers
  attempts : s'.attempts = s.attempts

/-- A call of a superseded caller that trips no failure criterion is refused without
effect. -/
theorem refusesUnchanged_of_stale {op : Operation} (hstale : op.FromStaleCaller s)
    (htrips : ¬op.TripsFailure s) : RefusesUnchanged c s op := by
  cases op with
  | promote request =>
    have hgate := evaluatePromotion_of_stale (c := c) hstale
    simp [RefusesUnchanged, step, perform, promote, hgate]
  | createRollout request =>
    cases hrecord : s.versionOf request.model request.candidate with
    | none =>
      simp [RefusesUnchanged, step, perform, createRollout, hrecord, OutcomeCode.isPositive]
    | some record =>
      obtain ⟨refusal, hrefusal⟩ := Option.ne_none_iff_exists'.mp
        (planRefusal_of_stale (c := c) record hstale)
      simp [RefusesUnchanged, step, perform, createRollout, hrecord, hrefusal, refusal.refuses]
  | beginRollout request =>
    cases hplan : s.rolloutOf request.rollout with
    | none => simp [RefusesUnchanged, step, perform, beginRollout, hplan, OutcomeCode.isPositive]
    | some plan =>
      obtain ⟨refusal, hrefusal⟩ := Option.ne_none_iff_exists'.mp
        (beginRefusal_of_stale plan hstale)
      simp [RefusesUnchanged, step, perform, beginRollout, hplan, hrefusal, refusal.refuses]
  | advanceStage request =>
    have hgate := evaluateStageAdvance_of_stale hstale
    have hfailure : (s.evaluateStageAdvance request).has .stageFailureThresholdExceeded = false :=
      Bool.eq_false_iff.mpr fun hhas => htrips (stageFailure_iff.mp hhas)
    cases hplan : s.rolloutOf request.rollout with
    | none => simp [RefusesUnchanged, step, perform, advanceStage, hplan, hgate]
    | some plan => simp [RefusesUnchanged, step, perform, advanceStage, hplan, hgate, hfailure]
  | failStage request =>
    cases hplan : s.rolloutOf request.rollout with
    | none => simp [RefusesUnchanged, step, perform, failStage, hplan, OutcomeCode.isPositive]
    | some plan =>
      obtain ⟨refusal, hrefusal⟩ := Option.ne_none_iff_exists'.mp
        (failRefusal_of_stale plan hstale)
      simp [RefusesUnchanged, step, perform, failStage, hplan, hrefusal, refusal.refuses]
  | rollback request =>
    have hgate := evaluateRollback_of_stale hstale
    simp [RefusesUnchanged, step, perform, rollback, hgate]
  | beginAttempt request =>
    obtain ⟨refusal, hrefusal⟩ := Option.ne_none_iff_exists'.mp
      (attemptRefusal_of_stale (c := c) hstale)
    simp [RefusesUnchanged, step, perform, beginAttempt, hrefusal, refusal.refuses]
  | supersedeRollout rollout generation epoch detail =>
    cases hplan : s.rolloutOf rollout with
    | none =>
      simp [RefusesUnchanged, step, perform, supersedeRollout, hplan, OutcomeCode.isPositive]
    | some plan =>
      by_cases hgeneration : generation.valid = true ∧ generation ≠ plan.generation
      · simp [RefusesUnchanged, step, perform, supersedeRollout, hplan, hgeneration,
          OutcomeCode.isPositive]
      · have hepoch : epoch.valid = true ∧ epoch < s.epoch := hstale
        simp [RefusesUnchanged, step, perform, supersedeRollout, hplan, hgeneration, hepoch,
          OutcomeCode.isPositive]
  | retire request =>
    have hgate := evaluateRetirement_of_stale hstale
    simp [RefusesUnchanged, step, perform, retire, hgate]
  | completeAttempt completion =>
    cases hattempt : s.attempts.get? completion.attempt.raw with
    | none =>
      simp [RefusesUnchanged, step, perform, completeAttempt, hattempt, OutcomeCode.isPositive]
    | some attempt =>
      obtain ⟨refusal, hrefusal⟩ := Option.ne_none_iff_exists'.mp
        (completionRefusal_of_stale attempt hstale)
      simp [RefusesUnchanged, step, perform, completeAttempt, hattempt, hrefusal, refusal.refuses]
  | reconcileAttempt id sideEffectObserved epoch detail =>
    have hepoch : epoch.valid = true ∧ epoch < s.epoch := hstale
    cases hattempt : s.attempts.get? id.raw with
    | none =>
      simp [RefusesUnchanged, step, perform, reconcileAttempt, hattempt, OutcomeCode.isPositive]
    | some attempt =>
      simp only [RefusesUnchanged, step, perform, reconcileAttempt, hattempt, hepoch, and_self,
        if_true]
      split_ifs <;> simp [OutcomeCode.isPositive]
  | registerWorker registration =>
    have hepoch : registration.epoch.valid = true ∧ registration.epoch ≠ s.epoch :=
      ⟨hstale.1, hstale.2.ne⟩
    by_cases hnamed : (!registration.id.valid) = true ∨ (!registration.boot.valid) = true
    · simp only [RefusesUnchanged, step, perform, registerWorker, hnamed, if_true]
      exact ⟨rfl, trivial⟩
    · simp only [RefusesUnchanged, step, perform, registerWorker, hnamed, hepoch, if_false,
        if_true, and_self, not_false_eq_true, ne_eq]
      exact ⟨rfl, trivial⟩
  | fenceWorker worker boot epoch reason =>
    have hepoch : epoch.valid = true ∧ epoch < s.epoch := hstale
    cases hlease : s.workerOf worker with
    | none =>
      simp [RefusesUnchanged, step, perform, fenceWorker, hlease, OutcomeCode.isPositive]
    | some lease =>
      simp only [RefusesUnchanged, step, perform, fenceWorker, hlease, hepoch, and_self, if_true]
      split_ifs <;> simp [OutcomeCode.isPositive]
  | _ => exact False.elim hstale

/-- A call of a superseded caller is refused and leaves every table as it was, exactly
when it does not advance a stage with a tripped failure criterion. -/
theorem stale_caller_refused_iff (hs : ReachableState c s) {op : Operation}
    (hstale : op.FromStaleCaller s) :
    ((s.perform c op).2.allowed = false ∧ SameTables s (step c s op)) ↔ ¬op.TripsFailure s := by
  constructor
  · rintro ⟨_, htables⟩ htrips
    cases op with
    | advanceStage request =>
      obtain ⟨plan, hplan, _, record, hrecord, _⟩ := id htrips
      have hfailure := stageFailure_iff.mpr htrips
      refine failCurrentStage_changes hs.coherent request hplan (s.evaluateStageAdvance request) ?_
      rw [← htables.rollouts]
      simp [step, perform, advanceStage, hplan, hrecord, hfailure]
    | _ => exact htrips
  · intro htrips
    obtain ⟨hrefused, hsame⟩ := refusesUnchanged_of_stale (c := c) hstale htrips
    refine ⟨hrefused, ?_⟩
    rw [hsame]
    constructor <;> rfl

/-! ### A superseded coordinator commits a stage failure -/

/-- A canary of one version in the root scope, whose error rate meets a failure criterion,
after which the epoch advances. -/
def failingCanary : List Operation :=
  [.registerModel [109] [] .synthetic,
    .registerVersion
      { model := ⟨1⟩, label := [49]
        artifact := { setId := ⟨1⟩, generation := ⟨1⟩, digest := [97] } },
    .publishCompatibility ⟨1⟩ { key := [101] } .compatible [] .synthetic,
    .promote { model := ⟨1⟩, candidate := ⟨1⟩, scope := ⟨1⟩, environmentKey := [101] },
    .createRollout
      { model := ⟨1⟩, candidate := ⟨1⟩, rootScope := ⟨1⟩
        cohorts := [{ name := [99], scopes := [⟨1⟩] }]
        stages := [{ name := [115], cohortIndices := [0], failure := [{ kind := .errorRate }] }] },
    .beginRollout { rollout := ⟨1⟩ },
    .publishEvidence
      { kind := .errorRate, verdict := .satisfied, provenance := .synthetic
        subject :=
          { version := ⟨1⟩, scope := ⟨1⟩, rollout := ⟨1⟩, rolloutGeneration := ⟨1⟩
            stage := ⟨1⟩, stageGeneration := ⟨1⟩ } },
    .advanceEpoch {}]

/-- A stage advance that cites the first epoch. -/
def lateAdvance : Operation := .advanceStage { rollout := ⟨1⟩, epoch := ⟨1⟩ }

/-- The same canary with no error rate reported. -/
def quietCanary : List Operation :=
  failingCanary.take 6 ++ [.advanceEpoch {}]

theorem stale_caller_refused_witness :
    ((runOps {} (init {}) quietCanary).rolloutOf ⟨1⟩).map RolloutPlan.stageEntered = some true ∧
      ((runOps {} (init {}) quietCanary).perform {} lateAdvance).2.allowed = false ∧
      SameTables (runOps {} (init {}) quietCanary)
        (step {} (runOps {} (init {}) quietCanary) lateAdvance) := by
  have hstale : lateAdvance.FromStaleCaller (runOps {} (init {}) quietCanary) := by
    left
    show StaleEpoch _ _
    unfold StaleEpoch
    decide +kernel
  have hkept : ¬lateAdvance.TripsFailure (runOps {} (init {}) quietCanary) := by
    intro htrips
    have hfailure := stageFailure_iff.mpr htrips
    revert hfailure
    decide +kernel
  exact ⟨by decide +kernel,
    (stale_caller_refused_iff ⟨quietCanary, rfl⟩ hstale).mpr hkept⟩

/-- The late advance is of a superseded epoch, and yet it fails the plan. -/
theorem stale_advance_fails_plan :
    lateAdvance.FromStaleCaller (runOps {} (init {}) failingCanary) ∧
      ¬SameTables (runOps {} (init {}) failingCanary)
        (step {} (runOps {} (init {}) failingCanary) lateAdvance) := by
  refine ⟨Or.inl ?_, ?_⟩
  · show StaleEpoch _ _
    unfold StaleEpoch
    decide +kernel
  · intro hsame
    have hchanged : (step {} (runOps {} (init {}) failingCanary) lateAdvance).rollouts ≠
        (runOps {} (init {}) failingCanary).rollouts := by decide +kernel
    exact hchanged hsame.rollouts

end LifecycleFabric
