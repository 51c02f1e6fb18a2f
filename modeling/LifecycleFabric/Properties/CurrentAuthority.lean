import LifecycleFabric.Properties.CurrentSteps

/-!
# The authority of current versions

A current version is authoritative, so it should hold a live exclusive binding. A grant
that displaces the last binding of a version demotes it. A revalidation and the rollbacks
clear whole scopes instead, and a revision what its plans granted; what they withdraw from
a version that they do not name leaves it current without authority.
-/

namespace LifecycleFabric

open EngineState AuthorityTable

variable {c : EngineConfig} {s s' : EngineState} {op : Operation}

/-- A version holds a live exclusive binding beside those that are withdrawn. -/
def EngineState.HoldsBeside (s : EngineState) (withdrawn : ScopeId → AuthorityBinding → Prop)
    (model : ModelId) (version : ModelVersionId) : Prop :=
  ∃ scope b, s.HeldBy scope b model version ∧ ¬withdrawn scope b

/-- What an operation must find so that it leaves every current version a binding: each one
that it does not move holds one beside those that it withdraws, and so does what it makes
current without a grant. -/
def Operation.SparesCurrents (c : EngineConfig) (s : EngineState) : Operation → Prop
  | .reviseVersion request =>
    s.revises c request = true → ∀ m v, s.IsCurrent m v →
      ¬(m = request.model ∧ v = request.version) → s.HoldsBeside (fun _ b =>
        s.grantedBy (RolloutPlan.liveFor request.version) s.rollouts.keys b = true) m v
  | .revalidate request =>
    s.revalidates request = true → ∀ m v, s.IsCurrent m v →
      ¬(m = request.model ∧ v = request.version) → s.HoldsBeside (fun scope _ =>
        s.authority.provisionalIn request.model request.version scope = true) m v
  | .rollback request =>
    (s.evaluateRollback request).allowed = true → ∀ m v, s.IsCurrent m v →
      ¬(request.target.valid = true ∧ m = request.model ∧
        (v = request.candidate ∨ v = request.target)) →
      s.HoldsBeside (fun scope _ => scope = request.scope) m v
  | .advanceStage request =>
    ∀ plan ∈ s.rolloutOf request.rollout,
      -- a rollback by itself grants the candidate, and makes the target current
      (s.rollsBackItself request plan = true → ∀ m v,
        s.IsCurrent m v ∨ m = plan.model ∧ v = plan.rollbackTarget →
        ¬(m = plan.model ∧ v = plan.candidate) →
        s.HoldsBeside (fun scope _ => scope = plan.rootScope) m v) ∧
      -- the last stage makes the candidate current, also when it drains itself
      ((s.evaluateStageAdvance request).allowed = true →
        plan.stages.length ≤ plan.currentStageIndex + 1 → s.fitsCommit plan = true →
        s.servesStage plan = false →
        s.HoldsBeside (fun scope _ => scope ∈ plan.stageScopes plan.currentStage) plan.model
          plan.candidate)
  | _ => True

/-! ## Steps -/

theorem StepCase.owned (h : StepCase c s op s') (hs : Owned s) (hop : op.isImport = false) :
    Owned s' := by
  cases h with
  | aside h =>
    refine hs.stand ?_ h.authority
    intro key plan hplan
    obtain ⟨plan', hplan', hstep⟩ := h.plans key plan hplan
    exact ⟨plan', hplan', hstep.model, hstep.candidate⟩
  | chain p _ _ _ h => exact h.owned hs
  | recover => cases hop

theorem step_grounded (hs : Grounded s) (hop : op.isImport = false) : Grounded (step c s op) := by
  have hcase := step_cases (c := c) hs.coherent op
  exact ⟨hcase.coherent hs.coherent, hcase.standing hs.standing, hcase.owned hs.owned hop,
    step_generated hs.coherent hs.generated hop⟩

theorem grounded_init (c : EngineConfig) : Grounded (init c) := by
  refine ⟨coherent_init c, standing_init c, ?_, ?_⟩
  · intro scope b hb
    cases hb
  · intro key plan hplan
    cases hplan

/-- A version that a step neither moves nor takes its binding from is left one. -/
theorem CurrentsHold.beside {model : ModelId} {version : ModelVersionId}
    {withdrawn : ScopeId → AuthorityBinding → Prop}
    (hkeeps : KeepsCurrents (fun _ _ => False) withdrawn s s')
    (hdropped : ¬s'.IsCurrent model version)
    (hothers : ∀ m v, s.IsCurrent m v → ¬(m = model ∧ v = version) → s.HoldsBeside withdrawn m v) :
    CurrentsHold s' := by
  have hmoves : KeepsCurrents (fun m v => m = model ∧ v = version) withdrawn s s' :=
    hkeeps.mono (fun _ _ hm => hm.elim) fun _ _ hw => hw
  refine CurrentsHold.of_kept hmoves ?_ ?_
  · rintro _ _ ⟨rfl, rfl⟩ hcurrent
    exact absurd hcurrent hdropped
  · intro m v hother hcurrent
    exact hothers m v hcurrent hother

/-- A step that spares the current versions leaves each one a live exclusive binding. -/
theorem step_currentsHold (hs : Grounded s) (h : CurrentsHold s) (hop : op.SparesCurrents c s)
    (himport : op.isImport = false) : CurrentsHold (step c s op) := by
  have haside : op.writesVersions = false → (step c s op).authority = s.authority →
      CurrentsHold (step c s op) := fun hwrites hauthority =>
    h.of_left (leavesCurrents_of_frame (step_versions hwrites) hauthority)
  cases op with
  | registerModel name family provenance =>
    exact haside rfl (registerModel_aside (c := c) s name family provenance).authority
  | registerVersion request => exact h.of_left (registerVersion_leavesCurrents s request)
  | reviseVersion request =>
    rcases revise_keeps (c := c) hs.coherent request with hsame | ⟨hrevises, hkeeps, hdropped⟩
    · have hkept : step c s (.reviseVersion request) = s := hsame
      rw [hkept]
      exact h
    · exact CurrentsHold.beside hkeeps hdropped (hop hrevises)
  | registerScope path => exact haside rfl (registerScope_aside (c := c) s path).authority
  | setPolicy policy => exact haside rfl (setPolicy_aside (c := c) s policy).authority
  | setScopePolicy refinement =>
    exact haside rfl (setScopePolicy_aside (c := c) s refinement).authority
  | publishCompatibility version environment outcome detail provenance =>
    exact h.of_left
      (publishCompatibility_leavesCurrents s version environment outcome detail provenance)
  | publishEvidence record => exact haside rfl (publishEvidence_aside (c := c) s record).authority
  | expirePublisherEvidence boot =>
    exact haside rfl (expirePublisherEvidence_aside (c := c) s boot).authority
  | registerWorker registration =>
    exact haside rfl (registerWorker_aside (c := c) s registration).authority
  | fenceWorker worker boot epoch reason =>
    exact haside rfl (fenceWorker_aside (c := c) s worker boot epoch reason).authority
  | setWorkerLiveness worker connected =>
    exact haside rfl (setWorkerLiveness_aside (c := c) s worker connected).authority
  | promote request => exact promote_currentsHold hs h request
  | createRollout request => exact h.of_left (createRollout_leavesCurrents s request)
  | beginRollout request =>
    exact h.of_left (begin_leavesCurrents hs.coherent hs.standing request)
  | advanceStage request =>
    cases hcommit : s.commit request with
    | some plan =>
      obtain ⟨hplan, _⟩ := commit_permitted hcommit
      have hallowed : (s.evaluateStageAdvance request).allowed = true := by
        rw [commit] at hcommit
        split_ifs at hcommit with hallowed
        exact hallowed
      exact commit_currentsHold hs.coherent hs.standing h hcommit ((hop plan hplan).2 hallowed)
    | none =>
      rcases advance_uncommitted hcommit with hsame | ⟨plan, hplan, htripped, hfails⟩
      · have hkept : step c s (.advanceStage request) = s := hsame
        rw [hkept]
        exact h
      · have hstate : step c s (.advanceStage request) =
            (s.failCurrentStage request plan (s.evaluateStageAdvance request)).1 := hfails
        rw [hstate]
        exact failure_currentsHold hs h hplan htripped (hop plan hplan).1
  | failStage request => exact h.of_left (failStage_leavesCurrents hs request)
  | supersedeRollout rollout generation epoch detail =>
    exact h.of_left (supersedeRollout_leavesCurrents hs rollout generation epoch detail)
  | rollback request => exact rollback_currentsHold hs.coherent hs.standing request hop h
  | retire request => exact h.of_left (retire_leavesCurrents s request hs.coherent)
  | revalidate request =>
    rcases revalidate_keeps hs.coherent request with hsame | ⟨haccepted, hkeeps, hdropped⟩
    · have hkept : step c s (.revalidate request) = s := hsame
      rw [hkept]
      exact h
    · exact CurrentsHold.beside hkeeps hdropped (hop haccepted)
  | beginAttempt request => exact haside rfl (beginAttempt_aside s request).authority
  | completeAttempt completion =>
    exact haside rfl (completeAttempt_aside (c := c) s completion).authority
  | reconcileAttempt attempt sideEffectObserved epoch detail =>
    exact haside rfl
      (reconcileAttempt_aside (c := c) s attempt sideEffectObserved epoch detail).authority
  | advanceEpoch expectedCurrent =>
    exact haside rfl (advanceEpoch_aside (c := c) s expectedCurrent).authority
  | importDurableState d newEpoch => cases himport
  | invalidateVolatileState cause =>
    exact haside rfl (invalidateVolatileState_aside (c := c) s cause).authority

/-! ## Runs -/

/-- In every run without recoveries whose steps spare the current versions, every current
version holds a live exclusive binding in every state reached. -/
theorem current_versions_hold {ops : List Operation}
    (hops : Runs.Along (step c) (fun s op => op.isImport = false ∧ op.SparesCurrents c s) (init c)
      ops) : Runs.Always (step c) CurrentsHold (init c) ops := by
  have halways : Runs.Always (step c) (fun s => Grounded s ∧ CurrentsHold s) (init c) ops := by
    refine Runs.always_of_along (step c) ?_ hops ⟨grounded_init c, ?_⟩
    · rintro s op ⟨hs, h⟩ ⟨himport, hspares⟩
      exact ⟨step_grounded hs himport, step_currentsHold hs h hspares himport⟩
    · rintro model version ⟨record, hrecord, _⟩
      cases hrecord
  intro before hbefore
  exact (halways before hbefore).2

theorem current_versions_hold_witness :
    Runs.Always (step {}) CurrentsHold (init {}) (versionRegistered ++ firstServes) :=
  current_versions_hold ⟨⟨rfl, trivial⟩, ⟨rfl, trivial⟩, ⟨rfl, trivial⟩, ⟨rfl, trivial⟩, trivial⟩

/-- The canary of the second version is revalidated, and the first version stays current
without a binding. -/
theorem current_version_without_authority :
    ¬∀ (c : EngineConfig) (ops : List Operation), (∀ op ∈ ops, op.isImport = false) →
      CurrentsHold (runOps c (init c) ops) := by
  intro hclaim
  have hrun := hclaim targetFree
    (versionRegistered ++ firstServes ++ secondInCanary ++ [.revalidate revalidateSecond])
    (by decide)
  have hholds : CurrentsHold (step targetFree canaryBeside (.revalidate revalidateSecond)) := by
    rw [runOps, Runs.run_append] at hrun
    exact hrun
  have hcurrent : ∃ record ∈ (step targetFree canaryBeside
      (.revalidate revalidateSecond)).versionOf ⟨1⟩ ⟨1⟩, record.state = .current := by
    decide +kernel
  have hnone : ∀ b ∈ (step targetFree canaryBeside
      (.revalidate revalidateSecond)).authority.allBindings, b.isLiveExclusive = false := by
    decide +kernel
  obtain ⟨scope, b, hheld⟩ := hholds ⟨1⟩ ⟨1⟩ hcurrent
  have hdead := hnone b (mem_allBindings_iff.mpr ⟨scope, hheld.stored⟩)
  rw [hheld.exclusive] at hdead
  cases hdead

end LifecycleFabric
