import LifecycleFabric.Engine.Step
import LifecycleFabric.EvidenceLookup

/-!
# When the gates permit

A gate permits a request exactly when none of its checks finds a fault. Each operation
commits only what its gate permits, so the facts read off here are what its effects may
rely on.
-/

namespace LifecycleFabric

namespace EngineState

variable {cfg : EngineConfig} {s : EngineState}

/-- A normalized gate permits exactly when it finds no fault. -/
theorem normalized_gate_allowed_iff {rank : OutcomeCode → ℕ} {positive : OutcomeCode}
    (hpositive : positive.isPositive = true)
    (hrank : ∀ code : OutcomeCode, code.isPositive = false → rank positive < rank code)
    {faults : List Fault} :
    (gateDecision rank positive faults).normalize.allowed = true ↔ faults = [] := by
  rw [← gateDecision_allowed_iff hpositive hrank]
  rfl

theorem promotionRank_pos (code : OutcomeCode) (h : code.isPositive = false) :
    promotionRank .promotionAllowed < promotionRank code := by
  cases code <;> first | exact absurd h (by decide) | decide

theorem rollbackRank_pos (code : OutcomeCode) (h : code.isPositive = false) :
    rollbackRank .rollbackAllowed < rollbackRank code := by
  cases code <;> first | exact absurd h (by decide) | decide

theorem stageRank_pos (code : OutcomeCode) (h : code.isPositive = false) :
    stageRank .stageAdvanceAllowed < stageRank code := by
  cases code <;> first | exact absurd h (by decide) | decide

theorem retirementRank_pos (code : OutcomeCode) (h : code.isPositive = false) :
    retirementRank .retirementAllowed < retirementRank code := by
  cases code <;> first | exact absurd h (by decide) | decide

/-! ## The reasons a gate gives -/

theorem mem_faultIf {condition : Prop} [Decidable condition] {fault found : Fault} :
    found ∈ faultIf condition fault ↔ condition ∧ found = fault := by
  unfold faultIf
  split_ifs with h <;> simp [h]

theorem has_add {d : Decision} {reason : Reason} {code : ReasonCode} (hcode : code ≠ .none) :
    (d.add reason).has code = true ↔ d.has code = true ∨ reason.code = code := by
  unfold Decision.add
  split_ifs with hnone
  · simp only [hnone, hcode.symm, or_false]
  · simp [Decision.has]

theorem has_normalize (d : Decision) (code : ReasonCode) :
    d.normalize.has code = d.has code := by
  rw [Bool.eq_iff_iff]
  simp only [Decision.has, Decision.normalize, normalizeReasons, List.any_eq_true,
    List.mem_dedup, (List.perm_insertionSort _ _).mem_iff]

/-- A gate gives a reason exactly when one of its faults has the code. -/
theorem has_gateDecision {rank : OutcomeCode → ℕ} {positive : OutcomeCode} {faults : List Fault}
    {code : ReasonCode} (hcode : code ≠ .none) :
    (gateDecision rank positive faults).has code = true ↔ ∃ f ∈ faults, f.code = code := by
  have hfold : ∀ d : Decision, (faults.foldl (Decision.fault rank) d).has code = true ↔
      d.has code = true ∨ ∃ f ∈ faults, f.code = code := by
    induction faults with
    | nil => simp
    | cons fault faults ih =>
      intro d
      have hraise : (d.raise rank fault.outcome).has code = d.has code := by
        unfold Decision.raise
        split_ifs <;> rfl
      rw [List.foldl_cons, ih, Decision.fault, has_add hcode, hraise, or_assoc]
      simp
  rw [gateDecision, hfold]
  simp [Decision.has]

/-- The faults carried over from a decision have the codes of its reasons. -/
theorem has_of_mem_faultsOf {d : Decision} {f : Fault} (h : f ∈ faultsOf d) :
    d.has f.code = true := by
  unfold faultsOf at h
  split_ifs at h
  · obtain ⟨reason, hreason, rfl⟩ := List.mem_map.mp h
    simp only [Decision.has, List.any_eq_true, decide_eq_true_eq]
    exact ⟨reason, hreason, rfl⟩
  · cases h

/-! ## Evidence -/

/-- A requirement about which the gates do not complain. -/
def Meets (s : EngineState) (need : EvidenceRequirement) (subject : EvidenceSubject) : Prop :=
  evidenceComplaint need (s.checkEvidence need subject) = none

/-- A requirement is met exactly by a current record with the required verdict. -/
theorem meets_iff {need : EvidenceRequirement} {subject : EvidenceSubject} :
    s.Meets need subject ↔ ∃ found,
      s.checkEvidence need subject = { currentness := .current, record := some found } ∧
        found.verdict = need.requiredVerdict := by
  unfold Meets
  constructor
  · intro hmeets
    have hcurrent : (s.checkEvidence need subject).currentness = .current := by
      unfold evidenceComplaint at hmeets
      dsimp only at hmeets
      split at hmeets
      · assumption
      all_goals cases hmeets
    obtain ⟨found, hfound⟩ := resolve_current hcurrent
    have hlookup : s.checkEvidence need subject =
        { currentness := .current, record := some found } := by
      rw [← hcurrent, ← hfound]
      rfl
    rw [hlookup] at hmeets
    simp only [evidenceComplaint, ite_not, ite_eq_left_iff, reduceCtorEq, imp_false,
      Decidable.not_not] at hmeets
    exact ⟨found, hlookup, hmeets⟩
  · rintro ⟨found, hlookup, hverdict⟩
    rw [hlookup]
    simp [evidenceComplaint, hverdict]

theorem evidenceComplaint_outcome {need : EvidenceRequirement} {lookup : EvidenceLookup}
    {outcome : OutcomeCode} {code : ReasonCode} {detail : Text}
    (h : evidenceComplaint need lookup = some (outcome, code, detail)) :
    outcome.isPositive = false := by
  unfold evidenceComplaint at h
  dsimp only at h
  split at h
  · split at h
    · cases h
    · split_ifs at h
      obtain ⟨rfl, _⟩ := Prod.mk.inj (Option.some.inj h)
      rfl
  all_goals
    obtain ⟨rfl, _⟩ := Prod.mk.inj (Option.some.inj h)
    rfl

/-- A fold allows its result exactly when it began allowed and every step allows its item. -/
theorem foldl_allowed_iff {α : Type} {check : Decision → α → Decision} {P : α → Prop}
    (hcheck : ∀ d a, (check d a).allowed = true ↔ d.allowed = true ∧ P a) (items : List α)
    (d : Decision) :
    (items.foldl check d).allowed = true ↔ d.allowed = true ∧ ∀ a ∈ items, P a := by
  induction items generalizing d with
  | nil => simp
  | cons head rest ih => rw [List.foldl_cons, ih, hcheck, List.forall_mem_cons, and_assoc]

/-- The check of a list passes exactly when every requirement of it is met. -/
theorem checkEvidenceList_allowed_iff {needs : List EvidenceRequirement}
    {subject : EvidenceSubject} :
    (s.checkEvidenceList needs subject).allowed = true ↔ ∀ need ∈ needs, s.Meets need subject := by
  unfold checkEvidenceList
  refine (foldl_allowed_iff (P := fun need => s.Meets need subject) ?_ needs .accepted).trans ?_
  · intro d need
    unfold Meets checkEvidence
    dsimp only
    split
    · rename_i hcomplaint
      simp [hcomplaint]
    · rename_i outcome code detail hcomplaint
      simp [hcomplaint, Decision.allowed, evidenceComplaint_outcome hcomplaint]
  · simp [Decision.accepted, Decision.allowed, OutcomeCode.isPositive]

/-! ## Promotion -/

theorem evaluatePromotion_allowed_iff {request : PromotionRequest} :
    (s.evaluatePromotion cfg request).allowed = true ↔
      ∃ record, s.versionOf request.model request.candidate = some record ∧
        s.promotionFaults cfg request record = [] := by
  unfold evaluatePromotion
  cases s.versionOf request.model request.candidate with
  | none =>
    rw [gateDecision_allowed_iff rfl promotionRank_pos]
    simp
  | some record =>
    rw [normalized_gate_allowed_iff rfl promotionRank_pos]
    simp

/-- A permitted promotion is of a registered candidate that is not retired, into a
registered scope. -/
theorem promotion_permitted {request : PromotionRequest}
    (h : (s.evaluatePromotion cfg request).allowed = true) :
    ∃ record, s.versionOf request.model request.candidate = some record ∧
      record.retired = false ∧ (s.scopes.find request.scope).isSome = true := by
  obtain ⟨record, hrecord, hfaults⟩ := evaluatePromotion_allowed_iff.mp h
  simp only [promotionFaults, List.append_eq_nil_iff] at hfaults
  obtain ⟨⟨⟨⟨⟨⟨⟨_, hcandidate⟩, hscope⟩, _⟩, _⟩, _⟩, _⟩, _⟩ := hfaults
  refine ⟨record, hrecord, ?_, ?_⟩
  · simp only [candidateFaults, List.append_eq_nil_iff, faultIf_eq_nil] at hcandidate
    simpa using hcandidate.1.1.1.1
  · unfold targetScopeFaults at hscope
    cases hfind : s.scopes.find request.scope with
    | none => simp [hfind] at hscope
    | some scope => rfl

/-! ## Rollback -/

theorem evaluateRollback_allowed_iff {request : RollbackRequest} :
    (s.evaluateRollback request).allowed = true ↔
      ∃ candidate, s.versionOf request.model request.candidate = some candidate ∧
        s.rollbackFaults request candidate = [] := by
  unfold evaluateRollback
  cases s.versionOf request.model request.candidate with
  | none =>
    rw [gateDecision_allowed_iff rfl rollbackRank_pos]
    simp
  | some candidate =>
    rw [normalized_gate_allowed_iff rfl rollbackRank_pos]
    simp

/-- What a permitted rollback is of: a registered candidate, a registered target other than
it that is not retired, a registered scope in which the candidate holds authority, and a
plan without a committed rollback. -/
structure RollbackPermitted (s : EngineState) (request : RollbackRequest)
    (candidate target : ModelVersionRecord) : Prop where
  candidateStored : s.versionOf request.model request.candidate = some candidate
  targetStored : s.versionOf request.model request.target = some target
  notRetired : target.retired = false
  scope : (s.scopes.find request.scope).isSome = true
  scopeGeneration : ∀ record, s.scopes.find request.scope = some record →
    request.scopeGeneration.valid = true → request.scopeGeneration = record.generation
  plan : request.rollout.valid = true → ∃ plan, s.rolloutOf request.rollout = some plan ∧
    plan.candidate = candidate.version ∧ plan.lastRollback.valid = false
  holds : s.candidateHolds request candidate = true
  distinct : target.version ≠ candidate.version

theorem rollback_permitted {request : RollbackRequest}
    (h : (s.evaluateRollback request).allowed = true) :
    ∃ candidate target, s.RollbackPermitted request candidate target := by
  obtain ⟨candidate, hcandidate, hfaults⟩ := evaluateRollback_allowed_iff.mp h
  simp only [rollbackFaults, List.append_eq_nil_iff] at hfaults
  obtain ⟨⟨⟨⟨_, hscope⟩, hplan⟩, htarget⟩, _⟩ := hfaults
  simp only [rollbackScopeFaults, List.append_eq_nil_iff] at hscope
  unfold rollbackDestinationFaults at htarget
  cases hdestination : s.versionOf request.model request.target with
  | none => simp [hdestination] at htarget
  | some target =>
    refine ⟨candidate, target, hcandidate, hdestination, ?_, ?_, ?_, ?_, ?_, ?_⟩
    · simp only [hdestination, List.append_eq_nil_iff, faultIf_eq_nil] at htarget
      simpa using htarget.1.1.1.1.1
    · cases hfind : s.scopes.find request.scope with
      | none => simp [hfind] at hscope
      | some scope => rfl
    · intro record hfind hvalid
      rw [hfind] at hscope
      simp only [faultIf_eq_nil, not_and, not_not] at hscope
      exact hscope.1 hvalid
    · intro hvalid
      unfold rollbackPlanFaults at hplan
      cases hrollout : s.rolloutOf request.rollout with
      | none => simp [hvalid, hrollout] at hplan
      | some plan =>
        simp only [hvalid, hrollout, Bool.not_true, Bool.false_eq_true, if_false,
          List.append_eq_nil_iff, faultIf_eq_nil, not_not] at hplan
        exact ⟨plan, rfl, hplan.1.2, by simpa using hplan.2⟩
    · simpa using hscope.2
    · simp only [hdestination, List.append_eq_nil_iff, faultIf_eq_nil] at htarget
      exact htarget.2

/-! ## Stages -/

/-- A plan that is not refused before it is built has stages, and no more than the bound. -/
theorem plan_permitted {request : RolloutPlanRequest} {record : ModelVersionRecord}
    (h : s.planRefusal cfg request record = none) :
    request.stages ≠ [] ∧ request.stages.length ≤ cfg.bounds.maxStagesPerRollout := by
  rw [planRefusal, firstRefusal_eq_none] at h
  simp only [List.append_eq_nil_iff] at h
  obtain ⟨_, hroot⟩ := h
  cases hfind : s.scopes.find request.rootScope with
  | none => simp [hfind] at hroot
  | some root =>
    simp only [hfind, List.append_eq_nil_iff, refuseIf_eq_nil, not_or, not_lt,
      Bool.not_eq_true, List.isEmpty_eq_false_iff] at hroot
    obtain ⟨⟨⟨⟨⟨_, _, hstages⟩, hfew⟩, _⟩, _⟩, _⟩ := hroot
    exact ⟨hstages, hfew⟩

/-- Consecutive identities are the first of them and those after it. -/
theorem consecutive_cons (next : UInt64) (count : ℕ) :
    ((List.range (count + 1)).map fun k => next + UInt64.ofNat k) =
      next :: (List.range count).map fun k => next + 1 + UInt64.ofNat k := by
  rw [List.range_succ_eq_map]
  simp only [List.map_cons, List.map_map, UInt64.reduceOfNat, UInt64.add_zero, List.cons.injEq,
    true_and]
  refine List.map_congr_left fun k _ => ?_
  rw [Function.comp_apply, Nat.succ_eq_add_one, UInt64.ofNat_add, UInt64.add_assoc,
    UInt64.add_comm 1]
  rfl

/-- Fewer consecutive identities than there are words are distinct. -/
theorem consecutive_nodup (next : UInt64) {count : ℕ} (hfew : count < 2 ^ 64) :
    ((List.range count).map fun k => next + UInt64.ofNat k).Nodup := by
  refine List.Nodup.map_on ?_ List.nodup_range
  intro j hj k hk heq
  rw [List.mem_range] at hj hk
  have hsame := congrArg UInt64.toNat (add_left_cancel heq)
  rwa [UInt64.toNat_ofNat', UInt64.toNat_ofNat', Nat.mod_eq_of_lt (by omega),
    Nat.mod_eq_of_lt (by omega)] at hsame

/-- Built stages take consecutive identities. -/
theorem buildStages_ids {cohorts : List CohortDefinition} {specs : List StageSpec}
    {next after : UInt64} {used : List CohortId} {built stages : List StageDefinition}
    (h : buildStages cfg cohorts specs next used built = (after, .ok stages)) :
    stages.map (fun stage => stage.id.raw) = built.map (fun stage => stage.id.raw) ++
      (List.range specs.length).map fun k => next + UInt64.ofNat k := by
  induction specs generalizing next used built with
  | nil =>
    simp only [buildStages, Prod.mk.injEq, Except.ok.injEq] at h
    simp [h.2]
  | cons spec specs ih =>
    unfold buildStages at h
    split_ifs at h
    · simp at h
    · simp at h
    · split at h
      · simp at h
      · rw [ih h, List.length_cons, consecutive_cons, List.map_append, List.append_assoc]
        rfl

/-- Built stages are as many as asked for, and no two share an identity. -/
theorem buildStages_distinct {cohorts : List CohortDefinition} {specs : List StageSpec}
    {next after : UInt64} {stages : List StageDefinition}
    (h : buildStages cfg cohorts specs next [] [] = (after, .ok stages))
    (hfew : specs.length < 2 ^ 64) :
    stages.length = specs.length ∧ (stages.map StageDefinition.id).Nodup := by
  have hids := buildStages_ids h
  rw [List.map_nil, List.nil_append] at hids
  constructor
  · simpa using congrArg List.length hids
  · have hnodup : (stages.map fun stage => stage.id.raw).Nodup := by
      rw [hids]
      exact consecutive_nodup next hfew
    refine List.Nodup.of_map Ident.raw ?_
    rwa [List.map_map]

/-- Built cohorts take consecutive identities. -/
theorem buildCohorts_ids {root : ScopeId} {specs : List CohortSpec} {next after : UInt64}
    {built cohorts : List CohortDefinition}
    (h : s.buildCohorts cfg root specs next built = (after, .ok cohorts)) :
    cohorts.map (fun cohort => cohort.id.raw) = built.map (fun cohort => cohort.id.raw) ++
      (List.range specs.length).map fun k => next + UInt64.ofNat k := by
  induction specs generalizing next built with
  | nil =>
    simp only [buildCohorts, Prod.mk.injEq, Except.ok.injEq] at h
    simp [h.2]
  | cons spec specs ih =>
    unfold buildCohorts at h
    split_ifs at h
    · simp at h
    · simp at h
    · simp at h
    · split at h
      · simp at h
      · simp at h
    · split at h
      · simp at h
      · rw [ih h, List.length_cons, consecutive_cons, List.map_append, List.append_assoc]
        rfl

/-- Built cohorts have scopes. -/
theorem buildCohorts_scoped {root : ScopeId} {specs : List CohortSpec} {next after : UInt64}
    {built cohorts : List CohortDefinition} (hbuilt : ∀ cohort ∈ built, cohort.scopes ≠ [])
    (h : s.buildCohorts cfg root specs next built = (after, .ok cohorts)) :
    ∀ cohort ∈ cohorts, cohort.scopes ≠ [] := by
  induction specs generalizing next built with
  | nil =>
    simp only [buildCohorts, Prod.mk.injEq, Except.ok.injEq] at h
    rwa [← h.2]
  | cons spec specs ih =>
    unfold buildCohorts at h
    split_ifs at h with _ _ hnone
    · simp at h
    · simp at h
    · simp at h
    · split at h
      · simp at h
      · simp at h
    · split at h
      · simp at h
      · refine ih ?_ h
        intro cohort hcohort
        rcases List.mem_append.mp hcohort with hearlier | hnew
        · exact hbuilt cohort hearlier
        · rw [List.mem_singleton.mp hnew]
          have hspec : spec.scopes ≠ [] := by simpa using hnone
          obtain ⟨scope, hscope⟩ := List.exists_mem_of_ne_nil _ hspec
          exact List.ne_nil_of_mem (RolloutPlan.mem_sortUniqueScopes.mpr hscope)

/-- The cohorts resolved for a stage are among the built ones, one for each position. -/
theorem resolveCohorts_known {cohorts : List CohortDefinition} {indices : List ℕ}
    {used used' chosen chosen' : List CohortId}
    (hchosen : ∀ id ∈ chosen, ∃ cohort ∈ cohorts, cohort.id = id)
    (h : resolveCohorts cohorts indices used chosen = .ok (used', chosen')) :
    chosen'.length = chosen.length + indices.length ∧
      ∀ id ∈ chosen', ∃ cohort ∈ cohorts, cohort.id = id := by
  induction indices generalizing used chosen with
  | nil =>
    simp only [resolveCohorts, Except.ok.injEq, Prod.mk.injEq] at h
    rw [← h.2]
    exact ⟨rfl, hchosen⟩
  | cons index indices ih =>
    unfold resolveCohorts at h
    split at h
    · cases h
    · rename_i cohort hcohort
      split_ifs at h
      have hmore : ∀ id ∈ chosen ++ [cohort.id], ∃ cohort ∈ cohorts, cohort.id = id := by
        intro id hid
        rcases List.mem_append.mp hid with hearlier | hnew
        · exact hchosen id hearlier
        · exact ⟨cohort, List.mem_of_getElem? hcohort, (List.mem_singleton.mp hnew).symm⟩
      obtain ⟨hlength, hknown⟩ := ih hmore h
      refine ⟨?_, hknown⟩
      rw [hlength, List.length_append, List.length_singleton, List.length_cons]
      omega

/-- Built stages have cohorts, all of them built. -/
theorem buildStages_known {cohorts : List CohortDefinition} {specs : List StageSpec}
    {next after : UInt64} {used : List CohortId} {built stages : List StageDefinition}
    (hbuilt : ∀ stage ∈ built, stage.cohorts ≠ [] ∧
      ∀ id ∈ stage.cohorts, ∃ cohort ∈ cohorts, cohort.id = id)
    (h : buildStages cfg cohorts specs next used built = (after, .ok stages)) :
    ∀ stage ∈ stages, stage.cohorts ≠ [] ∧
      ∀ id ∈ stage.cohorts, ∃ cohort ∈ cohorts, cohort.id = id := by
  induction specs generalizing next used built with
  | nil =>
    simp only [buildStages, Prod.mk.injEq, Except.ok.injEq] at h
    rwa [← h.2]
  | cons spec specs ih =>
    unfold buildStages at h
    split_ifs at h with _ hnone
    · simp at h
    · simp at h
    · split at h
      · simp at h
      · rename_i used' chosen hresolved
        obtain ⟨hlength, hknown⟩ := resolveCohorts_known (by simp) hresolved
        refine ih ?_ h
        intro stage hstage
        rcases List.mem_append.mp hstage with hearlier | hnew
        · exact hbuilt stage hearlier
        · rw [List.mem_singleton.mp hnew]
          have hspec : 0 < spec.cohortIndices.length :=
            List.length_pos_iff.mpr (by simpa using hnone)
          rw [List.length_nil, Nat.zero_add] at hlength
          refine ⟨List.ne_nil_of_length_pos ?_, hknown⟩
          rwa [hlength]

/-- A stage that names a cohort of its plan with scopes has scopes. -/
theorem stageScopes_ne_nil {plan : RolloutPlan} {stage : StageDefinition}
    (hscopes : ∀ cohort ∈ plan.cohorts, cohort.scopes ≠ []) (hnames : stage.cohorts ≠ [])
    (hknown : ∀ id ∈ stage.cohorts, ∃ cohort ∈ plan.cohorts, cohort.id = id) :
    plan.stageScopes stage ≠ [] := by
  obtain ⟨id, hid⟩ := List.exists_mem_of_ne_nil _ hnames
  obtain ⟨cohort, hcohort, hcohortId⟩ := hknown id hid
  have hfound : (plan.cohort id).isSome = true := by
    rw [RolloutPlan.cohort, List.find?_isSome]
    exact ⟨cohort, hcohort, by simpa using hcohortId⟩
  obtain ⟨found, hfound⟩ := Option.isSome_iff_exists.mp hfound
  obtain ⟨scope, hscope⟩ := List.exists_mem_of_ne_nil _
    (hscopes found (List.mem_of_find?_eq_some hfound))
  refine List.ne_nil_of_mem (a := scope) (RolloutPlan.mem_sortUniqueScopes.mpr ?_)
  refine List.mem_flatMap.mpr ⟨id, hid, ?_⟩
  rw [hfound]
  exact hscope

/-- A permitted stage advance is of a stored plan in which no check finds a fault. -/
theorem stage_permitted {request : RolloutProgressRequest}
    (h : (s.evaluateStageAdvance request).allowed = true) :
    ∃ plan, s.rolloutOf request.rollout = some plan ∧ s.stageFaults request plan = [] := by
  unfold evaluateStageAdvance at h
  cases hrollout : s.rolloutOf request.rollout with
  | none =>
    rw [hrollout, gateDecision_allowed_iff rfl stageRank_pos] at h
    simp at h
  | some plan =>
    simp only [hrollout] at h
    split_ifs at h
    · rw [gateDecision_allowed_iff rfl stageRank_pos] at h
      simp at h
    · rw [normalized_gate_allowed_iff rfl stageRank_pos] at h
      exact ⟨plan, rfl, h⟩

/-- A permitted stage advance is of a live plan that matches the registry. -/
theorem stage_permitted_live {request : RolloutProgressRequest} {plan : RolloutPlan}
    (h : s.stageFaults request plan = []) :
    plan.live = true ∧ s.checkPlanBindings plan = none := by
  simp only [stageFaults, List.append_eq_nil_iff] at h
  obtain ⟨⟨⟨⟨⟨hprogress, _⟩, _⟩, hbindings⟩, _⟩, _⟩ := h
  simp only [progressFaults, List.append_eq_nil_iff, faultIf_eq_nil] at hprogress
  obtain ⟨⟨⟨⟨⟨hsuperseded, hended⟩, _⟩, _⟩, _⟩, _⟩ := hprogress
  simp only [bindingFaults, List.append_eq_nil_iff] at hbindings
  constructor
  · simp only [not_or, Bool.not_eq_true] at hsuperseded hended
    simp [RolloutPlan.live, hsuperseded, hended.1, hended.2]
  · cases hcheck : s.checkPlanBindings plan with
    | none => rfl
    | some mismatch => simp [hcheck] at hbindings

/-- It is in a stage of its list that has no decision yet. -/
theorem stage_permitted_open {request : RolloutProgressRequest} {plan : RolloutPlan}
    (h : s.stageFaults request plan = []) :
    plan.stageEntered = true ∧ plan.currentStageIndex < plan.stages.length ∧
      plan.stageSettled = false := by
  simp only [stageFaults, List.append_eq_nil_iff] at h
  obtain ⟨⟨⟨⟨⟨hprogress, _⟩, _⟩, _⟩, _⟩, _⟩ := h
  simp only [progressFaults, List.append_eq_nil_iff, faultIf_eq_nil] at hprogress
  obtain ⟨⟨⟨⟨_, hentered⟩, hstage⟩, _⟩, hsettled⟩ := hprogress
  refine ⟨by simpa using hentered, ?_, ?_⟩
  · cases hat : plan.stageAt plan.currentStageIndex with
    | none => simp [hat] at hstage
    | some stage =>
      obtain ⟨hlt, _⟩ := List.getElem?_eq_some_iff.mp hat
      exact hlt
  · rw [List.map_eq_nil_iff, List.filter_eq_nil_iff] at hsettled
    exact List.any_eq_false.mpr hsettled

/-- A plan that is begun is live, matches the registry, and is at its first stage without
having entered it. -/
theorem begin_permitted {request : RolloutProgressRequest} {plan : RolloutPlan}
    (h : s.beginRefusal request plan = none) :
    plan.live = true ∧ plan.stageEntered = false ∧ plan.currentStageIndex = 0 ∧
      s.checkPlanBindings plan = none := by
  rw [beginRefusal, firstRefusal_eq_none] at h
  simp only [List.append_eq_nil_iff, refuseIf_eq_nil, not_or, not_not, Bool.not_eq_true] at h
  obtain ⟨⟨⟨⟨⟨_, hsuperseded⟩, hcompleted, hfailed⟩, hentered⟩, hindex⟩, hbindings⟩ := h
  refine ⟨?_, hentered, hindex, ?_⟩
  · simp [RolloutPlan.live, hsuperseded, hcompleted, hfailed]
  · cases hcheck : s.checkPlanBindings plan with
    | none => rfl
    | some mismatch => simp [hcheck] at hbindings

/-- A stage that is failed explicitly has no decision yet. -/
theorem fail_permitted {request : RolloutProgressRequest} {plan : RolloutPlan}
    (h : s.failRefusal request plan = none) : plan.stageSettled = false := by
  rw [failRefusal, firstRefusal_eq_none] at h
  simp only [List.append_eq_nil_iff, refuseIf_eq_nil, Bool.not_eq_true] at h
  exact h.2

/-! ## Retirement -/

theorem evaluateRetirement_allowed_iff {request : RetirementRequest} :
    (s.evaluateRetirement request).allowed = true ↔
      ∃ record, s.versionOf request.model request.version = some record ∧
        s.retirementFaults request record = [] := by
  unfold evaluateRetirement
  cases s.versionOf request.model request.version with
  | none =>
    rw [gateDecision_allowed_iff rfl retirementRank_pos]
    simp
  | some record =>
    rw [normalized_gate_allowed_iff rfl retirementRank_pos]
    simp

/-- A permitted retirement is of a registered version that is not retired yet. -/
theorem retirement_permitted {request : RetirementRequest}
    (h : (s.evaluateRetirement request).allowed = true) :
    ∃ record, s.versionOf request.model request.version = some record ∧
      record.retired = false := by
  obtain ⟨record, hrecord, hfaults⟩ := evaluateRetirement_allowed_iff.mp h
  simp only [retirementFaults, List.append_eq_nil_iff, faultIf_eq_nil] at hfaults
  exact ⟨record, hrecord, by simpa using hfaults.1.1.1.1.1.1⟩

end EngineState

end LifecycleFabric
