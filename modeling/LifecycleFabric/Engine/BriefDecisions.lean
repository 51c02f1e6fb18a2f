import LifecycleFabric.Engine.Step

/-!
# Brief decisions

Apart from the gates, every check of an operation stops at the first fault. So the decision
gives one reason at most, with a short detail: a fixed text, a clamped one, or a name whose
length was checked.
-/

namespace LifecycleFabric

variable {cfg : EngineConfig} {s : EngineState} {bound : ℕ}

/-! ## Brief decisions -/

/-- The length of a literal, read off its letters. -/
theorem short_text {letters : List Char} (h : letters.length ≤ bound) :
    (text (String.ofList letters)).length ≤ bound := by
  simpa [text] using h

theorem short_texts {letters more : List Char} (h : letters.length + more.length ≤ bound) :
    (text (String.ofList letters ++ String.ofList more)).length ≤ bound := by
  simpa [text] using h

/-- Reasons whose details are short. -/
def ShortReasons (bound : ℕ) (reasons : List Reason) : Prop :=
  ∀ reason ∈ reasons, reason.detail.length ≤ bound

theorem ShortReasons.append {reasons others : List Reason} (h : ShortReasons bound reasons)
    (h' : ShortReasons bound others) : ShortReasons bound (reasons ++ others) := by
  intro reason hreason
  rcases List.mem_append.mp hreason with hfirst | hsecond
  · exact h reason hfirst
  · exact h' reason hsecond

theorem shortReasons_singleton {reason : Reason} (h : reason.detail.length ≤ bound) :
    ShortReasons bound [reason] := by
  intro given hgiven
  rw [List.mem_singleton.mp hgiven]
  exact h

theorem ShortReasons.mono {bound' : ℕ} {reasons : List Reason} (h : ShortReasons bound reasons)
    (hle : bound ≤ bound') : ShortReasons bound' reasons :=
  fun reason hreason => (h reason hreason).trans hle

theorem ShortReasons.add {d : Decision} {reason : Reason} (h : ShortReasons bound d.reasons)
    (hdetail : reason.detail.length ≤ bound) : ShortReasons bound (d.add reason).reasons := by
  unfold Decision.add
  split_ifs
  · exact h
  · exact h.append (shortReasons_singleton hdetail)

theorem ShortReasons.addAll {d : Decision} {reasons : List Reason}
    (h : ShortReasons bound d.reasons) (h' : ShortReasons bound reasons) :
    ShortReasons bound (d.addAll reasons).reasons := by
  induction reasons generalizing d with
  | nil => exact h
  | cons reason rest ih =>
    exact ih (h.add (h' reason List.mem_cons_self)) fun other hother =>
      h' other (List.mem_cons_of_mem reason hother)

theorem ShortReasons.normalize {reasons : List Reason} (h : ShortReasons bound reasons) :
    ShortReasons bound (normalizeReasons reasons) := by
  intro reason hreason
  rw [normalizeReasons, List.mem_dedup, List.mem_insertionSort] at hreason
  exact h reason hreason

/-- A decision with one short reason at most. -/
structure Decision.Brief (bound : ℕ) (d : Decision) : Prop where
  single : d.reasons.length ≤ 1
  short : ShortReasons bound d.reasons

namespace Decision

variable {d : Decision}

theorem brief_of_nil (h : d.reasons = []) : d.Brief bound := by
  constructor
  · rw [h]
    exact Nat.zero_le 1
  · rw [h]
    exact List.forall_mem_nil _

theorem brief_add {reason : Reason} (h : d.reasons = [])
    (hdetail : reason.detail.length ≤ bound) : (d.add reason).Brief bound := by
  unfold add
  split_ifs
  · exact brief_of_nil h
  · rw [h]
    exact ⟨le_refl 1, shortReasons_singleton hdetail⟩

theorem brief_because (outcome : OutcomeCode) (code : ReasonCode) {detail : Text}
    (hdetail : detail.length ≤ bound) : (because outcome code detail).Brief bound :=
  brief_add rfl hdetail

/-- A refusal with a fixed text. -/
theorem brief_fixed {outcome : OutcomeCode} {code : ReasonCode} {letters : List Char}
    (h : letters.length ≤ bound) :
    (because outcome code (text (String.ofList letters))).Brief bound :=
  brief_because outcome code (short_text h)

/-- A brief decision stays brief when its reasons are handed on. -/
theorem Brief.addAll (h : d.Brief bound) (outcome : OutcomeCode) :
    (({ outcome } : Decision).addAll d.reasons).Brief bound := by
  obtain ⟨hsingle, hshort⟩ := h
  generalize d.reasons = reasons at hsingle hshort
  cases reasons with
  | nil => exact brief_of_nil rfl
  | cons reason rest =>
    obtain rfl : rest = [] := List.length_eq_zero_iff.mp (by simpa using hsingle)
    exact brief_add rfl (hshort reason List.mem_cons_self)

theorem Brief.mono {bound' : ℕ} (h : d.Brief bound) (hle : bound ≤ bound') : d.Brief bound' :=
  ⟨h.single, h.short.mono hle⟩

end Decision

open Decision

-- A branch of an operation is a state with its decision: reduce the pair, not the decision.
attribute [local irreducible] Decision.because

/-- A refusal with one short reason. -/
theorem Refusal.brief (outcome : OutcomeCode) (code : ReasonCode) {detail : Text}
    {h : outcome.isPositive = false} (hdetail : detail.length ≤ bound) :
    (Refusal.because outcome code detail h).decision.Brief bound :=
  brief_because outcome code hdetail

/-- Refusals that are brief. -/
def BriefRefusals (bound : ℕ) (refusals : List Refusal) : Prop :=
  ∀ refusal ∈ refusals, refusal.decision.Brief bound

theorem BriefRefusals.append {refusals others : List Refusal} (h : BriefRefusals bound refusals)
    (h' : BriefRefusals bound others) : BriefRefusals bound (refusals ++ others) := by
  intro refusal hrefusal
  rcases List.mem_append.mp hrefusal with hfirst | hsecond
  · exact h refusal hfirst
  · exact h' refusal hsecond

theorem briefRefusals_singleton {refusal : Refusal} (h : refusal.decision.Brief bound) :
    BriefRefusals bound [refusal] := by
  intro given hgiven
  rw [List.mem_singleton.mp hgiven]
  exact h

theorem briefRefusals_refuseIf (condition : Prop) [Decidable condition] {refusal : Refusal}
    (h : refusal.decision.Brief bound) : BriefRefusals bound (refuseIf condition refusal) := by
  unfold refuseIf
  split_ifs
  · exact briefRefusals_singleton h
  · exact List.forall_mem_nil _

theorem briefRefusals_fixed {condition : Prop} [Decidable condition] {outcome : OutcomeCode}
    {code : ReasonCode} {letters : List Char} {hrefuses : outcome.isPositive = false}
    (h : letters.length ≤ bound) :
    BriefRefusals bound
      (refuseIf condition (.because outcome code (text (String.ofList letters)) hrefuses)) :=
  briefRefusals_refuseIf _ (Refusal.brief outcome code (short_text h))

theorem briefRefusals_refusalOf {d : Decision} (h : d.Brief bound) :
    BriefRefusals bound (refusalOf d) := by
  unfold refusalOf
  split_ifs
  · exact briefRefusals_singleton h
  · exact List.forall_mem_nil _

/-- The first of brief refusals is brief. -/
theorem BriefRefusals.first {refusals : List Refusal} {refusal : Refusal}
    (h : BriefRefusals bound refusals) (hfirst : firstRefusal refusals = some refusal) :
    refusal.decision.Brief bound :=
  h refusal (List.mem_of_head? hfirst)

namespace EngineState

/-! ## Shared checks -/

theorem brief_checkEpoch (expected : CoordinatorEpoch) :
    (s.checkEpoch expected).Brief maxReasonDetail := by
  unfold checkEpoch
  split_ifs
  · exact brief_fixed (by decide)
  · exact brief_of_nil rfl

theorem brief_checkPolicyGeneration (expected : PolicyGeneration) :
    (s.checkPolicyGeneration expected).Brief maxReasonDetail := by
  unfold checkPolicyGeneration
  split_ifs
  · exact brief_fixed (by decide)
  · exact brief_of_nil rfl

theorem brief_checkWorker (worker : WorkerId) (boot : WorkerBootId) (epoch : CoordinatorEpoch) :
    (s.checkWorker worker boot epoch).Brief maxReasonDetail := by
  unfold checkWorker
  repeat' split
  all_goals first
    | exact brief_of_nil rfl
    | exact brief_fixed (by decide)

/-! ## Lifecycle steps -/

theorem length_stateText (state : LifecycleState) : state.toText.length ≤ 21 := by
  cases state <;> decide

theorem brief_transition (record : ModelVersionRecord) (target : LifecycleState) :
    (record.transition target).2.Brief maxReasonDetail := by
  unfold ModelVersionRecord.transition
  split_ifs
  · exact brief_fixed (by decide)
  · refine brief_because _ _ ?_
    have hstate := length_stateText record.state
    have htarget := length_stateText target
    have harrow : (text " -> ").length = 4 := by decide
    rw [List.length_append, List.length_append, maxReasonDetail]
    omega
  · exact brief_of_nil rfl

theorem brief_followPath (record : ModelVersionRecord) (path : List LifecycleState) :
    (record.followPath path).2.Brief maxReasonDetail := by
  induction path generalizing record with
  | nil => exact brief_of_nil rfl
  | cons target path ih =>
    unfold ModelVersionRecord.followPath
    dsimp only
    split_ifs
    · exact brief_transition record target
    · exact ih _

theorem brief_advanceLifecycleTo (record : ModelVersionRecord) (target : LifecycleState) :
    (record.advanceLifecycleTo target).2.Brief maxReasonDetail := by
  unfold ModelVersionRecord.advanceLifecycleTo
  split_ifs
  · exact brief_of_nil rfl
  · exact brief_fixed (by decide)
  · split
    · refine brief_because _ _ ?_
      have hstate := length_stateText record.state
      have htarget := length_stateText target
      have harrow : (text " -> ").length = 4 := by decide
      have hnone : (text " has no legal path").length = 18 := by decide
      simp only [List.length_append, maxReasonDetail]
      omega
    · exact brief_followPath record _

theorem brief_advanceDecision (model : ModelId) (version : ModelVersionId)
    (target : LifecycleState) : (s.advanceDecision model version target).Brief maxReasonDetail := by
  unfold advanceDecision
  split
  · exact brief_because _ _ (Nat.zero_le _)
  · exact brief_advanceLifecycleTo _ target

/-! ## Grants -/

theorem short_coexistenceConflict {binding : AuthorityBinding} {allowCoexistence : Bool}
    {bindings : List AuthorityBinding} {detail : Text}
    (h : AuthorityTable.coexistenceConflict binding allowCoexistence bindings = some detail) :
    detail.length ≤ maxReasonDetail := by
  induction bindings with
  | nil => cases h
  | cons current rest ih =>
    unfold AuthorityTable.coexistenceConflict at h
    split_ifs at h
    · exact ih h
    · obtain rfl := Option.some.inj h
      decide
    · obtain rfl := Option.some.inj h
      decide
    · exact ih h

theorem brief_malformed {binding : AuthorityBinding} {refusal : Decision}
    (h : AuthorityTable.malformed binding = some refusal) : refusal.Brief maxReasonDetail := by
  unfold AuthorityTable.malformed at h
  split_ifs at h
  all_goals
    obtain rfl := Option.some.inj h
    exact brief_fixed (by decide)

theorem brief_grant (table : AuthorityTable) (binding : AuthorityBinding)
    (allowCoexistence : Bool) : (table.grant binding allowCoexistence).2.Brief maxReasonDetail := by
  unfold AuthorityTable.grant
  split
  · exact brief_malformed ‹_›
  · split
    · split
      · rename_i hconflict
        exact brief_because _ _ (short_coexistenceConflict hconflict)
      · exact brief_of_nil rfl
    · split_ifs
      · exact brief_fixed (by decide)
      · exact brief_of_nil rfl

theorem brief_replaceExclusive (table : AuthorityTable) (binding : AuthorityBinding) :
    (table.replaceExclusive binding).2.1.Brief maxReasonDetail := by
  unfold AuthorityTable.replaceExclusive
  dsimp only
  split_ifs
  · exact brief_grant _ _ _
  · exact brief_of_nil rfl
  · exact brief_grant _ _ _

theorem brief_placeBinding (g : GrantRequest) (binding : AuthorityBinding) :
    (s.placeBinding g binding).2.1.Brief maxReasonDetail := by
  unfold placeBinding
  split_ifs
  · exact brief_replaceExclusive _ _
  · exact brief_grant _ _ _

theorem brief_settleDisplaced (g : GrantRequest) (scopeGeneration : ScopeGeneration)
    (displaced : AuthorityBinding) :
    (s.settleDisplaced g scopeGeneration displaced).2.Brief maxReasonDetail := by
  unfold settleDisplaced
  split
  · exact brief_of_nil rfl
  · dsimp only
    split_ifs
    · exact brief_of_nil rfl
    · exact (brief_grant _ _ _).addAll _
    · exact brief_of_nil rfl
    · exact brief_of_nil rfl

theorem brief_grantAuthority (g : GrantRequest) :
    (s.grantAuthority g).2.Brief maxReasonDetail := by
  unfold grantAuthority
  split
  · exact brief_because _ _ (Nat.zero_le _)
  · split_ifs
    · exact brief_fixed (by decide)
    · split
      · exact brief_fixed (by decide)
      · dsimp only
        split_ifs
        · exact (brief_placeBinding _ _).addAll _
        · split
          · split_ifs
            · exact brief_of_nil rfl
            · exact brief_settleDisplaced _ _ _
            · exact brief_of_nil rfl
          · exact brief_of_nil rfl

theorem brief_grantOver (grant : ScopeId → GrantRequest)
    (after : ScopeId → EngineState → EngineState) (scopes : List ScopeId) (s : EngineState) :
    (grantOver grant after scopes s).2.Brief maxReasonDetail := by
  induction scopes generalizing s with
  | nil => exact brief_of_nil rfl
  | cons scope scopes ih =>
    unfold grantOver
    dsimp only
    split_ifs
    · exact brief_grantAuthority _
    · exact ih _

/-! ## Rollouts -/

theorem brief_leaveStage (rollout : RolloutId) (plan : RolloutPlan) :
    (s.leaveStage rollout plan).2.Brief maxReasonDetail := by
  unfold leaveStage
  split_ifs
  · exact brief_of_nil rfl
  · exact brief_grantOver _ _ _ _

theorem brief_commitStage (rollout : RolloutId) (plan : RolloutPlan) :
    (s.commitStage rollout plan).2.Brief maxReasonDetail := by
  unfold commitStage
  dsimp only
  split_ifs
  · exact (brief_grantOver _ _ _ _).addAll _
  · exact (brief_leaveStage _ _).addAll _
  · exact brief_of_nil rfl

theorem short_checkPlanBindings {plan : RolloutPlan} {code : ReasonCode} {detail : Text}
    (h : s.checkPlanBindings plan = some (code, detail)) : detail.length ≤ maxReasonDetail := by
  unfold checkPlanBindings at h
  repeat' split at h
  all_goals
    cases h
    try decide

theorem brief_beginRefusal {request : RolloutProgressRequest} {plan : RolloutPlan}
    {refusal : Refusal} (h : s.beginRefusal request plan = some refusal) :
    refusal.decision.Brief maxReasonDetail := by
  refine BriefRefusals.first ?_ h
  repeat' with_reducible apply BriefRefusals.append
  · exact briefRefusals_fixed (by decide)
  · exact briefRefusals_refusalOf (brief_checkEpoch _)
  · exact briefRefusals_refusalOf (brief_checkWorker _ _ _)
  · exact briefRefusals_fixed (by decide)
  · exact briefRefusals_fixed (by decide)
  · exact briefRefusals_fixed (by decide)
  · exact briefRefusals_fixed (by decide)
  · split
    · rename_i hstale
      exact briefRefusals_singleton (Refusal.brief _ _ (short_checkPlanBindings hstale))
    · exact List.forall_mem_nil _

theorem brief_failRefusal {request : RolloutProgressRequest} {plan : RolloutPlan}
    {refusal : Refusal} (h : s.failRefusal request plan = some refusal) :
    refusal.decision.Brief maxReasonDetail := by
  refine BriefRefusals.first ?_ h
  repeat' with_reducible apply BriefRefusals.append
  all_goals first
    | exact briefRefusals_refusalOf (brief_checkEpoch _)
    | exact briefRefusals_refusalOf (brief_checkWorker _ _ _)
    | exact briefRefusals_fixed (by decide)

theorem brief_planRefusal {request : RolloutPlanRequest} {record : ModelVersionRecord}
    {refusal : Refusal} (h : s.planRefusal cfg request record = some refusal) :
    refusal.decision.Brief maxReasonDetail := by
  refine BriefRefusals.first ?_ h
  repeat' with_reducible apply BriefRefusals.append
  all_goals first
    | exact briefRefusals_refusalOf (brief_checkPolicyGeneration _)
    | exact briefRefusals_refusalOf (brief_checkEpoch _)
    | exact briefRefusals_refusalOf (brief_checkWorker _ _ _)
    | exact briefRefusals_fixed (by decide)
    | skip
  split
  · exact briefRefusals_singleton (Refusal.brief _ _ (short_text (by decide)))
  · repeat' with_reducible apply BriefRefusals.append
    all_goals exact briefRefusals_fixed (by decide)

theorem brief_cohortScopeRefusal {root : ScopeId} {scopes : List ScopeId} {refusal : Decision}
    (h : s.cohortScopeRefusal root scopes = some refusal) : refusal.Brief maxReasonDetail := by
  induction scopes with
  | nil => cases h
  | cons scope scopes ih =>
    unfold cohortScopeRefusal at h
    split_ifs at h
    · obtain rfl := Option.some.inj h
      exact brief_fixed (by decide)
    · obtain rfl := Option.some.inj h
      exact brief_fixed (by decide)
    · exact ih h

theorem brief_buildCohorts {root : ScopeId} {specs : List CohortSpec} {next next' : UInt64}
    {built : List CohortDefinition} {refusal : Decision}
    (h : s.buildCohorts cfg root specs next built = (next', .error refusal)) :
    refusal.Brief maxReasonDetail := by
  induction specs generalizing next built with
  | nil => cases h
  | cons spec specs ih =>
    unfold buildCohorts at h
    iterate 3
      split at h
      · cases h
        exact brief_fixed (by decide)
    split at h
    · rename_i hrefusal
      cases h
      exact brief_cohortScopeRefusal hrefusal
    · split at h
      · cases h
        exact brief_fixed (by decide)
      · exact ih h

theorem brief_resolveCohorts {cohorts : List CohortDefinition} {indices : List ℕ}
    {used chosen : List CohortId} {refusal : Decision}
    (h : resolveCohorts cohorts indices used chosen = .error refusal) :
    refusal.Brief maxReasonDetail := by
  induction indices generalizing used chosen with
  | nil => cases h
  | cons index indices ih =>
    unfold resolveCohorts at h
    split at h
    · cases h
      exact brief_fixed (by decide)
    · split_ifs at h
      · cases h
        exact brief_fixed (by decide)
      · exact ih h

theorem brief_buildStages {cohorts : List CohortDefinition} {specs : List StageSpec}
    {next next' : UInt64} {used : List CohortId} {built : List StageDefinition}
    {refusal : Decision}
    (h : buildStages cfg cohorts specs next used built = (next', .error refusal)) :
    refusal.Brief maxReasonDetail := by
  induction specs generalizing next used built with
  | nil => cases h
  | cons spec specs ih =>
    unfold buildStages at h
    split_ifs at h
    · cases h
      exact brief_fixed (by decide)
    · cases h
      exact brief_fixed (by decide)
    · split at h
      · rename_i hrefusal
        cases h
        exact brief_resolveCohorts hrefusal
      · exact ih h

theorem brief_createRollout (request : RolloutPlanRequest) :
    (s.createRollout cfg request).2.1.Brief maxReasonDetail := by
  unfold createRollout
  split
  · exact brief_fixed (by decide)
  · split
    · exact brief_planRefusal ‹_›
    · dsimp only
      split
      · exact brief_buildCohorts ‹_›
      · split
        · exact brief_buildStages ‹_›
        · split_ifs
          · exact brief_fixed (by decide)
          · exact brief_of_nil rfl

theorem brief_failStage (request : RolloutProgressRequest) :
    (s.failStage request).2.Brief maxReasonDetail := by
  unfold failStage
  split
  · exact brief_fixed (by decide)
  · split
    · exact brief_failRefusal ‹_›
    · split
      · exact brief_fixed (by decide)
      · exact brief_of_nil rfl

theorem brief_supersedeRollout (rollout : RolloutId) (generation : RolloutGeneration)
    (epoch : CoordinatorEpoch) (detail : Text) :
    (s.supersedeRollout rollout generation epoch detail).2.Brief maxReasonDetail := by
  unfold supersedeRollout
  split
  · exact brief_fixed (by decide)
  · dsimp only
    split_ifs
    · exact brief_fixed (by decide)
    · exact brief_fixed (by decide)
    · exact brief_of_nil rfl
    · split
      · exact brief_of_nil rfl
      · split_ifs
        · exact brief_of_nil rfl
        · exact brief_of_nil rfl

/-! ## Registrations and publications -/

theorem brief_addChild (r : ScopeRegistry) (parent : ScopeId) (kind : ScopeKind) (name : Text) :
    (r.addChild parent kind name).2.1.Brief maxReasonDetail := by
  unfold ScopeRegistry.addChild
  dsimp only
  split
  · exact brief_fixed (by decide)
  · split_ifs
    all_goals first
      | exact brief_fixed (by decide)
      | exact brief_of_nil rfl

theorem brief_ensureSegments (r : ScopeRegistry) (current : ScopeId) (pathPrefix : Text)
    (segments : List Text) :
    (r.ensureSegments current pathPrefix segments).2.1.Brief maxReasonDetail := by
  induction segments generalizing r current pathPrefix with
  | nil =>
    unfold ScopeRegistry.ensureSegments
    split_ifs
    · exact brief_fixed (by decide)
    · exact brief_of_nil rfl
  | cons segment segments ih =>
    unfold ScopeRegistry.ensureSegments
    split_ifs
    · exact brief_fixed (by decide)
    · exact brief_fixed (by decide)
    · split
      · exact brief_fixed (by decide)
      · dsimp only
        split
        · exact ih _ _ _
        · split_ifs
          · exact (brief_addChild _ _ _ _).addAll _
          · exact ih _ _ _

theorem brief_ensurePath (r : ScopeRegistry) (path : Text) :
    (r.ensurePath path).2.1.Brief maxReasonDetail := by
  unfold ScopeRegistry.ensurePath
  split_ifs
  · exact brief_fixed (by decide)
  · dsimp only
    split
    · exact brief_of_nil rfl
    · split
      · exact brief_of_nil rfl
      · split_ifs
        · exact brief_fixed (by decide)
        · exact brief_fixed (by decide)
        · exact brief_ensureSegments _ _ _ _

theorem brief_publishFact (registry : CompatibilityRegistry) (fact : CompatibilityFact)
    (assigned : CompatibilityGeneration) :
    (registry.publish fact assigned).2.Brief maxReasonDetail := by
  unfold CompatibilityRegistry.publish
  dsimp only
  repeat' split
  all_goals first
    | exact brief_fixed (by decide)
    | exact brief_of_nil rfl

theorem brief_publishRecord (store : EvidenceStore) (record : EvidenceRecord) :
    (store.publish record).2.Brief maxReasonDetail := by
  unfold EvidenceStore.publish
  dsimp only
  repeat' split
  all_goals first
    | exact brief_fixed (by decide)
    | exact brief_of_nil rfl

theorem brief_publishCompatibility (version : ModelVersionId) (environment : EnvironmentProfile)
    (outcome : CompatibilityOutcome) (detail : Text) (provenance : Provenance) :
    (s.publishCompatibility cfg version environment outcome detail provenance).2.Brief
      maxReasonDetail := by
  unfold publishCompatibility
  split
  · exact brief_fixed (by decide)
  · dsimp only
    split_ifs
    all_goals first
      | exact brief_fixed (by decide)
      | exact (brief_publishFact _ _ _).addAll _
      | exact brief_of_nil rfl

theorem brief_publishEvidence (record : EvidenceRecord) :
    (s.publishEvidence record).2.1.Brief maxReasonDetail := by
  unfold publishEvidence
  dsimp only
  split
  · exact brief_fixed (by decide)
  · split_ifs
    · exact brief_fixed (by decide)
    · exact (brief_publishRecord _ _).addAll _
    · exact brief_of_nil rfl

theorem length_le_of_validToken {token : Text} {maxLength : ℕ}
    (h : validToken token maxLength = true) : token.length ≤ maxLength := by
  simp only [validToken, Bool.and_eq_true, decide_eq_true_eq] at h
  exact h.1.2

/-- The longest detail of a reason; that of a duplicate is the name in full. -/
def detailBound (cfg : EngineConfig) : ℕ := max maxReasonDetail cfg.bounds.maxNameLength

theorem maxReasonDetail_le_detailBound (cfg : EngineConfig) : maxReasonDetail ≤ detailBound cfg :=
  le_max_left _ _

theorem brief_registerModel (name family : Text) (provenance : Provenance) :
    (s.registerModel cfg name family provenance).2.1.Brief (detailBound cfg) := by
  unfold registerModel
  split_ifs with hname
  · exact (brief_fixed (by decide)).mono (maxReasonDetail_le_detailBound cfg)
  · exact (brief_fixed (by decide)).mono (maxReasonDetail_le_detailBound cfg)
  · have hvalid : validToken name cfg.bounds.maxNameLength = true := by simpa using hname
    exact brief_because _ _ ((length_le_of_validToken hvalid).trans (le_max_right _ _))
  · exact (brief_fixed (by decide)).mono (maxReasonDetail_le_detailBound cfg)
  · exact brief_of_nil rfl

theorem brief_predecessorRefusal {request : RegisterVersionRequest} {refusal : Decision}
    (h : s.predecessorRefusal cfg request = some refusal) : refusal.Brief maxReasonDetail := by
  unfold predecessorRefusal at h
  split_ifs at h
  split at h
  · obtain rfl := Option.some.inj h
    exact brief_fixed (by decide)
  · split_ifs at h
    obtain rfl := Option.some.inj h
    exact brief_fixed (by decide)

theorem brief_registerVersion (request : RegisterVersionRequest) :
    (s.registerVersion cfg request).2.1.Brief (detailBound cfg) := by
  have hle := maxReasonDetail_le_detailBound cfg
  unfold registerVersion
  dsimp only
  split_ifs with _ hlabel
  · exact (brief_fixed (by decide)).mono hle
  · exact (brief_fixed (by decide)).mono hle
  · exact (brief_fixed (by decide)).mono hle
  · exact (brief_fixed (by decide)).mono hle
  · have hvalid : validToken request.label cfg.bounds.maxNameLength = true := by simpa using hlabel
    exact brief_because _ _ ((length_le_of_validToken hvalid).trans (le_max_right _ _))
  · exact (brief_fixed (by decide)).mono hle
  · split
    · exact (brief_predecessorRefusal ‹_›).mono hle
    · exact brief_of_nil rfl

theorem brief_revalidate (request : RevalidationRequest) :
    (s.revalidate request).2.Brief maxReasonDetail := by
  unfold revalidate
  split
  · exact brief_fixed (by decide)
  · dsimp only
    split_ifs
    · exact brief_fixed (by decide)
    · exact brief_fixed (by decide)
    · exact brief_add rfl (List.length_take_le _ _)

/-! ## Workers and attempts -/

theorem brief_registerWorker (registration : WorkerRegistration) :
    (s.registerWorker cfg registration).2.Brief maxReasonDetail := by
  unfold registerWorker
  dsimp only
  split_ifs
  · exact brief_fixed (by decide)
  · exact brief_fixed (by decide)
  · exact brief_fixed (by decide)
  · exact brief_fixed (by decide)
  · exact brief_because _ _ (short_texts (by decide))
  · exact brief_of_nil rfl

theorem brief_fenceWorker (worker : WorkerId) (boot : WorkerBootId) (epoch : CoordinatorEpoch)
    (reason : Text) : (s.fenceWorker worker boot epoch reason).2.Brief maxReasonDetail := by
  unfold fenceWorker
  split
  · exact brief_fixed (by decide)
  · dsimp only
    split_ifs
    · exact brief_fixed (by decide)
    · exact brief_fixed (by decide)
    · exact brief_of_nil rfl
    · exact brief_of_nil rfl

theorem brief_attemptRefusal {request : AttemptRequest} {refusal : Refusal}
    (h : s.attemptRefusal cfg request = some refusal) :
    refusal.decision.Brief maxReasonDetail := by
  refine BriefRefusals.first ?_ h
  repeat' with_reducible apply BriefRefusals.append
  · exact briefRefusals_fixed (by decide)
  · exact briefRefusals_refusalOf (brief_checkEpoch _)
  · exact briefRefusals_refusalOf (brief_checkWorker _ _ _)
  · split
    · exact briefRefusals_singleton (Refusal.brief _ _ (short_text (by decide)))
    · unfold attemptSubjectRefusals
      repeat' with_reducible apply BriefRefusals.append
      · exact briefRefusals_fixed (by decide)
      · exact briefRefusals_fixed (by decide)
      · exact briefRefusals_fixed (by decide)
      · split_ifs
        · exact List.forall_mem_nil _
        · split
          · exact briefRefusals_singleton (Refusal.brief _ _ (short_text (by decide)))
          · exact briefRefusals_fixed (by decide)

theorem brief_beginAttempt (request : AttemptRequest) :
    (s.beginAttempt cfg request).2.decision.Brief maxReasonDetail := by
  unfold beginAttempt
  split
  · exact brief_attemptRefusal ‹_›
  · exact brief_because _ _ (Nat.zero_le _)
  · exact brief_of_nil rfl

theorem brief_completionRefusal {completion : CompletionRecord} {attempt : Attempt}
    {refusal : Refusal} (h : s.completionRefusal completion attempt = some refusal) :
    refusal.decision.Brief maxReasonDetail := by
  refine BriefRefusals.first ?_ h
  repeat' with_reducible apply BriefRefusals.append
  · exact briefRefusals_fixed (by decide)
  · exact briefRefusals_fixed (by decide)
  · exact briefRefusals_fixed (by decide)
  · exact briefRefusals_fixed (by decide)
  · unfold performerRefusal
    split_ifs
    · exact briefRefusals_singleton ((brief_checkWorker _ _ _).addAll _)
    · exact List.forall_mem_nil _
  · exact briefRefusals_fixed (by decide)
  · exact briefRefusals_fixed (by decide)
  · exact briefRefusals_fixed (by decide)

theorem brief_completeAttempt (completion : CompletionRecord) :
    (s.completeAttempt completion).2.Brief maxReasonDetail := by
  unfold completeAttempt
  split
  · exact brief_fixed (by decide)
  · split
    · exact brief_completionRefusal ‹_›
    · split
      · exact brief_because _ _ (short_texts (by decide))
      · exact brief_of_nil rfl

end EngineState

end LifecycleFabric
