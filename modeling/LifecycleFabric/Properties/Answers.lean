import LifecycleFabric.Coordinator
import LifecycleFabric.Engine.BriefDecisions
import LifecycleFabric.Engine.RollbackGate

/-!
# What an operation answers

A gate gives a reason for every fault it finds. The reasons of an operation are those of its
gate on the state before it, or the gate has none and the decision is brief.
-/

namespace LifecycleFabric

open Decision

variable {cfg : EngineConfig} {s : EngineState} {bound : ℕ}

-- A branch of an operation is a state with its decision: reduce the pair, not the decision.
attribute [local irreducible] Decision.because

/-! ## Gates -/

/-- Reasons none of which is the absent one. -/
def NamedReasons (reasons : List Reason) : Prop := ∀ reason ∈ reasons, reason.code ≠ .none

/-- A decision takes over reasons that are named. -/
theorem reasons_addAll (d : Decision) {reasons : List Reason} (h : NamedReasons reasons) :
    (d.addAll reasons).reasons = d.reasons ++ reasons := by
  induction reasons generalizing d with
  | nil => simp [Decision.addAll]
  | cons reason rest ih =>
    have hadd : (d.add reason).reasons = d.reasons ++ [reason] := by
      rw [Decision.add, if_neg (h reason List.mem_cons_self)]
    have hrest := ih (d.add reason) fun other hother => h other (List.mem_cons_of_mem reason hother)
    rw [hadd, List.append_assoc, List.singleton_append] at hrest
    exact hrest

theorem NamedReasons.normalize {reasons : List Reason} (h : NamedReasons reasons) :
    NamedReasons (normalizeReasons reasons) := by
  intro reason hreason
  rw [normalizeReasons, List.mem_dedup, List.mem_insertionSort] at hreason
  exact h reason hreason

/-- What a gate says: short and named reasons, and none where it permits. -/
structure Decision.OfGate (d : Decision) : Prop where
  short : ShortReasons maxReasonDetail d.reasons
  named : NamedReasons d.reasons
  silent : d.allowed = true → d.reasons = []

theorem gate_of_faults {rank : OutcomeCode → ℕ} {positive : OutcomeCode}
    (hpositive : positive.isPositive = true)
    (hrank : ∀ code : OutcomeCode, code.isPositive = false → rank positive < rank code)
    (faults : List Fault) : (gateDecision rank positive faults).OfGate := by
  have hreasons : ∀ d : Decision,
      ShortReasons maxReasonDetail d.reasons ∧ NamedReasons d.reasons →
        ShortReasons maxReasonDetail (faults.foldl (Decision.fault rank) d).reasons ∧
          NamedReasons (faults.foldl (Decision.fault rank) d).reasons := by
    induction faults with
    | nil => exact fun d hd => hd
    | cons fault faults ih =>
      intro d hd
      rw [List.foldl_cons]
      apply ih
      have hraise : (d.raise rank fault.outcome).reasons = d.reasons := by
        unfold Decision.raise
        split_ifs
        · rfl
        · rfl
      rw [← hraise] at hd
      refine ⟨hd.1.add (List.length_take_le _ _), ?_⟩
      unfold Decision.fault Decision.add
      split_ifs with hnone
      · exact hd.2
      · intro reason hreason
        rcases List.mem_append.mp hreason with hold | hnew
        · exact hd.2 reason hold
        · rw [List.mem_singleton.mp hnew]
          exact hnone
  obtain ⟨hshort, hnamed⟩ := hreasons { outcome := positive }
    ⟨List.forall_mem_nil _, List.forall_mem_nil _⟩
  refine ⟨hshort, hnamed, fun hallowed => ?_⟩
  rw [(gateDecision_allowed_iff hpositive hrank).mp hallowed]
  rfl

theorem Decision.OfGate.normalize {d : Decision} (h : d.OfGate) : d.normalize.OfGate where
  short := h.short.normalize
  named := h.named.normalize
  silent hallowed := by
    rw [Decision.normalize, h.silent hallowed]
    rfl


namespace EngineState

/-! ## The gates of the engine -/

theorem gate_evaluatePromotion (request : PromotionRequest) :
    (s.evaluatePromotion cfg request).OfGate := by
  unfold evaluatePromotion
  split
  · exact gate_of_faults rfl promotionRank_pos _
  · exact (gate_of_faults rfl promotionRank_pos _).normalize

theorem gate_evaluateRollback (request : RollbackRequest) :
    (s.evaluateRollback request).OfGate := by
  unfold evaluateRollback
  split
  · exact gate_of_faults rfl rollbackRank_pos _
  · exact (gate_of_faults rfl rollbackRank_pos _).normalize

theorem gate_evaluateRetirement (request : RetirementRequest) :
    (s.evaluateRetirement request).OfGate := by
  unfold evaluateRetirement
  split
  · exact gate_of_faults rfl retirementRank_pos _
  · exact (gate_of_faults rfl retirementRank_pos _).normalize

theorem gate_evaluateStageAdvance (request : RolloutProgressRequest) :
    (s.evaluateStageAdvance request).OfGate := by
  unfold evaluateStageAdvance
  split
  · exact gate_of_faults rfl stageRank_pos _
  · split_ifs
    · exact gate_of_faults rfl stageRank_pos _
    · exact (gate_of_faults rfl stageRank_pos _).normalize

/-! ### The evidence of a stage -/

theorem short_evidenceComplaint {requirement : EvidenceRequirement} {lookup : EvidenceLookup}
    {outcome : OutcomeCode} {code : ReasonCode} {detail : Text}
    (h : evidenceComplaint requirement lookup = some (outcome, code, detail)) :
    detail.length ≤ maxReasonDetail := by
  have hkind : requirement.kind.toText.length ≤ 21 := by
    cases requirement.kind <;> decide
  have hshort : requirement.kind.toText.length ≤ maxReasonDetail := by
    rw [maxReasonDetail]
    omega
  unfold evidenceComplaint at h
  dsimp only at h
  split at h
  · split at h
    · cases h
    · rename_i record _
      split_ifs at h
      cases h
      have hverdict : record.verdict.toText.length ≤ 11 := by
        cases record.verdict <;> decide
      have hlink : (text " verdict is ").length = 12 := by decide
      simp only [List.length_append, maxReasonDetail]
      omega
  all_goals
    cases h
    exact hshort

theorem short_checkEvidenceList (requirements : List EvidenceRequirement)
    (subject : EvidenceSubject) :
    ShortReasons maxReasonDetail (s.checkEvidenceList requirements subject).reasons := by
  unfold checkEvidenceList
  refine ShortReasons.normalize ?_
  have hstart : ShortReasons maxReasonDetail accepted.reasons := List.forall_mem_nil _
  generalize accepted = d at hstart
  induction requirements generalizing d with
  | nil => exact hstart
  | cons requirement rest ih =>
    rw [List.foldl_cons]
    apply ih
    dsimp only
    split
    · exact hstart
    · rename_i hcomplaint
      exact ShortReasons.add hstart (short_evidenceComplaint hcomplaint)

theorem short_entryBlocked {record : ModelVersionRecord} {stage : StageDefinition}
    {residencyRequired : Bool} {scopes : List ScopeId} {refusal : Decision}
    (h : s.entryBlocked record stage residencyRequired scopes = some refusal) :
    ShortReasons maxReasonDetail refusal.reasons := by
  have hnone : ShortReasons maxReasonDetail ({ outcome := .canaryBlocked } : Decision).reasons :=
    List.forall_mem_nil _
  induction scopes with
  | nil => cases h
  | cons scope scopes ih =>
    unfold entryBlocked at h
    dsimp only at h
    split_ifs at h
    · obtain rfl := Option.some.inj h
      exact (hnone.addAll (short_checkEvidenceList _ _)).normalize
    · obtain rfl := Option.some.inj h
      refine (hnone.addAll ?_).normalize
      intro reason hreason
      obtain ⟨before, hbefore, rfl⟩ := List.mem_map.mp hreason
      exact short_checkEvidenceList _ _ before hbefore
    · exact ih h

/-! ## Answers -/

/-- The reasons that block the entry into the first stage of a plan whose begin no earlier check
refuses. -/
def entryReasons (s : EngineState) (request : RolloutProgressRequest) : List Reason :=
  match s.rolloutOf request.rollout with
  | none => []
  | some plan =>
    match s.beginRefusal request plan, s.versionOf plan.model plan.candidate with
    | none, some record =>
      let effective := s.policy.effective s.scopes plan.rootScope
      let blocked := s.entryBlocked record plan.firstStage
        (plan.firstStage.requireResidencyBeforeEntry ||
          effective.requireResidencyBeforeStageEntry) (plan.stageScopes plan.firstStage)
      (blocked.map Decision.reasons).getD []
    | _, _ => []

/-- The reasons a failed stage is reported with: those of its gate, and with them that the policy
denies an automatic rollback, or those of the gate of the rollback. That gate is asked once the
bindings of the rollout are withdrawn. -/
def failureReasons (s : EngineState) (request : RolloutProgressRequest) (plan : RolloutPlan)
    (record : ModelVersionRecord) : List Reason :=
  let gate := (s.evaluateStageAdvance request).reasons
  let withdrawn := s.mapAuthority (·.supersedeRollout plan.id plan.generation)
  if !(s.policy.effective s.scopes plan.rootScope).allowAutomaticRollback then
    normalizeReasons (gate ++ [⟨.policyDeniesAutoRollback,
      text "stage failure requires an explicit rollback decision"⟩])
  else
    normalizeReasons
      (gate ++ (withdrawn.evaluateRollback (s.automaticRollback request plan record)).reasons)

/-- The reasons a stage advance is refused or failed with. -/
def advanceReasons (s : EngineState) (request : RolloutProgressRequest) : List Reason :=
  let gate := s.evaluateStageAdvance request
  match s.rolloutOf request.rollout with
  | none => gate.reasons
  | some plan =>
    if gate.has .stageFailureThresholdExceeded then
      ((s.versionOf plan.model plan.candidate).map (s.failureReasons request plan)).getD []
    else gate.reasons

/-- The reasons that the gates of an operation give, on the state before it. The other operations
have no gate. -/
def gateReasons (cfg : EngineConfig) (s : EngineState) : Operation → List Reason
  | .promote request => (s.evaluatePromotion cfg request).reasons
  | .rollback request => (s.evaluateRollback request).reasons
  | .retire request => (s.evaluateRetirement request).reasons
  | .beginRollout request => s.entryReasons request
  | .advanceStage request => s.advanceReasons request
  | _ => []

/-- A decision gives the short reasons of a gate, or the gate has none and the decision is
brief. -/
inductive AnswersGate (bound : ℕ) (reasons : List Reason) (d : Decision) : Prop
  | gate (h : d.reasons = reasons) (hshort : ShortReasons bound reasons)
  | brief (h : reasons = []) (hbrief : d.Brief bound)

section

variable {reasons : List Reason} {d : Decision}

theorem AnswersGate.mono {bound' : ℕ} (h : AnswersGate bound reasons d) (hle : bound ≤ bound') :
    AnswersGate bound' reasons d := by
  cases h with
  | gate h hshort => exact .gate h (hshort.mono hle)
  | brief h hbrief => exact .brief h (hbrief.mono hle)

theorem AnswersGate.length_le (h : AnswersGate bound reasons d) :
    reasons.length ≤ d.reasons.length := by
  cases h with
  | gate h _ => rw [h]
  | brief h _ =>
    rw [h]
    exact Nat.zero_le _

theorem AnswersGate.le_length (h : AnswersGate bound reasons d) :
    d.reasons.length ≤ max 1 reasons.length := by
  cases h with
  | gate h _ =>
    rw [h]
    exact le_max_right _ _
  | brief _ hbrief => exact hbrief.single.trans (le_max_left _ _)

theorem AnswersGate.short (h : AnswersGate bound reasons d) : ShortReasons bound d.reasons := by
  cases h with
  | gate h hshort =>
    rw [h]
    exact hshort
  | brief _ hbrief => exact hbrief.short

end

theorem brief_grantPromotion (request : PromotionRequest) (promotion : PromotionId)
    (promotionGeneration : PromotionGeneration) :
    (s.grantPromotion request promotion promotionGeneration).2.Brief maxReasonDetail := by
  unfold grantPromotion
  split_ifs
  · exact brief_grantAuthority _
  · exact brief_of_nil rfl

theorem promote_answers (request : PromotionRequest) :
    AnswersGate maxReasonDetail (s.evaluatePromotion cfg request).reasons
      (s.promote cfg request).2.decision := by
  have hgate : (s.evaluatePromotion cfg request).OfGate := gate_evaluatePromotion request
  unfold promote
  dsimp only
  split
  · exact .gate rfl hgate.short
  · rename_i hpermits
    refine .brief (hgate.silent (by simpa using hpermits)) ?_
    split
    · exact brief_fixed (by decide)
    · split_ifs
      · exact brief_fixed (by decide)
      · exact brief_advanceDecision _ _ _
      · exact brief_grantPromotion _ _ _
      · exact brief_of_nil rfl

theorem rollback_answers (request : RollbackRequest) :
    AnswersGate maxReasonDetail (s.evaluateRollback request).reasons
      (s.rollback request).2.decision := by
  have hgate := gate_evaluateRollback (s := s) request
  unfold EngineState.rollback
  dsimp only
  split
  · exact .gate rfl hgate.short
  · rename_i hpermits
    refine .brief (hgate.silent (by simpa using hpermits)) ?_
    split
    · split
      · exact brief_grantAuthority _
      · exact brief_of_nil rfl
    · exact brief_fixed (by decide)

theorem retire_answers (request : RetirementRequest) :
    AnswersGate maxReasonDetail (s.evaluateRetirement request).reasons (s.retire request).2 := by
  have hgate := gate_evaluateRetirement (s := s) request
  unfold retire
  dsimp only
  split
  · exact .gate rfl hgate.short
  · rename_i hpermits
    refine .brief (hgate.silent (by simpa using hpermits)) ?_
    split
    · exact brief_fixed (by decide)
    · split_ifs
      · exact brief_advanceDecision _ _ _
      · exact brief_of_nil rfl

theorem beginRollout_answers (request : RolloutProgressRequest) :
    AnswersGate maxReasonDetail (s.entryReasons request) (s.beginRollout request).2 := by
  unfold beginRollout entryReasons
  cases s.rolloutOf request.rollout with
  | none => exact .brief rfl (brief_fixed (by decide))
  | some plan =>
    dsimp only
    cases hrefusal : s.beginRefusal request plan with
    | some refusal => exact .brief rfl (brief_beginRefusal hrefusal)
    | none =>
      cases s.versionOf plan.model plan.candidate with
      | none => exact .brief rfl (brief_fixed (by decide))
      | some record =>
        dsimp only
        cases hblocked : s.entryBlocked record plan.firstStage _ _ with
        | some refusal => exact .gate rfl (short_entryBlocked hblocked)
        | none =>
          refine .brief rfl ?_
          dsimp only
          split_ifs
          · exact brief_advanceDecision _ _ _
          · exact (brief_grantOver _ _ _ _).addAll _
          · exact brief_of_nil rfl

/-! ### Failed stages -/

/-- A committed failure leaves the gate of the automatic rollback what it says of the state before
it, the bindings of the rollout withdrawn. -/
theorem evaluateRollback_commitFailure (request : RolloutProgressRequest) (plan : RolloutPlan)
    (reasons : List Reason) (leaveStage : Bool) {record record' : ModelVersionRecord}
    (hgeneration : record'.generation = record.generation) :
    (s.commitFailure request.rollout plan reasons leaveStage).evaluateRollback
        ((s.commitFailure request.rollout plan reasons leaveStage).automaticRollback request plan
          record') =
      (s.mapAuthority (·.supersedeRollout plan.id plan.generation)).evaluateRollback
        (s.automaticRollback request plan record) := by
  have hground := sameGround_commitFailure (s := s) request.rollout plan reasons leaveStage
  have hscopes := hground.scopes
  have hpolicy := hground.policy
  have hsame : (s.commitFailure request.rollout plan reasons leaveStage).automaticRollback request
      plan record' = s.automaticRollback request plan record := by
    unfold automaticRollback
    rw [hscopes, hpolicy, hgeneration]
    rfl
  rw [hsame, evaluateRollback_congr hground]

/-- The reasons of a failed stage are determined by the state before it. -/
theorem failCurrentStage_reasons {request : RolloutProgressRequest} {plan : RolloutPlan}
    {record : ModelVersionRecord} (hrecord : s.versionOf plan.model plan.candidate = some record) :
    (s.failCurrentStage request plan (s.evaluateStageAdvance request)).2.reasons =
      s.failureReasons request plan record := by
  have hnamed := (gate_evaluateStageAdvance (s := s) request).named
  unfold failCurrentStage failureReasons
  dsimp only
  generalize (s.evaluateStageAdvance request).reasons = reasons at hnamed ⊢
  have hground := sameGround_commitFailure (s := s) request.rollout plan reasons false
  have hscopes : (s.commitFailure request.rollout plan reasons false).scopes = s.scopes :=
    hground.scopes
  have hpolicy : (s.commitFailure request.rollout plan reasons false).policy = s.policy :=
    hground.policy
  have hblocked : (({ outcome := .stageAdvanceBlocked } : Decision).addAll reasons).reasons =
      reasons := reasons_addAll _ hnamed
  rw [hpolicy, hscopes]
  split_ifs with hauto
  · rw [Decision.normalize, Decision.add, if_neg ReasonCode.noConfusion]
    dsimp only
    rw [hblocked]
  · obtain ⟨record', hrecord', hsame⟩ :=
      (keepsContent_commitFailure (s := s) request.rollout plan reasons false).stored hrecord
    rw [hrecord']
    dsimp only
    rw [evaluateRollback_commitFailure request plan reasons false hsame.generation]
    have hrollback := gate_evaluateRollback
      (s := s.mapAuthority (·.supersedeRollout plan.id plan.generation))
      (s.automaticRollback request plan record)
    split_ifs with hrefused
    · rw [Decision.normalize, reasons_addAll _ hrollback.named, hblocked]
    · have hsilent := hrollback.silent (by simpa using hrefused)
      rw [hsilent, List.append_nil]
      split
      · rw [Decision.normalize, hblocked]
      · rw [Decision.normalize]
        dsimp only
        rw [hblocked]

theorem short_failureReasons (request : RolloutProgressRequest) (plan : RolloutPlan)
    (record : ModelVersionRecord) :
    ShortReasons maxReasonDetail (s.failureReasons request plan record) := by
  have hgate := gate_evaluateStageAdvance (s := s) request
  unfold failureReasons
  dsimp only
  split_ifs
  · exact (hgate.short.append (shortReasons_singleton (short_text (by decide)))).normalize
  · exact (hgate.short.append (gate_evaluateRollback _).short).normalize

theorem advanceStage_answers (request : RolloutProgressRequest) :
    AnswersGate maxReasonDetail (s.advanceReasons request) (s.advanceStage request).2 := by
  have hgate := gate_evaluateStageAdvance (s := s) request
  unfold advanceStage advanceReasons
  dsimp only
  cases s.rolloutOf request.rollout with
  | none => exact .gate rfl hgate.short
  | some plan =>
    dsimp only
    cases hfailed : (s.evaluateStageAdvance request).has .stageFailureThresholdExceeded with
    | true =>
      have hfails : ¬((!(s.evaluateStageAdvance request).allowed) = true ∧ (!true) = true) :=
        fun h => Bool.false_ne_true h.2
      rw [if_neg hfails]
      cases hrecord : s.versionOf plan.model plan.candidate with
      | none =>
        dsimp only
        exact .brief rfl (brief_fixed (by decide))
      | some record =>
        exact .gate (failCurrentStage_reasons hrecord) (short_failureReasons request plan record)
    | false =>
      rw [if_neg Bool.false_ne_true]
      split
      · exact .gate rfl hgate.short
      · rename_i hpermits
        refine .brief (hgate.silent (by simpa using hpermits)) ?_
        split
        · exact brief_fixed (by decide)
        · exact brief_commitStage _ _

/-- An operation that a frame carries answers with the reasons of its gate. -/
theorem perform_answers {op : Operation} (hop : op.carried = true) :
    AnswersGate (detailBound cfg) (s.gateReasons cfg op) (s.perform cfg op).2 := by
  have hle := maxReasonDetail_le_detailBound cfg
  cases op with
  | promote request => exact (promote_answers request).mono hle
  | rollback request => exact (rollback_answers request).mono hle
  | retire request => exact (retire_answers request).mono hle
  | beginRollout request => exact (beginRollout_answers request).mono hle
  | advanceStage request => exact (advanceStage_answers request).mono hle
  | registerModel name family provenance =>
    exact .brief rfl (brief_registerModel name family provenance)
  | registerVersion request => exact .brief rfl (brief_registerVersion request)
  | registerScope path => exact .brief rfl ((brief_ensurePath _ path).mono hle)
  | publishCompatibility version environment outcome detail provenance =>
    exact .brief rfl ((brief_publishCompatibility version environment outcome detail
      provenance).mono hle)
  | publishEvidence record => exact .brief rfl ((brief_publishEvidence record).mono hle)
  | registerWorker registration => exact .brief rfl ((brief_registerWorker registration).mono hle)
  | fenceWorker worker boot epoch reason =>
    exact .brief rfl ((brief_fenceWorker worker boot epoch reason).mono hle)
  | createRollout request => exact .brief rfl ((brief_createRollout request).mono hle)
  | failStage request => exact .brief rfl ((brief_failStage request).mono hle)
  | supersedeRollout rollout generation epoch detail =>
    exact .brief rfl ((brief_supersedeRollout rollout generation epoch detail).mono hle)
  | revalidate request => exact .brief rfl ((brief_revalidate request).mono hle)
  | beginAttempt request => exact .brief rfl ((brief_beginAttempt request).mono hle)
  | completeAttempt completion => exact .brief rfl ((brief_completeAttempt completion).mono hle)
  | _ => cases hop

end EngineState

end LifecycleFabric
