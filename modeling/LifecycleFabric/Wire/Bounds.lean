import LifecycleFabric.Wire.Requests

/-!
# What is read of a written message

For each part of a message: the bounds its reader puts on it, and that the reader takes what
was written back when the part is within them, and refuses it otherwise.
-/

namespace LifecycleFabric.Wire

open ByteCodec

variable {limits : ProtocolLimits}

/-! ## Values -/

theorem reads_outcome (outcome : OutcomeCode) :
    Reads getOutcome (word 2 outcome.code) True outcome := by
  have hlt : outcome.code < 256 ^ 2 := by cases outcome <;> decide
  have hlisted : OutcomeCode.all[outcome.code]? = some outcome := by cases outcome <;> rfl
  have hread := (Reads.number_of_lt hlt).bind fun _ => Reads.oneOf hlisted
  rw [List.append_nil] at hread
  exact hread.congr and_self_iff

/-- A comparison that a message can carry is read back. -/
theorem reads_comparison {comparison : CriterionComparison} (h : comparison.isNamed = true) :
    Reads (getEnum comparisons) (putEnum comparison.code.toNat) True comparison := by
  apply reads_getEnum <;> cases comparison <;> first | decide | cases h

/-! ## Shared parts -/

def withinBinding (limits : ProtocolLimits) (binding : ArtifactBinding) : Prop :=
  Fits limits.maxDigest binding.digest.length

theorem reads_binding (binding : ArtifactBinding) :
    Reads (getBinding limits) (putBinding binding) (withinBinding limits binding) binding :=
  reads_bindingUpTo limits.maxDigest binding

def withinRequirements (limits : ProtocolLimits) (r : ModelRequirements) : Prop :=
  fitsRequirements limits.maxString r

theorem reads_requirements (r : ModelRequirements) :
    Reads (getRequirements limits) (putRequirements r) (withinRequirements limits r) r :=
  reads_requirementsUpTo limits.maxString r

/-- The precisions of an environment are an ordered set. -/
def properEnvironment (e : EnvironmentProfile) : Prop := e.precisions.Pairwise (· < ·)

theorem textSet_of_sorted {texts : List Text} (h : texts.Pairwise (· < ·)) :
    textSet texts = texts := by
  have hsorted : texts.Pairwise (· ≤ ·) := h.imp fun hlt => le_of_lt hlt
  have hnodup : texts.Nodup := h.imp fun hlt => ne_of_lt hlt
  rw [textSet, hsorted.insertionSort_eq, hnodup.dedup]

def withinEnvironment (limits : ProtocolLimits) (e : EnvironmentProfile) : Prop :=
  Fits limits.maxString e.key.length ∧ Fits limits.maxString e.runtime.length ∧
    Fits limits.maxString e.runtimeVersion.length ∧ Fits limits.maxString e.backend.length ∧
    Fits limits.maxString e.backendVersion.length ∧
    Fits limits.maxString e.architecture.length ∧
    (Fits maxPrecisions e.precisions.length ∧
      ∀ value ∈ e.precisions, Fits limits.maxString value.length) ∧
    Fits limits.maxString e.tokenizerGeneration.length ∧
    Fits limits.maxString e.adapterSet.length

theorem reads_environment {e : EnvironmentProfile} (h : properEnvironment e) :
    Reads (getEnvironment limits) (putEnvironment e) (withinEnvironment limits e) e := by
  have hread : Reads (getEnvironment limits) (putEnvironment e) _
      { e with precisions := textSet e.precisions } :=
    .field (reads_string _ _) fun _ => .field (reads_string _ _) fun _ =>
    .field (reads_string _ _) fun _ => .field (reads_string _ _) fun _ =>
    .field (reads_string _ _) fun _ => .field (reads_string _ _) fun _ =>
    .field (reads_texts _ _ _) fun _ => .field (reads_string _ _) fun _ =>
    .field (reads_string _ _) fun _ => .next (reads_getU32 _) <|
    .next (reads_provenance _) <| .done _
  rw [textSet_of_sorted h] at hread
  exact hread.congr (by simp [withinEnvironment])

/-! ## Sessions -/

def withinHello (limits : ProtocolLimits) (m : HelloMessage) : Prop :=
  Fits (sizeWord (limits.maxConnections * 4)) m.scopes.length ∧
    Fits limits.maxString m.detail.length

theorem reads_hello (m : HelloMessage) :
    Reads (getHello limits) (putHello m) (withinHello limits m) m := by
  have hread : Reads (getHello limits) (putHello m) _ m :=
    .next (reads_getU16 _) <| .next (reads_getId _) <| .next (reads_getId _) <|
    .next (reads_getId _) <| .field (reads_ids _ _) fun _ =>
    .field (reads_string _ _) fun _ => .done _
  exact hread.congr (by simp [withinHello])

def withinHelloAck (limits : ProtocolLimits) (m : HelloAckMessage) : Prop :=
  Fits (sizeWord (limits.maxConnections * 4)) m.scopes.length ∧
    Fits limits.maxString m.detail.length

theorem reads_helloAck (m : HelloAckMessage) :
    Reads (getHelloAck limits) (putHelloAck m) (withinHelloAck limits m) m := by
  have hread : Reads (getHelloAck limits) (putHelloAck m) _ m :=
    .next (reads_getU16 _) <| .next (reads_getId _) <| .next (reads_getId _) <|
    .next (reads_getId _) <| .next (reads_getBool _) <| .field (reads_ids _ _) fun _ =>
    .field (reads_string _ _) fun _ => .done _
  exact hread.congr (by simp [withinHelloAck])

def withinFence (limits : ProtocolLimits) (m : FenceMessage) : Prop :=
  Fits limits.maxString m.reason.length

theorem reads_fence (m : FenceMessage) :
    Reads (getFence limits) (putFence m) (withinFence limits m) m := by
  have hread : Reads (getFence limits) (putFence m) _ m :=
    .next (reads_getId _) <| .next (reads_getId _) <| .field (reads_string _ _) fun _ => .done _
  exact hread.congr (by simp [withinFence])

/-! ## Registry -/

def withinRegisterModel (limits : ProtocolLimits) (m : RegisterModelMessage) : Prop :=
  Fits limits.maxString m.name.length ∧ Fits limits.maxString m.family.length

theorem reads_registerModel (m : RegisterModelMessage) :
    Reads (getRegisterModel limits) (putRegisterModel m) (withinRegisterModel limits m) m := by
  have hread : Reads (getRegisterModel limits) (putRegisterModel m) _ m :=
    .field (reads_string _ _) fun _ => .field (reads_string _ _) fun _ =>
    .next (reads_provenance _) <| .done _
  exact hread.congr (by simp [withinRegisterModel])

def withinRegisterVersion (limits : ProtocolLimits) (m : RegisterVersionMessage) : Prop :=
  Fits limits.maxString m.label.length ∧ withinBinding limits m.artifact ∧
    withinRequirements limits m.requirements

theorem reads_registerVersion (m : RegisterVersionMessage) :
    Reads (getRegisterVersion limits) (putRegisterVersion m) (withinRegisterVersion limits m)
      m := by
  have hread : Reads (getRegisterVersion limits) (putRegisterVersion m) _ m :=
    .next (reads_getId _) <| .field (reads_string _ _) fun _ =>
    .field (reads_binding _) fun _ => .field (reads_requirements _) fun _ =>
    .next (reads_getId _) <| .next (reads_provenance _) <| .done _
  exact hread.congr (by simp [withinRegisterVersion])

def withinPublishCompatibility (limits : ProtocolLimits) (m : PublishCompatibilityMessage) :
    Prop :=
  withinEnvironment limits m.environment ∧ Fits limits.maxString m.detail.length

theorem reads_publishCompatibility {m : PublishCompatibilityMessage}
    (h : properEnvironment m.environment) :
    Reads (getPublishCompatibility limits) (putPublishCompatibility m)
      (withinPublishCompatibility limits m) m := by
  have hread : Reads (getPublishCompatibility limits) (putPublishCompatibility m) _ m :=
    .next (reads_getId _) <| .field (reads_environment h) fun _ =>
    .next (reads_compatibility _) <| .field (reads_string _ _) fun _ =>
    .next (reads_provenance _) <| .done _
  exact hread.congr (by simp [withinPublishCompatibility])

def withinPublishEvidence (limits : ProtocolLimits) (m : PublishEvidenceMessage) : Prop :=
  Fits maxUnit m.unit.length ∧ Fits limits.maxString m.detail.length

theorem reads_publishEvidence (m : PublishEvidenceMessage) :
    Reads (getPublishEvidence limits) (putPublishEvidence m) (withinPublishEvidence limits m)
      m := by
  have hread : Reads (getPublishEvidence limits) (putPublishEvidence m) _ m :=
    .next (reads_getId _) <| .next (reads_getId _) <| .next (reads_getId _) <|
    .next (reads_getId _) <| .next (reads_getId _) <| .next (reads_getId _) <|
    .next (reads_evidenceKind _) <| .next (reads_verdict _) <| .next (reads_getF64 _) <|
    .field (reads_string _ _) fun _ => .next (reads_getU64 _) <|
    .field (reads_string _ _) fun _ => .next (reads_provenance _) <| .done _
  exact hread.congr (by simp [withinPublishEvidence])

def withinRegisterScope (limits : ProtocolLimits) (m : RegisterScopeMessage) : Prop :=
  Fits (sizeWord (limits.maxString * 8)) m.path.length

theorem reads_registerScope (m : RegisterScopeMessage) :
    Reads (getRegisterScope limits) (putRegisterScope m) (withinRegisterScope limits m) m := by
  have hread : Reads (getRegisterScope limits) (putRegisterScope m) _ m :=
    .field (reads_string _ _) fun _ => .done _
  exact hread.congr (by simp [withinRegisterScope])

/-! ## Attempts -/

def withinAttemptRequest (limits : ProtocolLimits) (m : AttemptRequestMessage) : Prop :=
  Fits limits.maxString m.detail.length

theorem reads_attemptRequest (m : AttemptRequestMessage) :
    Reads (getAttemptRequest limits) (putAttemptRequest m) (withinAttemptRequest limits m)
      m := by
  have hread : Reads (getAttemptRequest limits) (putAttemptRequest m) _ m :=
    .next (reads_attemptKind _) <| .next (reads_getId _) <| .next (reads_getId _) <|
    .next (reads_getId _) <| .next (reads_getId _) <| .next (reads_getId _) <|
    .next (reads_getId _) <| .next (reads_getId _) <| .next (reads_getId _) <|
    .next (reads_getId _) <| .next (reads_getId _) <| .next (reads_getBool _) <|
    .field (reads_string _ _) fun _ => .done _
  exact hread.congr (by simp [withinAttemptRequest])

def withinCompletion (limits : ProtocolLimits) (m : CompletionMessage) : Prop :=
  Fits limits.maxString m.detail.length

theorem reads_completion (m : CompletionMessage) :
    Reads (getCompletion limits) (putCompletion m) (withinCompletion limits m) m := by
  have hread : Reads (getCompletion limits) (putCompletion m) _ m :=
    .next (reads_getId _) <| .next (reads_getBool _) <| .next (reads_getBool _) <|
    .field (reads_string _ _) fun _ => .done _
  exact hread.congr (by simp [withinCompletion])

def withinCommand (limits : ProtocolLimits) (m : CommandMessage) : Prop :=
  Fits limits.maxString m.detail.length

theorem reads_command (m : CommandMessage) :
    Reads (getCommand limits) (putCommand m) (withinCommand limits m) m := by
  have hread : Reads (getCommand limits) (putCommand m) _ m :=
    .next (reads_attemptKind _) <| .next (reads_getId _) <| .next (reads_getId _) <|
    .next (reads_getId _) <| .next (reads_getId _) <| .next (reads_getId _) <|
    .next (reads_getId _) <| .next (reads_getId _) <| .next (reads_getId _) <|
    .field (reads_string _ _) fun _ => .done _
  exact hread.congr (by simp [withinCommand])

/-! ## Queries -/

theorem reads_queryState (m : QueryStateMessage) :
    Reads getQueryState (putQueryState m) True m :=
  .next (reads_getId _) <| .next (reads_getId _) <| .next (reads_getId _) <| .done _

theorem reads_queryAuthority (m : QueryAuthorityMessage) :
    Reads getQueryAuthority (putQueryAuthority m) True m :=
  .next (reads_getId _) <| .done _

theorem reads_reconcile (m : ReconcileMessage) : Reads getReconcile (putReconcile m) True m :=
  .next (reads_getU32 _) <| .done _

/-! ## Promotions -/

/-- An optional part behind its flag. -/
theorem reads_present {α : Type} {reader : Reader α} {put : α → Bytes} {fits : α → Prop}
    {part : Option α} (h : ∀ a ∈ part, Reads reader (put a) (fits a) a) :
    Reads (getPresent part.isSome reader) (part.elim [] put) (∀ a ∈ part, fits a) part := by
  cases part with
  | none => exact (Reads.pure none).congr (by simp)
  | some a => exact ((h a rfl).map some).congr (by simp)

def withinPromotion (limits : ProtocolLimits) (r : PromotionRequest) : Prop :=
  Fits limits.maxString r.environmentKey.length ∧
    ∀ e ∈ r.environment, withinEnvironment limits e

theorem reads_promotion {r : PromotionRequest} (h : ∀ e ∈ r.environment, properEnvironment e) :
    Reads (getPromotion limits) (putPromotion r) (withinPromotion limits r) r := by
  have hread : Reads (getPromotion limits) (putPromotion r) _ r :=
    .next (reads_getId _) <| .next (reads_getId _) <| .next (reads_getId _) <|
    .next (reads_getId _) <| .next (reads_getId _) <| .next (reads_getId _) <|
    .next (reads_getId _) <| .next (reads_getId _) <| .next (reads_getId _) <|
    .next (reads_strategy _) <| .next (reads_getId _) <| .next (reads_getId _) <|
    .next (reads_getId _) <| .next (reads_getId _) <| .next (reads_getId _) <|
    .next (reads_getBool _) <| .next (reads_getBool _) <| .field (reads_string _ _) fun _ =>
    .next (reads_getBool _) <|
    .field (reads_present fun e he => reads_environment (h e he)) fun _ => .done _
  exact hread.congr (by simp [withinPromotion])

/-! ## Rollout plans -/

theorem reads_criterion {c : Criterion} (h : c.comparison.isNamed = true) :
    Reads getCriterion (putCriterion c) True c :=
  .next (reads_evidenceKind _) <| .next (reads_comparison h) <| .next (reads_getF64 _) <|
  .done _

def withinCohort (limits : ProtocolLimits) (c : CohortSpec) : Prop :=
  Fits limits.maxString c.name.length ∧ Fits (sizeWord (limits.maxValues * 16)) c.scopes.length ∧
    c.trafficPercent.toNat ≤ 100 ∧ c.maxBlastRadiusPercent.toNat ≤ 100

theorem reads_cohort (c : CohortSpec) :
    Reads (getCohort limits) (putCohort c) (withinCohort limits c) c := by
  have hread : Reads (getCohort limits) (putCohort c) _ c :=
    .field (reads_string _ _) fun _ => .field (reads_ids _ _) fun _ =>
    .field (reads_percent _) fun _ => .field (reads_percent _) fun _ => .done _
  exact hread.congr (by simp [withinCohort])

/-- The cohort index that is read back: its low 32 bits. -/
def carriedIndex (index : ℕ) : ℕ := index % 2 ^ 32

theorem reads_index (index : ℕ) : Reads (number 4) (putIndex index) True (carriedIndex index) :=
  Reads.number 4 index

theorem reads_indices (limit : ℕ) (indices : List ℕ) :
    Reads (counted limit (number 4)) (putCounted putIndex indices) (Fits limit indices.length)
      (indices.map carriedIndex) := by
  have hput (index : ℕ) : 0 < (putIndex index).length := by simp [putIndex]
  exact (Reads.counted_map (fun index _ => reads_index index) hput limit).congr (by simp)

theorem reads_criteria {cs : List Criterion} (h : ∀ c ∈ cs, c.comparison.isNamed = true) :
    Reads (counted maxStageChecks getCriterion) (putCounted putCriterion cs)
      (Fits maxStageChecks cs.length) cs := by
  have hput (c : Criterion) : 0 < (putCriterion c).length := by simp [putCriterion, putEnum]
  exact (Reads.counted (fun c hc => reads_criterion (h c hc)) hput _).congr (by simp)

/-- The criteria of a stage compare in one of the named ways. -/
def properStage (s : StageSpec) : Prop :=
  (∀ c ∈ s.acceptance, c.comparison.isNamed = true) ∧
    ∀ c ∈ s.failure, c.comparison.isNamed = true

def withinStage (limits : ProtocolLimits) (s : StageSpec) : Prop :=
  Fits limits.maxString s.name.length ∧
    Fits (sizeWord (limits.maxValues * 8)) s.cohortIndices.length ∧
    Fits maxStageChecks s.requiredEvidence.length ∧ Fits maxStageChecks s.acceptance.length ∧
    Fits maxStageChecks s.failure.length

def carriedStage (s : StageSpec) : StageSpec :=
  { s with cohortIndices := s.cohortIndices.map carriedIndex }

theorem reads_stage {s : StageSpec} (h : properStage s) :
    Reads (getStage limits) (putStage s) (withinStage limits s) (carriedStage s) := by
  have hread : Reads (getStage limits) (putStage s) _ (carriedStage s) :=
    .field (reads_string _ _) fun _ => .field (reads_indices _ _) fun _ =>
    .field (reads_requirementList _ _) fun _ => .field (reads_criteria h.1) fun _ =>
    .field (reads_criteria h.2) fun _ => .next (reads_getBool _) <|
    .next (reads_getBool _) <| .done _
  exact hread.congr (by simp [withinStage])

def withinRolloutPlan (limits : ProtocolLimits) (r : RolloutPlanRequest) : Prop :=
  (Fits (sizeWord (limits.maxValues * 8)) r.cohorts.length ∧
      ∀ c ∈ r.cohorts, withinCohort limits c) ∧
    Fits limits.maxValues r.stages.length ∧ ∀ s ∈ r.stages, withinStage limits s

def carriedRolloutPlan (r : RolloutPlanRequest) : RolloutPlanRequest :=
  { r with stages := r.stages.map carriedStage }

theorem reads_cohorts (limit : ℕ) (cs : List CohortSpec) :
    Reads (counted limit (getCohort limits)) (putCounted putCohort cs)
      (Fits limit cs.length ∧ ∀ c ∈ cs, withinCohort limits c) cs := by
  have hput (c : CohortSpec) : 0 < (putCohort c).length := by simp [putCohort]
  exact Reads.counted (fun c _ => reads_cohort c) hput limit

theorem reads_stages {ss : List StageSpec} (h : ∀ s ∈ ss, properStage s) (limit : ℕ) :
    Reads (counted limit (getStage limits)) (putCounted putStage ss)
      (Fits limit ss.length ∧ ∀ s ∈ ss, withinStage limits s) (ss.map carriedStage) := by
  have hput (s : StageSpec) : 0 < (putStage s).length := by simp [putStage]
  exact Reads.counted_map (fun s hs => reads_stage (h s hs)) hput limit

theorem reads_rolloutPlan {r : RolloutPlanRequest} (h : ∀ s ∈ r.stages, properStage s) :
    Reads (getRolloutPlan limits) (putRolloutPlan r) (withinRolloutPlan limits r)
      (carriedRolloutPlan r) := by
  have hread : Reads (getRolloutPlan limits) (putRolloutPlan r) _ (carriedRolloutPlan r) :=
    .next (reads_getId _) <| .next (reads_getId _) <| .next (reads_getId _) <|
    .next (reads_getId _) <| .next (reads_getId _) <| .next (reads_getId _) <|
    .next (reads_getId _) <| .next (reads_getId _) <| .next (reads_strategy _) <|
    .next (reads_getId _) <| .next (reads_getId _) <| .next (reads_getId _) <|
    .next (reads_getId _) <| .next (reads_getU32 _) <| .next (reads_getBool _) <|
    .next (reads_getId _) <| .next (reads_getId _) <| .next (reads_getId _) <|
    .next (reads_getId _) <| .next (reads_getId _) <|
    .field (reads_cohorts _ _) fun _ => .field (reads_stages h _) fun _ => .done _
  exact hread.congr (by simp [withinRolloutPlan])

/-! ## Other requests -/

def withinProgress (limits : ProtocolLimits) (r : RolloutProgressRequest) : Prop :=
  Fits limits.maxString r.detail.length

theorem reads_progress (r : RolloutProgressRequest) :
    Reads (getProgress limits) (putProgress r) (withinProgress limits r) r := by
  have hread : Reads (getProgress limits) (putProgress r) _ r :=
    .next (reads_getId _) <| .next (reads_getId _) <| .next (reads_getId _) <|
    .next (reads_getId _) <| .next (reads_getId _) <| .next (reads_getId _) <|
    .next (reads_getId _) <| .next (reads_getId _) <| .next (reads_getBool _) <|
    .field (reads_string _ _) fun _ => .done _
  exact hread.congr (by simp [withinProgress])

theorem reads_retire (r : RetirementRequest) : Reads getRetire (putRetire r) True r :=
  .next (reads_getId _) <| .next (reads_getId _) <| .next (reads_getId _) <|
  .next (reads_getId _) <| .next (reads_getId _) <| .done _

def withinRevalidate (limits : ProtocolLimits) (r : RevalidationRequest) : Prop :=
  Fits limits.maxString r.detail.length

theorem reads_revalidate {r : RevalidationRequest} (h : properReason r.cause) :
    Reads (getRevalidate limits) (putRevalidate r) (withinRevalidate limits r) r := by
  have hread : Reads (getRevalidate limits) (putRevalidate r) _ r :=
    .next (reads_getId _) <| .next (reads_getId _) <| .next (reads_getId _) <|
    .next (reads_reasonCode h) <| .field (reads_string _ _) fun _ => .done _
  exact hread.congr (by simp [withinRevalidate])

def withinRollback (limits : ProtocolLimits) (r : RollbackRequest) : Prop :=
  Fits limits.maxString r.detail.length

theorem reads_rollback (r : RollbackRequest) :
    Reads (getRollback limits) (putRollback r) (withinRollback limits r) r := by
  have hread : Reads (getRollback limits) (putRollback r) _ r :=
    .next (reads_getId _) <| .next (reads_getId _) <| .next (reads_getId _) <|
    .next (reads_getId _) <| .next (reads_getId _) <| .next (reads_getId _) <|
    .next (reads_getId _) <| .next (reads_getId _) <| .next (reads_getId _) <|
    .next (reads_getId _) <| .next (reads_getId _) <| .next (reads_getId _) <|
    .next (reads_getId _) <| .next (reads_getId _) <| .next (reads_getBool _) <|
    .field (reads_string _ _) fun _ => .done _
  exact hread.congr (by simp [withinRollback])

def withinSupersede (limits : ProtocolLimits) (m : SupersedeMessage) : Prop :=
  Fits limits.maxString m.detail.length

theorem reads_supersede (m : SupersedeMessage) :
    Reads (getSupersede limits) (putSupersede m) (withinSupersede limits m) m := by
  have hread : Reads (getSupersede limits) (putSupersede m) _ m :=
    .next (reads_getId _) <| .next (reads_getId _) <| .field (reads_string _ _) fun _ => .done _
  exact hread.congr (by simp [withinSupersede])

/-! ## Replies -/

theorem reads_values (limit : ℕ) (values : List (Text × Text)) :
    Reads (counted limit (getValue limits)) (putCounted putValue values)
      (Fits limit values.length ∧ ∀ value ∈ values,
        Fits limits.maxString value.1.length ∧ Fits limits.maxString value.2.length) values := by
  have hput (value : Text × Text) : 0 < (putValue value).length := by simp [putValue]
  have hvalue (value : Text × Text) :
      Reads (getValue limits) (putValue value)
        (Fits limits.maxString value.1.length ∧ Fits limits.maxString value.2.length) value := by
    have hread : Reads (getValue limits) (putValue value) _ value :=
      .field (reads_string _ _) fun _ => .field (reads_string _ _) fun _ => .done _
    exact hread.congr (by simp)
  exact Reads.counted (fun value _ => hvalue value) hput limit

def withinReply (limits : ProtocolLimits) (m : Reply) : Prop :=
  (Fits limits.maxReasons m.reasons.length ∧
      ∀ reason ∈ m.reasons, Fits limits.maxString reason.detail.length) ∧
    Fits limits.maxValues m.values.length ∧ ∀ value ∈ m.values,
      Fits limits.maxString value.1.length ∧ Fits limits.maxString value.2.length

theorem reads_reply {m : Reply} (h : ∀ reason ∈ m.reasons, properReason reason.code) :
    Reads (getReply limits) (putReply m) (withinReply limits m) m := by
  have hread : Reads (getReply limits) (putReply m) _ m :=
    .next (reads_outcome _) <| .field (reads_reasonsUpTo h _ _) fun _ =>
    .field (reads_values _ _) fun _ => .done _
  exact hread.congr (by simp [withinReply])

/-! ## What a reader accepts -/

theorem yields_requirements : Yields (getRequirements limits) (withinRequirements limits) :=
  .bind (.string _) fun _ hruntime => .bind (.string _) fun _ hversion =>
  .bind (.string _) fun _ hbackend => .bind (.string _) fun _ harchitecture =>
  .bind (.string _) fun _ hprecision => .bind (.string _) fun _ htokenizer =>
  .bind (.string _) fun _ hadapter =>
  .pure ⟨hruntime, hversion, hbackend, harchitecture, hprecision, htokenizer, hadapter⟩

/-- Texts in an ordered set are no more than were inserted. -/
theorem length_textSet_le (texts : List Text) : (textSet texts).length ≤ texts.length := by
  have hshorter := (texts.insertionSort (· ≤ ·)).dedup_sublist.length_le
  rwa [List.length_insertionSort] at hshorter

theorem mem_textSet {texts : List Text} {value : Text} : value ∈ textSet texts ↔ value ∈ texts := by
  rw [textSet, List.mem_dedup, List.mem_insertionSort]

theorem yields_environment : Yields (getEnvironment limits) (withinEnvironment limits) := by
  refine .bind (.string _) fun _ hkey => .bind (.string _) fun _ hruntime =>
    .bind (.string _) fun _ hversion => .bind (.string _) fun _ hbackend =>
    .bind (.string _) fun _ hbackendVersion => .bind (.string _) fun _ harchitecture =>
    .bind (.counted (.string _) _) fun precisions hprecisions =>
    .bind (.string _) fun _ htokenizer => .bind (.string _) fun _ hadapter =>
    .next fun _ => .next fun _ => .pure ?_
  have hfewer := length_textSet_le precisions
  have hset : Fits maxPrecisions (textSet precisions).length :=
    ⟨hfewer.trans hprecisions.1.1, hfewer.trans_lt hprecisions.1.2⟩
  exact ⟨hkey, hruntime, hversion, hbackend, hbackendVersion, harchitecture,
    ⟨hset, fun value hvalue => hprecisions.2 value (mem_textSet.mp hvalue)⟩, htokenizer, hadapter⟩

theorem yields_hello : Yields (getHello limits) (withinHello limits) :=
  .next fun _ => .next fun _ => .next fun _ => .next fun _ =>
  .bind (.counted (.trivially _) _) fun _ hscopes => .bind (.string _) fun _ hdetail =>
  .pure ⟨hscopes.1, hdetail⟩

theorem yields_helloAck : Yields (getHelloAck limits) (withinHelloAck limits) :=
  .next fun _ => .next fun _ => .next fun _ => .next fun _ => .next fun _ =>
  .bind (.counted (.trivially _) _) fun _ hscopes => .bind (.string _) fun _ hdetail =>
  .pure ⟨hscopes.1, hdetail⟩

theorem yields_fence : Yields (getFence limits) (withinFence limits) :=
  .next fun _ => .next fun _ => .bind (.string _) fun _ hreason => .pure hreason

theorem yields_registerModel : Yields (getRegisterModel limits) (withinRegisterModel limits) :=
  .bind (.string _) fun _ hname => .bind (.string _) fun _ hfamily => .next fun _ =>
  .pure ⟨hname, hfamily⟩

theorem yields_binding : Yields (getBinding limits) (withinBinding limits) :=
  .next fun _ => .next fun _ => .bind (.string _) fun _ hdigest => .pure hdigest

theorem yields_registerVersion :
    Yields (getRegisterVersion limits) (withinRegisterVersion limits) :=
  .next fun _ => .bind (.string _) fun _ hlabel => .bind yields_binding fun _ hartifact =>
  .bind yields_requirements fun _ hrequirements => .next fun _ => .next fun _ =>
  .pure ⟨hlabel, hartifact, hrequirements⟩

theorem yields_publishCompatibility :
    Yields (getPublishCompatibility limits) (withinPublishCompatibility limits) :=
  .next fun _ => .bind yields_environment fun _ henvironment => .next fun _ =>
  .bind (.string _) fun _ hdetail => .next fun _ => .pure ⟨henvironment, hdetail⟩

theorem yields_publishEvidence :
    Yields (getPublishEvidence limits) (withinPublishEvidence limits) :=
  .next fun _ => .next fun _ => .next fun _ => .next fun _ => .next fun _ => .next fun _ =>
  .next fun _ => .next fun _ => .next fun _ => .bind (.string _) fun _ hunit => .next fun _ =>
  .bind (.string _) fun _ hdetail => .next fun _ => .pure ⟨hunit, hdetail⟩

theorem yields_registerScope : Yields (getRegisterScope limits) (withinRegisterScope limits) :=
  .bind (.string _) fun _ hpath => .pure hpath

theorem yields_attemptRequest :
    Yields (getAttemptRequest limits) (withinAttemptRequest limits) :=
  .next fun _ => .next fun _ => .next fun _ => .next fun _ => .next fun _ => .next fun _ =>
  .next fun _ => .next fun _ => .next fun _ => .next fun _ => .next fun _ => .next fun _ =>
  .bind (.string _) fun _ hdetail => .pure hdetail

theorem yields_completion : Yields (getCompletion limits) (withinCompletion limits) :=
  .next fun _ => .next fun _ => .next fun _ => .bind (.string _) fun _ hdetail => .pure hdetail

theorem yields_command : Yields (getCommand limits) (withinCommand limits) :=
  .next fun _ => .next fun _ => .next fun _ => .next fun _ => .next fun _ => .next fun _ =>
  .next fun _ => .next fun _ => .next fun _ => .bind (.string _) fun _ hdetail => .pure hdetail

theorem yields_present {α : Type} {reader : Reader α} {p : α → Prop} (h : Yields reader p)
    (present : Bool) : Yields (getPresent present reader) fun part => ∀ a ∈ part, p a := by
  unfold getPresent
  split_ifs
  · refine h.map fun a ha given hgiven => ?_
    obtain rfl := Option.some.inj hgiven
    exact ha
  · exact .pure nofun

theorem yields_promotion : Yields (getPromotion limits) (withinPromotion limits) :=
  .next fun _ => .next fun _ => .next fun _ => .next fun _ => .next fun _ => .next fun _ =>
  .next fun _ => .next fun _ => .next fun _ => .next fun _ => .next fun _ => .next fun _ =>
  .next fun _ => .next fun _ => .next fun _ => .next fun _ => .next fun _ =>
  .bind (.string _) fun _ hkey => .next fun _ =>
  .bind (yields_present yields_environment _) fun _ henvironment => .pure ⟨hkey, henvironment⟩

theorem yields_percent : Yields getPercent fun percent => percent.toNat ≤ 100 :=
  .next fun _ => .bind (.check _) fun _ hpercent => .pure hpercent

theorem yields_cohort : Yields (getCohort limits) (withinCohort limits) :=
  .bind (.string _) fun _ hname => .bind (.counted (.trivially _) _) fun _ hscopes =>
  .bind yields_percent fun _ htraffic => .bind yields_percent fun _ hradius =>
  .pure ⟨hname, hscopes.1, htraffic, hradius⟩

theorem yields_stage : Yields (getStage limits) (withinStage limits) :=
  .bind (.string _) fun _ hname => .bind (.counted (.trivially _) _) fun _ hindices =>
  .bind (.counted (.trivially _) _) fun _ hevidence =>
  .bind (.counted (.trivially _) _) fun _ hacceptance =>
  .bind (.counted (.trivially _) _) fun _ hfailure => .next fun _ => .next fun _ =>
  .pure ⟨hname, hindices.1, hevidence.1, hacceptance.1, hfailure.1⟩

theorem yields_rolloutPlan : Yields (getRolloutPlan limits) (withinRolloutPlan limits) :=
  .next fun _ => .next fun _ => .next fun _ => .next fun _ => .next fun _ => .next fun _ =>
  .next fun _ => .next fun _ => .next fun _ => .next fun _ => .next fun _ => .next fun _ =>
  .next fun _ => .next fun _ => .next fun _ => .next fun _ => .next fun _ => .next fun _ =>
  .next fun _ => .next fun _ => .bind (.counted yields_cohort _) fun _ hcohorts =>
  .bind (.counted yields_stage _) fun _ hstages => .pure ⟨hcohorts, hstages⟩

theorem yields_progress : Yields (getProgress limits) (withinProgress limits) :=
  .next fun _ => .next fun _ => .next fun _ => .next fun _ => .next fun _ => .next fun _ =>
  .next fun _ => .next fun _ => .next fun _ => .bind (.string _) fun _ hdetail => .pure hdetail

theorem yields_revalidate : Yields (getRevalidate limits) (withinRevalidate limits) :=
  .next fun _ => .next fun _ => .next fun _ => .next fun _ =>
  .bind (.string _) fun _ hdetail => .pure hdetail

theorem yields_rollback : Yields (getRollback limits) (withinRollback limits) :=
  .next fun _ => .next fun _ => .next fun _ => .next fun _ => .next fun _ => .next fun _ =>
  .next fun _ => .next fun _ => .next fun _ => .next fun _ => .next fun _ => .next fun _ =>
  .next fun _ => .next fun _ => .next fun _ => .bind (.string _) fun _ hdetail => .pure hdetail

theorem yields_supersede : Yields (getSupersede limits) (withinSupersede limits) :=
  .next fun _ => .next fun _ => .bind (.string _) fun _ hdetail => .pure hdetail

theorem yields_reply : Yields (getReply limits) (withinReply limits) := by
  have hreason : Yields (getReason limits) fun reason =>
      Fits limits.maxString reason.detail.length :=
    .next fun _ => .bind (.string _) fun _ hdetail => .pure hdetail
  have hvalue : Yields (getValue limits) fun value =>
      Fits limits.maxString value.1.length ∧ Fits limits.maxString value.2.length :=
    .bind (.string _) fun _ hkey => .bind (.string _) fun _ hentry => .pure ⟨hkey, hentry⟩
  exact .next fun _ => .bind (.counted hreason _) fun _ hreasons =>
    .bind (.counted hvalue _) fun _ hvalues => .pure ⟨hreasons, hvalues⟩

/-! ## All messages -/

namespace MessageKind

/-- The values a message can have: an ordered set is ordered, an enumeration has one of its
values, and a reason code stands for its number alone. -/
def Proper : (kind : MessageKind) → kind.Payload → Prop
  | publishCompatibility, message => properEnvironment message.environment
  | promotion, request => ∀ e ∈ request.environment, properEnvironment e
  | rolloutPlan, request => ∀ s ∈ request.stages, properStage s
  | revalidate, request => properReason request.cause
  | reply, message => ∀ reason ∈ message.reasons, properReason reason.code
  | _, _ => True

/-- The bounds the reader of a message puts on it. -/
def Within (limits : ProtocolLimits) : (kind : MessageKind) → kind.Payload → Prop
  | hello => withinHello limits
  | helloAck => withinHelloAck limits
  | registerModel => withinRegisterModel limits
  | registerVersion => withinRegisterVersion limits
  | publishCompatibility => withinPublishCompatibility limits
  | publishEvidence => withinPublishEvidence limits
  | attemptRequest => withinAttemptRequest limits
  | completion => withinCompletion limits
  | fence => withinFence limits
  | command => withinCommand limits
  | queryState | queryAuthority | retire | reconcile => fun _ => True
  | promotion => withinPromotion limits
  | rolloutPlan => withinRolloutPlan limits
  | progress => withinProgress limits
  | revalidate => withinRevalidate limits
  | rollback => withinRollback limits
  | supersede => withinSupersede limits
  | registerScope => withinRegisterScope limits
  | reply => withinReply limits

/-- The value that is read back. -/
def carried : (kind : MessageKind) → kind.Payload → kind.Payload
  | rolloutPlan, request => carriedRolloutPlan request
  | _, message => message

/-- The cohort indices of a message are below `2 ^ 32`. -/
def Indexed : (kind : MessageKind) → kind.Payload → Prop
  | rolloutPlan, request => ∀ s ∈ request.stages, ∀ i ∈ s.cohortIndices, i < 2 ^ 32
  | _, _ => True

variable {kind : MessageKind} {message : kind.Payload}

/-- Each reader takes back what its writer wrote, within the bounds, and refuses the rest. -/
theorem reads (h : kind.Proper message) :
    Reads (kind.get limits) (kind.put message) (kind.Within limits message)
      (kind.carried message) := by
  cases kind with
  | hello => exact reads_hello message
  | helloAck => exact reads_helloAck message
  | registerModel => exact reads_registerModel message
  | registerVersion => exact reads_registerVersion message
  | publishCompatibility => exact reads_publishCompatibility h
  | publishEvidence => exact reads_publishEvidence message
  | attemptRequest => exact reads_attemptRequest message
  | completion => exact reads_completion message
  | fence => exact reads_fence message
  | command => exact reads_command message
  | queryState => exact reads_queryState message
  | queryAuthority => exact reads_queryAuthority message
  | promotion => exact reads_promotion h
  | rolloutPlan => exact reads_rolloutPlan h
  | progress => exact reads_progress message
  | retire => exact reads_retire message
  | revalidate => exact reads_revalidate h
  | rollback => exact reads_rollback message
  | supersede => exact reads_supersede message
  | reconcile => exact reads_reconcile message
  | registerScope => exact reads_registerScope message
  | reply => exact reads_reply h

/-- What the reader of a message returns is within its bounds. -/
theorem yields (kind : MessageKind) : Yields (kind.get limits) (kind.Within limits) := by
  cases kind with
  | hello => exact yields_hello
  | helloAck => exact yields_helloAck
  | registerModel => exact yields_registerModel
  | registerVersion => exact yields_registerVersion
  | publishCompatibility => exact yields_publishCompatibility
  | publishEvidence => exact yields_publishEvidence
  | attemptRequest => exact yields_attemptRequest
  | completion => exact yields_completion
  | fence => exact yields_fence
  | command => exact yields_command
  | queryState | queryAuthority | retire | reconcile => exact .trivially _
  | promotion => exact yields_promotion
  | rolloutPlan => exact yields_rolloutPlan
  | progress => exact yields_progress
  | revalidate => exact yields_revalidate
  | rollback => exact yields_rollback
  | supersede => exact yields_supersede
  | registerScope => exact yields_registerScope
  | reply => exact yields_reply

end MessageKind

end LifecycleFabric.Wire
