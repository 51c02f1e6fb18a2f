import LifecycleFabric.Engine.Reachable
import LifecycleFabric.Engine.Reconcile
import LifecycleFabric.Lib.KeyedSort
import LifecycleFabric.Properties.Holders

/-!
# Findings do not depend on the order of observations

Findings are sorted and told apart by everything but their reason. Every pass of the
reconciliation gives a finding the reason its kind and detail call for, so the result is
the sorted list of the findings made, whatever the order of the observations, however
often each of them occurs, and however the sort treats equal findings.
-/

namespace LifecycleFabric

open EngineState KeyedSort

variable {s : EngineState} {input input' : ReconciliationInput}

/-! ## The reason of a finding -/

/-- The reason for a stale plan, by the detail it is reported under. -/
def stalePlanReason (detail : Text) : ReasonCode :=
  if detail = text "live rollout plan binding went stale: plan candidate no longer exists" then
    .unknownVersion
  else if detail = text "live rollout plan binding went stale: plan candidate was retired" then
    .promotionCandidateRetired
  else if detail =
      text "live rollout plan binding went stale: candidate model generation advanced" then
    .modelGenerationMismatch
  else if detail =
      text "live rollout plan binding went stale: lifecycle policy generation advanced" then
    .policyGenerationMismatch
  else if detail = text "live rollout plan binding went stale: plan root scope no longer exists" then
    .unknownScope
  else .scopeGenerationMismatch

/-- The reason that the kind and the detail of a finding call for. -/
def Finding.calledFor (kind : FindingKind) (detail : Text) : ReasonCode :=
  match kind with
  | .clean => .none
  | .expectedResidentMissing | .authorityWithoutReplicas => .expectedResidentMissing
  | .retiredModelStillResident => .retiredModelStillResident
  | .rolloutStageWithoutWorkers =>
    if detail = text ("worker liveness is unknown: the runtime will not assume the stage is " ++
        "supported") then
      .replicaEvidenceMissing
    else .rolloutStageWithoutWorkers
  | .replicaForNonAuthoritativeGeneration => .externalStateDiverged
  | .artifactGenerationChanged => .artifactGenerationMismatch
  | .compatibilityChanged => .compatibilityStale
  | .unreconciledAttempt => .unreconciledAttempt
  | .fencedWorkerStillPublishing => .evidencePublisherBootStale
  | .stalePlanBinding => stalePlanReason detail

/-- The finding has the reason its kind and detail call for. -/
def Finding.Reasoned (found : Finding) : Prop :=
  found.reason = Finding.calledFor found.kind found.detail

theorem FindingKind.code_injective {kind kind' : FindingKind} (h : kind.code = kind'.code) : kind = kind' := by
  cases kind <;> cases kind' <;> first | rfl | cases h

/-- Findings that have the reasons they should are told apart by their keys. -/
theorem keyed_of_reasoned {findings : List Finding} (h : ∀ found ∈ findings, found.Reasoned) :
    Keyed Finding.key findings := by
  intro a ha b hb hkey
  have hra := h a ha
  have hrb := h b hb
  unfold Finding.Reasoned at hra hrb
  obtain ⟨kind, reason, scope, model, version, generation, detail⟩ := a
  obtain ⟨kind', reason', scope', model', version', generation', detail'⟩ := b
  simp only [Finding.key, EmbeddingLike.apply_eq_iff_eq, Prod.mk.injEq] at hkey
  obtain ⟨hkind, rfl, rfl, rfl, rfl, rfl⟩ := hkey
  obtain rfl := FindingKind.code_injective hkind
  exact congrArg (fun reason => (⟨kind, reason, scope, model, version, generation, detail⟩ : Finding))
    (hra.trans hrb.symm)

/-! ## What each pass finds -/

theorem authorityFindings_spec : ∀ found ∈ s.authorityFindings input,
    found.kind = .authorityWithoutReplicas ∧ found.Reasoned := by
  intro found hfound
  obtain ⟨binding, _, hbinding⟩ := List.mem_flatMap.mp hfound
  split_ifs at hbinding
  · exact absurd hbinding List.not_mem_nil
  · exact absurd hbinding List.not_mem_nil
  · exact absurd hbinding List.not_mem_nil
  · rw [List.mem_singleton.mp hbinding]
    exact ⟨rfl, rfl⟩

theorem retiredFindings_spec : ∀ found ∈ s.retiredFindings input,
    found.kind = .retiredModelStillResident ∧ found.Reasoned := by
  intro found hfound
  rcases List.mem_append.mp hfound with hresidency | hreplica
  · obtain ⟨observation, _, hobservation⟩ := List.mem_flatMap.mp hresidency
    split_ifs at hobservation
    · rw [List.mem_singleton.mp hobservation]
      exact ⟨rfl, rfl⟩
    · exact absurd hobservation List.not_mem_nil
  · obtain ⟨observation, _, hobservation⟩ := List.mem_flatMap.mp hreplica
    split_ifs at hobservation
    · rw [List.mem_singleton.mp hobservation]
      exact ⟨rfl, rfl⟩
    · exact absurd hobservation List.not_mem_nil

theorem stageFindings_spec : ∀ found ∈ s.stageFindings input,
    found.kind = .rolloutStageWithoutWorkers ∧ found.Reasoned := by
  intro found hfound
  obtain ⟨plan, _, hplan⟩ := List.mem_flatMap.mp hfound
  have hunknown : Finding.calledFor .rolloutStageWithoutWorkers (clampDetail
      (text ("worker liveness is unknown: the runtime will not assume the stage is " ++
        "supported")) maxRecordDetail) = .replicaEvidenceMissing := by
    decide +kernel
  have hunsupported : Finding.calledFor .rolloutStageWithoutWorkers (clampDetail
      (text "the persisted stage is entered but no live worker supports it") maxRecordDetail) =
        .rolloutStageWithoutWorkers := by
    decide +kernel
  split_ifs at hplan
  · exact absurd hplan List.not_mem_nil
  · rw [List.mem_singleton.mp hplan]
    exact ⟨rfl, hunknown.symm⟩
  · exact absurd hplan List.not_mem_nil
  · rw [List.mem_singleton.mp hplan]
    exact ⟨rfl, hunsupported.symm⟩

theorem replicaFindings_spec : ∀ found ∈ s.replicaFindings input,
    found.kind = .replicaForNonAuthoritativeGeneration ∧ found.Reasoned := by
  intro found hfound
  obtain ⟨observation, _, hobservation⟩ := List.mem_flatMap.mp hfound
  split_ifs at hobservation
  · exact absurd hobservation List.not_mem_nil
  · split at hobservation
    · exact absurd hobservation List.not_mem_nil
    · split_ifs at hobservation
      · exact absurd hobservation List.not_mem_nil
      · rw [List.mem_singleton.mp hobservation]
        exact ⟨rfl, rfl⟩

theorem attemptFindings_spec : ∀ found ∈ s.attemptFindings,
    found.kind = .unreconciledAttempt ∧ found.Reasoned := by
  intro found hfound
  obtain ⟨attempt, _, hattempt⟩ := List.mem_flatMap.mp hfound
  split_ifs at hattempt
  · rw [List.mem_singleton.mp hattempt]
    exact ⟨rfl, rfl⟩
  · exact absurd hattempt List.not_mem_nil

theorem fencedFindings_spec : ∀ found ∈ s.fencedFindings,
    found.kind = .fencedWorkerStillPublishing ∧ found.Reasoned := by
  intro found hfound
  obtain ⟨lease, _, hlease⟩ := List.mem_flatMap.mp hfound
  split_ifs at hlease
  · exact absurd hlease List.not_mem_nil
  · obtain ⟨record, _, hrecord⟩ := List.mem_flatMap.mp hlease
    split_ifs at hrecord
    · exact absurd hrecord List.not_mem_nil
    · rw [List.mem_singleton.mp hrecord]
      exact ⟨rfl, rfl⟩

/-- The details of stale plans, other than those with a kind of their own. -/
def stalePlanDetails : List (ReasonCode × Text) :=
  [(.unknownVersion, text "plan candidate no longer exists"),
    (.promotionCandidateRetired, text "plan candidate was retired"),
    (.modelGenerationMismatch, text "candidate model generation advanced"),
    (.policyGenerationMismatch, text "lifecycle policy generation advanced"),
    (.unknownScope, text "plan root scope no longer exists"),
    (.scopeGenerationMismatch, text "plan root scope generation advanced")]

theorem stalePlanReason_details : ∀ e ∈ stalePlanDetails, stalePlanKind e.1 = .stalePlanBinding ∧
    stalePlanReason (clampDetail (text "live rollout plan binding went stale: " ++ e.2)
      maxRecordDetail) = e.1 := by
  decide +kernel

/-- A plan goes stale for the reason its kind and detail call for. -/
theorem checkPlanBindings_reasoned {plan : RolloutPlan} {reason : ReasonCode} {detail : Text}
    (h : s.checkPlanBindings plan = some (reason, detail)) :
    reason = Finding.calledFor (stalePlanKind reason)
      (clampDetail (text "live rollout plan binding went stale: " ++ detail) maxRecordDetail) := by
  have hlisted : (reason, detail) ∈ stalePlanDetails →
      reason = Finding.calledFor (stalePlanKind reason)
        (clampDetail (text "live rollout plan binding went stale: " ++ detail)
          maxRecordDetail) := by
    intro hmem
    obtain ⟨hkind, hreason⟩ := stalePlanReason_details _ hmem
    rw [hkind]
    exact hreason.symm
  unfold checkPlanBindings at h
  split at h
  · cases h
    exact hlisted (by simp [stalePlanDetails])
  · split_ifs at h
    · cases h
      exact hlisted (by simp [stalePlanDetails])
    · cases h
      exact hlisted (by simp [stalePlanDetails])
    · cases h
      rfl
    · cases h
      rfl
    · cases h
      exact hlisted (by simp [stalePlanDetails])
    · split at h
      · cases h
        exact hlisted (by simp [stalePlanDetails])
      · split_ifs at h
        cases h
        exact hlisted (by simp [stalePlanDetails])

theorem planFindings_spec : ∀ found ∈ s.planFindings,
    found.kind = stalePlanKind found.reason ∧ found.Reasoned := by
  intro found hfound
  obtain ⟨plan, _, hplan⟩ := List.mem_flatMap.mp hfound
  split_ifs at hplan
  · exact absurd hplan List.not_mem_nil
  · split at hplan
    · exact absurd hplan List.not_mem_nil
    · next reason detail hstale =>
      rw [List.mem_singleton.mp hplan]
      exact ⟨rfl, checkPlanBindings_reasoned hstale⟩

theorem stalePlanKind_ne_replica (reason : ReasonCode) :
    stalePlanKind reason ≠ .replicaForNonAuthoritativeGeneration := by
  unfold stalePlanKind
  split_ifs <;> decide

/-- Every finding of the seven passes, before it is sorted. -/
def EngineState.findings (s : EngineState) (input : ReconciliationInput) : List Finding :=
  s.authorityFindings input ++ s.retiredFindings input ++ s.stageFindings input ++
    s.replicaFindings input ++ s.attemptFindings ++ s.planFindings ++ s.fencedFindings

theorem mem_findings {found : Finding} : found ∈ s.findings input ↔
    found ∈ s.authorityFindings input ∨ found ∈ s.retiredFindings input ∨
      found ∈ s.stageFindings input ∨ found ∈ s.replicaFindings input ∨
      found ∈ s.attemptFindings ∨ found ∈ s.planFindings ∨ found ∈ s.fencedFindings := by
  simp only [EngineState.findings, List.mem_append, or_assoc]

theorem findings_reasoned : ∀ found ∈ s.findings input, found.Reasoned := by
  intro found hfound
  rcases mem_findings.mp hfound with h | h | h | h | h | h | h
  · exact (authorityFindings_spec found h).2
  · exact (retiredFindings_spec found h).2
  · exact (stageFindings_spec found h).2
  · exact (replicaFindings_spec found h).2
  · exact (attemptFindings_spec found h).2
  · exact (planFindings_spec found h).2
  · exact (fencedFindings_spec found h).2

/-- Only the pass over the replicas reports a replica without authority. -/
theorem mem_replicaFindings {found : Finding}
    (hkind : found.kind = .replicaForNonAuthoritativeGeneration) :
    found ∈ s.findings input ↔ found ∈ s.replicaFindings input := by
  rw [mem_findings]
  constructor
  · rintro (h | h | h | h | h | h | h)
    · cases hkind.symm.trans (authorityFindings_spec found h).1
    · cases hkind.symm.trans (retiredFindings_spec found h).1
    · cases hkind.symm.trans (stageFindings_spec found h).1
    · exact h
    · cases hkind.symm.trans (attemptFindings_spec found h).1
    · exact absurd ((planFindings_spec found h).1.symm.trans hkind) (stalePlanKind_ne_replica _)
    · cases hkind.symm.trans (fencedFindings_spec found h).1
  · exact fun h => Or.inr (Or.inr (Or.inr (Or.inl h)))

/-! ## The observations as sets -/

/-- The inputs report the same things, in whatever order and however often. -/
structure SameObservations (input input' : ReconciliationInput) : Prop where
  residency : ∀ observation, observation ∈ input.residency ↔ observation ∈ input'.residency
  replicas : ∀ observation, observation ∈ input.replicas ↔ observation ∈ input'.replicas
  liveWorkers : ∀ worker, worker ∈ input.liveWorkers ↔ worker ∈ input'.liveWorkers
  workerLivenessKnown : input.workerLivenessKnown = input'.workerLivenessKnown

theorem any_congr_of_mem {α : Type*} {l l' : List α} (h : ∀ a, a ∈ l ↔ a ∈ l') (p : α → Bool) :
    l.any p = l'.any p := by
  rw [Bool.eq_iff_iff, List.any_eq_true, List.any_eq_true]
  constructor
  · rintro ⟨a, ha, hp⟩
    exact ⟨a, (h a).mp ha, hp⟩
  · rintro ⟨a, ha, hp⟩
    exact ⟨a, (h a).mpr ha, hp⟩

theorem mem_flatMap_congr_of_mem {α β : Type*} {l l' : List α} (h : ∀ a, a ∈ l ↔ a ∈ l')
    (f : α → List β) (b : β) : b ∈ l.flatMap f ↔ b ∈ l'.flatMap f := by
  rw [List.mem_flatMap, List.mem_flatMap]
  constructor
  · rintro ⟨a, ha, hb⟩
    exact ⟨a, (h a).mp ha, hb⟩
  · rintro ⟨a, ha, hb⟩
    exact ⟨a, (h a).mpr ha, hb⟩

theorem SameObservations.resident (h : SameObservations input input') (model : ModelId)
    (version : ModelVersionId) (generation : ModelGeneration) (scope : ScopeId) :
    input.resident model version generation scope =
      input'.resident model version generation scope := by
  unfold ReconciliationInput.resident
  rw [any_congr_of_mem h.residency, any_congr_of_mem h.replicas]

theorem SameObservations.authorityFindings (h : SameObservations input input') :
    s.authorityFindings input = s.authorityFindings input' := by
  unfold EngineState.authorityFindings
  simp only [h.resident]

theorem SameObservations.stageFindings (h : SameObservations input input') :
    s.stageFindings input = s.stageFindings input' := by
  unfold EngineState.stageFindings
  simp only [h.workerLivenessKnown, h.liveWorkers]

theorem SameObservations.retiredFindings (h : SameObservations input input') (found : Finding) :
    found ∈ s.retiredFindings input ↔ found ∈ s.retiredFindings input' := by
  unfold EngineState.retiredFindings
  rw [List.mem_append, List.mem_append, mem_flatMap_congr_of_mem h.residency,
    mem_flatMap_congr_of_mem h.replicas]

theorem SameObservations.replicaFindings (h : SameObservations input input') (found : Finding) :
    found ∈ s.replicaFindings input ↔ found ∈ s.replicaFindings input' :=
  mem_flatMap_congr_of_mem h.replicas _ found

/-- The same observations make the same findings. -/
theorem SameObservations.findings (h : SameObservations input input') (found : Finding) :
    found ∈ s.findings input ↔ found ∈ s.findings input' := by
  simp only [EngineState.findings, List.mem_append]
  rw [h.authorityFindings, h.stageFindings, h.retiredFindings, h.replicaFindings]

/-! ## The sorted findings -/

theorem sorted_insertionSort (findings : List Finding) :
    Sorted Finding.key (findings.insertionSort Finding.le) := by
  have htotal : Std.Total Finding.le := ⟨fun a b => le_total a.key b.key⟩
  have htrans : IsTrans Finding Finding.le := ⟨fun a b c => le_trans (α := _)⟩
  exact List.pairwise_insertionSort Finding.le findings

theorem reconcile_eq_unique (s : EngineState) (input : ReconciliationInput) :
    s.reconcile input = unique Finding.key ((s.findings input).insertionSort Finding.le) := rfl

/-- A reconciliation reports what its passes find. -/
theorem mem_reconcile {found : Finding} :
    found ∈ s.reconcile input ↔ found ∈ s.findings input := by
  rw [reconcile_eq_unique, mem_unique (sorted_insertionSort _) (keyed_of_reasoned
    fun found hfound => findings_reasoned found ((List.mem_insertionSort Finding.le).mp hfound)),
    List.mem_insertionSort]

/-- However the findings are sorted, dropping their repetitions gives the same list. -/
theorem reconcile_eq_of_sorted {arranged : List Finding}
    (hperm : arranged.Perm (s.findings input)) (hsorted : Sorted Finding.key arranged) :
    unique Finding.key arranged = s.reconcile input := by
  refine unique_congr hsorted (sorted_insertionSort _) ?_ ?_
  · exact keyed_of_reasoned fun found hfound =>
      findings_reasoned found (hperm.mem_iff.mp hfound)
  · intro found
    rw [hperm.mem_iff, List.mem_insertionSort]
    rfl

/-- In every state, reachable ones included, a reconciliation gives the same list of findings for
the same observations, whatever their order and repetition and however ties are sorted; the list
increases strictly in the order of the findings, so it is sorted and holds none of them twice. -/
theorem reconcile_deterministic (s : EngineState) (input : ReconciliationInput) :
    (∀ input', SameObservations input input' → s.reconcile input = s.reconcile input') ∧
      (∀ arranged : List Finding, arranged.Perm (s.findings input) →
        Sorted Finding.key arranged → unique Finding.key arranged = s.reconcile input) ∧
      (s.reconcile input).Pairwise (fun a b => a.key < b.key) ∧ (s.reconcile input).Nodup := by
  have hincreases : (s.reconcile input).Pairwise fun a b => a.key < b.key :=
    unique_increases (sorted_insertionSort _)
  refine ⟨fun input' hsame => ?_, fun arranged => reconcile_eq_of_sorted, hincreases, ?_⟩
  · rw [reconcile_eq_unique s input']
    rw [reconcile_eq_unique s input]
    refine unique_congr (sorted_insertionSort _) (sorted_insertionSort _) ?_ fun found => ?_
    · exact keyed_of_reasoned fun found hfound =>
        findings_reasoned found ((List.mem_insertionSort Finding.le).mp hfound)
    · rw [List.mem_insertionSort, List.mem_insertionSort]
      exact hsame.findings found
  · refine hincreases.imp fun hlt heq => ?_
    rw [heq] at hlt
    exact lt_irrefl _ hlt

/-- A replica of the retired version. -/
def staleReplica : ReplicaObservation :=
  { model := ⟨1⟩, version := ⟨1⟩, modelGeneration := ⟨1⟩, scope := ⟨1⟩, resident := true }

theorem reconcile_deterministic_repeated :
    (runOps {} (init {}) retiringOps).reconcile { replicas := [staleReplica, {}] } =
      (runOps {} (init {}) retiringOps).reconcile
        { replicas := [{}, staleReplica, {}, staleReplica] } := by
  refine (reconcile_deterministic _ _).1 _ ⟨fun _ => Iff.rfl, fun observation => ?_,
    fun _ => Iff.rfl, rfl⟩
  simp only [List.mem_cons, List.not_mem_nil, or_false]
  tauto

end LifecycleFabric
