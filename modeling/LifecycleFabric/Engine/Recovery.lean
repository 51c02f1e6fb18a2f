import LifecycleFabric.Engine.Aside

/-!
# What a recovery accepts

A durable state is recovered exactly when it is sound: its header is newer than the
engine, its sections stay within their bounds, and every record refers to what is there.
-/

namespace LifecycleFabric

open EngineState Validation

/-! ## Soundness of one record -/

/-- A binding that recovery accepts. -/
structure DurableState.BindingSound (d : DurableState) (binding : AuthorityBinding) : Prop where
  version : ∃ record, d.versions.get? (versionKey binding.model binding.version) = some record ∧
    record.retired = false ∧ binding.modelGeneration ≤ record.generation
  scope : binding.scope.raw.toNat ≤ d.scopes.length ∧ d.scopes ≠ []
  rollout : binding.rollout.valid = true → ∃ plan, d.rollouts.get? binding.rollout.raw = some plan ∧
    plan.generation = binding.rolloutGeneration
  sequence : binding.grantedSequence.valid = true

/-- A plan that recovery accepts. -/
structure DurableState.PlanSound (d : DurableState) (key : UInt64) (plan : RolloutPlan) :
    Prop where
  key : plan.id.raw = key
  candidate : ∃ record, d.versions.get? (versionKey plan.model plan.candidate) = some record
  stages : plan.stages ≠ []
  index : plan.live = true → plan.currentStageIndex < plan.stages.length

/-- A version that recovery accepts. -/
structure DurableState.VersionSound (d : DurableState) (key : VersionKey)
    (record : ModelVersionRecord) : Prop where
  key : key = versionKey record.model record.version
  model : d.models.contains record.model.raw = true
  generation : record.generation.valid = true
  lifecycleGeneration : record.lifecycleGeneration.valid = true

namespace DurableState

variable {c : EngineConfig} {d : DurableState}

theorem checkBinding_ok {binding : AuthorityBinding} :
    d.checkBinding binding = .ok () ↔ d.BindingSound binding := by
  unfold checkBinding checkBindingRollout
  simp only [bind_ok, ensure_ok, need_ok]
  constructor
  · rintro ⟨record, hrecord, _, hretired, _, hgeneration, _, hscope, hrest⟩
    refine ⟨⟨record, hrecord, by simpa using hretired, hgeneration⟩,
      ⟨hscope.2, by simpa using hscope.1⟩, ?_, ?_⟩
    · intro hvalid
      simp only [hvalid, if_true, bind_ok, ensure_ok, need_ok] at hrest
      obtain ⟨_, ⟨plan, hplan, hgeneration⟩, _⟩ := hrest
      exact ⟨plan, hplan, hgeneration⟩
    · split_ifs at hrest
      · simp only [bind_ok, ensure_ok, need_ok] at hrest
        obtain ⟨_, _, hsequence⟩ := hrest
        exact hsequence
      · simpa [bind_ok] using hrest
  · rintro ⟨⟨record, hrecord, hretired, hgeneration⟩, hscope, hrollout, hsequence⟩
    refine ⟨record, hrecord, (), by simpa using hretired, (), hgeneration, (),
      ⟨by simpa using hscope.2, hscope.1⟩, ?_⟩
    split_ifs with hvalid
    · obtain ⟨plan, hplan, hsame⟩ := hrollout hvalid
      simp only [bind_ok, ensure_ok, need_ok]
      exact ⟨(), ⟨plan, hplan, hsame⟩, hsequence⟩
    · simpa [bind_ok] using hsequence

theorem checkPlan_ok {key : UInt64} {plan : RolloutPlan} :
    d.checkPlan key plan = .ok () ↔ d.PlanSound key plan := by
  unfold checkPlan
  simp only [bind_ok, ensure_ok, exists_const, OrdMap.contains_iff]
  constructor
  · rintro ⟨hkey, hcandidate, hstages, hindex⟩
    exact ⟨hkey.symm, hcandidate, by simpa using hstages, hindex⟩
  · rintro ⟨hkey, hcandidate, hstages, hindex⟩
    exact ⟨hkey.symm, hcandidate, by simpa using hstages, hindex⟩

theorem checkVersion_ok {key : VersionKey} {record : ModelVersionRecord} :
    d.checkVersion key record = .ok () ↔ d.VersionSound key record := by
  unfold checkVersion
  simp only [bind_ok, ensure_ok, exists_const]
  constructor
  · rintro ⟨hkey, hmodel, _, hgenerations⟩
    exact ⟨hkey, hmodel, hgenerations.1, hgenerations.2⟩
  · rintro ⟨hkey, hmodel, hgeneration, hlifecycle⟩
    refine ⟨hkey, hmodel, ?_, hgeneration, hlifecycle⟩
    cases record.state <;> decide

/-! ## Soundness of a whole state -/

/-- A durable state that an engine recovers, and what it is rebuilt into. -/
structure Sound (c : EngineConfig) (s : EngineState) (d : DurableState)
    (newEpoch : CoordinatorEpoch) (recovered : Recovered) : Prop where
  format : d.formatVersion = stateFormatVersion
  epochValid : newEpoch.valid = true
  epoch : d.epoch < newEpoch
  forward : ¬(d.sequence ≤ s.sequence ∧ s.sequence.valid = true ∧ ¬s.models.entries.isEmpty = true)
  scopes : ({ maxScopes := c.bounds.maxScopes } : ScopeRegistry).restore d.scopes d.rootScope =
    (recovered.scopes, true)
  modelCount : d.models.size ≤ c.bounds.maxModels
  modelNames : restoreModelNames d.models.entries OrdMap.empty = .ok recovered.modelNames
  versionCount : ∀ model ∈ d.models.keys, d.versionsUnder model ≤ c.bounds.maxVersionsPerModel
  versionLabels :
    d.restoreVersionLabels d.versions.entries OrdMap.empty = .ok recovered.versionLabels
  compatibility : s.compatibility.restore d.compatibility = some recovered.compatibility
  facts : ∀ fact ∈ d.compatibility.values,
    d.versions.contains (versionKey fact.model fact.version) = true
  compatibilityAllocator : latest (d.compatibility.values.map fun fact => fact.generation.raw) <
    d.nextCompatibilityGeneration
  authority : s.authority.restore d.authority = some recovered.authority
  bindings : ∀ binding ∈ d.authority.values.flatten, d.BindingSound binding
  evidence : s.evidence.restore d.evidence 0 = some recovered.evidence
  evidenceKinds : ∀ record ∈ d.evidence, record.kind.isDurable = true
  plans : ∀ e ∈ d.rollouts.entries, d.PlanSound e.1 e.2
  planCount : d.rollouts.size ≤ c.bounds.maxRollouts
  planAllocator : latest (d.rollouts.values.map fun plan => plan.generation.raw) <
    d.nextRolloutId
  policy : PolicySet.restore d.policyOverrides d.basePolicy = some recovered.policy
  overrides : ∀ key ∈ d.policyOverrides.keys, key ≠ 0 ∧ key.toNat ≤ d.scopes.length
  leases : ∀ e ∈ d.workerLeases.entries, e.1 = e.2.id.raw
  leaseCount : d.workerLeases.size ≤ c.bounds.maxWorkers
  attempts : ∀ e ∈ d.unsettledAttempts.entries, e.1 = e.2.id.raw
  attemptCount : d.unsettledAttempts.size ≤ c.bounds.maxAttempts

/-- A recovery succeeds exactly when the durable state is sound. -/
theorem validate_ok {s : EngineState} {newEpoch : CoordinatorEpoch} {recovered : Recovered} :
    d.validate c s newEpoch = .ok recovered ↔ Sound c s d newEpoch recovered := by
  unfold validate checkHeader checkFact checkEvidenceRecord checkOverride
  simp only [bind_ok, ensure_ok, need_ok, each_ok, exists_const, checkBinding_ok, checkPlan_ok,
    pure_ok, List.all_eq_true, decide_eq_true_eq]
  constructor
  · rintro ⟨⟨hformat, hvalid, hepoch, hforward⟩, hscopes, hmodelCount, names, hnames,
      hversionCount, labels, hlabels, compatibility, hcompatibility, hfacts, hcompatAllocator,
      authority, hauthority, hbindings, evidence, hevidence, hkinds, hplans, hplanCount,
      hplanAllocator, policy, hpolicy, hoverrides, hleases, hleaseCount, hattempts,
      hattemptCount, rfl⟩
    exact ⟨hformat, hvalid, hepoch, hforward, Prod.ext rfl hscopes, hmodelCount, hnames, hversionCount,
      hlabels, hcompatibility, hfacts, hcompatAllocator, hauthority, hbindings, hevidence,
      hkinds, hplans, hplanCount, hplanAllocator, hpolicy, hoverrides, hleases, hleaseCount,
      hattempts, hattemptCount⟩
  · intro h
    rw [h.scopes]
    exact ⟨⟨h.format, h.epochValid, h.epoch, h.forward⟩, rfl,
      h.modelCount, recovered.modelNames, h.modelNames, h.versionCount, recovered.versionLabels,
      h.versionLabels, recovered.compatibility, h.compatibility, h.facts,
      h.compatibilityAllocator, recovered.authority, h.authority, h.bindings,
      recovered.evidence, h.evidence, h.evidenceKinds, h.plans, h.planCount, h.planAllocator,
      recovered.policy, h.policy, h.overrides, h.leases, h.leaseCount, h.attempts,
      h.attemptCount, rfl⟩

/-! ## Refusals -/

/-- A decision that refuses. -/
def Refuses (d : Decision) : Prop := d.allowed = false

theorem restoreModelNames_refuses (entries : List (UInt64 × ModelRecord))
    (names : OrdMap Text ModelId) : Fails Refuses (restoreModelNames entries names) := by
  induction entries generalizing names with
  | nil => exact fails_ok names
  | cons e entries ih =>
    exact fails_bind (fails_ensure rfl) fun _ => fails_bind (fails_ensure rfl) fun _ => ih _

theorem checkVersion_refuses (d : DurableState) (key : VersionKey)
    (record : ModelVersionRecord) : Fails Refuses (d.checkVersion key record) :=
  fails_bind (fails_ensure rfl) fun _ => fails_bind (fails_ensure rfl) fun _ =>
    fails_bind (fails_ensure rfl) fun _ => fails_ensure rfl

theorem restoreVersionLabels_refuses (d : DurableState)
    (entries : List (VersionKey × ModelVersionRecord))
    (labels : OrdMap (UInt64 ×ₗ Text) ModelVersionId) :
    Fails Refuses (d.restoreVersionLabels entries labels) := by
  induction entries generalizing labels with
  | nil => exact fails_ok labels
  | cons e entries ih =>
    exact fails_bind (checkVersion_refuses d e.1 e.2) fun _ =>
      fails_bind (fails_ensure rfl) fun _ => ih _

theorem checkFact_refuses (d : DurableState) (fact : CompatibilityFact) :
    Fails Refuses (d.checkFact fact) := fails_ensure rfl

theorem checkEvidenceRecord_refuses (record : EvidenceRecord) :
    Fails Refuses (checkEvidenceRecord record) := fails_ensure rfl

theorem checkOverride_refuses (d : DurableState) (key : UInt64) :
    Fails Refuses (d.checkOverride key) := fails_ensure rfl

theorem checkBinding_refuses (d : DurableState) (binding : AuthorityBinding) :
    Fails Refuses (d.checkBinding binding) := by
  refine fails_bind (fails_need rfl) fun _ => fails_bind (fails_ensure rfl) fun _ =>
    fails_bind (fails_ensure rfl) fun _ => fails_bind (fails_ensure rfl) fun _ => ?_
  split
  · exact fails_bind (fails_bind (fails_need rfl) fun _ => fails_ensure rfl) fun _ =>
      fails_ensure rfl
  · exact fails_ensure rfl

theorem checkPlan_refuses (d : DurableState) (key : UInt64) (plan : RolloutPlan) :
    Fails Refuses (d.checkPlan key plan) :=
  fails_bind (fails_ensure rfl) fun _ => fails_bind (fails_ensure rfl) fun _ =>
    fails_bind (fails_ensure rfl) fun _ => fails_ensure rfl

theorem validate_refuses (c : EngineConfig) (s : EngineState) (d : DurableState)
    (newEpoch : CoordinatorEpoch) : Fails Refuses (d.validate c s newEpoch) := by
  unfold validate
  refine fails_bind (fails_bind (fails_ensure rfl) fun _ => fails_bind (fails_ensure rfl) fun _ =>
    fails_bind (fails_ensure rfl) fun _ => fails_ensure rfl) fun _ => ?_
  refine fails_bind (fails_ensure rfl) fun _ => fails_bind (fails_ensure rfl) fun _ => ?_
  refine fails_bind (restoreModelNames_refuses _ _) fun _ => fails_bind (fails_ensure rfl)
    fun _ => ?_
  refine fails_bind (restoreVersionLabels_refuses d _ _) fun _ => ?_
  refine fails_bind (fails_need rfl) fun _ => fails_bind (fails_each (checkFact_refuses d) _)
    fun _ => fails_bind (fails_ensure rfl) fun _ => ?_
  refine fails_bind (fails_need rfl) fun _ => fails_bind (fails_each (checkBinding_refuses d) _)
    fun _ => ?_
  refine fails_bind (fails_need rfl) fun _ => fails_bind (fails_each checkEvidenceRecord_refuses _)
    fun _ => ?_
  refine fails_bind
    (fails_each (fun (e : UInt64 × RolloutPlan) => checkPlan_refuses d e.1 e.2) _) fun _ =>
    fails_bind (fails_ensure rfl) fun _ => fails_bind (fails_ensure rfl) fun _ => ?_
  refine fails_bind (fails_need rfl) fun _ => fails_bind (fails_each (checkOverride_refuses d) _)
    fun _ => ?_
  refine fails_bind (fails_each_ensure ?_ _) fun _ => fails_bind (fails_ensure rfl) fun _ =>
    fails_bind (fails_each_ensure ?_ _) fun _ => fails_bind (fails_ensure rfl) fun _ =>
      fails_ok _
  · rfl
  · rfl

end DurableState

/-- An import is refused and changes nothing, or applies a sound state. -/
theorem importDurableState_cases (c : EngineConfig) (s : EngineState) (d : DurableState)
    (newEpoch : CoordinatorEpoch) :
    ((s.importDurableState c d newEpoch).1 = s ∧
        (s.importDurableState c d newEpoch).2.allowed = false) ∨
      ∃ recovered, d.Sound c s newEpoch recovered ∧
        s.importDurableState c d newEpoch =
          (s.applyDurableState d newEpoch recovered, .accepted) := by
  unfold importDurableState
  cases hvalidate : d.validate c s newEpoch with
  | error refusal => exact Or.inl ⟨rfl, d.validate_refuses c s newEpoch refusal hvalidate⟩
  | ok recovered => exact Or.inr ⟨recovered, DurableState.validate_ok.mp hvalidate, rfl⟩

end LifecycleFabric
