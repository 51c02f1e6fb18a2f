import LifecycleFabric.Properties.CurrentSteps

/-!
# What an accepted revision stores

An accepted revision should leave the requested content in the version, at a new
generation exactly when the content changed. The comparison that recognises
unchanged content leaves the minimum runtime version out, so a revision of that
field alone is accepted and forgotten.
-/

namespace LifecycleFabric

open EngineState

variable {c : EngineConfig} {s t : EngineState}

/-- The model generation moved on, and nothing of the old one counts any more. -/
structure GenerationLeft (version : ModelVersionId) (record record' : ModelVersionRecord)
    (s s' : EngineState) : Prop where
  advanced : record.generation < record'.generation
  unbound : record'.compatibilityGeneration = {}
  compatibility : ∀ environment, s'.compatibility.lookup version environment = none
  evidence : ∀ key, ∀ entry ∈ s'.evidence.bucket key, entry.subject.version = version →
    ¬ entry.subject.modelGeneration ≤ record.generation
  plans : ∀ key plan, s.rollouts.get? key = some plan → plan.candidate = version →
    plan.live = true → ∃ after, s'.rollouts.get? key = some after ∧ after.superseded = true

/-- The version holds the requested content, at a new generation exactly when the content
changed. -/
structure RevisionStored (request : ReviseVersionRequest) (record record' : ModelVersionRecord)
    (s s' : EngineState) : Prop where
  artifact : record'.artifact = request.artifact
  requirements : record'.requirements = request.requirements
  generation : GenerationLeft request.version record record' s s' ↔
    request.artifact ≠ record.artifact ∨ request.requirements ≠ record.requirements

/-! ## Unchanged content -/

/-- What the comparison of contents leaves out. -/
theorem sameContent_iff (record : ModelVersionRecord) (request : ReviseVersionRequest) :
    sameContent record request = true ↔ request.artifact = record.artifact ∧
      { request.requirements with
        runtimeMinVersion := record.requirements.runtimeMinVersion } = record.requirements := by
  obtain ⟨requirements, hrequirements⟩ : ∃ r, r = record.requirements := ⟨_, rfl⟩
  obtain ⟨requested, hrequested⟩ : ∃ r, r = request.requirements := ⟨_, rfl⟩
  rw [sameContent, ← hrequirements, ← hrequested]
  cases requirements
  cases requested
  simp only [Bool.and_eq_true, decide_eq_true_eq, ModelRequirements.mk.injEq, true_and, and_assoc]

/-- Contents that compare equal are equal when the minimum runtime version is kept too. -/
theorem sameContent_kept {record : ModelVersionRecord} {request : ReviseVersionRequest}
    (hsame : sameContent record request = true) :
    request.requirements = record.requirements ↔
      request.requirements.runtimeMinVersion = record.requirements.runtimeMinVersion := by
  have hrest := ((sameContent_iff record request).mp hsame).2
  constructor
  · intro heq
    rw [heq]
  · intro hminimum
    rw [← hminimum] at hrest
    exact hrest

/-! ## What a revision writes -/

theorem transition_content (record : ModelVersionRecord) (target : LifecycleState) :
    (record.transition target).1.artifact = record.artifact ∧
      (record.transition target).1.requirements = record.requirements ∧
      (record.transition target).1.generation = record.generation ∧
      (record.transition target).1.compatibilityGeneration = record.compatibilityGeneration := by
  unfold ModelVersionRecord.transition
  split_ifs <;> exact ⟨rfl, rfl, rfl, rfl⟩

theorem stores_supersedeRevisedPlans (candidate : ModelVersionId) (keys : List UInt64)
    (s : EngineState) :
    (supersedeRevisedPlans candidate keys s).compatibility = s.compatibility ∧
      (supersedeRevisedPlans candidate keys s).evidence = s.evidence := by
  induction keys generalizing s with
  | nil => exact ⟨rfl, rfl⟩
  | cons key keys ih =>
    unfold supersedeRevisedPlans
    split
    · exact ih s
    · dsimp only
      split_ifs
      · exact ih s
      · exact ih _

theorem lookup_invalidateVersion (r : CompatibilityRegistry) (version : ModelVersionId)
    (environment : Text) : (r.invalidateVersion version).lookup version environment = none := by
  rw [CompatibilityRegistry.lookup, CompatibilityRegistry.invalidateVersion, OrdMap.get?_filter]
  cases r.facts.get? (CompatibilityRegistry.keyOf version environment) with
  | none => rfl
  | some fact => simp [CompatibilityRegistry.keyOf]

/-- No withdrawn record stays in a bucket. -/
theorem not_dropped_of_mem {drop : EvidenceRecord → Bool}
    {records : OrdMap EvidenceKey (List EvidenceRecord)} {key : EvidenceKey}
    {entry : EvidenceRecord}
    (hentry : entry ∈ ((EvidenceStore.dropWhere drop records).get? key).getD []) :
    drop entry = false := by
  rw [EvidenceStore.dropWhere, OrdMap.get?_filterMap] at hentry
  cases hbucket : records.get? key with
  | none =>
    rw [hbucket] at hentry
    exact absurd hentry List.not_mem_nil
  | some bucket =>
    rw [hbucket] at hentry
    dsimp only [Option.bind_some] at hentry
    split_ifs at hentry
    · exact absurd hentry List.not_mem_nil
    · simpa using (List.mem_filter.mp hentry).2

/-- An accepted revision of unchanged content changes nothing; one of changed content writes it
at the next generation, withdraws the facts and the evidence below it, and supersedes the plans
of the version. -/
theorem revise_accepted (hs : Coherent s) {request : ReviseVersionRequest}
    {record : ModelVersionRecord} (hrecord : s.versionOf request.model request.version = some record)
    (haccepted : (s.reviseVersion c request).2.outcome = .accepted) :
    (sameContent record request = true ∧ (s.reviseVersion c request).1 = s) ∨
      ∃ record' t, sameContent record request = false ∧ t.rollouts = s.rollouts ∧
        (s.reviseVersion c request).1.versionOf request.model request.version = some record' ∧
        record'.artifact = request.artifact ∧ record'.requirements = request.requirements ∧
        record'.generation = record.generation.nextGeneration ∧
        record'.compatibilityGeneration = {} ∧
        (s.reviseVersion c request).1.compatibility =
          s.compatibility.invalidateVersion request.version ∧
        (s.reviseVersion c request).1.evidence =
          s.evidence.invalidateModelGeneration request.version record.generation.nextGeneration ∧
        (s.reviseVersion c request).1.rollouts =
          (supersedeRevisedPlans request.version s.rollouts.keys t).rollouts := by
  obtain ⟨_, hversion⟩ := versionKey_inj.mp (hs.versions _ record hrecord)
  have hstored (keys : List UInt64) (t : EngineState) (hversions : t.versions =
      (s.bumpSequence.modifyVersion request.model request.version fun _ =>
        revisedRecord record request s.bumpSequence.sequence).versions) :
      (supersedeRevisedPlans request.version keys t).versionOf request.model request.version =
        some (revisedRecord record request s.bumpSequence.sequence) := by
    rw [versionOf, versions_supersedeRevisedPlans, hversions, ← versionOf, versionOf_modifyVersion,
      versionOf_bumpSequence, hrecord, Option.map_some, if_pos ⟨rfl, rfl⟩]
  revert haccepted
  unfold reviseVersion
  rw [hrecord]
  dsimp only
  rw [← hversion]
  split_ifs with hretired hgeneration hartifact hdigest hsame hterminal hkeeps
  · intro haccepted
    cases haccepted
  · intro haccepted
    cases haccepted
  · intro haccepted
    cases haccepted
  · intro haccepted
    cases haccepted
  · exact fun _ => Or.inl ⟨hsame, rfl⟩
  · intro haccepted
    cases haccepted
  · intro _
    refine Or.inr ⟨revisedRecord record request s.bumpSequence.sequence, _, by simpa using hsame,
      ?_, ?_, rfl, rfl, rfl, rfl, ?_, ?_, rfl⟩
    · rfl
    · exact hstored _ _ rfl
    · exact (stores_supersedeRevisedPlans _ _ _).1
    · exact (stores_supersedeRevisedPlans _ _ _).2
  · intro _
    obtain ⟨hartifact', hrequirements', hgeneration', hunbound'⟩ := transition_content
      (revisedRecord record request s.bumpSequence.sequence) .revalidationRequired
    refine Or.inr ⟨_, _, by simpa using hsame, ?_, ?_, hartifact', hrequirements', hgeneration',
      hunbound', ?_, ?_, rfl⟩
    · rfl
    · refine (versionOf_modifyVersion _ _ _ _ _ _).trans ?_
      refine Eq.trans (congrArg (Option.map _) (hstored _ _ ?_)) ?_
      · rfl
      rw [Option.map_some, if_pos ⟨rfl, rfl⟩]
    · exact (stores_supersedeRevisedPlans _ _ _).1
    · exact (stores_supersedeRevisedPlans _ _ _).2

/-! ## Accepted revisions -/

/-- In every reachable state, an accepted revision leaves the requested content in the version,
at a new generation exactly when the content changed, if and only if what the comparison takes
for unchanged keeps the minimum runtime version too, and a changed content meets a generation
that can still advance. -/
theorem revision_stored_iff (hs : ReachableState c s) {request : ReviseVersionRequest}
    {record : ModelVersionRecord} (hrecord : s.versionOf request.model request.version = some record)
    (haccepted : (s.reviseVersion c request).2.outcome = .accepted) :
    (∃ record', (s.reviseVersion c request).1.versionOf request.model request.version =
        some record' ∧ RevisionStored request record record' s (s.reviseVersion c request).1) ↔
      (sameContent record request = true →
        request.requirements.runtimeMinVersion = record.requirements.runtimeMinVersion) ∧
      (sameContent record request = false → ¬ record.generation.Saturated) := by
  rcases revise_accepted hs.coherent hrecord haccepted with ⟨hsame, hstate⟩ |
    ⟨after, t, hchanged, hrollouts, hafter, hartifact, hrequirements, hgeneration, hunbound,
      hcompatibility, hevidence, hplans⟩
  · -- Nothing was written, so the old content must be the requested one.
    rw [hstate, hrecord]
    have hkept := sameContent_kept hsame
    have hartifact := ((sameContent_iff record request).mp hsame).1
    constructor
    · rintro ⟨record', hsome, hstored⟩
      obtain rfl := Option.some.inj hsome
      refine ⟨fun _ => hkept.mp hstored.requirements.symm, fun hchanged => ?_⟩
      rw [hsame] at hchanged
      cases hchanged
    · rintro ⟨hminimum, _⟩
      have hrequirements := hkept.mpr (hminimum hsame)
      refine ⟨record, rfl, hartifact.symm, hrequirements.symm, ?_⟩
      constructor
      · exact fun hleft => absurd hleft.advanced (lt_irrefl _)
      · rintro (hne | hne)
        · exact absurd hartifact hne
        · exact absurd hrequirements hne
  · have hdiffers : request.artifact ≠ record.artifact ∨
        request.requirements ≠ record.requirements := by
      by_contra hnone
      simp only [not_or, not_not] at hnone
      have hsame : sameContent record request = true := by
        rw [sameContent_iff, hnone.2]
        exact ⟨hnone.1, rfl⟩
      rw [hsame] at hchanged
      cases hchanged
    constructor
    · rintro ⟨record', hsome, hstored⟩
      obtain rfl := Option.some.inj (hafter.symm.trans hsome)
      refine ⟨fun hsame => absurd (hsame.symm.trans hchanged) (by decide), fun _ hsaturated => ?_⟩
      have hadvanced := (hstored.generation.mpr hdiffers).advanced
      rw [hgeneration, Ident.nextGeneration_of_saturated hsaturated] at hadvanced
      exact lt_irrefl _ hadvanced
    · rintro ⟨_, hroom⟩
      have hadvanced := Ident.lt_nextGeneration (hroom hchanged)
      refine ⟨after, hafter, hartifact, hrequirements, ⟨fun _ => hdiffers, fun _ => ?_⟩⟩
      refine ⟨hgeneration ▸ hadvanced, hunbound, ?_, ?_, ?_⟩
      · intro environment
        rw [hcompatibility]
        exact lookup_invalidateVersion _ _ _
      · intro key entry hentry hversion hold
        rw [hevidence] at hentry
        have hkept := not_dropped_of_mem hentry
        exact of_decide_eq_false hkept ⟨hversion, lt_of_le_of_lt hold hadvanced⟩
      · intro key plan hplan hcandidate hlive
        have hmem : key ∈ s.rollouts.keys := OrdMap.mem_keys_iff.mpr ⟨plan, hplan⟩
        rw [← hrollouts] at hplan
        obtain ⟨updated, hmarked⟩ := (planLoop_supersedeRevisedPlans request.version).plan
          s.rollouts.nodup_keys hmem hplan
        rw [hplans, hmarked, if_pos (by simp [RolloutPlan.liveFor, hcandidate, hlive])]
        exact ⟨_, rfl, rfl⟩

/-- A version is registered with a minimum runtime version. -/
def minimumRegistered : List Operation :=
  [.registerModel [109] [] .synthetic,
    .registerVersion
      { model := ⟨1⟩, label := [49]
        artifact := { setId := ⟨1⟩, generation := ⟨1⟩, digest := [97] }
        requirements := { runtime := text "vllm", runtimeMinVersion := text "1.0" } }]

/-- The state it is registered in. -/
def minimumState : EngineState := runOps {} (init {}) minimumRegistered

/-- A revision of the version with the given requirements and the artifact it has. -/
def reviseRequirements (requirements : ModelRequirements) : ReviseVersionRequest :=
  { model := ⟨1⟩, version := ⟨1⟩
    artifact := { setId := ⟨1⟩, generation := ⟨1⟩, digest := [97] }
    requirements }

/-- A revision of the runtime is stored. -/
theorem revision_stored_runtime : ∃ record record',
    (minimumState.reviseVersion {} (reviseRequirements { runtime := text "trt" })).1.versionOf
      ⟨1⟩ ⟨1⟩ = some record' ∧
    RevisionStored (reviseRequirements { runtime := text "trt" }) record record' minimumState
      (minimumState.reviseVersion {} (reviseRequirements { runtime := text "trt" })).1 := by
  have hstored : (minimumState.versionOf ⟨1⟩ ⟨1⟩).any (fun record =>
      !sameContent record (reviseRequirements { runtime := text "trt" }) &&
        !decide record.generation.Saturated) = true := by
    decide +kernel
  obtain ⟨record, hrecord, hchecks⟩ := (Option.any_eq_true _ _).mp hstored
  simp only [Bool.and_eq_true, Bool.not_eq_true', decide_eq_false_iff_not] at hchecks
  have haccepted : (minimumState.reviseVersion {}
      (reviseRequirements { runtime := text "trt" })).2.outcome = .accepted := by
    decide +kernel
  have hreachable : ReachableState {} minimumState := ⟨minimumRegistered, rfl⟩
  obtain ⟨record', hrecord', hrevised⟩ := (revision_stored_iff hreachable (by exact hrecord)
    haccepted).mpr ⟨fun hsame => absurd (hsame.symm.trans hchecks.1) (by decide),
      fun _ => hchecks.2⟩
  exact ⟨record, record', hrecord', hrevised⟩

/-- A revision of the minimum runtime version alone is accepted, and the old one stays. -/
theorem revision_forgets_minimum :
    ¬ ∀ (c : EngineConfig) (s : EngineState), ReachableState c s →
      ∀ (request : ReviseVersionRequest) (record : ModelVersionRecord),
        s.versionOf request.model request.version = some record →
        (s.reviseVersion c request).2.outcome = .accepted →
        ∃ record', (s.reviseVersion c request).1.versionOf request.model request.version =
          some record' ∧ RevisionStored request record record' s (s.reviseVersion c request).1 := by
  intro hclaim
  have hstored : (minimumState.versionOf ⟨1⟩ ⟨1⟩).isSome = true := by decide +kernel
  obtain ⟨record, hrecord⟩ := Option.isSome_iff_exists.mp hstored
  obtain ⟨record', hrecord', hrevised⟩ := hclaim {} minimumState ⟨minimumRegistered, rfl⟩
    (reviseRequirements { runtime := text "vllm", runtimeMinVersion := text "2.0" }) record hrecord
    (by decide +kernel)
  have hforgotten : ∀ after ∈ (minimumState.reviseVersion {} (reviseRequirements
      { runtime := text "vllm", runtimeMinVersion := text "2.0" })).1.versionOf ⟨1⟩ ⟨1⟩,
      after.requirements.runtimeMinVersion ≠ text "2.0" := by
    decide +kernel
  exact hforgotten record' hrecord' (by rw [hrevised.requirements]; rfl)

end LifecycleFabric
