import LifecycleFabric.EvidenceLookup
import LifecycleFabric.Properties.StageEntries

/-!
# Residency before a stage

A stage that requires residency must not be entered on a candidate that is not resident.
The entry of a first stage looks for the evidence in every scope of the stage. The entry
of a later stage does not look, so it obeys the rule only when the evidence happens to be
there.
-/

namespace LifecycleFabric

open EngineState

variable {c : EngineConfig} {s t : EngineState} {plan : RolloutPlan} {rollout : RolloutId}

/-! ## Evidence of residency -/

/-- There is current evidence that a version, at its current generations, is resident in a
scope. -/
def EngineState.ResidentIn (s : EngineState) (record : ModelVersionRecord) (scope : ScopeId) :
    Prop :=
  ∃ evidence : EvidenceRecord,
    s.evidence.resolve { kind := .residencyReady } (versionSubject record scope) {} false 0
        s.policy.base.maxEvidenceAgeTicks = { currentness := .current, record := some evidence } ∧
      evidence.subject = versionSubject record scope ∧ evidence.verdict = .satisfied

/-- Whether residency is required before a stage of a plan, by the stage or by the policy
effective at the root of the plan. -/
def EngineState.requiresResidency (s : EngineState) (plan : RolloutPlan)
    (stage : StageDefinition) : Bool :=
  stage.requireResidencyBeforeEntry ||
    (s.policy.effective s.scopes plan.rootScope).requireResidencyBeforeStageEntry

/-- Where residency is required, the candidate is resident in every scope of a stage. -/
def EngineState.ResidentFor (s : EngineState) (plan : RolloutPlan) (stage : StageDefinition) :
    Prop :=
  s.requiresResidency plan stage = true →
    ∃ record, s.versionOf plan.model plan.candidate = some record ∧
      ∀ scope ∈ plan.stageScopes stage, s.ResidentIn record scope

/-- The check of the begin of a rollout passes exactly when the evidence is there. -/
theorem checkResidency_allowed_iff (s : EngineState) (record : ModelVersionRecord)
    (scope : ScopeId) :
    (s.checkEvidenceList [{ kind := .residencyReady }] (versionSubject record scope)).allowed =
      true ↔ s.ResidentIn record scope := by
  rw [checkEvidenceList_allowed_iff, List.forall_mem_singleton, meets_iff]
  constructor
  · rintro ⟨found, hlookup, hverdict⟩
    have hsubject : found.subject = versionSubject record scope :=
      resolve_exact rfl (congrArg EvidenceLookup.record hlookup)
    exact ⟨found, hlookup, hsubject, hverdict⟩
  · rintro ⟨found, hlookup, _, hverdict⟩
    exact ⟨found, hlookup, hverdict⟩

/-- Nothing blocks the entry of a first stage only where residency is in order. -/
theorem resident_of_not_blocked {record : ModelVersionRecord} {stage : StageDefinition}
    {scopes : List ScopeId} (h : s.entryBlocked record stage true scopes = none) :
    ∀ scope ∈ scopes, s.ResidentIn record scope := by
  induction scopes with
  | nil =>
    intro scope hscope
    cases hscope
  | cons head scopes ih =>
    unfold entryBlocked at h
    dsimp only at h
    split_ifs at h with hevidence hresidency
    simp only [true_and, not_not] at hresidency
    intro scope hscope
    rcases List.mem_cons.mp hscope with rfl | hscope
    · exact (checkResidency_allowed_iff s record scope).mp hresidency
    · exact ih h scope hscope

/-! ## Stage entries -/

/-- Every stage a step enters is one whose residency is in order. -/
def EntersResident (s s' : EngineState) (rollout : RolloutId) : Prop :=
  ∀ plan stage, EntersStage s s' rollout plan stage → s.ResidentFor plan stage

/-- The begin of a rollout enters its first stage only where residency is in order. -/
theorem begin_enters_resident (hs : Coherent s) (request : RolloutProgressRequest) :
    EntersResident s (s.beginRollout request).1 request.rollout := by
  intro plan stage henters hrequired
  obtain ⟨hentry, rfl⟩ := (begin_enters_iff hs).mp henters
  obtain ⟨_, _, record, hrecord, hblocked⟩ := entry_permitted hentry
  unfold EngineState.requiresResidency at hrequired
  rw [hrequired] at hblocked
  exact ⟨record, hrecord, resident_of_not_blocked hblocked⟩

/-- An advance enters only stages whose residency is in order exactly when that is so of the
next stage of a plan it moves on. -/
theorem advance_enters_resident_iff (hs : Coherent s) (hstanding : Standing s)
    (request : RolloutProgressRequest) :
    EntersResident s (s.advanceStage request).1 request.rollout ↔
      ∀ plan, s.commit request = some plan → s.movesOn plan = true →
        s.ResidentFor plan plan.nextStage := by
  constructor
  · intro hresident plan hcommit hmoves
    exact hresident plan plan.nextStage
      ((advance_enters_iff hs hstanding).mpr ⟨hcommit, hmoves, rfl⟩)
  · intro hresident plan stage henters
    obtain ⟨hcommit, hmoves, rfl⟩ := (advance_enters_iff hs hstanding).mp henters
    exact hresident plan hcommit hmoves

/-! ## Runs -/

/-- The stages an operation enters are ones whose residency is in order. -/
def Operation.EntersResident (s : EngineState) : Operation → Prop
  | .beginRollout request =>
    LifecycleFabric.EntersResident s (s.beginRollout request).1 request.rollout
  | .advanceStage request =>
    LifecycleFabric.EntersResident s (s.advanceStage request).1 request.rollout
  | _ => True

/-- An advance that moves a plan on finds the residency of its next stage in order. -/
def Operation.MovesOnResident (s : EngineState) : Operation → Prop
  | .advanceStage request =>
    ∀ plan, s.commit request = some plan → s.movesOn plan = true →
      s.ResidentFor plan plan.nextStage
  | _ => True

theorem step_enters_resident_iff (hs : Coherent s) (hstanding : Standing s) (op : Operation) :
    op.EntersResident s ↔ op.MovesOnResident s := by
  cases op with
  | beginRollout request => exact iff_of_true (begin_enters_resident hs request) trivial
  | advanceStage request => exact advance_enters_resident_iff hs hstanding request
  | _ => exact Iff.rfl

/-- In every run each stage is entered with its residency in order exactly when every
advance that moves a plan on meets the residency of its next stage. -/
theorem stages_entered_resident_iff (c : EngineConfig) (ops : List Operation) :
    Runs.Along (step c) (fun s op => op.EntersResident s) (init c) ops ↔
      Runs.Along (step c) (fun s op => op.MovesOnResident s) (init c) ops :=
  Runs.along_iff (P := fun s => Coherent s ∧ Standing s) (step c)
    (fun _ op hs => ⟨(step_cases hs.1 op).coherent hs.1, (step_cases hs.1 op).standing hs.2⟩)
    (fun _ op hs => step_enters_resident_iff hs.1 hs.2 op) ⟨coherent_init c, standing_init c⟩

/-- A plan whose second stage requires residency is moved on to it, and no evidence of
residency was ever published. -/
def unresidentAdvance : List Operation :=
  [.registerModel [109] [] .synthetic,
    .registerVersion
      { model := ⟨1⟩, label := [49]
        artifact := { setId := ⟨1⟩, generation := ⟨1⟩, digest := [97] } },
    .publishCompatibility ⟨1⟩ { key := [101] } .compatible [] .synthetic,
    .promote { model := ⟨1⟩, candidate := ⟨1⟩, scope := ⟨1⟩, environmentKey := [101] },
    .createRollout
      { model := ⟨1⟩, candidate := ⟨1⟩, rootScope := ⟨1⟩
        cohorts := [{ name := [99], scopes := [⟨1⟩] }, { name := [100], scopes := [⟨1⟩] }]
        stages := [{ name := [115], cohortIndices := [0] },
          { name := [116], cohortIndices := [1], requireResidencyBeforeEntry := true }] },
    .beginRollout { rollout := ⟨1⟩ }]

theorem stages_entered_resident_counterexample :
    ¬∀ (c : EngineConfig) (ops : List Operation),
      Runs.Along (step c) (fun s op => op.EntersResident s) (init c) ops := by
  intro hclaim
  obtain ⟨_, hlast, _⟩ := (Runs.along_append (step {})).mp
    (hclaim {} (unresidentAdvance ++ [.advanceStage { rollout := ⟨1⟩ }]))
  have hs : ReachableState {} (runOps {} (init {}) unresidentAdvance) := ⟨unresidentAdvance, rfl⟩
  have hmoves := (step_enters_resident_iff hs.coherent hs.standing _).mp hlast
  have hmissing : ((runOps {} (init {}) unresidentAdvance).commit { rollout := ⟨1⟩ }).any
      (fun plan => (runOps {} (init {}) unresidentAdvance).movesOn plan &&
        (runOps {} (init {}) unresidentAdvance).requiresResidency plan plan.nextStage &&
        ((runOps {} (init {}) unresidentAdvance).versionOf plan.model plan.candidate).all
          fun record => (plan.stageScopes plan.nextStage).any fun scope =>
            !((runOps {} (init {}) unresidentAdvance).checkEvidenceList
              [{ kind := .residencyReady }] (versionSubject record scope)).allowed) = true := by
    decide +kernel
  obtain ⟨plan, hplan, hfound⟩ := (Option.any_eq_true _ _).mp hmissing
  simp only [Bool.and_eq_true, Option.all_eq_true, List.any_eq_true, Bool.not_eq_true'] at hfound
  obtain ⟨⟨hmovesOn, hrequired⟩, hblocked⟩ := hfound
  obtain ⟨record, hrecord, hresident⟩ := hmoves plan hplan hmovesOn hrequired
  obtain ⟨scope, hscope, hunchecked⟩ := hblocked record hrecord
  rw [(checkResidency_allowed_iff _ record scope).mpr (hresident scope hscope)] at hunchecked
  cases hunchecked

end LifecycleFabric
