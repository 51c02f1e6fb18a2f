import LifecycleFabric.VersionOrder

/-!
# Version order and requirement evaluation

Version comparison is a total preorder on all byte strings, so a newer version
keeps every minimum an older one met. An evaluation finds an environment
compatible when every declared requirement is established, except that a minimum
runtime version is read only below a named runtime.
-/

namespace LifecycleFabric

open ThreeWay

/-! ## What one evaluation establishes -/

/-- Every declared requirement is established by the environment. -/
structure Establishes (e : EnvironmentProfile) (r : ModelRequirements) : Prop where
  runtime : r.runtime ≠ [] → e.runtime = r.runtime
  runtimeMinVersion : r.runtimeMinVersion ≠ [] →
    e.runtimeVersion ≠ [] ∧ 0 ≤ compareVersions e.runtimeVersion r.runtimeMinVersion
  backend : r.backend ≠ [] → e.backend = r.backend
  architecture : r.architecture ≠ [] → r.architecture ∈ acceptableArchitectures e
  precision : r.precision ≠ [] → r.precision ∈ e.precisions
  tokenizerGeneration : r.tokenizerGeneration ≠ [] →
    e.tokenizerGeneration = r.tokenizerGeneration
  adapterSet : r.adapterSet ≠ [] → e.adapterSet = r.adapterSet

namespace RequirementFindings

/-- Nothing was found against the environment. -/
def Clear (f : RequirementFindings) : Prop := f.incompatibilities = [] ∧ f.unknowns = []

/-- Every violation found is reported under an outcome of its own. -/
def Named (f : RequirementFindings) : Prop :=
  ∀ entry ∈ f.incompatibilities, entry.1 ≠ .compatible

/-- What one check makes of the findings: nothing if its requirement is met, one more entry
if not. -/
inductive Judged (f : RequirementFindings) (met : Prop) : RequirementFindings → Prop
  | clear (hmet : met) : Judged f met f
  | unknown (hunmet : ¬ met) (detail : Text) : Judged f met (f.unknown detail)
  | fail (hunmet : ¬ met) (outcome : CompatibilityOutcome) (code : ReasonCode) (detail : Text)
      (houtcome : outcome ≠ .compatible) : Judged f met (f.fail outcome code detail)

theorem Judged.clear_iff {f g : RequirementFindings} {met : Prop} (hjudged : Judged f met g) :
    g.Clear ↔ f.Clear ∧ met := by
  cases hjudged with
  | clear hmet => exact ⟨fun h => ⟨h, hmet⟩, fun h => h.1⟩
  | unknown hunmet detail =>
    constructor
    · intro hclear
      have hunknowns : f.unknowns ++ [_] = [] := hclear.2
      simp at hunknowns
    · exact fun h => absurd h.2 hunmet
  | fail hunmet outcome code detail _ =>
    constructor
    · intro hclear
      have hincompatible : f.incompatibilities ++ [_] = [] := hclear.1
      simp at hincompatible
    · exact fun h => absurd h.2 hunmet

theorem Judged.named {f g : RequirementFindings} {met : Prop} (hjudged : Judged f met g)
    (hnamed : f.Named) : g.Named := by
  cases hjudged with
  | clear _ => exact hnamed
  | unknown _ detail => exact hnamed
  | fail _ outcome code detail houtcome =>
    intro entry hentry
    rcases List.mem_append.mp hentry with hold | hnew
    · exact hnamed entry hold
    · rw [List.mem_singleton.mp hnew]
      exact houtcome

/-- A declared text that the environment must report unchanged. -/
theorem judged_same (f : RequirementFindings) (declared reported : Text) (absent : Text)
    {outcome : CompatibilityOutcome} (houtcome : outcome ≠ .compatible) (code : ReasonCode)
    (differs : Text) :
    Judged f (declared ≠ [] → reported = declared)
      (if declared.isEmpty then f
      else if reported.isEmpty then f.unknown absent
      else if reported ≠ declared then f.fail outcome code differs
      else f) := by
  by_cases hdeclared : declared = []
  · rw [if_pos (List.isEmpty_iff.mpr hdeclared)]
    exact .clear fun h => absurd hdeclared h
  · rw [if_neg (mt List.isEmpty_iff.mp hdeclared)]
    by_cases hreported : reported = []
    · rw [if_pos (List.isEmpty_iff.mpr hreported)]
      exact .unknown (fun h => hdeclared ((h hdeclared).symm.trans hreported)) absent
    · rw [if_neg (mt List.isEmpty_iff.mp hreported)]
      by_cases hsame : reported = declared
      · rw [if_neg (not_not_intro hsame)]
        exact .clear fun _ => hsame
      · rw [if_pos hsame]
        exact .fail (fun h => hsame (h hdeclared)) outcome code differs houtcome

/-- A declared value that must be among those the environment reports. -/
theorem judged_member (f : RequirementFindings) (declared : Text) (reported : List Text)
    (absent : Text) {outcome : CompatibilityOutcome} (houtcome : outcome ≠ .compatible)
    (code : ReasonCode) (differs : Text) :
    Judged f (declared ≠ [] → declared ∈ reported)
      (if declared.isEmpty then f
      else if reported.isEmpty then f.unknown absent
      else if !reported.contains declared then f.fail outcome code differs
      else f) := by
  by_cases hdeclared : declared = []
  · rw [if_pos (List.isEmpty_iff.mpr hdeclared)]
    exact .clear fun h => absurd hdeclared h
  · rw [if_neg (mt List.isEmpty_iff.mp hdeclared)]
    by_cases hreported : reported = []
    · rw [if_pos (List.isEmpty_iff.mpr hreported)]
      exact .unknown (fun h => by simpa [hreported] using h hdeclared) absent
    · rw [if_neg (mt List.isEmpty_iff.mp hreported)]
      by_cases hmem : declared ∈ reported
      · rw [if_neg (by simpa using hmem)]
        exact .clear fun _ => hmem
      · rw [if_pos (by simpa using hmem)]
        exact .fail (fun h => hmem (h hdeclared)) outcome code differs houtcome

end RequirementFindings

open RequirementFindings

/-- What the code evaluates of a requirement: a minimum version counts only below a named
runtime. -/
def ModelRequirements.evaluated (r : ModelRequirements) : ModelRequirements :=
  if r.runtime = [] then { r with runtimeMinVersion := [] } else r

/-- The part of `Establishes` that concerns the runtime. -/
def RuntimeEstablished (e : EnvironmentProfile) (r : ModelRequirements) : Prop :=
  (r.runtime ≠ [] → e.runtime = r.runtime) ∧ (r.runtimeMinVersion ≠ [] →
    e.runtimeVersion ≠ [] ∧ 0 ≤ compareVersions e.runtimeVersion r.runtimeMinVersion)

theorem judged_checkRuntime (r : ModelRequirements) (e : EnvironmentProfile)
    (f : RequirementFindings) :
    Judged f (RuntimeEstablished e r.evaluated) (checkRuntime r e f) := by
  unfold checkRuntime
  by_cases hruntime : r.runtime = []
  · rw [if_pos (List.isEmpty_iff.mpr hruntime)]
    refine .clear ⟨fun h => absurd ?_ h, fun h => absurd ?_ h⟩
    · rw [ModelRequirements.evaluated, if_pos hruntime, hruntime]
    · rw [ModelRequirements.evaluated, if_pos hruntime]
  · rw [if_neg (mt List.isEmpty_iff.mp hruntime), ModelRequirements.evaluated, if_neg hruntime]
    by_cases hreported : e.runtime = []
    · rw [if_pos (List.isEmpty_iff.mpr hreported)]
      exact .unknown (fun h => hruntime ((h.1 hruntime).symm.trans hreported)) _
    · rw [if_neg (mt List.isEmpty_iff.mp hreported)]
      by_cases hsame : e.runtime = r.runtime
      · rw [if_neg (not_not_intro hsame)]
        by_cases hminimum : r.runtimeMinVersion = []
        · rw [if_pos (List.isEmpty_iff.mpr hminimum)]
          exact .clear ⟨fun _ => hsame, fun h => absurd hminimum h⟩
        · rw [if_neg (mt List.isEmpty_iff.mp hminimum)]
          by_cases hversion : e.runtimeVersion = []
          · rw [if_pos (List.isEmpty_iff.mpr hversion)]
            exact .unknown (fun h => (h.2 hminimum).1 hversion) _
          · rw [if_neg (mt List.isEmpty_iff.mp hversion)]
            by_cases hless : compareVersions e.runtimeVersion r.runtimeMinVersion < 0
            · rw [if_pos hless]
              refine .fail (fun h => ?_) _ _ _ (by decide)
              exact absurd (h.2 hminimum).2 (not_le.mpr hless)
            · rw [if_neg hless]
              exact .clear ⟨fun _ => hsame, fun _ => ⟨hversion, not_lt.mp hless⟩⟩
      · rw [if_pos hsame]
        exact .fail (fun h => hsame (h.1 hruntime)) _ _ _ (by decide)

theorem judged_checkBackend (r : ModelRequirements) (e : EnvironmentProfile)
    (f : RequirementFindings) :
    Judged f (r.backend ≠ [] → e.backend = r.backend) (checkBackend r e f) :=
  judged_same f r.backend e.backend _ (by decide) _ _

theorem judged_checkArchitecture (r : ModelRequirements) (e : EnvironmentProfile)
    (f : RequirementFindings) :
    Judged f (r.architecture ≠ [] → r.architecture ∈ acceptableArchitectures e)
      (checkArchitecture r e f) :=
  judged_member f r.architecture (acceptableArchitectures e) _ (by decide) _ _

theorem judged_checkPrecision (r : ModelRequirements) (e : EnvironmentProfile)
    (f : RequirementFindings) :
    Judged f (r.precision ≠ [] → r.precision ∈ e.precisions) (checkPrecision r e f) :=
  judged_member f r.precision e.precisions _ (by decide) _ _

theorem judged_checkTokenizer (r : ModelRequirements) (e : EnvironmentProfile)
    (f : RequirementFindings) :
    Judged f (r.tokenizerGeneration ≠ [] → e.tokenizerGeneration = r.tokenizerGeneration)
      (checkTokenizer r e f) :=
  judged_same f r.tokenizerGeneration e.tokenizerGeneration _ (by decide) _ _

theorem judged_checkAdapters (r : ModelRequirements) (e : EnvironmentProfile)
    (f : RequirementFindings) :
    Judged f (r.adapterSet ≠ [] → e.adapterSet = r.adapterSet) (checkAdapters r e f) :=
  judged_same f r.adapterSet e.adapterSet _ (by decide) _ _

/-- The findings before the first check: whether the requirement declares anything. -/
def declaredFindings (r : ModelRequirements) : RequirementFindings :=
  if r.isEmpty then RequirementFindings.unknown {}
    (text "model version declares no runtime, backend, architecture or precision requirement")
  else {}

theorem judged_declared (r : ModelRequirements) :
    Judged {} (r.isEmpty = false) (declaredFindings r) := by
  unfold declaredFindings
  by_cases hempty : r.isEmpty = true
  · rw [if_pos hempty]
    exact .unknown (by simp [hempty]) _
  · rw [if_neg hempty]
    exact .clear (by simpa using hempty)

/-- The findings of one evaluation of a valid profile, check after check. -/
def requirementFindings (r : ModelRequirements) (e : EnvironmentProfile) : RequirementFindings :=
  checkAdapters r e (checkTokenizer r e (checkPrecision r e (checkArchitecture r e
    (checkBackend r e (checkRuntime r e (declaredFindings r))))))

/-- What the code evaluates, with the requirements other than the runtime as declared. -/
theorem establishes_evaluated (r : ModelRequirements) (e : EnvironmentProfile) :
    Establishes e r.evaluated ↔
      RuntimeEstablished e r.evaluated ∧ (r.backend ≠ [] → e.backend = r.backend) ∧
      (r.architecture ≠ [] → r.architecture ∈ acceptableArchitectures e) ∧
      (r.precision ≠ [] → r.precision ∈ e.precisions) ∧
      (r.tokenizerGeneration ≠ [] → e.tokenizerGeneration = r.tokenizerGeneration) ∧
      (r.adapterSet ≠ [] → e.adapterSet = r.adapterSet) := by
  have hkept : r.evaluated.backend = r.backend ∧ r.evaluated.architecture = r.architecture ∧
      r.evaluated.precision = r.precision ∧
      r.evaluated.tokenizerGeneration = r.tokenizerGeneration ∧
      r.evaluated.adapterSet = r.adapterSet := by
    unfold ModelRequirements.evaluated
    split <;> exact ⟨rfl, rfl, rfl, rfl, rfl⟩
  obtain ⟨hbackend, harchitecture, hprecision, htokenizer, hadapters⟩ := hkept
  constructor
  · intro h
    exact ⟨⟨h.runtime, h.runtimeMinVersion⟩, hbackend ▸ h.backend, harchitecture ▸ h.architecture,
      hprecision ▸ h.precision, htokenizer ▸ h.tokenizerGeneration, hadapters ▸ h.adapterSet⟩
  · rintro ⟨⟨hruntime, hminimum⟩, hb, ha, hp, ht, hs⟩
    exact ⟨hruntime, hminimum, hbackend ▸ hb, harchitecture ▸ ha, hprecision ▸ hp,
      htokenizer ▸ ht, hadapters ▸ hs⟩

/-- An evaluation finds nothing exactly when everything it evaluates is established. -/
theorem requirementFindings_clear (r : ModelRequirements) (e : EnvironmentProfile) :
    (requirementFindings r e).Clear ↔ r.isEmpty = false ∧ Establishes e r.evaluated := by
  have hnothing : RequirementFindings.Clear {} := ⟨rfl, rfl⟩
  rw [establishes_evaluated, requirementFindings, (judged_checkAdapters r e _).clear_iff,
    (judged_checkTokenizer r e _).clear_iff, (judged_checkPrecision r e _).clear_iff,
    (judged_checkArchitecture r e _).clear_iff, (judged_checkBackend r e _).clear_iff,
    (judged_checkRuntime r e _).clear_iff, (judged_declared r).clear_iff]
  tauto

theorem requirementFindings_named (r : ModelRequirements) (e : EnvironmentProfile) :
    (requirementFindings r e).Named := by
  have hnothing : RequirementFindings.Named {} := fun entry hentry => absurd hentry List.not_mem_nil
  have hdeclared := (judged_declared r).named hnothing
  have hruntime := (judged_checkRuntime r e _).named hdeclared
  have hbackend := (judged_checkBackend r e _).named hruntime
  have harchitecture := (judged_checkArchitecture r e _).named hbackend
  have hprecision := (judged_checkPrecision r e _).named harchitecture
  exact (judged_checkAdapters r e _).named ((judged_checkTokenizer r e _).named hprecision)

/-- The outcome of an evaluation of a valid profile, read off its findings. -/
theorem evaluateRequirements_outcome (r : ModelRequirements) {e : EnvironmentProfile}
    (hvalid : e.valid = true) :
    (evaluateRequirements r e).outcome =
      match (requirementFindings r e).incompatibilities with
      | (outcome, _) :: _ => outcome
      | [] => if (requirementFindings r e).unknowns.isEmpty then .compatible else .unknown := by
  have hsame : requirementFindings r e = checkAdapters r e (checkTokenizer r e (checkPrecision r e
    (checkArchitecture r e (checkBackend r e (checkRuntime r e (declaredFindings r)))))) := rfl
  unfold declaredFindings at hsame
  simp only [evaluateRequirements, hvalid, Bool.not_true, Bool.false_eq_true, if_false, ← hsame]
  cases (requirementFindings r e).incompatibilities with
  | cons entry rest => rfl
  | nil => cases (requirementFindings r e).unknowns.isEmpty <;> rfl

/-- An evaluation that ends compatible is one of a valid profile that establishes everything
the code evaluates, for a requirement that declares something. -/
theorem evaluateRequirements_compatible (r : ModelRequirements) (e : EnvironmentProfile) :
    (evaluateRequirements r e).outcome = .compatible ↔
      e.valid = true ∧ r.isEmpty = false ∧ Establishes e r.evaluated := by
  rw [← requirementFindings_clear]
  by_cases hvalid : e.valid = true
  · have hnamed := requirementFindings_named r e
    rw [evaluateRequirements_outcome r hvalid, RequirementFindings.Clear]
    cases hfound : (requirementFindings r e).incompatibilities with
    | cons entry rest =>
      have hentry : entry.1 ≠ .compatible := hnamed entry (by rw [hfound]; exact List.mem_cons_self)
      simp [hentry]
    | nil =>
      cases hunknown : (requirementFindings r e).unknowns with
      | cons reason rest => simp
      | nil => simp [hvalid]
  · have hunknown : (evaluateRequirements r e).outcome = .unknown := by
      simp [evaluateRequirements, hvalid]
    rw [hunknown]
    simp [hvalid]

/-! ## Version comparison -/

/-- What meets a version meets everything that version meets. -/
theorem compareVersions_trans {a b c : Text} (hab : 0 ≤ compareVersions a b)
    (hbc : 0 ≤ compareVersions b c) : 0 ≤ compareVersions a c := by
  rw [compareVersions_eq, sign_nonneg] at *
  exact le_trans hbc hab

/-- A version that meets a declared one is itself declared. -/
theorem ne_nil_of_compareVersions {a b : Text} (hb : b ≠ []) (hab : 0 ≤ compareVersions a b) :
    a ≠ [] := by
  rintro rfl
  rw [compareVersions_nil hb] at hab
  omega

/-- An environment that reports a version at least as new establishes what it did before. -/
theorem Establishes.newer {e : EnvironmentProfile} {r : ModelRequirements} {version : Text}
    (hold : Establishes e r) (hnewer : 0 ≤ compareVersions version e.runtimeVersion) :
    Establishes { e with runtimeVersion := version } r where
  runtime := hold.runtime
  runtimeMinVersion := by
    intro hminimum
    obtain ⟨hreported, hmeets⟩ := hold.runtimeMinVersion hminimum
    exact ⟨ne_nil_of_compareVersions hreported hnewer, compareVersions_trans hnewer hmeets⟩
  backend := hold.backend
  architecture := hold.architecture
  precision := hold.precision
  tokenizerGeneration := hold.tokenizerGeneration
  adapterSet := hold.adapterSet

/-- Version comparison is reflexive, negates its sign when the arguments are exchanged and is
transitive on all byte strings; so every version that compares greater or equal meets each
minimum the first one meets, alone and in the evaluation of a requirement. -/
theorem compareVersions_total_preorder :
    (∀ a, compareVersions a a = 0) ∧
    (∀ a b, compareVersions b a = -compareVersions a b) ∧
    (∀ a b c, compareVersions a b ≤ 0 → compareVersions b c ≤ 0 → compareVersions a c ≤ 0) ∧
    (∀ minimum reported newer, 0 ≤ compareVersions reported minimum →
      0 ≤ compareVersions newer reported → 0 ≤ compareVersions newer minimum) ∧
    ∀ (r : ModelRequirements) (e : EnvironmentProfile) (newer : Text),
      (evaluateRequirements r e).outcome = .compatible →
      0 ≤ compareVersions newer e.runtimeVersion →
      (evaluateRequirements r { e with runtimeVersion := newer }).outcome = .compatible := by
  refine ⟨fun a => ?_, fun a b => ?_, fun a b c hab hbc => ?_, fun minimum reported newer h hle => ?_,
    fun r e newer hcompatible hnewer => ?_⟩
  · rw [compareVersions_eq, sign_self]
  · rw [compareVersions_eq, compareVersions_eq, sign_swap]
  · rw [compareVersions_eq, sign_nonpos] at *
    exact le_trans hab hbc
  · exact compareVersions_trans hle h
  · rw [evaluateRequirements_compatible] at hcompatible ⊢
    obtain ⟨hvalid, hdeclares, hestablished⟩ := hcompatible
    exact ⟨hvalid, hdeclares, hestablished.newer hnewer⟩

/-- Three release names in order, the first below the last by transitivity. -/
theorem compareVersions_total_preorder_releases :
    compareVersions (text "1.2-rc1") (text "1.02") ≤ 0 ∧
      compareVersions (text "1.02") (text "1.10.") ≤ 0 ∧
      compareVersions (text "1.2-rc1") (text "1.10.") ≤ 0 := by
  have hfirst : compareVersions (text "1.2-rc1") (text "1.02") ≤ 0 := by decide
  have hsecond : compareVersions (text "1.02") (text "1.10.") ≤ 0 := by decide
  exact ⟨hfirst, hsecond, compareVersions_total_preorder.2.2.1 _ _ _ hfirst hsecond⟩

/-! ## Requirements that are skipped -/

/-- A compatible verdict establishes every declared requirement exactly when the minimum
version, if declared without a runtime, is met anyway or the verdict fails for another reason:
the profile is invalid, nothing that is evaluated is declared, or some other declared
requirement is not established. -/
theorem evaluateRequirements_establishes_iff (r : ModelRequirements) (e : EnvironmentProfile) :
    ((evaluateRequirements r e).outcome = .compatible → e.valid = true ∧ Establishes e r) ↔
      (r.runtime = [] → r.runtimeMinVersion ≠ [] →
        (e.runtimeVersion ≠ [] ∧ 0 ≤ compareVersions e.runtimeVersion r.runtimeMinVersion) ∨
        e.valid = false ∨ r.isEmpty = true ∨
        ¬ Establishes e { r with runtimeMinVersion := [] }) := by
  rw [evaluateRequirements_compatible, ModelRequirements.evaluated]
  by_cases hruntime : r.runtime = []
  · rw [if_pos hruntime]
    constructor
    · intro hestablishes _ hminimum
      by_contra hnone
      simp only [not_or, Bool.not_eq_false, Bool.not_eq_true, not_not] at hnone
      obtain ⟨hunmet, hvalid, hdeclares, hothers⟩ := hnone
      exact hunmet ((hestablishes ⟨hvalid, hdeclares, hothers⟩).2.runtimeMinVersion hminimum)
    · rintro hskipped ⟨hvalid, hdeclares, hothers⟩
      refine ⟨hvalid, hothers.runtime, fun hminimum => ?_, hothers.backend, hothers.architecture,
        hothers.precision, hothers.tokenizerGeneration, hothers.adapterSet⟩
      rcases hskipped hruntime hminimum with hmet | hinvalid | hempty | hunmet
      · exact hmet
      · simp [hinvalid] at hvalid
      · simp [hempty] at hdeclares
      · exact absurd hothers hunmet
  · rw [if_neg hruntime]
    exact ⟨fun _ h => absurd h hruntime, fun _ h => ⟨h.1, h.2.2⟩⟩

/-- A backend with a minimum runtime version but no runtime name: an environment that reports
an older runtime is found compatible. -/
theorem evaluateRequirements_skips_minimum :
    ¬ ∀ (r : ModelRequirements) (e : EnvironmentProfile),
      (evaluateRequirements r e).outcome = .compatible → e.valid = true ∧ Establishes e r := by
  intro hall
  have hcompatible := hall
    { backend := text "cuda", runtimeMinVersion := text "2.0" }
    { key := text "gpu0", runtime := text "trt", runtimeVersion := text "1.0",
      backend := text "cuda" } (by decide)
  have hmet := (hcompatible.2.runtimeMinVersion (by decide)).2
  exact absurd hmet (by decide)

end LifecycleFabric
