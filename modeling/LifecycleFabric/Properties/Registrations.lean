import LifecycleFabric.Properties.Holders

/-!
# Which policy a registration reads

The policy an engine was constructed with is copied into its state, where later
operations replace it. A registration that extends a retired lineage still reads
the copy in the configuration, so two engines in one state may answer differently.
-/

namespace LifecycleFabric

open EngineState

variable {c c' : EngineConfig} {s : EngineState}

/-- The registration passes every other check and names a retired predecessor. -/
structure ExtendsRetired (bounds : RegistryBounds) (s : EngineState)
    (request : RegisterVersionRequest) : Prop where
  model : s.models.contains request.model.raw = true
  label : validToken request.label bounds.maxNameLength = true
  artifact : request.artifact.setId.valid = true ∧ request.artifact.generation.valid = true
  digest : validDigest request.artifact.digest bounds.maxDigestLength = true
  unused : s.versionLabels.contains (toLex (request.model.raw, request.label)) = false
  room : s.versionCount request.model < bounds.maxVersionsPerModel
  declared : request.predecessor.valid = true
  retired : (s.versionOf request.model request.predecessor).any (·.retired) = true

/-- Without a retired predecessor the configured policy is not read. -/
theorem predecessorRefusal_congr {request : RegisterVersionRequest}
    (hnone : request.predecessor.valid = true →
      (s.versionOf request.model request.predecessor).any (·.retired) = false) :
    s.predecessorRefusal c request = s.predecessorRefusal c' request := by
  unfold predecessorRefusal
  by_cases hdeclared : request.predecessor.valid = true
  · have hretired := hnone hdeclared
    rw [hdeclared]
    cases hpredecessor : s.versionOf request.model request.predecessor with
    | none => rfl
    | some predecessor =>
      rw [hpredecessor, Option.any_some] at hretired
      simp [hretired]
  · rw [Bool.not_eq_true] at hdeclared
    simp [hdeclared]

/-- A registration that names no retired predecessor, or that fails another check, is decided
without the configured policy. -/
theorem registerVersion_decision_congr (hbounds : c.bounds = c'.bounds)
    {request : RegisterVersionRequest} (hextends : ¬ ExtendsRetired c.bounds s request) :
    (s.registerVersion c request).2.1 = (s.registerVersion c' request).2.1 := by
  unfold registerVersion
  rw [← hbounds]
  dsimp only
  split_ifs with hmodel hlabel hartifact hdigest hused hfull
  · rfl
  · rfl
  · rfl
  · rfl
  · rfl
  · rfl
  · have hnone : request.predecessor.valid = true →
        (s.versionOf request.model request.predecessor).any (·.retired) = false := by
      intro hdeclared
      by_contra hretired
      refine hextends ⟨by simpa using hmodel, by simpa using hlabel, by simpa using hartifact,
        by simpa using hdigest, by simpa using hused, not_le.mp hfull, hdeclared,
        by simpa using hretired⟩
    have hrefusal : s.predecessorRefusal c request = s.predecessorRefusal c' request :=
      predecessorRefusal_congr hnone
    rw [hrefusal]
    split <;> rfl

/-- A registration that extends a retired lineage is accepted as the configured policy says. -/
theorem registerVersion_decision_of_extends {request : RegisterVersionRequest}
    (hextends : ExtendsRetired c.bounds s request) :
    (s.registerVersion c request).2.1 =
      if c.policy.allowVersionLabelReuseAfterRetirement then .accepted
      else .because .rejected .versionRetired
        (text "predecessor is retired; policy forbids extending a retired lineage") := by
  obtain ⟨predecessor, hpredecessor, hretired⟩ := (Option.any_eq_true _ _).mp hextends.retired
  have hrefusal : s.predecessorRefusal c request =
      if c.policy.allowVersionLabelReuseAfterRetirement then none
      else some (.because .rejected .versionRetired
        (text "predecessor is retired; policy forbids extending a retired lineage")) := by
    rw [predecessorRefusal, hextends.declared, hpredecessor]
    cases c.policy.allowVersionLabelReuseAfterRetirement <;> simp [hretired]
  unfold registerVersion
  simp only [hextends.model, hextends.label, hextends.artifact, hextends.digest, hextends.unused,
    not_le.mpr hextends.room, hrefusal]
  cases c.policy.allowVersionLabelReuseAfterRetirement <;> simp

/-- Two constructions with equal bounds decide a registration alike exactly when they have the
same rule on retired lineages or the registration does not extend one. -/
theorem registerVersion_decision_iff (hbounds : c.bounds = c'.bounds)
    (request : RegisterVersionRequest) :
    (s.registerVersion c request).2.1 = (s.registerVersion c' request).2.1 ↔
      (ExtendsRetired c.bounds s request → c.policy.allowVersionLabelReuseAfterRetirement =
        c'.policy.allowVersionLabelReuseAfterRetirement) := by
  by_cases hextends : ExtendsRetired c.bounds s request
  · have hdiffers : Decision.because .rejected .versionRetired
        (text "predecessor is retired; policy forbids extending a retired lineage") ≠
          .accepted := by
      decide +kernel
    rw [registerVersion_decision_of_extends hextends,
      registerVersion_decision_of_extends (hbounds ▸ hextends)]
    cases c.policy.allowVersionLabelReuseAfterRetirement <;>
      cases c'.policy.allowVersionLabelReuseAfterRetirement <;>
      simp [hextends, hdiffers, hdiffers.symm]
  · exact iff_of_true (registerVersion_decision_congr hbounds hextends) fun h => absurd h hextends

/-- In whatever state their runs have brought them to, two engines with equal bounds decide a
registration alike, and as the current base policy says, exactly when the policies they were
constructed with have the rule on retired lineages in common, with each other and with the
current one, or the registration does not extend a retired lineage. -/
theorem registrations_agree_iff (hbounds : c.bounds = c'.bounds) (s : EngineState)
    (request : RegisterVersionRequest) :
    ((s.registerVersion c request).2.1 = (s.registerVersion c' request).2.1 ↔
      (ExtendsRetired c.bounds s request → c.policy.allowVersionLabelReuseAfterRetirement =
        c'.policy.allowVersionLabelReuseAfterRetirement)) ∧
    ((s.registerVersion c request).2.1 =
        (s.registerVersion { c with policy := s.policy.base } request).2.1 ↔
      (ExtendsRetired c.bounds s request → c.policy.allowVersionLabelReuseAfterRetirement =
        s.policy.base.allowVersionLabelReuseAfterRetirement)) := by
  have hcurrent : c.bounds = { c with policy := s.policy.base }.bounds := rfl
  exact ⟨registerVersion_decision_iff hbounds request,
    registerVersion_decision_iff hcurrent request⟩

/-! ## One state, two answers -/

/-- The construction that lets retired lineages be extended. -/
def lineageReusing : EngineConfig := { policy := { allowVersionLabelReuseAfterRetirement := true } }

/-- A version is registered and retired, and the base policy is replaced. -/
def retiredUnderPolicy : List Operation := retiringOps ++ [.setPolicy { generation := ⟨7⟩ }]

/-- A successor of the retired version. -/
def successorOfRetired : RegisterVersionRequest :=
  { model := ⟨1⟩, label := [50], predecessor := ⟨1⟩
    artifact := { setId := ⟨1⟩, generation := ⟨2⟩, digest := [98] } }

/-- A successor of no version. -/
def successorOfNone : RegisterVersionRequest := { successorOfRetired with predecessor := {} }

/-- Both constructions reach the same state. -/
theorem retiredUnderPolicy_state :
    runOps lineageReusing (init lineageReusing) retiredUnderPolicy =
      runOps {} (init {}) retiredUnderPolicy := by
  decide +kernel

theorem registrations_agree_fresh :
    ((runOps {} (init {}) retiredUnderPolicy).registerVersion {} successorOfNone).2.1 =
      ((runOps {} (init {}) retiredUnderPolicy).registerVersion lineageReusing
        successorOfNone).2.1 := by
  have hfresh : successorOfNone.predecessor.valid = false := by decide
  have hbounds : ({} : EngineConfig).bounds = lineageReusing.bounds := rfl
  refine (registrations_agree_iff hbounds _ successorOfNone).1.mpr fun hextends => ?_
  rw [hextends.declared] at hfresh
  cases hfresh

/-- The same successor of a retired version is refused by one engine and accepted by the other,
in the same state under the same current policy. -/
theorem registrations_disagree :
    ¬ ∀ (c c' : EngineConfig) (s : EngineState), c.bounds = c'.bounds → ReachableState c s →
      ReachableState c' s → ∀ request : RegisterVersionRequest,
        (s.registerVersion c request).2.1 = (s.registerVersion c' request).2.1 := by
  intro hclaim
  have hagree := hclaim {} lineageReusing (runOps {} (init {}) retiredUnderPolicy) rfl
    ⟨retiredUnderPolicy, rfl⟩ ⟨retiredUnderPolicy, retiredUnderPolicy_state⟩ successorOfRetired
  revert hagree
  decide +kernel

end LifecycleFabric
