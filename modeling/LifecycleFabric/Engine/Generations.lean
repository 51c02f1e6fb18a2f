import LifecycleFabric.Engine.Standing

/-!
# Generations only grow

Apart from an import, no step lowers the generation of a version, of a scope or of the
policy, and only the two operations that drive a plan on touch its progress. What is
bound to an older generation therefore stays outdated.
-/

namespace LifecycleFabric

open EngineState AuthorityTable

variable {c : EngineConfig} {p : Permit} {s s' s'' : EngineState}

/-! ## Growth -/

/-- No version, scope or policy of the first state has a lower generation in the second. -/
structure Grown (s s' : EngineState) : Prop where
  versions : ∀ model version record, s.versionOf model version = some record →
    ∃ record', s'.versionOf model version = some record' ∧ record.generation ≤ record'.generation
  scopes : ∀ scope record, s.scopes.find scope = some record →
    ∃ record', s'.scopes.find scope = some record' ∧ record.generation ≤ record'.generation
  policy : s.policy.base.generation ≤ s'.policy.base.generation

theorem Grown.refl (s : EngineState) : Grown s s where
  versions _ _ record hrecord := ⟨record, hrecord, le_rfl⟩
  scopes _ record hrecord := ⟨record, hrecord, le_rfl⟩
  policy := le_rfl

theorem Grown.trans (h : Grown s s') (h' : Grown s' s'') : Grown s s'' where
  versions model version record hrecord := by
    obtain ⟨record', hrecord', hle⟩ := h.versions model version record hrecord
    obtain ⟨record'', hrecord'', hle'⟩ := h'.versions model version record' hrecord'
    exact ⟨record'', hrecord'', hle.trans hle'⟩
  scopes scope record hrecord := by
    obtain ⟨record', hrecord', hle⟩ := h.scopes scope record hrecord
    obtain ⟨record'', hrecord'', hle'⟩ := h'.scopes scope record' hrecord'
    exact ⟨record'', hrecord'', hle.trans hle'⟩
  policy := h.policy.trans h'.policy

/-- An update of one version that does not lower its generation. -/
theorem grown_modifyVersion (s : EngineState) (model : ModelId) (version : ModelVersionId)
    {f : ModelVersionRecord → ModelVersionRecord}
    (hf : ∀ record, s.versionOf model version = some record →
      record.generation ≤ (f record).generation) :
    Grown s (s.modifyVersion model version f) where
  versions model' version' record hrecord := by
    rw [versionOf_modifyVersion, hrecord]
    refine ⟨_, rfl, ?_⟩
    split_ifs with hsame
    · obtain ⟨rfl, rfl⟩ := hsame
      exact hf record hrecord
    · exact le_rfl
  scopes _ record hrecord := ⟨record, hrecord, le_rfl⟩
  policy := le_rfl

theorem grown_touchScope (s : EngineState) (scope : ScopeId) : Grown s (s.touchScope scope) where
  versions _ _ record hrecord := ⟨record, hrecord, le_rfl⟩
  scopes scope' record hrecord := by
    refine ⟨_, by rw [touchScope, ScopeRegistry.find_touch, hrecord]; rfl, ?_⟩
    split_ifs
    · exact Ident.le_nextGeneration record.generation
    · exact le_rfl
  policy := le_rfl

theorem Effect.grown (h : Effect c p s s') : Grown s s' := by
  cases h with
  | editVersion model version f hf =>
    exact grown_modifyVersion s model version fun record hrecord => (hf record hrecord).same.2.2.2
  | retire model version =>
    exact grown_modifyVersion s model version fun record _ => (advance_generation record _).ge
  | touch scope => exact grown_touchScope s scope
  | _ => exact ⟨(Grown.refl s).versions, (Grown.refl s).scopes, le_rfl⟩

theorem Chain.grown (h : Chain c p s s') : Grown s s' :=
  Runs.chain_preserves (P := Grown s) (fun _ _ hab hs => hs.trans hab.grown) h (Grown.refl s)

theorem Aside.grown (h : Aside c s s') : Grown s s' where
  versions model version record hrecord := by
    obtain ⟨record', hrecord', hedits⟩ := h.versions _ record hrecord
    exact ⟨record', hrecord', (VersionEdit.same_of_chain hedits).2.2.2⟩
  scopes scope record hrecord := ⟨record, h.scopes.extends.find hrecord, le_rfl⟩
  policy := h.policy

theorem StepCase.grown {op : Operation} (h : StepCase c s op s') (hop : op.isImport = false) :
    Grown s s' := by
  cases h with
  | aside h => exact h.grown
  | chain p _ _ _ h => exact h.grown
  | recover => cases hop

/-! ## Plans that are not driven on -/

/-- Only an operation that drives plans on touches the progress of a stored one. -/
theorem StepCase.undriven {op : Operation} (h : StepCase c s op s') (hop : op.isImport = false)
    (hdrives : op.drives = false) {key : UInt64} {plan : RolloutPlan}
    (hplan : s.rollouts.get? key = some plan) :
    ∃ plan', s'.rollouts.get? key = some plan' ∧ PlanStep False False plan plan' := by
  cases h with
  | aside h =>
    obtain ⟨plan', hplan', hstep⟩ := h.plans key plan hplan
    exact ⟨plan', hplan', hstep.relax id False.elim⟩
  | chain p _ hdriving _ h =>
    obtain ⟨plan', hplan', hstep⟩ := h.plan_stands hplan
    refine ⟨plan', hplan', hstep.relax ?_ False.elim⟩
    intro hdriven
    rw [hdriving key hdriven] at hdrives
    cases hdrives
  | recover => cases hop

/-- A plan that is live and in a stage stays in a stage as long as it lives. -/
theorem PlanStep.stays_entered {driven strict : Prop} {plan plan' : RolloutPlan}
    (h : PlanStep driven strict plan plan') (hentered : plan.stageEntered = true)
    (hlive : plan'.live = true) : plan'.stageEntered = true := by
  refine (Runs.chain_preserves (P := fun after : RolloutPlan => after.live = true →
    after.stageEntered = true) ?_ h.edits fun _ => hentered) hlive
  intro before after hedit hbefore hafter
  cases hedit with
  | note _ _ _ _ _ _ _ hkept =>
    obtain ⟨hwas, hsame⟩ := hkept hafter
    rw [hsame]
    exact hbefore hwas
  | settle _ _ _ _ _ _ _ _ _ _ _ hended =>
    rw [hended] at hafter
    cases hafter
  | advance _ _ _ hin => exact hin
  | complete => simp [RolloutPlan.live, completedPlan] at hafter
  | enter => rfl
  | next => rfl

end LifecycleFabric
