import LifecycleFabric.Engine.Generations
import LifecycleFabric.Properties.Clocks
import LifecycleFabric.Properties.Lifecycles

/-!
# What bindings refer to

Recovery refuses a binding that refers to something the state does not hold, or to a
generation it has not reached. Without imports the engine never makes such a binding, and
what a binding refers to stays.
-/

namespace LifecycleFabric

open EngineState AuthorityTable

variable {c : EngineConfig} {p : Permit} {s s' : EngineState}

/-- Everything a binding refers to is held, at no earlier generation. -/
structure BindingRefers (s : EngineState) (binding : AuthorityBinding) : Prop where
  version : ∃ record, s.versionOf binding.model binding.version = some record ∧
    binding.modelGeneration ≤ record.generation
  scope : ∃ record, s.scopes.find binding.scope = some record ∧
    binding.scopeGeneration ≤ record.generation
  sequence : binding.grantedSequence.valid = true ∧ binding.grantedSequence ≤ s.sequence
  rollout : binding.rollout.valid = true → ∃ plan, s.rolloutOf binding.rollout = some plan ∧
    plan.generation = binding.rolloutGeneration

/-- Every binding of the engine, live or not, refers to what is held. -/
def Referenced (s : EngineState) : Prop :=
  ∀ scope, ∀ binding ∈ s.authority.bindingsFor scope, BindingRefers s binding

/-! ## What bindings refer to stays -/

/-- Nothing a binding may refer to is lost or goes back. -/
structure Retains (s s' : EngineState) : Prop where
  grown : Grown s s'
  clocks : ClocksAdvance s s'
  plans : ∀ key plan, s.rollouts.get? key = some plan →
    ∃ plan', s'.rollouts.get? key = some plan' ∧ plan'.generation = plan.generation

theorem BindingRefers.retained {binding : AuthorityBinding} (h : BindingRefers s binding)
    (hretains : Retains s s') : BindingRefers s' binding where
  version := by
    obtain ⟨record, hrecord, hle⟩ := h.version
    obtain ⟨record', hrecord', hgrown⟩ := hretains.grown.versions _ _ record hrecord
    exact ⟨record', hrecord', hle.trans hgrown⟩
  scope := by
    obtain ⟨record, hrecord, hle⟩ := h.scope
    obtain ⟨record', hrecord', hgrown⟩ := hretains.grown.scopes _ record hrecord
    exact ⟨record', hrecord', hle.trans hgrown⟩
  sequence := ⟨h.sequence.1, h.sequence.2.trans hretains.clocks.sequence⟩
  rollout hvalid := by
    obtain ⟨plan, hplan, hgeneration⟩ := h.rollout hvalid
    obtain ⟨plan', hplan', hsame⟩ := hretains.plans _ plan hplan
    exact ⟨plan', hplan', hsame.trans hgeneration⟩

theorem BindingRefers.weakens {before after : AuthorityBinding} (h : BindingRefers s before)
    (hweakens : before.Weakens after) : BindingRefers s after := by
  obtain ⟨hscope, hmodel, hversion, hgeneration, hrollout, hplanned, hsequence,
    hscopeGeneration⟩ := hweakens.same
  obtain ⟨hv, hs, hq, hr⟩ := h
  constructor
  · rwa [hmodel, hversion, hgeneration]
  · rwa [hscope, hscopeGeneration]
  · rwa [hsequence]
  · rwa [hrollout, hplanned]

theorem Effect.retains (h : Effect c p s s') : Retains s s' where
  grown := h.grown
  clocks := h.clocks
  plans key plan hplan := by
    obtain ⟨plan', hplan', hstep⟩ := h.chain.plan_stands hplan
    exact ⟨plan', hplan', hstep.generation⟩

theorem Aside.retains (h : Aside c s s') : Retains s s' where
  grown := h.grown
  clocks := ⟨h.epoch, h.sequence⟩
  plans key plan hplan := by
    obtain ⟨plan', hplan', hstep⟩ := h.plans key plan hplan
    exact ⟨plan', hplan', hstep.generation⟩

/-! ## What is appended -/

/-- A binding the engine may append refers to what is held. -/
theorem Grantable.refers {binding : AuthorityBinding} (h : Grantable s binding)
    (hs : Referenced s) : BindingRefers s binding := by
  rcases h.origin with ⟨⟨record, hrecord, hgeneration⟩, hplan⟩ |
    ⟨source, hsource, hmodel, hversion, hgeneration, hrollout, hplanned⟩
  · refine ⟨⟨record, hrecord, hgeneration.le⟩, h.scope, h.sequence, fun hvalid => ?_⟩
    obtain ⟨plan, hstored, hplanned, _⟩ := hplan (Or.inl hvalid)
    exact ⟨plan, hstored, hplanned⟩
  · -- A retained binding repeats what it refers to from the one it was displaced from.
    have hrefers := hs binding.scope source hsource
    refine ⟨?_, h.scope, h.sequence, ?_⟩
    · rw [← hmodel, ← hversion, ← hgeneration]
      exact hrefers.version
    · rw [← hrollout, ← hplanned]
      exact hrefers.rollout

/-! ## Steps and runs -/

theorem Effect.referenced (h : Effect c p s s') (hs : Referenced s) : Referenced s' := by
  have hretains := h.retains
  cases h with
  | weaken table htable =>
    intro scope binding hbinding
    obtain ⟨origin, horigin, hweakens⟩ := htable.exists_before hbinding
    exact ((hs scope origin horigin).weakens hweakens).retained hretains
  | append mid binding hmid _ hbinding _ =>
    intro scope b hb
    rcases mem_bindingsFor_push.mp hb with hb | ⟨_, rfl⟩
    · obtain ⟨origin, horigin, hweakens⟩ := hmid.exists_before hb
      exact ((hs scope origin horigin).weakens hweakens).retained hretains
    · exact (hbinding.refers hs).retained hretains
  | _ =>
    intro scope binding hbinding
    exact (hs scope binding hbinding).retained hretains

theorem StepCase.referenced {op : Operation} (h : StepCase c s op s') (hop : op.isImport = false)
    (hs : Referenced s) : Referenced s' := by
  cases h with
  | aside h =>
    intro scope binding hbinding
    rw [h.authority] at hbinding
    exact (hs scope binding hbinding).retained h.retains
  | chain p _ _ _ h => exact Runs.chain_preserves (fun _ _ hab => hab.referenced) h hs
  | recover => cases hop

/-- In every state reached without imports each live binding is referentially sound. -/
theorem live_bindings_refer {ops : List Operation} (hops : ∀ op ∈ ops, op.isImport = false) :
    ∀ scope, ∀ binding ∈ (runOps c (init c) ops).authority.liveBindingsFor scope,
      BindingRefers (runOps c (init c) ops) binding := by
  have hboth : Coherent (runOps c (init c) ops) ∧ Referenced (runOps c (init c) ops) := by
    refine Runs.run_preserves (P := fun s => Coherent s ∧ Referenced s) (step c)
      (fun s op hs hop => ⟨(step_cases hs.1 op).coherent hs.1,
        (step_cases hs.1 op).referenced hop hs.2⟩)
      (Runs.along_of_forall (step c) hops) ⟨coherent_init c, ?_⟩
    intro scope binding hbinding
    cases hbinding
  intro scope binding hbinding
  exact hboth.2 scope binding (List.mem_of_mem_filter hbinding)

/-- A version serves the root as a canary of a rollout. -/
def canaryEntered : List Operation :=
  versionRegistered ++
    [.publishCompatibility ⟨1⟩ { key := [101] } .compatible [] .synthetic,
      .promote { model := ⟨1⟩, candidate := ⟨1⟩, scope := ⟨1⟩, environmentKey := [101] },
      .createRollout
        { model := ⟨1⟩, candidate := ⟨1⟩, rootScope := ⟨1⟩
          cohorts := [{ name := [99], scopes := [⟨1⟩] }]
          stages := [{ name := [115], cohortIndices := [0] }] },
      .beginRollout { rollout := ⟨1⟩ }]

theorem live_bindings_refer_witness :
    ∃ binding ∈ (runOps {} (init {}) canaryEntered).authority.liveBindingsFor ⟨1⟩,
      binding.rollout.valid = true ∧ BindingRefers (runOps {} (init {}) canaryEntered) binding := by
  have hserved : ∃ binding ∈ (runOps {} (init {}) canaryEntered).authority.liveBindingsFor ⟨1⟩,
      binding.rollout.valid = true := by
    decide +kernel
  obtain ⟨binding, hbinding, hvalid⟩ := hserved
  exact ⟨binding, hbinding, hvalid, live_bindings_refer (by decide) ⟨1⟩ binding hbinding⟩

end LifecycleFabric
