import LifecycleFabric.Engine.Reachable
import LifecycleFabric.AuthorityRoom
import LifecycleFabric.ScopeTree

/-!
# The standing of bindings

In every reachable state the bindings of the authority table are well formed and name
stored versions, a live binding names one that is not retired, and the scope tree has its
shape. With coherence this is what the decisions of the composite operations rest on.
-/

namespace LifecycleFabric

open EngineState AuthorityTable

variable {c : EngineConfig} {p : Permit} {s s' : EngineState}

/-- A binding names a stored version at no later generation; a live one names a version
that is not retired. -/
structure BindingStands (s : EngineState) (binding : AuthorityBinding) : Prop where
  sound : malformed binding = none
  served : ∃ record, s.versionOf binding.model binding.version = some record ∧
    binding.modelGeneration ≤ record.generation ∧
    (binding.live = true → record.retired = false)

/-- What holds of versions, bindings and scopes in every reachable state. -/
structure Standing (s : EngineState) : Prop where
  generations : ∀ key record, s.versions.get? key = some record → record.generation.valid = true
  bindings : ∀ scope, ∀ binding ∈ s.authority.bindingsFor scope, BindingStands s binding
  tree : s.scopes.TreeSound

/-! ## Weakening -/

theorem BindingStands.weakens {before after : AuthorityBinding} (h : BindingStands s before)
    (hweakens : before.Weakens after) : BindingStands s after := by
  have hsame := hweakens.same
  obtain ⟨hscope, hmodel, hversion, hgeneration, _, _, _, hscopeGeneration⟩ := hsame
  refine ⟨?_, ?_⟩
  · rw [malformed_congr hscope hmodel hversion hgeneration hscopeGeneration]
    exact h.sound
  · obtain ⟨record, hrecord, hle, hlive⟩ := h.served
    rw [hmodel, hversion, hgeneration]
    exact ⟨record, hrecord, hle, fun hafter => hlive (hweakens.live_of_live hafter)⟩

/-- Bindings stand when every version they name does. -/
theorem BindingStands.of_versions {binding : AuthorityBinding} (h : BindingStands s binding)
    (hversions : ∀ record, s.versionOf binding.model binding.version = some record →
      ∃ record', s'.versionOf binding.model binding.version = some record' ∧
        record.generation ≤ record'.generation ∧
        (binding.live = true → record.retired = false → record'.retired = false)) :
    BindingStands s' binding := by
  obtain ⟨record, hrecord, hle, hlive⟩ := h.served
  obtain ⟨record', hrecord', hgrown, hkept⟩ := hversions record hrecord
  exact ⟨h.sound, record', hrecord', hle.trans hgrown, fun hl => hkept hl (hlive hl)⟩

/-! ## Effects -/

/-- An edit of one version keeps what a binding needs of it. -/
private theorem stands_modifyVersion {binding : AuthorityBinding} {model : ModelId}
    {version : ModelVersionId} {f : ModelVersionRecord → ModelVersionRecord}
    (h : BindingStands s binding)
    (hf : ∀ record, s.versionOf model version = some record →
      record.generation ≤ (f record).generation ∧
        (binding.live = true → binding.ofVersion model version = true →
          record.retired = false → (f record).retired = false)) :
    BindingStands (s.modifyVersion model version f) binding := by
  refine h.of_versions ?_
  intro record hrecord
  rw [versionOf_modifyVersion, hrecord]
  refine ⟨_, rfl, ?_⟩
  split_ifs with hsame
  · obtain ⟨hmodel, hversion⟩ := hsame
    rw [hmodel, hversion] at hrecord
    obtain ⟨hgrown, hkept⟩ := hf record hrecord
    have hown : binding.ofVersion model version = true := by
      simp [AuthorityBinding.ofVersion, hmodel, hversion]
    exact ⟨hgrown, fun hlive => hkept hlive hown⟩
  · exact ⟨le_rfl, fun _ h => h⟩

private theorem generations_modifyVersion {model : ModelId} {version : ModelVersionId}
    {f : ModelVersionRecord → ModelVersionRecord} (hs : Standing s)
    (hf : ∀ record, s.versionOf model version = some record →
      record.generation ≤ (f record).generation) (key : VersionKey) (record : ModelVersionRecord)
    (hrecord : (s.modifyVersion model version f).versions.get? key = some record) :
    record.generation.valid = true := by
  simp only [modifyVersion, OrdMap.get?_modify, Option.map_eq_some_iff] at hrecord
  obtain ⟨before, hbefore, rfl⟩ := hrecord
  have hvalid := hs.generations key before hbefore
  split_ifs with hkey
  · exact Ident.valid_of_le hvalid (hf before (by rw [versionOf, ← hkey, hbefore]))
  · exact hvalid

/-- A lifecycle move keeps the generation of the content. -/
theorem advance_generation (record : ModelVersionRecord) (target : LifecycleState) :
    (record.advanceLifecycleTo target).1.generation = record.generation := by
  obtain ⟨_, _, heq⟩ := ModelVersionRecord.same_of_transitions
    (record.advanceLifecycleTo_chain target)
  rw [heq]

theorem Effect.standing (h : Effect c p s s') (hs : Standing s) : Standing s' := by
  cases h with
  | editVersion model version f hf =>
    refine ⟨generations_modifyVersion hs fun record hrecord => (hf record hrecord).same.2.2.2, ?_,
      hs.tree⟩
    intro scope binding hbinding
    refine stands_modifyVersion (hs.bindings scope binding hbinding) ?_
    intro record hrecord
    obtain ⟨_, _, hretired, hgrown⟩ := (hf record hrecord).same
    refine ⟨hgrown, fun _ _ hkept => ?_⟩
    rw [Bool.eq_false_iff, ne_eq, hretired, hkept]
    exact Bool.false_ne_true
  | retire model version _ hfree =>
    refine ⟨generations_modifyVersion hs fun record _ => (advance_generation record _).ge, ?_,
      hs.tree⟩
    intro scope binding hbinding
    refine stands_modifyVersion (hs.bindings scope binding hbinding) ?_
    intro record _
    refine ⟨(advance_generation record _).ge, fun hlive hown => ?_⟩
    rw [hfree scope binding hbinding hown] at hlive
    cases hlive
  | touch scope =>
    exact ⟨hs.generations, fun scope binding hbinding => ⟨(hs.bindings scope binding hbinding).sound,
      (hs.bindings scope binding hbinding).served⟩, hs.tree.touch scope⟩
  | weaken table htable =>
    refine ⟨hs.generations, ?_, hs.tree⟩
    intro scope binding hbinding
    obtain ⟨origin, horigin, hweakens⟩ := htable.exists_before hbinding
    have hstands := (hs.bindings scope origin horigin).weakens hweakens
    exact ⟨hstands.sound, hstands.served⟩
  | append mid binding hmid _ hbinding _ =>
    refine ⟨hs.generations, ?_, hs.tree⟩
    intro scope b hb
    rcases mem_bindingsFor_push.mp hb with hb | ⟨_, rfl⟩
    · obtain ⟨origin, horigin, hweakens⟩ := hmid.exists_before hb
      have hstands := (hs.bindings scope origin horigin).weakens hweakens
      exact ⟨hstands.sound, hstands.served⟩
    · obtain ⟨record, hrecord, hretired⟩ := hbinding.version
      refine ⟨hbinding.sound, record, hrecord, ?_, fun _ => hretired⟩
      rcases hbinding.origin with ⟨⟨own, hown, hgeneration⟩, _⟩ |
        ⟨source, hsource, hmodel, hversion, hgeneration, _⟩
      · rw [hrecord] at hown
        obtain rfl := Option.some.inj hown
        exact hgeneration.le
      · obtain ⟨own, hown, hle, _⟩ := (hs.bindings _ source hsource).served
        rw [hmodel, hversion, hrecord] at hown
        obtain rfl := Option.some.inj hown
        exact hgeneration ▸ hle
  | _ =>
    exact ⟨hs.generations, fun scope binding hbinding => ⟨(hs.bindings scope binding hbinding).sound,
      (hs.bindings scope binding hbinding).served⟩, hs.tree⟩

theorem Chain.standing (h : Chain c p s s') (hs : Standing s) : Standing s' :=
  Runs.chain_preserves (fun _ _ hab => hab.standing) h hs

/-! ## Operations that leave authority alone -/

theorem Aside.standing (h : Aside c s s') (hs : Standing s) : Standing s' where
  generations key record hrecord := by
    cases hstored : s.versions.get? key with
    | none => exact (h.newVersions key record hrecord hstored).2.2
    | some stored =>
      obtain ⟨record', hrecord', hedits⟩ := h.versions key stored hstored
      obtain rfl := Option.some.inj (hrecord'.symm.trans hrecord)
      exact Ident.valid_of_le (hs.generations key stored hstored)
        (VersionEdit.same_of_chain hedits).2.2.2
  bindings scope binding hbinding := by
    rw [h.authority] at hbinding
    refine (hs.bindings scope binding hbinding).of_versions ?_
    intro record hrecord
    obtain ⟨record', hrecord', hedits⟩ := h.versions _ record hrecord
    obtain ⟨_, _, hretired, hgrown⟩ := VersionEdit.same_of_chain hedits
    refine ⟨record', hrecord', hgrown, fun _ hkept => ?_⟩
    rw [Bool.eq_false_iff, ne_eq, hretired, hkept]
    exact Bool.false_ne_true
  tree := hs.tree.grows h.scopes

/-! ## Recovery -/

/-- A binding of a recovered table was checked. -/
theorem restorableBinding_of_restored {table restored : AuthorityTable}
    {bindings : OrdMap UInt64 (List AuthorityBinding)}
    (h : table.restore bindings = some restored) {scope : ScopeId} {binding : AuthorityBinding}
    (hbinding : binding ∈ restored.bindingsFor scope) :
    restorableBinding scope.raw binding = true := by
  obtain ⟨rfl, hall⟩ := restored_authority h
  unfold bindingsFor at hbinding
  cases hlist : bindings.get? scope.raw with
  | none =>
    rw [hlist] at hbinding
    cases hbinding
  | some list =>
    rw [hlist, Option.getD_some] at hbinding
    have hscope := hall scope.raw list hlist
    simp only [restorableScope, Bool.and_eq_true, List.all_eq_true] at hscope
    exact hscope.1.2 binding hbinding

theorem standing_applyDurableState {d : DurableState} {newEpoch : CoordinatorEpoch}
    {recovered : DurableState.Recovered} (h : d.Sound c s newEpoch recovered) :
    Standing (s.applyDurableState d newEpoch recovered) where
  generations _ _ hrecord :=
    (versionSound_of_restored h.versionLabels _ (OrdMap.get?_eq_some_iff.mp hrecord)).generation
  bindings scope binding hbinding := by
    have hchecked := restorableBinding_of_restored h.authority hbinding
    simp only [restorableBinding, Bool.and_eq_true, decide_eq_true_eq, Bool.not_eq_true']
      at hchecked
    obtain ⟨⟨⟨⟨⟨⟨_, hscope⟩, hmodel⟩, hversion⟩, hgeneration⟩, hscopeGeneration⟩, _⟩ := hchecked
    have hbindingSound := h.bindings binding (restored_binding h.authority hbinding).2.2
    obtain ⟨record, hrecord, hretired, hle⟩ := hbindingSound.version
    exact ⟨malformed_eq_none_iff.mpr ⟨hscope, hversion, hmodel, hgeneration, hscopeGeneration⟩,
      record, hrecord, hle, fun _ => hretired⟩
  tree := (ScopeRegistry.TreeSound.of_restore (r := { maxScopes := c.bounds.maxScopes })
    c.bounds.maxScopes_lt h.scopes).1

/-! ## Reachable states -/

theorem standing_init (c : EngineConfig) : Standing (init c) where
  generations key record hrecord := by cases hrecord
  bindings scope binding hbinding := by cases hbinding
  tree := ScopeRegistry.TreeSound.init c.bounds.maxScopes_lt

theorem StepCase.standing {op : Operation} (h : StepCase c s op s') (hs : Standing s) :
    Standing s' := by
  cases h with
  | aside h => exact h.standing hs
  | chain p _ _ _ h => exact h.standing hs
  | recover d newEpoch recovered h => exact standing_applyDurableState h

theorem EngineState.ReachableState.standing (h : ReachableState c s) : Standing s := by
  have hboth : Coherent s ∧ Standing s :=
    Runs.reachable_invariant (P := fun s => Coherent s ∧ Standing s) (step c)
      (fun _ op hs => ⟨(step_cases hs.1 op).coherent hs.1, (step_cases hs.1 op).standing hs.2⟩)
      ⟨coherent_init c, standing_init c⟩ h
  exact hboth.2

end LifecycleFabric
