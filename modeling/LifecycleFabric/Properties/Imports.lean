import LifecycleFabric.Engine.Standing
import LifecycleFabric.Properties.Holders

/-!
# What an import leaves behind

An import of any durable state is refused without effect, or installs a state that is
sound, whatever the engine held before.
-/

namespace LifecycleFabric

open EngineState AuthorityTable

variable {c : EngineConfig} {s : EngineState}

/-- What an accepted import guarantees of the engine. -/
structure ImportedSoundly (d : DurableState) (newEpoch : CoordinatorEpoch) (s : EngineState) :
    Prop where
  newer : d.epoch < newEpoch
  epoch : s.epoch = newEpoch
  single : SingleHolder s
  serving : ∀ scope, ∀ binding ∈ s.authority.liveBindingsFor scope,
    ∃ record, s.versionOf binding.model binding.version = some record ∧
      record.retired = false ∧ binding.modelGeneration ≤ record.generation
  scopes : ∀ scope, ∀ binding ∈ s.authority.liveBindingsFor scope,
    binding.scope = scope ∧ (s.scopes.find scope).isSome = true
  leases : ∀ key lease, s.workers.get? key = some lease → lease.fenced = true
  attempts : ∀ key attempt, s.attempts.get? key = some attempt → attempt.state ≠ .dispatched

theorem mem_liveBindingsFor {table : AuthorityTable} {scope : ScopeId}
    {binding : AuthorityBinding} :
    binding ∈ table.liveBindingsFor scope ↔
      binding ∈ table.bindingsFor scope ∧ binding.live = true := by
  rw [liveBindingsFor, List.mem_filter]

/-- A scope a checked binding lies in is registered in the recovered tree. -/
theorem scope_of_restored {d : DurableState} {newEpoch : CoordinatorEpoch}
    {recovered : DurableState.Recovered} (h : d.Sound c s newEpoch recovered) {scope : ScopeId}
    {binding : AuthorityBinding} (hbinding : binding ∈ recovered.authority.bindingsFor scope) :
    (recovered.scopes.find scope).isSome = true := by
  obtain ⟨hscope, _, hmem⟩ := restored_binding h.authority hbinding
  have hrecords := (ScopeRegistry.TreeSound.of_restore
    (r := { maxScopes := c.bounds.maxScopes }) c.bounds.maxScopes_lt h.scopes).2
  have hchecked := restorableBinding_of_restored h.authority hbinding
  simp only [restorableBinding, Bool.and_eq_true] at hchecked
  have hvalid : scope.valid = true := hscope ▸ hchecked.1.1.1.1.1.2
  have hpos := Ident.valid_iff_pos.mp hvalid
  have hle := (h.bindings binding hmem).scope.1
  rw [hscope] at hle
  have hindex : scope.raw.toNat - 1 < recovered.scopes.records.length := by
    rw [hrecords]
    omega
  rw [ScopeRegistry.find, if_pos hvalid, List.getElem?_eq_getElem hindex]
  rfl

/-- Applying a sound state leaves a sound engine. -/
theorem importedSoundly_applyDurableState {d : DurableState} {newEpoch : CoordinatorEpoch}
    {recovered : DurableState.Recovered} (h : d.Sound c s newEpoch recovered) :
    ImportedSoundly d newEpoch (s.applyDurableState d newEpoch recovered) where
  newer := h.epoch
  epoch := rfl
  single := singleHolder_applyDurableState h
  serving scope binding hbinding := by
    obtain ⟨hmem, hlive⟩ := mem_liveBindingsFor.mp hbinding
    obtain ⟨record, hrecord, hle, hretired⟩ :=
      ((standing_applyDurableState h).bindings scope binding hmem).served
    exact ⟨record, hrecord, hretired hlive, hle⟩
  scopes scope binding hbinding := by
    obtain ⟨hmem, _⟩ := mem_liveBindingsFor.mp hbinding
    exact ⟨(restored_binding h.authority hmem).1, scope_of_restored h hmem⟩
  leases key lease hlease := by
    have hrecovered : (d.workerLeases.mapValues fun _ => WorkerLease.recovered d.sequence).get? key =
        some lease := hlease
    rw [OrdMap.get?_mapValues, Option.map_eq_some_iff] at hrecovered
    obtain ⟨before, _, rfl⟩ := hrecovered
    rfl
  attempts key attempt hattempt := by
    have hrecovered : (d.unsettledAttempts.mapValues fun _ => Attempt.recovered).get? key =
        some attempt := hattempt
    rw [OrdMap.get?_mapValues, Option.map_eq_some_iff] at hrecovered
    obtain ⟨before, _, rfl⟩ := hrecovered
    unfold Attempt.recovered
    split_ifs with hdispatched
    · exact fun h => by cases h
    · exact hdispatched

/-- An import is atomic, and what it accepts is sound: for every engine state, every
durable state and every epoch. -/
theorem import_atomic_and_sound (c : EngineConfig) (s : EngineState) (d : DurableState)
    (newEpoch : CoordinatorEpoch) :
    ((s.importDurableState c d newEpoch).2.allowed = false →
        (s.importDurableState c d newEpoch).1 = s) ∧
      ((s.importDurableState c d newEpoch).2.allowed = true →
        ImportedSoundly d newEpoch (s.importDurableState c d newEpoch).1) := by
  rcases importDurableState_cases c s d newEpoch with ⟨hsame, hrefused⟩ | ⟨recovered, hsound, heq⟩
  · refine ⟨fun _ => hsame, fun hallowed => ?_⟩
    rw [hrefused] at hallowed
    cases hallowed
  · rw [heq]
    refine ⟨fun hrefused => ?_, fun _ => importedSoundly_applyDurableState hsound⟩
    cases hrefused

end LifecycleFabric
