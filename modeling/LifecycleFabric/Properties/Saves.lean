import LifecycleFabric.Properties.StateFiles
import LifecycleFabric.StateFile.Save

/-!
# Interrupted saves

A crash in the middle of a save leaves what a prefix of its effects made of the disk. At every
moment the state file is the one of before or the one that is saved, except where the rename
over it fails and it is removed for the second attempt: then there is a moment without a state
file, which a load cannot tell from a first start.
-/

namespace LifecycleFabric.StateFile

open ByteCodec AtomicReplace Runs

variable {limits : DecodeLimits} {d : DurableState} {answers : SaveAnswers} {bytes : Bytes}
  {disk : Disk UInt8}

/-- Whether a save comes to replace the state file. -/
def SaveAnswers.replaces (answers : SaveAnswers) : Bool :=
  answers.directoryError.isNone && answers.opened && answers.flushed

/-- Whether a save that replaces the state file removes it before it has replaced it. -/
def SaveAnswers.loses (answers : SaveAnswers) : Bool := !answers.renamed && answers.removed

/-! ## The effects of a save -/

/-- A save that does not come to replace the state file leaves it alone and fails; the others
write the temporary first. -/
theorem save_cases (hencoded : serializeDurableState limits d = .ok bytes)
    (answers : SaveAnswers) :
    (answers.replaces = false ∧ (saveDurableState limits d answers).result ≠ .ok () ∧
      ∀ effect ∈ (saveDurableState limits d answers).effects, effect.spares = true) ∨
    (answers.replaces = true ∧
      (saveDurableState limits d answers).result = (replaceFile answers).result ∧
      (saveDurableState limits d answers).effects =
        writing answers.pieceSizes bytes true ++ (replaceFile answers).effects) := by
  simp only [saveDurableState, hencoded, SaveAnswers.replaces]
  cases answers.directoryError with
  | some message =>
    left
    refine ⟨rfl, by simp, ?_⟩
    intro effect heffect
    exact absurd heffect List.not_mem_nil
  | none =>
    cases hopened : answers.opened with
    | false =>
      left
      refine ⟨rfl, by simp, ?_⟩
      intro effect heffect
      exact absurd heffect List.not_mem_nil
    | true =>
      cases hflushed : answers.flushed with
      | false =>
        left
        exact ⟨rfl, by simp, spares_writing answers.pieceSizes bytes false⟩
      | true => exact .inr ⟨rfl, rfl, rfl⟩

/-- While the temporary, which holds what is saved, replaces the state file. -/
theorem always_replaceFile (answers : SaveAnswers) (disk : Disk UInt8) (bytes : Bytes) :
    Always Disk.apply (fun now => now.destination = disk.destination ∨
        now.destination = some bytes ∨ answers.loses = true ∧ now.destination = none)
      { disk with temporary := some bytes } (replaceFile answers).effects := by
  unfold replaceFile SaveAnswers.loses effectIf
  cases answers.renamed with
  | true => simp [always_cons, always_nil, Disk.apply]
  | false =>
    cases answers.removed <;> cases answers.retryError <;> cases answers.cleaned <;>
      simp [always_cons, always_nil, Disk.apply]

/-- Where a replacement ends. -/
theorem run_replaceFile (answers : SaveAnswers) (disk : Disk UInt8) (bytes : Bytes) :
    ((replaceFile answers).result = .ok () ∧
      (run Disk.apply { disk with temporary := some bytes }
        (replaceFile answers).effects).destination = some bytes) ∨
    ((replaceFile answers).result ≠ .ok () ∧
      (run Disk.apply { disk with temporary := some bytes }
        (replaceFile answers).effects).destination =
          if answers.loses then none else disk.destination) := by
  unfold replaceFile SaveAnswers.loses effectIf
  cases answers.renamed with
  | true => exact .inl ⟨rfl, rfl⟩
  | false =>
    cases answers.removed <;> cases answers.retryError <;> cases answers.cleaned <;>
      simp [Disk.apply]

/-- At every moment of a save the state file is as before or as it is saved, or it is gone. -/
theorem always_save (hencoded : serializeDurableState limits d = .ok bytes)
    (answers : SaveAnswers) (disk : Disk UInt8) :
    Always Disk.apply (fun now => now.destination = disk.destination ∨
        now.destination = some bytes ∨
          (answers.replaces = true ∧ answers.loses = true) ∧ now.destination = none)
      disk (saveDurableState limits d answers).effects := by
  rcases save_cases hencoded answers with ⟨_, _, hspares⟩ | ⟨hreplaces, _, heffects⟩
  · exact (always_destination hspares disk).imp Disk.apply fun _ hnow => .inl hnow
  · rw [heffects, always_append, run_writing]
    constructor
    · refine (always_destination (spares_writing _ bytes true) disk).imp Disk.apply ?_
      intro now hnow
      exact .inl hnow
    · refine (always_replaceFile answers disk bytes).imp Disk.apply ?_
      rintro now (hnow | hnow | ⟨hloses, hnow⟩)
      · exact .inl hnow
      · exact .inr (.inl hnow)
      · exact .inr (.inr ⟨⟨hreplaces, hloses⟩, hnow⟩)

/-- A save that returns a success has replaced the state file. One that fails has left it as it
was, or none where it was removed. -/
theorem run_save (hencoded : serializeDurableState limits d = .ok bytes)
    (answers : SaveAnswers) (disk : Disk UInt8) :
    ((saveDurableState limits d answers).result = .ok () ∧
      (run Disk.apply disk (saveDurableState limits d answers).effects).destination =
        some bytes) ∨
    ((saveDurableState limits d answers).result ≠ .ok () ∧
      (run Disk.apply disk (saveDurableState limits d answers).effects).destination =
        if answers.replaces && answers.loses then none else disk.destination) := by
  rcases save_cases hencoded answers with
    ⟨hstops, hfails, hspares⟩ | ⟨hreplaces, hresult, heffects⟩
  · refine .inr ⟨hfails, ?_⟩
    rw [hstops]
    exact always_destination hspares disk _ List.prefix_rfl
  · rw [heffects, hresult, hreplaces, run_append, run_writing]
    exact run_replaceFile answers disk bytes

/-- A save that removes the state file before it has replaced it leaves none at that moment. -/
theorem lost_moment (hencoded : serializeDurableState limits d = .ok bytes)
    (hreplaces : answers.replaces = true) (hloses : answers.loses = true) :
    ∃ before, before <+: (saveDurableState limits d answers).effects ∧
      (run Disk.apply disk before).destination = none := by
  rcases save_cases hencoded answers with ⟨hstops, _⟩ | ⟨_, _, heffects⟩
  · rw [hreplaces] at hstops
    exact absurd hstops.symm Bool.false_ne_true
  · obtain ⟨hrename, hremoved⟩ : answers.renamed = false ∧ answers.removed = true := by
      simpa [SaveAnswers.loses] using hloses
    refine ⟨writing answers.pieceSizes bytes true ++ [.removeDestination], ?_, ?_⟩
    · rw [heffects]
      refine (List.prefix_append_right_inj _).mpr ?_
      simp only [replaceFile, hrename, hremoved, effectIf]
      cases answers.retryError with
      | none => exact ⟨_, rfl⟩
      | some message => exact ⟨_, rfl⟩
    · rw [run_append, run_writing]
      rfl

/-! ## Loads -/

/-- What was saved of a state that the decoder allows is loaded, where the size of the largest
file fits in 64 bits. -/
theorem load_fileBytes (hlimits : limits.maxPayloadBytes + kHeaderSize + kTrailerSize < 2 ^ 64)
    (h : Storable limits d) :
    loadDurableState limits (some (fileBytes d)) {} = .ok d := by
  have hsize : (fileBytes d).length = kHeaderSize + (writePayload d).length + kTrailerSize := by
    rw [fileBytes, length_sealFrame, List.length_append, length_fileHeader]
    rfl
  have hpayload := h.payload
  have hbound : sizeWord (limits.maxPayloadBytes + kHeaderSize + kTrailerSize) =
      limits.maxPayloadBytes + kHeaderSize + kTrailerSize := Nat.mod_eq_of_lt hlimits
  have hempty : (fileBytes d).length ≠ 0 := by
    rw [hsize]
    simp [kHeaderSize]
  simp only [loadDurableState, Bool.not_true, Bool.false_eq_true, if_false]
  rw [if_neg hempty, if_neg (by omega)]
  exact (deserialize_fileBytes h.proper h.format h.payload h.carried d).mpr
    ⟨rfl, h.within, h.agree⟩

/-- Wherever a crash interrupts the save of a state, a load finds what it found before or the
state, unless the state file is gone. There is a moment without it exactly when there was none
before, or when the rename over it fails after everything was written and its removal takes
effect. A save that returns a success is what a load finds afterwards; one that fails leaves the
state file as it was, or none if it was removed. -/
theorem interrupted_save
    (hlimits : limits.maxPayloadBytes + kHeaderSize + kTrailerSize < 2 ^ 64)
    (h : Storable limits d) (answers : SaveAnswers) (disk : Disk UInt8) :
    (∀ before, before <+: (saveDurableState limits d answers).effects →
      loadDurableState limits (run Disk.apply disk before).destination {} =
          loadDurableState limits disk.destination {} ∨
        loadDurableState limits (run Disk.apply disk before).destination {} = .ok d ∨
        (run Disk.apply disk before).destination = none) ∧
    ((∃ before, before <+: (saveDurableState limits d answers).effects ∧
        (run Disk.apply disk before).destination = none) ↔
      disk.destination = none ∨ answers.replaces = true ∧ answers.loses = true) ∧
    ((saveDurableState limits d answers).result = .ok () →
      loadDurableState limits
        (run Disk.apply disk (saveDurableState limits d answers).effects).destination {} =
          .ok d) ∧
    ((saveDurableState limits d answers).result ≠ .ok () →
      (run Disk.apply disk (saveDurableState limits d answers).effects).destination =
        if answers.replaces && answers.loses then none else disk.destination) := by
  have hencoded : serializeDurableState limits d = .ok (fileBytes d) :=
    serialize_eq_ok_iff.mpr ⟨h.counts, h.payload, rfl⟩
  have halways := always_save hencoded answers disk
  refine ⟨?_, ⟨?_, ?_⟩, ?_, ?_⟩
  · intro before hbefore
    rcases halways before hbefore with hsame | hsaved | ⟨_, hgone⟩
    · exact .inl (by rw [hsame])
    · exact .inr (.inl (by rw [hsaved, load_fileBytes hlimits h]))
    · exact .inr (.inr hgone)
  · rintro ⟨before, hbefore, hgone⟩
    rcases halways before hbefore with hsame | hsaved | ⟨hloses, _⟩
    · exact .inl (hsame.symm.trans hgone)
    · rw [hgone] at hsaved
      exact absurd hsaved.symm (Option.some_ne_none _)
    · exact .inr hloses
  · rintro (hnone | ⟨hreplaces, hloses⟩)
    · exact ⟨[], List.nil_prefix, hnone⟩
    · exact lost_moment hencoded hreplaces hloses
  · intro hok
    rcases run_save hencoded answers disk with ⟨_, hsaved⟩ | ⟨hfails, _⟩
    · rw [hsaved, load_fileBytes hlimits h]
    · exact absurd hok hfails
  · intro hfails
    rcases run_save hencoded answers disk with ⟨hok, _⟩ | ⟨_, hleft⟩
    · exact absurd hok hfails
    · exact hleft

theorem interrupted_save_witness :
    ∃ before, before <+: (saveDurableState {} recordedPlan { renamed := false }).effects ∧
      (run Disk.apply { destination := some (fileBytes {}) } before).destination = none :=
  (interrupted_save (by decide) recordedPlan_storable { renamed := false }
    { destination := some (fileBytes {}) }).2.1.mpr (.inr ⟨rfl, rfl⟩)

/-! ## States without plans -/

instance decidableWithinState (limits : DecodeLimits) (d : DurableState) :
    Decidable (WithinState limits d) :=
  decidable_of_iff
    ((d.scopes.length ≤ limits.maxScopes ∧
        (Fits limits.maxScopes d.policyOverrides.size ∧
          ∀ o ∈ d.policyOverrides.values, withinOverride o) ∧
        ∀ scope ∈ d.scopes, withinScope limits scope) ∧
      withinPolicy limits d.basePolicy ∧
      (d.models.size ≤ limits.maxModels ∧ ∀ r ∈ d.models.values, withinModel limits r) ∧
      (d.versions.size ≤ limits.maxVersions ∧ ∀ r ∈ d.versions.values, withinVersion limits r) ∧
      (d.compatibility.size ≤ limits.maxCompatibilityFacts ∧
        ∀ f ∈ d.compatibility.values, withinFact limits f) ∧
      (d.rollouts.size ≤ limits.maxRollouts ∧
        ∀ plan ∈ d.rollouts.values, withinPlan limits plan) ∧
      (∀ bindings ∈ d.authority.values, withinGrants limits bindings) ∧
      (d.workerLeases.size ≤ limits.maxWorkers ∧
        ∀ lease ∈ d.workerLeases.values, withinLease limits lease) ∧
      (d.evidence.length ≤ limits.maxEvidence ∧ ∀ r ∈ d.evidence, withinEvidence limits r) ∧
      (d.unsettledAttempts.size ≤ limits.maxAttempts ∧
        ∀ a ∈ d.unsettledAttempts.values, withinAttempt limits a) ∧
      (Fits (sizeWord (limits.maxModels * 64)) d.committedPromotions.size ∧
        Fits (sizeWord (limits.maxModels * 64)) d.committedRollbacks.size) ∧
      withinAllocators d)
    ⟨fun ⟨h1, h2, h3, h4, h5, h6, h7, h8, h9, h10, h11, h12⟩ =>
        ⟨h1, h2, h3, h4, h5, h6, h7, h8, h9, h10, h11, h12⟩,
      fun h => ⟨h.scopes, h.policy, h.models, h.versions, h.facts, h.plans, h.grants, h.leases,
        h.evidence, h.attempts, h.commits, h.allocators⟩⟩

instance decidableWithinCounts (limits : DecodeLimits) (d : DurableState) :
    Decidable (withinCounts limits d) :=
  inferInstanceAs (Decidable (_ ∧ _))

/-- What is computed of a state without plans to see that it can be stored: its entries are filed
under the keys that go with them, and it is within the limits. -/
def storable (limits : DecodeLimits) (d : DurableState) : Bool :=
  d.rollouts.entries.isEmpty &&
    (d.policyOverrides.entries.all fun e => decide (e.2.scope.raw = e.1)) &&
    (d.models.entries.all fun e => decide (e.2.id.raw = e.1)) &&
    (d.versions.entries.all fun e => decide (versionKey e.2.model e.2.version = e.1)) &&
    (d.compatibility.entries.all fun e =>
      decide (CompatibilityRegistry.keyOf e.2.version e.2.environmentKey = e.1)) &&
    (d.authority.entries.all fun e =>
      decide ((∃ b ∈ e.2.head?, b.scope.raw = e.1) ∧ ∀ b ∈ e.2, b.live = true)) &&
    (d.workerLeases.entries.all fun e => decide (e.2.id.raw = e.1)) &&
    (d.unsettledAttempts.entries.all fun e => decide (e.2.id.raw = e.1)) &&
    decide (d.formatVersion = stateFormatVersion) &&
    (decide (withinCounts limits d) && decide (WithinState limits d) && sectionsAgree d &&
      decide ((writePayload d).length ≤ min limits.maxPayloadBytes (2 ^ 32 - 1)))

theorem storable_of_check (h : storable limits d = true) : Storable limits d := by
  simp only [storable, Bool.and_eq_true, decide_eq_true_eq, List.all_eq_true, List.isEmpty_iff,
    le_min_iff] at h
  obtain ⟨⟨⟨⟨⟨⟨⟨⟨⟨hplans, hoverrides⟩, hmodels⟩, hversions⟩, hfacts⟩, hgrants⟩, hleases⟩, hattempts⟩,
    hformat⟩, ⟨⟨hcounts, hwithin⟩, hagree⟩, hbound, hcarried⟩ := h
  have hnone : ∀ plan ∈ d.rollouts.values, properPlan plan := by
    intro plan hplan
    rw [OrdMap.values, hplans] at hplan
    cases hplan
  have hunfiled : ∀ e ∈ d.rollouts.entries, e.2.id.raw = e.1 := by
    rw [hplans]
    exact List.forall_mem_nil _
  constructor
  · exact {
      overrides := OrdMap.of_entries hoverrides
      models := OrdMap.of_entries hmodels
      versions := OrdMap.of_entries hversions
      facts := OrdMap.of_entries hfacts
      plans := OrdMap.of_entries hunfiled
      numbers := hnone
      grants := OrdMap.of_entries hgrants
      leases := OrdMap.of_entries hleases
      attempts := OrdMap.of_entries hattempts }
  · exact hformat
  · exact hcounts
  · exact hbound
  · omega
  · exact hwithin
  · exact hagree

end LifecycleFabric.StateFile
