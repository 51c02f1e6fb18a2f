import LifecycleFabric.StateFile.Sections

/-!
# What is read of a written state

For each record and each section: the bounds its reader puts on it, and that the reader takes
what was written back when these hold, and refuses it otherwise.
-/

namespace LifecycleFabric.StateFile

open ByteCodec Wire Validation

variable {limits : DecodeLimits} {d : DurableState} {bytes : Bytes}

/-! ## Writing -/

/-- The counts that are checked before a state is written. -/
def withinCounts (limits : DecodeLimits) (d : DurableState) : Prop :=
  d.scopes.length ≤ limits.maxScopes ∧ d.models.size ≤ limits.maxModels ∧
    d.versions.size ≤ limits.maxVersions ∧
    d.compatibility.size ≤ limits.maxCompatibilityFacts ∧
    d.rollouts.size ≤ limits.maxRollouts ∧
    d.authority.values.flatten.length ≤ limits.maxAuthorityBindings ∧
    d.workerLeases.size ≤ limits.maxWorkers ∧ d.evidence.length ≤ limits.maxEvidence ∧
    d.unsettledAttempts.size ≤ limits.maxAttempts

/-- The bytes of a state file. -/
def fileBytes (d : DurableState) : Bytes :=
  sealFrame (fileHeader d (writePayload d) ++ writePayload d)

/-- A state is encoded when its counts and its payload are within the limits. -/
theorem serialize_eq_ok_iff :
    serializeDurableState limits d = .ok bytes ↔
      withinCounts limits d ∧ (writePayload d).length ≤ limits.maxPayloadBytes ∧
        bytes = fileBytes d := by
  simp only [serializeDurableState, within, bind_ok, ensure_ok, withinCounts, fileBytes]
  constructor
  · rintro ⟨_, h1, _, h2, _, h3, _, h4, _, h5, _, h6, _, h7, _, h8, _, h9, _, h10, h⟩
    exact ⟨⟨h1, h2, h3, h4, h5, h6, h7, h8, h9⟩, h10, (Except.ok.inj h).symm⟩
  · rintro ⟨⟨h1, h2, h3, h4, h5, h6, h7, h8, h9⟩, h10, rfl⟩
    exact ⟨(), h1, (), h2, (), h3, (), h4, (), h5, (), h6, (), h7, (), h8, (), h9, (), h10, rfl⟩

@[simp] theorem length_fileHeader {payload : Bytes} :
    (fileHeader d payload).length = kHeaderSize := by
  simp [fileHeader, kMagic, text, kHeaderSize]

/-- The length field of a file. -/
theorem readAt_fileHeader {payload : Bytes} (tail : Bytes) :
    readAt (fileHeader d payload ++ tail) 8 4 = payload.length % 2 ^ 32 := by
  have hdata : fileHeader d payload ++ tail =
      (kMagic ++ (word 2 d.formatVersion.toNat ++ word 2 0)) ++
        (word 4 payload.length ++ tail) := by
    simp [fileHeader]
  rw [hdata, readAt_append (by simp [kMagic, text])]
  norm_num

end LifecycleFabric.StateFile
