import Mathlib

/-!
# Identities, generations and texts

Every identity and generation of the fabric is a 64-bit value under a tag that
keeps the kinds apart. Zero is never issued, so zero marks an absent value.
Generations saturate at their maximum rather than wrapping.
-/

namespace LifecycleFabric

/-- 64-bit words in numeric order. -/
instance uint64LinearOrder : LinearOrder UInt64 where
  le_refl := UInt64.le_refl
  le_trans _ _ _ := UInt64.le_trans
  lt_iff_le_not_ge a b := by
    simp only [UInt64.lt_iff_toNat_lt, UInt64.le_iff_toNat_le]
    omega
  le_antisymm _ _ := UInt64.le_antisymm
  le_total := UInt64.le_total
  toDecidableLE := inferInstance
  toDecidableLT := inferInstance
  toDecidableEq := inferInstance

/-- 16-bit words in numeric order. -/
instance uint16LinearOrder : LinearOrder UInt16 where
  le_refl := UInt16.le_refl
  le_trans _ _ _ := UInt16.le_trans
  lt_iff_le_not_ge a b := by
    simp only [UInt16.lt_iff_toNat_lt, UInt16.le_iff_toNat_le]
    omega
  le_antisymm _ _ := UInt16.le_antisymm
  le_total := UInt16.le_total
  toDecidableLE := inferInstance
  toDecidableLT := inferInstance
  toDecidableEq := inferInstance

/-- Bytes in numeric order. -/
instance uint8LinearOrder : LinearOrder UInt8 where
  le_refl := UInt8.le_refl
  le_trans _ _ _ := UInt8.le_trans
  lt_iff_le_not_ge a b := by
    simp only [UInt8.lt_iff_toNat_lt, UInt8.le_iff_toNat_le]
    omega
  le_antisymm _ _ := UInt8.le_antisymm
  le_total := UInt8.le_total
  toDecidableLE := inferInstance
  toDecidableLT := inferInstance
  toDecidableEq := inferInstance

/-! ## Texts -/

/-- A byte string, as `std::string` holds it. Texts compare bytewise. -/
abbrev Text := List UInt8

/-- The bytes of an ASCII literal. -/
def text (literal : String) : Text := literal.toList.map fun c => UInt8.ofNat c.toNat

/-- `std::to_string` of an unsigned value: its decimal digits. -/
def decimal (n : ℕ) : Text :=
  if n = 0 then [48] else (Nat.digits 10 n).reverse.map fun d => UInt8.ofNat (48 + d)

/-- Whether a byte is an ASCII letter or digit. -/
def isAlphanumeric (c : UInt8) : Bool :=
  (97 ≤ c && c ≤ 122) || (65 ≤ c && c ≤ 90) || (48 ≤ c && c ≤ 57)

/-! ## Identities -/

/-- The kinds of identity and generation. -/
inductive IdTag
  | modelId | modelVersionId | modelGeneration | artifactSetId | artifactGeneration
  | lifecycleGeneration | promotionId | promotionGeneration | rollbackId | rollbackGeneration
  | rolloutId | rolloutGeneration | rolloutStageId | rolloutStageGeneration | cohortId
  | scopeId | scopeGeneration | replicaId | replicaGeneration | residencyGeneration
  | compatibilityGeneration | policyGeneration | evidenceGeneration | evidenceId
  | workerId | workerBootId | coordinatorEpoch | snapshotGeneration | sequence | attemptId

/-- A 64-bit identity or generation of one kind. -/
@[ext]
structure Ident (tag : IdTag) where
  /-- The raw value; zero when absent. -/
  raw : UInt64 := 0
  deriving DecidableEq

abbrev ModelId := Ident .modelId
abbrev ModelVersionId := Ident .modelVersionId
abbrev ModelGeneration := Ident .modelGeneration
abbrev ArtifactSetId := Ident .artifactSetId
abbrev ArtifactGeneration := Ident .artifactGeneration
abbrev LifecycleGeneration := Ident .lifecycleGeneration
abbrev PromotionId := Ident .promotionId
abbrev PromotionGeneration := Ident .promotionGeneration
abbrev RollbackId := Ident .rollbackId
abbrev RollbackGeneration := Ident .rollbackGeneration
abbrev RolloutId := Ident .rolloutId
abbrev RolloutGeneration := Ident .rolloutGeneration
abbrev RolloutStageId := Ident .rolloutStageId
abbrev RolloutStageGeneration := Ident .rolloutStageGeneration
abbrev CohortId := Ident .cohortId
abbrev ScopeId := Ident .scopeId
abbrev ScopeGeneration := Ident .scopeGeneration
abbrev ReplicaId := Ident .replicaId
abbrev ReplicaGeneration := Ident .replicaGeneration
abbrev ResidencyGeneration := Ident .residencyGeneration
abbrev CompatibilityGeneration := Ident .compatibilityGeneration
abbrev PolicyGeneration := Ident .policyGeneration
abbrev EvidenceGeneration := Ident .evidenceGeneration
abbrev EvidenceId := Ident .evidenceId
abbrev WorkerId := Ident .workerId
abbrev WorkerBootId := Ident .workerBootId
abbrev CoordinatorEpoch := Ident .coordinatorEpoch
abbrev SnapshotGeneration := Ident .snapshotGeneration
abbrev Sequence := Ident .sequence
abbrev AttemptId := Ident .attemptId

/-- The first generation of anything. -/
def firstGeneration : UInt64 := 1

namespace Ident

variable {tag : IdTag} {a b : Ident tag}

instance : Inhabited (Ident tag) := ⟨{}⟩

instance : LinearOrder (Ident tag) :=
  LinearOrder.lift' Ident.raw fun _ _ h => Ident.ext h

instance : LawfulBEq (Ident tag) := inferInstance

/-- An identity is valid when it is not zero. -/
def valid (a : Ident tag) : Bool := a.raw != 0

/-- The identity as text. -/
def toText (a : Ident tag) : Text := decimal a.raw.toNat

/-- The next generation: one more, saturating at the maximum. -/
def nextGeneration (a : Ident tag) : Ident tag :=
  if a.raw < a.raw + 1 then ⟨a.raw + 1⟩ else ⟨0xFFFFFFFFFFFFFFFF⟩

/-- A generation that has reached its maximum no longer advances. -/
def Saturated (a : Ident tag) : Prop := a.raw = 0xFFFFFFFFFFFFFFFF

instance : Decidable a.Saturated := inferInstanceAs (Decidable (_ = _))

theorem lt_iff_toNat : a < b ↔ a.raw.toNat < b.raw.toNat := UInt64.lt_iff_toNat_lt

theorem le_iff_toNat : a ≤ b ↔ a.raw.toNat ≤ b.raw.toNat := UInt64.le_iff_toNat_le

theorem eq_iff_toNat : a = b ↔ a.raw.toNat = b.raw.toNat := by
  rw [Ident.ext_iff, ← UInt64.toNat_inj]

theorem valid_iff_ne : a.valid = true ↔ a ≠ {} := by
  simp [valid, Ident.ext_iff]

theorem valid_iff_pos : a.valid = true ↔ 0 < a.raw.toNat := by
  rw [valid_iff_ne, ne_eq, eq_iff_toNat]
  simp only [UInt64.toNat_zero]
  omega

theorem valid_of_le (ha : a.valid = true) (hab : a ≤ b) : b.valid = true := by
  rw [valid_iff_pos] at ha ⊢
  rw [le_iff_toNat] at hab
  omega

theorem saturated_iff_toNat : a.Saturated ↔ a.raw.toNat = 2 ^ 64 - 1 := by
  rw [Saturated, ← UInt64.toNat_inj]
  rfl

theorem toNat_nextGeneration (a : Ident tag) :
    a.nextGeneration.raw.toNat = min (a.raw.toNat + 1) (2 ^ 64 - 1) := by
  have hbound := a.raw.toNat_lt
  have hsum : (a.raw + 1).toNat = (a.raw.toNat + 1) % 2 ^ 64 := UInt64.toNat_add _ _
  unfold nextGeneration
  split_ifs with h
  · rw [UInt64.lt_iff_toNat_lt] at h
    simp only at hsum ⊢
    omega
  · rw [UInt64.lt_iff_toNat_lt] at h
    change (18446744073709551615 : ℕ) = _
    omega

theorem le_nextGeneration (a : Ident tag) : a ≤ a.nextGeneration := by
  have hbound := a.raw.toNat_lt
  rw [le_iff_toNat, toNat_nextGeneration]
  omega

/-- Below saturation the next generation is strictly greater. -/
theorem lt_nextGeneration (h : ¬a.Saturated) : a < a.nextGeneration := by
  have hbound := a.raw.toNat_lt
  rw [saturated_iff_toNat] at h
  rw [lt_iff_toNat, toNat_nextGeneration]
  omega

theorem nextGeneration_valid (a : Ident tag) : a.nextGeneration.valid = true := by
  rw [valid_iff_pos, toNat_nextGeneration]
  omega

theorem nextGeneration_of_saturated (h : a.Saturated) : a.nextGeneration = a := by
  rw [saturated_iff_toNat] at h
  rw [eq_iff_toNat, toNat_nextGeneration]
  omega

end Ident

end LifecycleFabric
