import LifecycleFabric.Lib.ByteCodec
import LifecycleFabric.Engine.Retirement

/-!
# Values on the wire and in the state file

Messages and the state file are written with the same little-endian values: numbers,
identities, flags, floating values as their bit patterns, texts behind their length, and
enumerations as the byte of their number. Some records are part of both.
-/

namespace LifecycleFabric.Wire

open ByteCodec

/-! ## Writers and readers -/

def putU16 (value : UInt16) : Bytes := word 2 value.toNat

def putU32 (value : UInt32) : Bytes := word 4 value.toNat

def putU64 (value : UInt64) : Bytes := word 8 value.toNat

def putBool (value : Bool) : Bytes := word 1 value.toNat

def putF64 (value : F64) : Bytes := putU64 value.bits

def putStr (value : Text) : Bytes := putString value

def putId {tag : IdTag} (value : Ident tag) : Bytes := putU64 value.raw

/-- An enumeration is written as the byte of its number. -/
def putEnum (code : ℕ) : Bytes := word 1 code

def getU16 : Reader UInt16 := UInt16.ofNat <$> number 2

def getU32 : Reader UInt32 := UInt32.ofNat <$> number 4

def getU64 : Reader UInt64 := UInt64.ofNat <$> number 8

def getBool : Reader Bool := (fun value => decide (value ≠ 0)) <$> number 1

def getF64 : Reader F64 := F64.mk <$> getU64

def getId {tag : IdTag} : Reader (Ident tag) := Ident.mk <$> getU64

/-- An enumeration is read as a byte below the number of its values. -/
def getEnum {α : Type} (all : List α) : Reader α := do
  let raw ← number 1
  oneOf all raw

/-- A percentage. -/
def getPercent : Reader UInt32 := do
  let percent ← getU32
  check (percent.toNat ≤ 100)
  pure percent

/-! ## Records of both formats -/

def putBinding (binding : ArtifactBinding) : Bytes :=
  [putId binding.setId, putId binding.generation, putStr binding.digest].flatten

def getBindingUpTo (maxDigest : ℕ) : Reader ArtifactBinding := do
  let setId ← getId
  let generation ← getId
  let digest ← string maxDigest
  pure { setId, generation, digest }

def putRequirements (r : ModelRequirements) : Bytes :=
  [putStr r.runtime, putStr r.runtimeMinVersion, putStr r.backend, putStr r.architecture,
    putStr r.precision, putStr r.tokenizerGeneration, putStr r.adapterSet].flatten

def getRequirementsUpTo (maxString : ℕ) : Reader ModelRequirements := do
  let runtime ← string maxString
  let runtimeMinVersion ← string maxString
  let backend ← string maxString
  let architecture ← string maxString
  let precision ← string maxString
  let tokenizerGeneration ← string maxString
  let adapterSet ← string maxString
  pure { runtime, runtimeMinVersion, backend, architecture, precision, tokenizerGeneration
         adapterSet }

def putEvidenceRequirement (r : EvidenceRequirement) : Bytes :=
  [putEnum r.kind.code, putEnum r.requiredVerdict.code, putBool r.requireExactSubject,
    putBool r.requireCurrentPublisher].flatten

def getEvidenceRequirement : Reader EvidenceRequirement := do
  let kind ← getEnum EvidenceKind.all
  let requiredVerdict ← getEnum EvidenceVerdict.all
  let requireExactSubject ← getBool
  let requireCurrentPublisher ← getBool
  pure { kind, requiredVerdict, requireExactSubject, requireCurrentPublisher }

def putCriterion (c : Criterion) : Bytes :=
  [putEnum c.kind.code, putEnum c.comparison.code.toNat, putF64 c.threshold].flatten

/-- A reason is written as its 16-bit number, which its reader does not check. -/
def putReasonCode (reason : ReasonCode) : Bytes := word 2 reason.code

def getReasonCode : Reader ReasonCode := ReasonCode.ofCode <$> getU16

def putReason (reason : Reason) : Bytes := [putReasonCode reason.code, putStr reason.detail].flatten

def getReasonUpTo (maxString : ℕ) : Reader Reason := do
  let code ← getReasonCode
  let detail ← string maxString
  pure { code, detail }

/-! ## What is read of a written value -/

@[simp] theorem length_putStr (value : Text) : (putStr value).length = 4 + value.length := by
  simp [putStr, putString]

@[simp] theorem length_putU64 (value : UInt64) : (putU64 value).length = 8 := length_word 8 _

@[simp] theorem length_putId {tag : IdTag} (value : Ident tag) : (putId value).length = 8 :=
  length_word 8 _

theorem reads_getU16 (value : UInt16) : Reads getU16 (putU16 value) True value := by
  have hread := (Reads.number_of_lt (n := 2) value.toNat_lt).map UInt16.ofNat
  rwa [UInt16.ofNat_toNat] at hread

theorem reads_getU32 (value : UInt32) : Reads getU32 (putU32 value) True value := by
  have hread := (Reads.number_of_lt (n := 4) value.toNat_lt).map UInt32.ofNat
  rwa [UInt32.ofNat_toNat] at hread

theorem reads_getU64 (value : UInt64) : Reads getU64 (putU64 value) True value := by
  have hread := (Reads.number_of_lt (n := 8) value.toNat_lt).map UInt64.ofNat
  rwa [UInt64.ofNat_toNat] at hread

theorem reads_getF64 (value : F64) : Reads getF64 (putF64 value) True value :=
  (reads_getU64 value.bits).map F64.mk

theorem reads_getId {tag : IdTag} (value : Ident tag) : Reads getId (putId value) True value :=
  (reads_getU64 value.raw).map Ident.mk

theorem reads_getBool (value : Bool) : Reads getBool (putBool value) True value := by
  have hlt : value.toNat < 256 ^ 1 := value.toNat_lt.trans (by decide)
  have hread := (Reads.number_of_lt hlt).map fun value => decide (value ≠ 0)
  cases value <;> exact hread

/-- An enumeration that is listed under its number is read back. -/
theorem reads_getEnum {α : Type} {all : List α} {code : ℕ} {a : α} (hlt : code < 256)
    (h : all[code]? = some a) : Reads (getEnum all) (putEnum code) True a := by
  have hnumber := Reads.number_of_lt (n := 1) (by simpa using hlt)
  have hread := hnumber.bind fun _ => Reads.oneOf h
  rw [List.append_nil] at hread
  exact hread.congr (and_self_iff)

theorem reads_percent (percent : UInt32) :
    Reads getPercent (putU32 percent) (percent.toNat ≤ 100) percent := by
  have hcheck := (Reads.check (percent.toNat ≤ 100)).bind (f := fun _ => pure percent)
    fun _ => Reads.pure percent
  have hread := (reads_getU32 percent).bind (f := fun percent => do
    check (percent.toNat ≤ 100)
    pure percent) fun _ => hcheck
  rw [List.append_nil, List.append_nil] at hread
  exact hread.congr (by simp)

theorem reads_provenance (p : Provenance) :
    Reads (getEnum Provenance.all) (putEnum p.code) True p := by
  apply reads_getEnum <;> cases p <;> decide

theorem reads_attemptKind (kind : AttemptKind) :
    Reads (getEnum AttemptKind.all) (putEnum kind.code) True kind := by
  apply reads_getEnum <;> cases kind <;> decide

theorem reads_evidenceKind (kind : EvidenceKind) :
    Reads (getEnum EvidenceKind.all) (putEnum kind.code) True kind := by
  apply reads_getEnum <;> cases kind <;> decide

theorem reads_verdict (verdict : EvidenceVerdict) :
    Reads (getEnum EvidenceVerdict.all) (putEnum verdict.code) True verdict := by
  apply reads_getEnum <;> cases verdict <;> decide

theorem reads_compatibility (outcome : CompatibilityOutcome) :
    Reads (getEnum CompatibilityOutcome.all) (putEnum outcome.code) True outcome := by
  apply reads_getEnum <;> cases outcome <;> decide

theorem reads_strategy (strategy : RolloutStrategy) :
    Reads (getEnum RolloutStrategy.all) (putEnum strategy.code) True strategy := by
  apply reads_getEnum <;> cases strategy <;> decide

/-- A reason code that stands for its number alone. -/
def properReason : ReasonCode → Prop
  | .outOfRange raw => ReasonCode.named.length ≤ raw.toNat
  | _ => True

theorem ofCode_code {reason : ReasonCode} (h : properReason reason) :
    ReasonCode.ofCode (UInt16.ofNat reason.code) = reason := by
  cases reason with
  | outOfRange raw =>
    have hnone : ReasonCode.named[raw.toNat]? = none := List.getElem?_eq_none h
    rw [ReasonCode.code, UInt16.ofNat_toNat, ReasonCode.ofCode, hnone, Option.getD_none]
  | _ => rfl

theorem reads_reasonCode {reason : ReasonCode} (h : properReason reason) :
    Reads getReasonCode (putReasonCode reason) True reason := by
  have hread := ((Reads.number 2 reason.code).map UInt16.ofNat).map ReasonCode.ofCode
  have hcode : UInt16.ofNat (reason.code % 256 ^ 2) = UInt16.ofNat reason.code := by
    apply UInt16.toNat_inj.mp
    rw [UInt16.toNat_ofNat', UInt16.toNat_ofNat']
    exact Nat.mod_mod reason.code _
  rwa [hcode, ofCode_code h] at hread

theorem reads_string (limit : ℕ) (value : Text) :
    Reads (string limit) (putStr value) (Fits limit value.length) value :=
  Reads.string limit value

theorem reads_ids {tag : IdTag} (limit : ℕ) (ids : List (Ident tag)) :
    Reads (counted limit getId) (putCounted putId ids) (Fits limit ids.length) ids := by
  have hput (id : Ident tag) : 0 < (putId id).length := by simp
  exact (Reads.counted (fun id _ => reads_getId id) hput limit).congr (by simp)

theorem reads_texts (limit maxLength : ℕ) (texts : List Text) :
    Reads (counted limit (string maxLength)) (putCounted putStr texts)
      (Fits limit texts.length ∧ ∀ value ∈ texts, Fits maxLength value.length) texts := by
  have hput (value : Text) : 0 < (putStr value).length := by simp
  exact Reads.counted (fun value _ => reads_string maxLength value) hput limit

theorem reads_bindingUpTo (maxDigest : ℕ) (binding : ArtifactBinding) :
    Reads (getBindingUpTo maxDigest) (putBinding binding) (Fits maxDigest binding.digest.length)
      binding := by
  have hread : Reads (getBindingUpTo maxDigest) (putBinding binding) _ binding :=
    .next (reads_getId _) <| .next (reads_getId _) <| .field (reads_string _ _) fun _ => .done _
  exact hread.congr (by simp)

def fitsRequirements (maxString : ℕ) (r : ModelRequirements) : Prop :=
  Fits maxString r.runtime.length ∧ Fits maxString r.runtimeMinVersion.length ∧
    Fits maxString r.backend.length ∧ Fits maxString r.architecture.length ∧
    Fits maxString r.precision.length ∧
    Fits maxString r.tokenizerGeneration.length ∧
    Fits maxString r.adapterSet.length

instance (maxString : ℕ) (r : ModelRequirements) : Decidable (fitsRequirements maxString r) :=
  inferInstanceAs (Decidable (_ ∧ _))

theorem reads_requirementsUpTo (maxString : ℕ) (r : ModelRequirements) :
    Reads (getRequirementsUpTo maxString) (putRequirements r) (fitsRequirements maxString r)
      r := by
  have hread : Reads (getRequirementsUpTo maxString) (putRequirements r) _ r :=
    .field (reads_string _ _) fun _ => .field (reads_string _ _) fun _ =>
    .field (reads_string _ _) fun _ => .field (reads_string _ _) fun _ =>
    .field (reads_string _ _) fun _ => .field (reads_string _ _) fun _ =>
    .field (reads_string _ _) fun _ => .done _
  exact hread.congr (by simp [fitsRequirements])

theorem reads_evidenceRequirement (r : EvidenceRequirement) :
    Reads getEvidenceRequirement (putEvidenceRequirement r) True r :=
  .next (reads_evidenceKind _) <| .next (reads_verdict _) <| .next (reads_getBool _) <|
  .next (reads_getBool _) <| .done _

theorem reads_requirementList (limit : ℕ) (rs : List EvidenceRequirement) :
    Reads (counted limit getEvidenceRequirement) (putCounted putEvidenceRequirement rs)
      (Fits limit rs.length) rs := by
  have hput (r : EvidenceRequirement) : 0 < (putEvidenceRequirement r).length := by
    simp [putEvidenceRequirement, putEnum]
  exact (Reads.counted (fun r _ => reads_evidenceRequirement r) hput limit).congr (by simp)

theorem reads_reasonsUpTo {reasons : List Reason} (h : ∀ reason ∈ reasons, properReason reason.code)
    (limit maxString : ℕ) :
    Reads (counted limit (getReasonUpTo maxString)) (putCounted putReason reasons)
      (Fits limit reasons.length ∧
        ∀ reason ∈ reasons, Fits maxString reason.detail.length) reasons := by
  have hput (reason : Reason) : 0 < (putReason reason).length := by simp [putReason]
  have hreason (reason : Reason) (hmem : reason ∈ reasons) :
      Reads (getReasonUpTo maxString) (putReason reason) (Fits maxString reason.detail.length)
        reason := by
    have hread : Reads (getReasonUpTo maxString) (putReason reason) _ reason :=
      .next (reads_reasonCode (h reason hmem)) <| .field (reads_string _ _) fun _ => .done _
    exact hread.congr (by simp)
  exact Reads.counted hreason hput limit

end LifecycleFabric.Wire
