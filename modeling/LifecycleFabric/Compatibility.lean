import LifecycleFabric.Artifact
import LifecycleFabric.Status

/-!
# Compatibility

Whether a model generation, bound to an artifact generation, is admissible on an
environment: a structural evaluation of declared requirements, and a bounded
registry with one published fact per version and environment.
-/

namespace LifecycleFabric

/-- Structured compatibility verdict. -/
inductive CompatibilityOutcome
  | compatible | compatibleWithRebuild | compatibleWithRecompile | compatibleWithConversion
  | incompatibleArtifact | incompatibleRuntime | incompatibleBackend
  | incompatibleArchitecture | incompatiblePrecision | incompatibleTokenizer
  | incompatibleAdapter | incompatiblePolicy | unknown | staleEvidence | unsupported
  deriving DecidableEq

namespace CompatibilityOutcome

/-- Every outcome, in order of its number. -/
def all : List CompatibilityOutcome :=
  [.compatible, .compatibleWithRebuild, .compatibleWithRecompile, .compatibleWithConversion,
    .incompatibleArtifact, .incompatibleRuntime, .incompatibleBackend,
    .incompatibleArchitecture, .incompatiblePrecision, .incompatibleTokenizer,
    .incompatibleAdapter, .incompatiblePolicy, .unknown, .staleEvidence, .unsupported]

/-- The number of an outcome. -/
def code (outcome : CompatibilityOutcome) : ℕ := outcome.ctorIdx

/-- The outcome that permits promotion without further work. -/
def isServingCompatible (outcome : CompatibilityOutcome) : Bool := outcome = compatible

/-- Named reason of an incompatible outcome. -/
def reasonFor : CompatibilityOutcome → ReasonCode
  | compatible => .none
  | compatibleWithRebuild => .compatibilityRequiresRebuild
  | compatibleWithRecompile => .compatibilityRequiresRecompile
  | compatibleWithConversion => .compatibilityRequiresConversion
  | incompatibleArtifact => .incompatibleArtifact
  | incompatibleRuntime => .incompatibleRuntime
  | incompatibleBackend => .incompatibleBackend
  | incompatibleArchitecture => .incompatibleArchitecture
  | incompatiblePrecision => .incompatiblePrecision
  | incompatibleTokenizer => .incompatibleTokenizer
  | incompatibleAdapter => .incompatibleAdapter
  | incompatiblePolicy => .incompatiblePolicy
  | unknown => .compatibilityUnknown
  | staleEvidence => .compatibilityStale
  | unsupported => .unsupportedCapability

end CompatibilityOutcome

/-- What a model version declares it needs. -/
structure ModelRequirements where
  runtime : Text := []
  runtimeMinVersion : Text := []
  backend : Text := []
  architecture : Text := []
  precision : Text := []
  tokenizerGeneration : Text := []
  adapterSet : Text := []
  deriving DecidableEq

/-- Whether no runtime, backend, architecture or precision is declared. -/
def ModelRequirements.isEmpty (r : ModelRequirements) : Bool :=
  r.runtime.isEmpty && r.backend.isEmpty && r.architecture.isEmpty && r.precision.isEmpty

/-- What an environment reports about itself. Only membership of `precisions` is read. -/
structure EnvironmentProfile where
  key : Text := []
  runtime : Text := []
  runtimeVersion : Text := []
  backend : Text := []
  backendVersion : Text := []
  architecture : Text := []
  precisions : List Text := []
  tokenizerGeneration : Text := []
  adapterSet : Text := []
  computeCapability : UInt32 := 0
  provenance : Provenance := .unknown
  deriving DecidableEq

/-- Longest environment key. -/
def maxEnvironmentKeyLength : ℕ := 128

/-- A profile needs a bounded key. -/
def EnvironmentProfile.valid (e : EnvironmentProfile) : Bool :=
  !e.key.isEmpty && decide (e.key.length ≤ maxEnvironmentKeyLength)

/-- One published fact for a model generation in an environment. -/
structure CompatibilityFact where
  model : ModelId := {}
  version : ModelVersionId := {}
  modelGeneration : ModelGeneration := {}
  artifactSet : ArtifactSetId := {}
  artifactGeneration : ArtifactGeneration := {}
  generation : CompatibilityGeneration := {}
  environmentKey : Text := []
  outcome : CompatibilityOutcome := .unknown
  detail : Text := []
  provenance : Provenance := .unknown
  sequence : Sequence := {}
  deriving DecidableEq

/-- Result of a compatibility evaluation. -/
structure CompatibilityResult where
  outcome : CompatibilityOutcome := .unknown
  decision : Decision := { outcome := .unsupported }
  deriving DecidableEq

/-! ## Version comparison -/

/-- Whether a byte is a decimal digit. -/
def isDigit (c : UInt8) : Bool := 48 ≤ c && c ≤ 57

theorem isDigit_iff {c : UInt8} : isDigit c = true ↔ 48 ≤ c.toNat ∧ c.toNat ≤ 57 := by
  simp [isDigit, UInt8.le_iff_toNat_le]

/-- A digit run without its leading zeros; the last digit is always kept. -/
def stripZeros : Text → Text
  | 48 :: d :: rest => stripZeros (d :: rest)
  | digits => digits

/-- Numeric comparison of two digit runs: by length, then bytewise. -/
def compareNumeric (a b : Text) : Int :=
  let na := stripZeros a
  let nb := stripZeros b
  if na.length ≠ nb.length then if na.length < nb.length then -1 else 1
  else if na ≠ nb then if na < nb then -1 else 1
  else 0

/-- Compare one component of each version: `none` when they do not decide. -/
def compareComponent (pa pb : Text) : Option Int :=
  let na := pa.takeWhile isDigit
  let ra := pa.dropWhile isDigit
  let nb := pb.takeWhile isDigit
  let rb := pb.dropWhile isDigit
  if !na.isEmpty && !nb.isEmpty then
    let numeric := compareNumeric na nb
    if numeric ≠ 0 then some numeric
    -- A release sorts after its pre-release.
    else if ra ≠ rb then
      if ra.isEmpty then some 1
      else if rb.isEmpty then some (-1)
      else some (if ra < rb then -1 else 1)
    else none
  else if pa ≠ pb then some (if pa < pb then -1 else 1)
  else none

/-- Compare the unread parts of two versions, component by component. -/
def compareVersionsFrom : ℕ → Text → Text → Int
  | 0, _, _ => 0
  | steps + 1, a, b =>
    if a.isEmpty && b.isEmpty then 0
    else
      let pa := a.takeWhile (· != 46)
      let pb := b.takeWhile (· != 46)
      match compareComponent pa pb with
      | some order => order
      | none =>
        let aDone := decide (a.length ≤ pa.length)
        let bDone := decide (b.length ≤ pb.length)
        if aDone && bDone then 0
        else if aDone then -1
        else if bDone then 1
        else compareVersionsFrom steps (a.drop (pa.length + 1)) (b.drop (pb.length + 1))

/-- Compare dotted versions: `-1`, `0` or `1`. Every round consumes a byte of both
versions, so one version's length bounds the rounds. -/
def compareVersions (a b : Text) : Int := compareVersionsFrom (a.length + 1) a b

/-- The architecture token of a CUDA compute capability. -/
def cudaArchitectureToken (major minor : UInt32) : Text :=
  text "sm_" ++ decimal major.toNat ++ decimal minor.toNat

/-! ## Structural evaluation -/

/-- What an evaluation has found so far. -/
structure RequirementFindings where
  incompatibilities : List (CompatibilityOutcome × Reason) := []
  unknowns : List Reason := []

namespace RequirementFindings

/-- Note that a requirement is violated. -/
def fail (f : RequirementFindings) (outcome : CompatibilityOutcome) (code : ReasonCode)
    (detail : Text) : RequirementFindings :=
  { f with incompatibilities := f.incompatibilities ++ [(outcome, ⟨code, detail⟩)] }

/-- Note that the environment does not decide a requirement. -/
def unknown (f : RequirementFindings) (detail : Text) : RequirementFindings :=
  { f with unknowns := f.unknowns ++ [⟨.compatibilityUnknown, detail⟩] }

end RequirementFindings

/-- The runtime and its minimum version. -/
def checkRuntime (r : ModelRequirements) (e : EnvironmentProfile) (f : RequirementFindings) :
    RequirementFindings :=
  if r.runtime.isEmpty then f
  else if e.runtime.isEmpty then f.unknown (text "environment reports no runtime identity")
  else if e.runtime ≠ r.runtime then
    f.fail .incompatibleRuntime .incompatibleRuntime
      (text "environment runtime '" ++ e.runtime ++ text "' != required '" ++ r.runtime ++
        text "'")
  else if r.runtimeMinVersion.isEmpty then f
  else if e.runtimeVersion.isEmpty then
    f.unknown (text "environment reports no runtime version")
  else if compareVersions e.runtimeVersion r.runtimeMinVersion < 0 then
    f.fail .incompatibleRuntime .incompatibleRuntime
      (text "runtime version " ++ e.runtimeVersion ++ text " < required " ++
        r.runtimeMinVersion)
  else f

/-- The execution backend. -/
def checkBackend (r : ModelRequirements) (e : EnvironmentProfile) (f : RequirementFindings) :
    RequirementFindings :=
  if r.backend.isEmpty then f
  else if e.backend.isEmpty then f.unknown (text "environment reports no backend identity")
  else if e.backend ≠ r.backend then
    f.fail .incompatibleBackend .incompatibleBackend
      (text "environment backend '" ++ e.backend ++ text "' != required '" ++ r.backend ++
        text "'")
  else f

/-- The architecture tokens an environment accepts. -/
def acceptableArchitectures (e : EnvironmentProfile) : List Text :=
  (if e.architecture.isEmpty then [] else [e.architecture]) ++
    if e.computeCapability ≠ 0 then
      [cudaArchitectureToken (e.computeCapability / 100) (e.computeCapability % 100)]
    else []

/-- The accelerator architecture. -/
def checkArchitecture (r : ModelRequirements) (e : EnvironmentProfile)
    (f : RequirementFindings) : RequirementFindings :=
  if r.architecture.isEmpty then f
  else if (acceptableArchitectures e).isEmpty then
    f.unknown (text "environment reports no architecture or compute capability")
  else if !(acceptableArchitectures e).contains r.architecture then
    f.fail .incompatibleArchitecture .incompatibleArchitecture
      (text "required architecture '" ++ r.architecture ++ text "' not in environment set")
  else f

/-- The numeric precision. -/
def checkPrecision (r : ModelRequirements) (e : EnvironmentProfile) (f : RequirementFindings) :
    RequirementFindings :=
  if r.precision.isEmpty then f
  else if e.precisions.isEmpty then
    f.unknown (text "environment reports no supported precisions")
  else if !e.precisions.contains r.precision then
    f.fail .incompatiblePrecision .incompatiblePrecision
      (text "required precision '" ++ r.precision ++ text "' unsupported by environment")
  else f

/-- The tokenizer generation. -/
def checkTokenizer (r : ModelRequirements) (e : EnvironmentProfile) (f : RequirementFindings) :
    RequirementFindings :=
  if r.tokenizerGeneration.isEmpty then f
  else if e.tokenizerGeneration.isEmpty then
    f.unknown (text "environment reports no tokenizer generation")
  else if e.tokenizerGeneration ≠ r.tokenizerGeneration then
    f.fail .incompatibleTokenizer .incompatibleTokenizer (text "tokenizer generation mismatch")
  else f

/-- The adapter set. -/
def checkAdapters (r : ModelRequirements) (e : EnvironmentProfile) (f : RequirementFindings) :
    RequirementFindings :=
  if r.adapterSet.isEmpty then f
  else if e.adapterSet.isEmpty then f.unknown (text "environment reports no adapter set")
  else if e.adapterSet ≠ r.adapterSet then
    f.fail .incompatibleAdapter .incompatibleAdapter (text "adapter set mismatch")
  else f

/-- Evaluate declared requirements against an environment. -/
def evaluateRequirements (r : ModelRequirements) (e : EnvironmentProfile) :
    CompatibilityResult :=
  if !e.valid then
    { outcome := .unknown
      decision := .because .unsupported .compatibilityUnknown
        (text "environment profile missing or invalid") }
  else
    let f : RequirementFindings := {}
    let f := if r.isEmpty then
        f.unknown
          (text "model version declares no runtime, backend, architecture or precision requirement")
      else f
    let f := checkRuntime r e f
    let f := checkBackend r e f
    let f := checkArchitecture r e f
    let f := checkPrecision r e f
    let f := checkTokenizer r e f
    let f := checkAdapters r e f
    match f.incompatibilities with
    | (outcome, _) :: _ =>
      { outcome
        decision := (({ outcome := .incompatible } : Decision).addAll
          (f.incompatibilities.map Prod.snd)).normalize }
    | [] =>
      if !f.unknowns.isEmpty then
        { outcome := .unknown
          decision := (({ outcome := .unsupported } : Decision).addAll f.unknowns).normalize }
      else { outcome := .compatible, decision := { outcome := .ok } }

/-! ## The registry of published facts -/

/-- Facts are stored by version and environment key. -/
abbrev CompatibilityKey := UInt64 ×ₗ Text

/-- One current fact per version and environment. -/
structure CompatibilityRegistry where
  facts : OrdMap CompatibilityKey CompatibilityFact := OrdMap.empty
  maxFacts : ℕ := 8192
  deriving DecidableEq

namespace CompatibilityRegistry

/-- The key of a fact. -/
def keyOf (version : ModelVersionId) (environmentKey : Text) : CompatibilityKey :=
  toLex (version.raw, environmentKey)

/-- Publish a fact; older generations never overwrite newer ones. -/
def publish (r : CompatibilityRegistry) (fact : CompatibilityFact)
    (assigned : CompatibilityGeneration) : CompatibilityRegistry × Decision :=
  let key := keyOf fact.version fact.environmentKey
  let store : CompatibilityRegistry × Decision :=
    ({ r with facts := r.facts.insert key { fact with generation := assigned } }, .accepted)
  if !fact.version.valid then
    (r, .because .rejected .unknownVersion (text "compatibility fact has no model version"))
  else if fact.environmentKey.isEmpty ∨
      maxEnvironmentKeyLength < fact.environmentKey.length then
    (r, .because .rejected .invalidName (text "environment key must be 1..128 characters"))
  else if !assigned.valid then
    (r, .because .rejected .compatibilityGenerationMismatch
      (text "assigned compatibility generation must be non-zero"))
  else
    match r.facts.get? key with
    | some current =>
      if assigned ≤ current.generation then
        (r, .because .conflict .compatibilityGenerationMismatch
          (text "published generation does not advance the stored generation"))
      else if fact.modelGeneration < current.modelGeneration then
        (r, .because .conflict .modelGenerationMismatch
          (text "fact targets a model generation older than the stored fact"))
      else if current.modelGeneration = fact.modelGeneration ∧
          fact.artifactGeneration < current.artifactGeneration then
        (r, .because .conflict .artifactGenerationMismatch
          (text "fact targets an artifact generation older than the stored fact"))
      else store
    | none =>
      if r.maxFacts ≤ r.facts.size then
        (r, .because .boundsExceeded .boundsModelCount
          (text "compatibility fact bound reached"))
      else store

/-- The fact published for a version in an environment. -/
def lookup (r : CompatibilityRegistry) (version : ModelVersionId) (environmentKey : Text) :
    Option CompatibilityFact :=
  r.facts.get? (keyOf version environmentKey)

/-- All facts of a version, in environment order. -/
def factsFor (r : CompatibilityRegistry) (version : ModelVersionId) : List CompatibilityFact :=
  (r.facts.filter fun key _ => (ofLex key).1 == version.raw).values

/-- Drop every fact of a version. -/
def invalidateVersion (r : CompatibilityRegistry) (version : ModelVersionId) :
    CompatibilityRegistry :=
  { r with facts := r.facts.filter fun key _ => (ofLex key).1 != version.raw }

/-- The checks recovery makes on one fact. -/
def restorable (key : CompatibilityKey) (fact : CompatibilityFact) : Bool :=
  decide ((ofLex key).1 = fact.version.raw) && decide ((ofLex key).2 = fact.environmentKey) &&
  fact.version.valid && !fact.environmentKey.isEmpty &&
  decide (fact.environmentKey.length ≤ maxEnvironmentKeyLength) &&
  fact.generation.valid && fact.modelGeneration.valid && fact.artifactGeneration.valid

/-- Replace the registry during recovery. `none` leaves it untouched. -/
def restore (r : CompatibilityRegistry) (facts : OrdMap CompatibilityKey CompatibilityFact) :
    Option CompatibilityRegistry :=
  if r.maxFacts < facts.size then none
  else if facts.entries.all fun e => restorable e.1 e.2 then some { r with facts }
  else none

end CompatibilityRegistry

end LifecycleFabric
