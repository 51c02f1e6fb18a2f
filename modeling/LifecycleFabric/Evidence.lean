import LifecycleFabric.Artifact
import LifecycleFabric.Status

/-!
# Evidence and its freshness

Evidence is bound to an exact subject. The store keeps one bucket per version and
kind, evicts the oldest record at capacity, and answers whether the evidence for a
subject is current now.
-/

namespace LifecycleFabric

/-- Kinds of evidence. -/
inductive EvidenceKind
  | artifactIntegrity | runtimeCompatibility | backendCompatibility | hardwareCapability
  | tokenizerMatch | adapterCompatibility | warmup | readiness | replicaReady
  | residencyReady | healthCheck | errorRate | latency | throughput | correctness
  | verificationOutcome | resourcePressure | crashRate | testResult | policyApproval
  | manualApproval | signature
  deriving DecidableEq

namespace EvidenceKind

/-- Every kind, in order of its number. -/
def all : List EvidenceKind :=
  [.artifactIntegrity, .runtimeCompatibility, .backendCompatibility, .hardwareCapability,
    .tokenizerMatch, .adapterCompatibility, .warmup, .readiness, .replicaReady,
    .residencyReady, .healthCheck, .errorRate, .latency, .throughput, .correctness,
    .verificationOutcome, .resourcePressure, .crashRate, .testResult, .policyApproval,
    .manualApproval, .signature]

/-- The number of a kind. -/
def code (kind : EvidenceKind) : ℕ := kind.ctorIdx

/-- The number of kinds. -/
def count : ℕ := 22

/-- The name of a kind. -/
def toText : EvidenceKind → Text
  | artifactIntegrity => text "ARTIFACT_INTEGRITY"
  | runtimeCompatibility => text "RUNTIME_COMPATIBILITY"
  | backendCompatibility => text "BACKEND_COMPATIBILITY"
  | hardwareCapability => text "HARDWARE_CAPABILITY"
  | tokenizerMatch => text "TOKENIZER_MATCH"
  | adapterCompatibility => text "ADAPTER_COMPATIBILITY"
  | warmup => text "WARMUP"
  | readiness => text "READINESS"
  | replicaReady => text "REPLICA_READY"
  | residencyReady => text "RESIDENCY_READY"
  | healthCheck => text "HEALTH_CHECK"
  | errorRate => text "ERROR_RATE"
  | latency => text "LATENCY"
  | throughput => text "THROUGHPUT"
  | correctness => text "CORRECTNESS"
  | verificationOutcome => text "VERIFICATION_OUTCOME"
  | resourcePressure => text "RESOURCE_PRESSURE"
  | crashRate => text "CRASH_RATE"
  | testResult => text "TEST_RESULT"
  | policyApproval => text "POLICY_APPROVAL"
  | manualApproval => text "MANUAL_APPROVAL"
  | signature => text "SIGNATURE"

end EvidenceKind

/-- What an observation says about a requirement. -/
inductive EvidenceVerdict
  | unknown | satisfied | unsatisfied
  deriving DecidableEq

namespace EvidenceVerdict

/-- Every verdict, in order of its number. -/
def all : List EvidenceVerdict := [.unknown, .satisfied, .unsatisfied]

/-- The number of a verdict. -/
def code (verdict : EvidenceVerdict) : ℕ := verdict.ctorIdx

/-- The name of a verdict. -/
def toText : EvidenceVerdict → Text
  | satisfied => text "SATISFIED"
  | unsatisfied => text "UNSATISFIED"
  | unknown => text "UNKNOWN"

end EvidenceVerdict

/-- A 64-bit floating value, kept as its bit pattern. -/
structure F64 where
  bits : UInt64 := 0
  deriving DecidableEq

namespace F64

/-- The pattern without its sign: exponent above mantissa. -/
def magnitude (x : F64) : ℕ := x.bits.toNat % 2 ^ 63

/-- A full exponent with a non-zero mantissa. -/
def isNaN (x : F64) : Bool := decide (0x7FF0000000000000 < x.magnitude)

/-- Position on the number line; the two zeros share one. -/
def position (x : F64) : ℤ := if 2 ^ 63 ≤ x.bits.toNat then -(x.magnitude : ℤ) else x.magnitude

/-- The `≤` of floating values: false when either is not a number. -/
def le (x y : F64) : Bool := !x.isNaN && !y.isNaN && decide (x.position ≤ y.position)

end F64

/-- The exact subject of a piece of evidence. -/
structure EvidenceSubject where
  model : ModelId := {}
  version : ModelVersionId := {}
  modelGeneration : ModelGeneration := {}
  artifactSet : ArtifactSetId := {}
  artifactGeneration : ArtifactGeneration := {}
  scope : ScopeId := {}
  rollout : RolloutId := {}
  rolloutGeneration : RolloutGeneration := {}
  stage : RolloutStageId := {}
  stageGeneration : RolloutStageGeneration := {}
  compatibilityGeneration : CompatibilityGeneration := {}
  deriving DecidableEq

/-- One evidence record. -/
structure EvidenceRecord where
  id : EvidenceId := {}
  generation : EvidenceGeneration := {}
  kind : EvidenceKind := .healthCheck
  verdict : EvidenceVerdict := .unknown
  subject : EvidenceSubject := {}
  provenance : Provenance := .unknown
  worker : WorkerId := {}
  boot : WorkerBootId := {}
  epoch : CoordinatorEpoch := {}
  policyGeneration : PolicyGeneration := {}
  value : F64 := {}
  unit : Text := []
  tick : UInt64 := 0
  detail : Text := []
  deriving DecidableEq

/-- Longest detail of an evidence record. -/
def maxEvidenceDetail : ℕ := 256

/-- Longest unit of an evidence record. -/
def maxEvidenceUnit : ℕ := 32

/-- Why evidence is, or is not, usable now. -/
inductive EvidenceCurrentness
  | current | missing | subjectMismatch | generationStale | publisherStale | expired
  | conflicting | unknownProvenance
  deriving DecidableEq

/-- The name of a currentness. -/
def EvidenceCurrentness.toText : EvidenceCurrentness → Text
  | current => text "CURRENT"
  | missing => text "MISSING"
  | subjectMismatch => text "SUBJECT_MISMATCH"
  | generationStale => text "GENERATION_STALE"
  | publisherStale => text "PUBLISHER_STALE"
  | expired => text "EXPIRED"
  | conflicting => text "CONFLICTING"
  | unknownProvenance => text "UNKNOWN_PROVENANCE"

/-- A requirement a plan, a stage or a policy places on evidence. -/
structure EvidenceRequirement where
  kind : EvidenceKind := .healthCheck
  requiredVerdict : EvidenceVerdict := .satisfied
  requireExactSubject : Bool := true
  requireCurrentPublisher : Bool := false
  deriving DecidableEq

/-- Result of resolving a requirement. -/
structure EvidenceLookup where
  currentness : EvidenceCurrentness := .missing
  record : Option EvidenceRecord := none
  deriving DecidableEq

/-- Buckets are keyed by `model:version` and the kind's number. -/
abbrev EvidenceKey := Text ×ₗ UInt16

/-- The bounded evidence store. -/
structure EvidenceStore where
  records : OrdMap EvidenceKey (List EvidenceRecord) := OrdMap.empty
  /-- The bucket of each stored generation, oldest generation first. -/
  evictionOrder : OrdMap UInt64 EvidenceKey := OrdMap.empty
  recordCount : ℕ := 0
  maxRecords : ℕ := 65536
  dropped : ℕ := 0
  watermark : EvidenceGeneration := {}
  deriving DecidableEq

namespace EvidenceStore

/-- The bucket of a subject and kind. -/
def makeKey (subject : EvidenceSubject) (kind : EvidenceKind) : EvidenceKey :=
  toLex (decimal subject.model.raw.toNat ++ [58] ++ decimal subject.version.raw.toNat,
    UInt16.ofNat kind.code)

/-- The number of buckets. -/
def size (store : EvidenceStore) : ℕ := store.records.size

/-- The records of one bucket, oldest first. -/
def bucket (store : EvidenceStore) (key : EvidenceKey) : List EvidenceRecord :=
  (store.records.get? key).getD []

/-- Drop the records of every bucket a test accepts; empty buckets go. -/
def dropWhere (drop : EvidenceRecord → Bool)
    (records : OrdMap EvidenceKey (List EvidenceRecord)) :
    OrdMap EvidenceKey (List EvidenceRecord) :=
  records.filterMap fun _ bucket =>
    let kept := bucket.filter fun record => !drop record
    if kept.isEmpty then none else some kept

/-- The number of records in all buckets. -/
def total (records : OrdMap EvidenceKey (List EvidenceRecord)) : ℕ :=
  (records.values.map List.length).sum

/-- Evict the record of the oldest stored generation. -/
def evictOldest (store : EvidenceStore) : EvidenceStore :=
  match store.evictionOrder.entries with
  | [] => store
  | (generation, victim) :: _ =>
    let store := { store with evictionOrder := store.evictionOrder.erase generation }
    match store.records.get? victim with
    | none => store
    | some bucket =>
      let kept := bucket.filter fun record => record.generation.raw != generation
      let removed := bucket.length - kept.length
      { store with
        records :=
          if kept.isEmpty then store.records.erase victim else store.records.insert victim kept
        recordCount := store.recordCount - removed
        dropped := store.dropped + removed }

/-- Evict until there is room or nothing is left to evict. Each round removes one
entry of the eviction order, which bounds the rounds. -/
def makeRoom : ℕ → EvidenceStore → EvidenceStore
  | 0, store => store
  | rounds + 1, store =>
    if store.maxRecords ≤ store.recordCount ∧ ¬store.evictionOrder.entries.isEmpty then
      makeRoom rounds store.evictOldest
    else store

/-- Publish a record whose generation advances the store. -/
def publish (store : EvidenceStore) (record : EvidenceRecord) : EvidenceStore × Decision :=
  if !record.subject.version.valid then
    (store, .because .rejected .unknownVersion (text "evidence subject has no model version"))
  else if !record.generation.valid then
    (store, .because .rejected .evidenceGenerationMismatch
      (text "evidence generation must be non-zero"))
  else if maxEvidenceDetail < record.detail.length ∨ maxEvidenceUnit < record.unit.length then
    (store, .because .boundsExceeded .boundsStringLength (text "evidence metadata oversized"))
  else
    let key := makeKey record.subject record.kind
    let newest := (store.bucket key).getLast?
    let older := newest.any fun newest => decide (record.generation < newest.generation)
    let same := newest.any fun newest => decide (record.generation = newest.generation)
    if older then
      (store, .because .conflict .evidenceGenerationMismatch
        (text "evidence generation is older than the stored record"))
    else if same then
      if newest.any fun newest => decide (record.verdict ≠ newest.verdict) then
        (store, .because .conflict .evidenceConflicting
          (text "two verdicts published for the same evidence generation"))
      else
        (store, .because .conflict .evidenceGenerationMismatch
          (text "duplicate evidence generation for the same subject"))
    else if store.watermark.valid ∧ record.generation ≤ store.watermark then
      (store, .because .conflict .sequenceRegression
        (text "evidence generation does not advance the store watermark"))
    else
      let store := makeRoom store.evictionOrder.size store
      ({ store with
          records := store.records.insert key (store.bucket key ++ [record])
          evictionOrder := store.evictionOrder.insertNew record.generation.raw key
          recordCount := store.recordCount + 1
          watermark := record.generation }, .accepted)

/-- Why a stored record does not exactly match the evaluated subject. -/
def classifyMismatch (stored requested : EvidenceSubject) : EvidenceCurrentness :=
  let older (h : Bool) : EvidenceCurrentness := if h then .generationStale else .subjectMismatch
  if stored.modelGeneration ≠ requested.modelGeneration then
    older (stored.modelGeneration < requested.modelGeneration)
  else if stored.artifactGeneration ≠ requested.artifactGeneration ∨
      stored.artifactSet ≠ requested.artifactSet then
    older (stored.artifactGeneration < requested.artifactGeneration)
  else if stored.scope ≠ requested.scope then .subjectMismatch
  else if stored.rollout ≠ requested.rollout ∨
      stored.rolloutGeneration ≠ requested.rolloutGeneration then
    older (stored.rolloutGeneration < requested.rolloutGeneration)
  else if stored.stage ≠ requested.stage ∨ stored.stageGeneration ≠ requested.stageGeneration then
    older (stored.stageGeneration < requested.stageGeneration)
  else if stored.compatibilityGeneration ≠ requested.compatibilityGeneration then
    older (stored.compatibilityGeneration < requested.compatibilityGeneration)
  else .subjectMismatch

/-- Scan a bucket, newest record first, for the record that answers a requirement.
A requirement that does not ask for the exact subject takes the newest record; the
first mismatch met decides what is reported when nothing answers. -/
def findCandidate (requirement : EvidenceRequirement) (subject : EvidenceSubject) :
    List EvidenceRecord → Option EvidenceCurrentness →
      Option EvidenceRecord × Option EvidenceCurrentness
  | [], fallback => (none, fallback)
  | record :: rest, fallback =>
    if record.subject = subject then (some record, fallback)
    else
      match fallback with
      | some _ => findCandidate requirement subject rest fallback
      | none =>
        if !requirement.requireExactSubject then (some record, none)
        else
          findCandidate requirement subject rest (some (classifyMismatch record.subject subject))

/-- Resolve a requirement for a subject. -/
def resolve (store : EvidenceStore) (requirement : EvidenceRequirement)
    (subject : EvidenceSubject) (publisherBoot : WorkerBootId)
    (publisherMustBeCurrent : Bool) (nowTick maxAgeTicks : UInt64) : EvidenceLookup :=
  if subject.version.raw = 0 then { currentness := .missing }
  else
    let bucket := store.bucket (makeKey subject requirement.kind)
    match findCandidate requirement subject bucket.reverse none with
    | (none, fallback) => { currentness := fallback.getD .missing }
    | (some candidate, _) =>
      let conflicting := bucket.any fun record =>
        decide (record.generation = candidate.generation ∧ record.subject = subject ∧
          record.verdict ≠ candidate.verdict)
      let needsPublisher := publisherMustBeCurrent || requirement.requireCurrentPublisher
      if conflicting then { currentness := .conflicting, record := candidate }
      else if candidate.provenance = .unknown then
        { currentness := .unknownProvenance, record := candidate }
      else if needsPublisher ∧ candidate.boot.valid ∧ candidate.boot ≠ publisherBoot then
        { currentness := .publisherStale, record := candidate }
      else if 0 < maxAgeTicks ∧ candidate.tick < nowTick ∧
          maxAgeTicks < nowTick - candidate.tick then
        { currentness := .expired, record := candidate }
      else { currentness := .current, record := candidate }

/-- The store after a withdrawal: counters follow the removed records, and the
eviction order forgets the buckets that are gone. -/
def withdrawn (store : EvidenceStore) (records : OrdMap EvidenceKey (List EvidenceRecord)) :
    EvidenceStore :=
  let removed := total store.records - total records
  { store with
    records
    recordCount := store.recordCount - removed
    dropped := store.dropped + removed
    evictionOrder := store.evictionOrder.filter fun _ key => records.contains key }

/-- Drop the records of a version bound to an older model generation. -/
def invalidateModelGeneration (store : EvidenceStore) (version : ModelVersionId)
    (current : ModelGeneration) : EvidenceStore :=
  store.withdrawn (dropWhere (fun record =>
    decide (record.subject.version = version ∧ record.subject.modelGeneration < current))
    store.records)

/-- Drop the records a worker boot published, and how many there were. -/
def invalidatePublisherBoot (store : EvidenceStore) (boot : WorkerBootId) :
    EvidenceStore × ℕ :=
  if !boot.valid then (store, 0)
  else
    let records := dropWhere (fun record => decide (record.boot = boot)) store.records
    (store.withdrawn records, total store.records - total records)

/-- Drop whole buckets by kind. -/
def removeKinds (store : EvidenceStore) (kinds : List EvidenceKind) : EvidenceStore :=
  store.withdrawn (store.records.filter fun key _ =>
    !kinds.any fun kind => (ofLex key).2 == UInt16.ofNat kind.code)

/-- The checks recovery makes on one record. -/
def restorable (record : EvidenceRecord) : Bool :=
  record.subject.version.valid && record.generation.valid &&
    decide (record.detail.length ≤ maxEvidenceDetail) &&
    decide (record.unit.length ≤ maxEvidenceUnit)

/-- Rebuild buckets and eviction order record by record. A generation may occur
twice only within one bucket that already holds a record. -/
def restoreRecords : List EvidenceRecord → OrdMap EvidenceKey (List EvidenceRecord) →
    OrdMap UInt64 EvidenceKey →
      Option (OrdMap EvidenceKey (List EvidenceRecord) × OrdMap UInt64 EvidenceKey)
  | [], rebuilt, order => some (rebuilt, order)
  | record :: rest, rebuilt, order =>
    if !restorable record then none
    else
      let key := makeKey record.subject record.kind
      let bucket := (rebuilt.get? key).getD [] ++ [record]
      if order.contains record.generation.raw ∧ bucket.length < 2 then none
      else
        restoreRecords rest (rebuilt.insert key bucket)
          (order.insertNew record.generation.raw key)

/-- Records in generation order. -/
def byGeneration (records : List EvidenceRecord) : List EvidenceRecord :=
  records.insertionSort fun a b => a.generation ≤ b.generation

/-- Replace the store contents during recovery. `none` leaves the store untouched. -/
def restore (store : EvidenceStore) (records : List EvidenceRecord) (dropped : ℕ) :
    Option EvidenceStore :=
  match restoreRecords records OrdMap.empty OrdMap.empty with
  | none => none
  | some (rebuilt, order) =>
    if store.maxRecords < records.length then none
    else
      let buckets := rebuilt.mapValues fun _ bucket => byGeneration bucket
      some
        { store with
          records := buckets
          evictionOrder := order
          recordCount := records.length
          dropped
          watermark := buckets.values.foldl (fun watermark bucket =>
            match bucket.getLast? with
            | some newest => max watermark newest.generation
            | none => watermark) {} }

end EvidenceStore

end LifecycleFabric
