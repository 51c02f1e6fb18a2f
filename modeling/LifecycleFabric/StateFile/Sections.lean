import LifecycleFabric.StateFile.Records
import LifecycleFabric.Wire.Checksum

/-!
# The state file

A state file is a header, a payload of tagged sections, and a checksum of both. A payload is
read section by section, and a structurally valid one can still describe an impossible
lifecycle world: what the sections must agree on is checked last.
-/

namespace LifecycleFabric

/-- What the state store reports of a file it does not take. -/
inductive StateStoreStatus
  | ioError | badMagic | unsupportedVersion | integrityFailure | truncated | boundsExceeded
  | invalidContent | atomicReplaceFailed
  deriving DecidableEq

/-- A status and its detail. -/
structure StateStoreFault where
  status : StateStoreStatus
  detail : Text
  deriving DecidableEq

namespace StateFile

open ByteCodec Wire Validation

/-! ## Sections -/

/-- A section: its tag, its count and what it holds. -/
def writeSection (tag count : ℕ) (body : Bytes) : Bytes := word 2 tag ++ (word 4 count ++ body)

/-- The records of a section. -/
def writeAll {α : Type} (write : α → Bytes) (records : List α) : Bytes := records.flatMap write

/-- The bindings of a scope behind their count. -/
def writeGrants (bindings : List AuthorityBinding) : Bytes := putCounted writeGrant bindings

def writeHeader (d : DurableState) : Bytes :=
  [putU16 d.formatVersion, putId d.generation, putId d.epoch, putId d.sequence].flatten

def writeScopes (d : DurableState) : Bytes :=
  [putId d.rootScope, putCounted writeOverride d.policyOverrides.values,
    writeAll writeScope d.scopes].flatten

/-- A committed rollback: its identity and its generation. -/
def writeCommitted (entry : UInt64 ×ₗ UInt64) : Bytes :=
  [putU64 (ofLex entry).1, putU64 (ofLex entry).2].flatten

def writeCommits (d : DurableState) : Bytes :=
  [putCounted putU64 d.committedPromotions.keys,
    putCounted writeCommitted d.committedRollbacks.keys].flatten

def writeAllocators (d : DurableState) : Bytes :=
  [putU64 d.nextModelId, putU64 d.nextVersionId, putU64 d.nextRolloutId, putU64 d.nextStageId,
    putU64 d.nextCohortId, putU64 d.nextPromotionId, putU64 d.nextRollbackId,
    putU64 d.nextAttemptId, putU64 d.nextWorkerId, putU64 d.nextEvidenceId,
    putU64 d.nextEvidenceGeneration, putU64 d.nextCompatibilityGeneration, putU64 0].flatten

/-- The payload of a state file: every section, in order of its tag. -/
def writePayload (d : DurableState) : Bytes :=
  [writeSection 1 1 (writeHeader d),
    writeSection 2 d.scopes.length (writeScopes d),
    writeSection 3 1 (writePolicy d.basePolicy),
    writeSection 4 d.models.size (writeAll writeModel d.models.values),
    writeSection 5 d.versions.size (writeAll writeVersion d.versions.values),
    writeSection 6 d.compatibility.size (writeAll writeFact d.compatibility.values),
    writeSection 7 d.rollouts.size (writeAll writePlan d.rollouts.values),
    writeSection 8 d.authority.size (writeAll writeGrants d.authority.values),
    writeSection 9 d.workerLeases.size (writeAll writeLease d.workerLeases.values),
    writeSection 10 d.evidence.length (writeAll writeEvidence d.evidence),
    writeSection 11 d.unsettledAttempts.size (writeAll writeAttempt d.unsettledAttempts.values),
    writeSection 12 2 (writeCommits d),
    writeSection 13 13 (writeAllocators d)].flatten

/-! ## Writing a file -/

/-- The first bytes of every state file. -/
def kMagic : Bytes := text "MLFS"

/-- Size of the header: magic, version, a reserved word and the length. -/
def kHeaderSize : ℕ := 12

/-- Size of the checksum. -/
def kTrailerSize : ℕ := 4

/-- The bytes of a state file before its payload. -/
def fileHeader (d : DurableState) (payload : Bytes) : Bytes :=
  [kMagic, word 2 d.formatVersion.toNat, word 2 0, word 4 payload.length].flatten

/-- Refuse a count that is over its limit. -/
def within (n limit : ℕ) (detail : Text) : Except StateStoreFault Unit :=
  ensure (n ≤ limit) ⟨.boundsExceeded, detail⟩

/-- Encode a durable state. -/
def serializeDurableState (limits : DecodeLimits) (d : DurableState) :
    Except StateStoreFault Bytes := do
  within d.scopes.length limits.maxScopes (text "scope count exceeds decode limits")
  within d.models.size limits.maxModels (text "model count exceeds decode limits")
  within d.versions.size limits.maxVersions (text "version count exceeds decode limits")
  within d.compatibility.size limits.maxCompatibilityFacts
    (text "compatibility fact count exceeds decode limits")
  within d.rollouts.size limits.maxRollouts (text "rollout count exceeds decode limits")
  within d.authority.values.flatten.length limits.maxAuthorityBindings
    (text "authority binding count exceeds decode limits")
  within d.workerLeases.size limits.maxWorkers (text "worker lease count exceeds decode limits")
  within d.evidence.length limits.maxEvidence (text "evidence count exceeds decode limits")
  within d.unsettledAttempts.size limits.maxAttempts
    (text "attempt count exceeds decode limits")
  within (writePayload d).length limits.maxPayloadBytes
    (text "encoded state exceeds the payload bound")
  .ok (sealFrame (fileHeader d (writePayload d) ++ writePayload d))

/-! ## Reading sections -/

/-- Go on with a value if there is one. -/
def given {α : Type} (found : Option α) : Reader α := fun input => found.map (·, input)

/-- Store records under keys that are not in use. -/
def addEntries {κ ν : Type} [LinearOrder κ] : List (κ × ν) → OrdMap κ ν → Option (OrdMap κ ν)
  | [], stored => some stored
  | (key, value) :: entries, stored =>
    if stored.contains key then none else addEntries entries (stored.insert key value)

/-- Store the bindings of each scope under the scope of the first; an empty list is passed
over. -/
def addGrants : List (List AuthorityBinding) → OrdMap UInt64 (List AuthorityBinding) →
    Option (OrdMap UInt64 (List AuthorityBinding))
  | [], stored => some stored
  | [] :: rest, stored => addGrants rest stored
  | (binding :: bindings) :: rest, stored =>
    if stored.contains binding.scope.raw then none
    else addGrants rest (stored.insert binding.scope.raw (binding :: bindings))

/-- Read a counted section of records and store them under their keys. -/
def readRecords {κ ν : Type} [LinearOrder κ] (limit count : ℕ) (read : Reader ν) (key : ν → κ)
    (stored : OrdMap κ ν) : Reader (OrdMap κ ν) := do
  check (count ≤ limit)
  let records ← many read count
  given (addEntries (records.map fun record => (key record, record)) stored)

def readHeader (count : ℕ) (d : DurableState) : Reader DurableState := do
  check (count = 1)
  let formatVersion ← getU16
  let generation ← getId
  let epoch ← getId
  let sequence ← getId
  pure { d with formatVersion, generation, epoch, sequence }

def readScopes (limits : DecodeLimits) (count : ℕ) (d : DurableState) : Reader DurableState := do
  check (count ≤ limits.maxScopes)
  let rootScope ← getId
  let overrides ← counted limits.maxScopes readOverride
  let scopes ← many (readScope limits) count
  pure { d with
    rootScope
    policyOverrides := overrides.foldl (fun stored o => stored.insert o.scope.raw o)
      d.policyOverrides
    scopes := d.scopes ++ scopes }

def readPolicySection (limits : DecodeLimits) (count : ℕ) (d : DurableState) :
    Reader DurableState := do
  check (count = 1)
  let policy ← readPolicy limits
  -- the lists are read onto those already there
  pure { d with
    basePolicy := { policy with
      promotableScopeKinds := d.basePolicy.promotableScopeKinds ++ policy.promotableScopeKinds
      globallyRequiredEvidence :=
        d.basePolicy.globallyRequiredEvidence ++ policy.globallyRequiredEvidence } }

def readCommitted : Reader (UInt64 ×ₗ UInt64) := do
  let id ← getU64
  let generation ← getU64
  pure (toLex (id, generation))

def readCommits (limits : DecodeLimits) (count : ℕ) (d : DurableState) : Reader DurableState := do
  check (count = 2)
  let promotions ← counted (sizeWord (limits.maxModels * 64)) getU64
  let committedPromotions ← given (addEntries (promotions.map (·, ())) d.committedPromotions)
  let rollbacks ← counted (sizeWord (limits.maxModels * 64)) readCommitted
  let committedRollbacks ← given (addEntries (rollbacks.map (·, ())) d.committedRollbacks)
  pure { d with committedPromotions, committedRollbacks }

def readAllocators (count : ℕ) (d : DurableState) : Reader DurableState := do
  check (count = 13)
  let nextModelId ← getU64
  let nextVersionId ← getU64
  let nextRolloutId ← getU64
  let nextStageId ← getU64
  let nextCohortId ← getU64
  let nextPromotionId ← getU64
  let nextRollbackId ← getU64
  let nextAttemptId ← getU64
  let nextWorkerId ← getU64
  let nextEvidenceId ← getU64
  let nextEvidenceGeneration ← getU64
  let nextCompatibilityGeneration ← getU64
  let _ ← getU64
  check (nextModelId ≠ 0 ∧ nextVersionId ≠ 0 ∧ nextRolloutId ≠ 0 ∧ nextPromotionId ≠ 0 ∧
    nextRollbackId ≠ 0 ∧ nextAttemptId ≠ 0 ∧ nextWorkerId ≠ 0 ∧ nextEvidenceId ≠ 0 ∧
    nextCompatibilityGeneration ≠ 0)
  pure { d with
    nextModelId, nextVersionId, nextRolloutId, nextStageId, nextCohortId, nextPromotionId
    nextRollbackId, nextAttemptId, nextWorkerId, nextEvidenceId, nextEvidenceGeneration
    nextCompatibilityGeneration }

/-- Read what follows the tag and the count of a section. -/
def readSection (limits : DecodeLimits) (tag count : ℕ) (d : DurableState) :
    Reader DurableState :=
  match tag with
  | 1 => readHeader count d
  | 2 => readScopes limits count d
  | 3 => readPolicySection limits count d
  | 4 => do
    let models ← readRecords limits.maxModels count (readModel limits) (·.id.raw) d.models
    pure { d with models }
  | 5 => do
    let versions ← readRecords limits.maxVersions count (readVersion limits)
      (fun r => versionKey r.model r.version) d.versions
    pure { d with versions }
  | 6 => do
    let compatibility ← readRecords limits.maxCompatibilityFacts count (readFact limits)
      (fun f => CompatibilityRegistry.keyOf f.version f.environmentKey) d.compatibility
    pure { d with compatibility }
  | 7 => do
    let rollouts ← readRecords limits.maxRollouts count (readPlan limits) (·.id.raw) d.rollouts
    pure { d with rollouts }
  | 8 => do
    let groups ← many (counted limits.maxAuthorityBindings readGrant) count
    let authority ← given (addGrants groups d.authority)
    pure { d with authority }
  | 9 => do
    let workerLeases ← readRecords limits.maxWorkers count (readLease limits) (·.id.raw)
      d.workerLeases
    pure { d with workerLeases }
  | 10 => do
    check (count ≤ limits.maxEvidence)
    let evidence ← many (readEvidence limits) count
    pure { d with evidence := d.evidence ++ evidence }
  | 11 => do
    let unsettledAttempts ← readRecords limits.maxAttempts count (readAttempt limits)
      (·.id.raw) d.unsettledAttempts
    pure { d with unsettledAttempts }
  | 12 => readCommits limits count d
  | 13 => readAllocators count d
  | _ => failure

/-- The most sections of a payload. -/
def maxSections : ℕ := 13 + 4

/-- Read sections to the end of the payload, as long as there may be more. -/
def readSections (limits : DecodeLimits) : ℕ → DurableState → Reader DurableState
  | room, d => fun input =>
    if input = [] then some (d, [])
    else
      match room with
      | 0 => none
      | room + 1 =>
        (do
          let tag ← number 2
          let count ← number 4
          let d ← readSection limits tag count d
          readSections limits room d) input

/-! ## What the sections must agree on -/

/-- Scope identities count up from one. -/
def scopesAgree (d : DurableState) : Bool :=
  !d.scopes.isEmpty &&
    decide (d.scopes.map (·.id.raw) =
      (List.range d.scopes.length).map fun i => UInt64.ofNat (i + 1))

/-- A version belongs to a stored model, and its predecessor is another stored version of it
whose predecessor it is not. -/
def versionAgrees (d : DurableState) (record : ModelVersionRecord) : Bool :=
  d.models.contains record.model.raw &&
    (!record.predecessor.valid ||
      decide (record.predecessor ≠ record.version) &&
        match d.versions.get? (versionKey record.model record.predecessor) with
        | none => false
        | some parent => decide (parent.predecessor ≠ record.version))

def factAgrees (d : DurableState) (fact : CompatibilityFact) : Bool :=
  d.versions.contains (versionKey fact.model fact.version)

/-- A scope identity names a stored scope. -/
def scopeStored (d : DurableState) (scope : ScopeId) : Bool :=
  decide (scope.raw ≠ 0 ∧ scope.raw.toNat ≤ d.scopes.length)

/-- A plan is for a stored version, has stages, cites stored scopes and its own cohorts, is at
one of its stages while live, and has a history once it ended. -/
def planAgrees (d : DurableState) (plan : RolloutPlan) : Bool :=
  d.versions.contains (versionKey plan.model plan.candidate) && !plan.stages.isEmpty &&
    !(!plan.live && plan.currentStageGeneration.valid && plan.history.isEmpty) &&
    (plan.cohorts.all fun cohort => cohort.scopes.all fun scope => scopeStored d scope) &&
    (plan.stages.all fun stage => stage.cohorts.all fun id =>
      plan.cohorts.any fun cohort => decide (cohort.id = id)) &&
    !(decide (plan.stages.length ≤ plan.currentStageIndex) && plan.live)

/-- The rollout a binding names, if it names one, is stored at its generation. -/
def rolloutAgrees (d : DurableState) (binding : AuthorityBinding) : Bool :=
  !binding.rollout.valid ||
    match d.rollouts.get? binding.rollout.raw with
    | none => false
    | some plan => decide (plan.generation = binding.rolloutGeneration)

/-- A binding is of a stored version that is not retired, at no newer generation than the
version has, in a stored scope. -/
def bindingAgrees (d : DurableState) (binding : AuthorityBinding) : Bool :=
  match d.versions.get? (versionKey binding.model binding.version) with
  | none => false
  | some record =>
    scopeStored d binding.scope && rolloutAgrees d binding && !record.retired &&
      decide (binding.modelGeneration ≤ record.generation)

/-- Evidence is about a stored version, and of a durable kind. -/
def evidenceAgrees (d : DurableState) (record : EvidenceRecord) : Bool :=
  d.versions.contains (versionKey record.subject.model record.subject.version) &&
    record.kind.isDurable

/-- The sections describe a possible world. -/
def sectionsAgree (d : DurableState) : Bool :=
  scopesAgree d && d.versions.values.all (versionAgrees d) &&
    d.compatibility.values.all (factAgrees d) && d.rollouts.values.all (planAgrees d) &&
    (d.authority.values.all fun bindings => bindings.all (bindingAgrees d)) &&
    (d.policyOverrides.keys.all fun scope => scopeStored d ⟨scope⟩) &&
    d.evidence.all (evidenceAgrees d)

/-! ## Reading a file -/

/-- Why a file is refused. What is wrong inside a payload is not told apart. -/
inductive Refusal
  | framing (fault : StateStoreFault)
  | content
  deriving DecidableEq

/-- The payload of a file. A null buffer is absent. -/
def unframe (limits : DecodeLimits) (data : Option Bytes) : Except StateStoreFault Bytes :=
  match data with
  | none => .error ⟨.truncated, text "state file shorter than the minimum frame"⟩
  | some data =>
    if data.length < kHeaderSize + kTrailerSize then
      .error ⟨.truncated, text "state file shorter than the minimum frame"⟩
    else if data.take 4 ≠ kMagic then
      .error ⟨.badMagic, text "state file magic does not match MLFS"⟩
    else
      let format := readAt data 4 2
      let length := readAt data 8 4
      let framed := kHeaderSize + length
      if format ≠ stateFormatVersion.toNat then
        .error ⟨.unsupportedVersion, text "unsupported state format version"⟩
      else if limits.maxPayloadBytes < length then
        .error ⟨.boundsExceeded, text "declared payload exceeds the decode bound"⟩
      else if data.length < framed + kTrailerSize then
        .error ⟨.truncated, text "payload shorter than declared length"⟩
      else if readAt data framed 4 ≠ (crc32 (data.take framed)).toNat then
        .error ⟨.integrityFailure, text "integrity check failed"⟩
      else .ok ((data.drop kHeaderSize).take length)

/-- Decode a durable state. -/
def deserializeDurableState (limits : DecodeLimits) (data : Option Bytes) :
    Except Refusal DurableState :=
  match unframe limits data with
  | .error fault => .error (.framing fault)
  | .ok payload =>
    match whole (readSections limits maxSections {}) payload with
    | none => .error .content
    | some d => if sectionsAgree d then .ok d else .error .content

end StateFile

end LifecycleFabric
