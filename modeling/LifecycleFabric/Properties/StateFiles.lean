import LifecycleFabric.Properties.Corruption
import LifecycleFabric.Properties.Supersessions
import LifecycleFabric.StateFile.SectionBounds

/-!
# Round trips of the state file

A payload is read section by section, each onto what the earlier ones gave. A state whose
records fit the limits, and whose sections agree, is what is read of its own file.
-/

namespace LifecycleFabric.StateFile

open ByteCodec Wire

variable {limits : DecodeLimits} {d start mid : DurableState} {room : ℕ} {p q : Prop}

/-! ## The loop over sections -/

/-- Sections are read to the end where they fit, and refused where they do not. -/
structure ReadsSections (limits : DecodeLimits) (room : ℕ) (start : DurableState)
    (sections : List Bytes) (fits : Prop) (d : DurableState) : Prop where
  accepts : fits → readSections limits room start sections.flatten = some (d, [])
  refuses : ¬fits → sections.flatten.length < 2 ^ 32 →
    readSections limits room start sections.flatten = none

namespace ReadsSections

theorem congr {sections : List Bytes} (h : ReadsSections limits room start sections p d)
    (hpq : p ↔ q) : ReadsSections limits room start sections q d where
  accepts hq := h.accepts (hpq.mpr hq)
  refuses hq := h.refuses fun hp => hq (hpq.mp hp)

theorem done (room : ℕ) (d : DurableState) : ReadsSections limits room d [] True d where
  accepts _ := by
    unfold readSections
    exact if_pos rfl
  refuses h := absurd trivial h

/-- One section after another. -/
theorem next {tag count : ℕ} {body : Bytes} {rest : List Bytes} (htag : tag < 2 ^ 16)
    (hcount : count < 2 ^ 32) (h : Reads (readSection limits tag count start) body p mid)
    (hrest : ReadsSections limits room mid rest q d) :
    ReadsSections limits (room + 1) start (writeSection tag count body :: rest) (p ∧ q) d := by
  have hsection : ∀ tail, readSections limits (room + 1) start
      (writeSection tag count body ++ tail) =
        (readSection limits tag count start (body ++ tail)).bind fun e =>
          readSections limits room e.1 e.2 := by
    intro tail
    have hinput : writeSection tag count body ++ tail =
        word 2 tag ++ (word 4 count ++ (body ++ tail)) := by
      simp [writeSection]
    have hnonempty : writeSection tag count body ++ tail ≠ [] := by
      rw [hinput]
      exact fun hnil => by simpa using congrArg List.length hnil
    have htagRead := (Reads.number_of_lt (n := 2) (by simpa using htag)).accepts trivial
      (word 4 count ++ (body ++ tail))
    have hcountRead := (Reads.number_of_lt (n := 4) (by simpa using hcount)).accepts trivial
      (body ++ tail)
    conv_lhs => unfold readSections
    rw [if_neg hnonempty, hinput]
    dsimp only
    rw [bind_apply, htagRead, Option.bind_some, bind_apply, hcountRead, Option.bind_some,
      bind_apply]
  constructor
  · rintro ⟨hp, hq⟩
    rw [List.flatten_cons, hsection, h.accepts hp, Option.bind_some]
    exact hrest.accepts hq
  · intro hpq hlength
    rw [List.flatten_cons, List.length_append] at hlength
    have hbody : body.length ≤ (writeSection tag count body).length := by
      rw [writeSection, List.length_append, List.length_append]
      omega
    rw [List.flatten_cons, hsection]
    by_cases hp : p
    · rw [h.accepts hp, Option.bind_some]
      exact hrest.refuses (fun hq => hpq ⟨hp, hq⟩) (by omega)
    · rw [h.refuses hp (by omega), Option.bind_none]

end ReadsSections

/-! ## Payloads -/

/-- The sections of a payload, in order. -/
def sections (d : DurableState) : List Bytes :=
  [writeSection 1 1 (writeHeader d),
    writeSection 2 d.scopes.length (writeScopes d),
    writeSection 3 1 (writePolicy d.basePolicy),
    writeSection 4 d.models.size (writeAll writeModel d.models.values),
    writeSection 5 d.versions.size (writeAll writeVersion d.versions.values),
    writeSection 6 d.compatibility.size (writeAll writeFact d.compatibility.values),
    writeSection 7 d.rollouts.size (writeAll writePlan d.rollouts.values),
    writeSection 8 d.authority.size (writeAll writeGrants d.authority.values),
    writeSection 9 d.workerLeases.size (writeAll writeLease d.workerLeases.values),
    writeSection 10 d.evidence.length (writeAll writeEvidence d.evidence),
    writeSection 11 d.unsettledAttempts.size (writeAll writeAttempt d.unsettledAttempts.values),
    writeSection 12 2 (writeCommits d),
    writeSection 13 13 (writeAllocators d)]

/-- The records of a state are under the keys that go with them, and are ones that their
numbers stand for; no binding is superseded. -/
structure ProperState (d : DurableState) : Prop where
  overrides : ∀ key o, d.policyOverrides.get? key = some o → o.scope.raw = key
  models : ∀ key record, d.models.get? key = some record → record.id.raw = key
  versions : ∀ key record, d.versions.get? key = some record →
    versionKey record.model record.version = key
  facts : ∀ key fact, d.compatibility.get? key = some fact →
    CompatibilityRegistry.keyOf fact.version fact.environmentKey = key
  plans : ∀ key plan, d.rollouts.get? key = some plan → plan.id.raw = key
  numbers : ∀ plan ∈ d.rollouts.values, properPlan plan
  grants : ∀ key bindings, d.authority.get? key = some bindings → properGrants key bindings
  leases : ∀ key lease, d.workerLeases.get? key = some lease → lease.id.raw = key
  attempts : ∀ key a, d.unsettledAttempts.get? key = some a → a.id.raw = key

/-- The records of a state are within the limits of their readers. -/
structure WithinState (limits : DecodeLimits) (d : DurableState) : Prop where
  scopes : d.scopes.length ≤ limits.maxScopes ∧
    (Fits limits.maxScopes d.policyOverrides.size ∧
      ∀ o ∈ d.policyOverrides.values, withinOverride o) ∧
    ∀ scope ∈ d.scopes, withinScope limits scope
  policy : withinPolicy limits d.basePolicy
  models : d.models.size ≤ limits.maxModels ∧ ∀ r ∈ d.models.values, withinModel limits r
  versions : d.versions.size ≤ limits.maxVersions ∧
    ∀ r ∈ d.versions.values, withinVersion limits r
  facts : d.compatibility.size ≤ limits.maxCompatibilityFacts ∧
    ∀ f ∈ d.compatibility.values, withinFact limits f
  plans : d.rollouts.size ≤ limits.maxRollouts ∧
    ∀ plan ∈ d.rollouts.values, withinPlan limits plan
  grants : ∀ bindings ∈ d.authority.values, withinGrants limits bindings
  leases : d.workerLeases.size ≤ limits.maxWorkers ∧
    ∀ lease ∈ d.workerLeases.values, withinLease limits lease
  evidence : d.evidence.length ≤ limits.maxEvidence ∧ ∀ r ∈ d.evidence, withinEvidence limits r
  attempts : d.unsettledAttempts.size ≤ limits.maxAttempts ∧
    ∀ a ∈ d.unsettledAttempts.values, withinAttempt limits a
  commits : Fits (sizeWord (limits.maxModels * 64)) d.committedPromotions.size ∧
    Fits (sizeWord (limits.maxModels * 64)) d.committedRollbacks.size
  allocators : withinAllocators d

/-- A section that a 32-bit length can carry has a count that 32 bits can carry. -/
theorem count_lt_of_carried (hcarried : (writePayload d).length < 2 ^ 32) {tag count : ℕ}
    {body : Bytes} (hsection : writeSection tag count body ∈ sections d)
    (hcount : count ≤ body.length) : count < 2 ^ 32 := by
  have hle := (List.sublist_flatten_of_mem hsection).length_le
  have hpayload : (sections d).flatten = writePayload d := rfl
  rw [hpayload, writeSection, List.length_append, List.length_append] at hle
  omega

theorem length_le_writeAll {α : Type} {write : α → Bytes} (hwrite : ∀ a, 0 < (write a).length)
    (records : List α) : records.length ≤ (writeAll write records).length :=
  length_le_putCounted hwrite records

/-- So has a section of the records of a map. -/
theorem size_lt_of_carried {κ ν : Type} [LinearOrder κ]
    (hcarried : (writePayload d).length < 2 ^ 32) (m : OrdMap κ ν) (write : ν → Bytes) (tag : ℕ)
    (hsection : writeSection tag m.size (writeAll write m.values) ∈ sections d)
    (hwrite : ∀ a, 0 < (write a).length) : m.size < 2 ^ 32 := by
  have hsize : m.values.length = m.size := List.length_map _
  exact count_lt_of_carried hcarried hsection (hsize ▸ length_le_writeAll hwrite m.values)

/-- A payload is read as the state it was written from where its records are within the
limits, and refused where they are not. -/
theorem reads_payload (hproper : ProperState d) (hcarried : (writePayload d).length < 2 ^ 32) :
    ReadsSections limits maxSections {} (sections d) (WithinState limits d) d := by
  have hscopes : d.scopes.length < 2 ^ 32 := by
    have hall : d.scopes.length ≤ (writeAll writeScope d.scopes).length :=
      length_le_writeAll (fun scope => by simp [writeScope]) d.scopes
    have hsection : writeSection 2 d.scopes.length (writeScopes d) ∈ sections d := by
      simp [sections]
    refine count_lt_of_carried hcarried hsection ?_
    simp only [writeScopes, List.flatten_cons, List.length_append]
    omega
  have hmodels := size_lt_of_carried hcarried d.models writeModel 4
    (by simp [sections]) fun r => by simp [writeModel]
  have hversions := size_lt_of_carried hcarried d.versions writeVersion 5
    (by simp [sections]) fun r => by simp [writeVersion]
  have hfacts := size_lt_of_carried hcarried d.compatibility writeFact 6
    (by simp [sections]) fun r => by simp [writeFact]
  have hplans := size_lt_of_carried hcarried d.rollouts writePlan 7
    (by simp [sections]) fun r => by simp [writePlan]
  have hgrants := size_lt_of_carried hcarried d.authority writeGrants 8
    (by simp [sections]) fun r => by simp [writeGrants, putCounted]
  have hleases := size_lt_of_carried hcarried d.workerLeases writeLease 9
    (by simp [sections]) fun r => by simp [writeLease]
  have hevidence : d.evidence.length < 2 ^ 32 := by
    have hsection : writeSection 10 d.evidence.length (writeAll writeEvidence d.evidence) ∈
        sections d := by
      simp [sections]
    refine count_lt_of_carried hcarried hsection ?_
    exact length_le_writeAll (fun r => by simp [writeEvidence]) d.evidence
  have hattempts := size_lt_of_carried hcarried d.unsettledAttempts writeAttempt 11
    (by simp [sections]) fun r => by simp [writeAttempt]
  have hread : ReadsSections limits maxSections {} (sections d) _ d :=
    .next (by norm_num) (by norm_num) reads_header <|
    .next (by norm_num) hscopes (reads_scopes rfl rfl hproper.overrides) <|
    .next (by norm_num) (by norm_num) (reads_policySection rfl rfl) <|
    .next (by norm_num) hmodels (reads_models rfl hproper.models) <|
    .next (by norm_num) hversions (reads_versions rfl hproper.versions) <|
    .next (by norm_num) hfacts (reads_compatibilityFacts rfl hproper.facts) <|
    .next (by norm_num) hplans (reads_plans rfl hproper.plans hproper.numbers) <|
    .next (by norm_num) hgrants (reads_authority rfl hproper.grants) <|
    .next (by norm_num) hleases (reads_leases rfl hproper.leases) <|
    .next (by norm_num) hevidence (reads_evidenceRecords rfl) <|
    .next (by norm_num) hattempts (reads_attempts rfl hproper.attempts) <|
    .next (by norm_num) (by norm_num) (reads_commits rfl rfl) <|
    .next (by norm_num) (by norm_num) reads_allocators <| .done _ _
  refine hread.congr ⟨?_, ?_⟩
  · rintro ⟨_, h2, h3, h4, h5, h6, h7, h8, h9, h10, h11, h12, h13, _⟩
    exact ⟨h2, h3, h4, h5, h6, h7, h8, h9, h10, h11, h12, h13⟩
  · rintro ⟨h2, h3, h4, h5, h6, h7, h8, h9, h10, h11, h12, h13⟩
    exact ⟨trivial, h2, h3, h4, h5, h6, h7, h8, h9, h10, h11, h12, h13, trivial⟩

/-! ## Files -/

/-- The payload of a file of the current format is taken out of it. -/
theorem unframe_fileBytes (hformat : d.formatVersion = stateFormatVersion)
    (hlimit : (writePayload d).length ≤ limits.maxPayloadBytes)
    (hcarried : (writePayload d).length < 2 ^ 32) :
    unframe limits (some (fileBytes d)) = .ok (writePayload d) := by
  have hbody : (fileHeader d (writePayload d) ++ writePayload d).length =
      kHeaderSize + (writePayload d).length := by simp
  have hsize : (fileBytes d).length = kHeaderSize + (writePayload d).length + kTrailerSize := by
    rw [fileBytes, length_sealFrame, hbody]
    rfl
  have hfile : fileBytes d = kMagic ++ (word 2 d.formatVersion.toNat ++
      (word 2 0 ++ word 4 (writePayload d).length ++ writePayload d ++
        word 4 (crc32 (fileHeader d (writePayload d) ++ writePayload d)).toNat)) := by
    simp [fileBytes, sealFrame, fileHeader]
  have hmagic : (fileBytes d).take 4 = kMagic := by
    have hfour : kMagic.length = 4 := by simp [kMagic, text]
    rw [hfile]
    exact List.take_left' hfour
  have hversion : readAt (fileBytes d) 4 2 = stateFormatVersion.toNat := by
    rw [hfile, readAt_append (by rfl), hformat]
    decide
  have hlength : readAt (fileBytes d) 8 4 = (writePayload d).length := by
    rw [fileBytes, sealFrame, List.append_assoc, readAt_fileHeader, Nat.mod_eq_of_lt hcarried]
  have hstored : readAt (fileBytes d) (kHeaderSize + (writePayload d).length) 4 =
      (crc32 (fileHeader d (writePayload d) ++ writePayload d)).toNat := by
    have hsealed := readAt_sealFrame (fileHeader d (writePayload d) ++ writePayload d) []
    rwa [List.append_nil, hbody] at hsealed
  have hframed : (fileBytes d).take (kHeaderSize + (writePayload d).length) =
      fileHeader d (writePayload d) ++ writePayload d := by
    rw [← hbody, fileBytes, sealFrame, List.take_left]
  have hpayload : ((fileBytes d).drop kHeaderSize).take (writePayload d).length =
      writePayload d := by
    have hheader : (fileHeader d (writePayload d)).length = kHeaderSize := length_fileHeader
    rw [fileBytes, sealFrame, List.append_assoc, ← hheader, List.drop_left, List.take_left]
  dsimp only [unframe]
  rw [hlength, hversion, hstored, hframed, hpayload, hmagic, hsize]
  rw [if_neg (by omega), if_neg (by simp), if_neg (by simp), if_neg (by omega),
    if_neg (by omega), if_neg (by simp)]

/-- A file is read as the state it was written from exactly where the records of the state
are within the limits and its sections agree, and as no state otherwise. -/
theorem deserialize_fileBytes (hproper : ProperState d)
    (hformat : d.formatVersion = stateFormatVersion)
    (hlimit : (writePayload d).length ≤ limits.maxPayloadBytes)
    (hcarried : (writePayload d).length < 2 ^ 32) (found : DurableState) :
    deserializeDurableState limits (some (fileBytes d)) = .ok found ↔
      found = d ∧ WithinState limits d ∧ sectionsAgree d = true := by
  have hread : ReadsSections limits maxSections {} (sections d) (WithinState limits d) d :=
    reads_payload hproper hcarried
  have hsections : (sections d).flatten = writePayload d := rfl
  rw [deserializeDurableState, unframe_fileBytes hformat hlimit hcarried]
  dsimp only
  by_cases hwithin : WithinState limits d
  · have hwhole : whole (readSections limits maxSections {}) (writePayload d) = some d := by
      rw [whole, ← hsections, hread.accepts hwithin]
    rw [hwhole]
    dsimp only
    split_ifs with hagree
    · rw [Except.ok.injEq]
      exact ⟨fun h => ⟨h.symm, hwithin, hagree⟩, fun h => h.1.symm⟩
    · exact iff_of_false (fun h => by cases h) fun h => hagree h.2.2
  · have hwhole : whole (readSections limits maxSections {}) (writePayload d) = none := by
      rw [whole, ← hsections, hread.refuses hwithin hcarried]
    rw [hwhole]
    exact iff_of_false (fun h => by cases h) fun h => hwithin h.2.1

/-- A state that the decoder's own limits and checks allow. -/
structure Storable (limits : DecodeLimits) (d : DurableState) : Prop where
  proper : ProperState d
  format : d.formatVersion = stateFormatVersion
  counts : withinCounts limits d
  payload : (writePayload d).length ≤ limits.maxPayloadBytes
  carried : (writePayload d).length < 2 ^ 32
  within : WithinState limits d
  agree : sectionsAgree d = true

/-- A state that the decoder allows is encoded, and is what is read of its encoding. -/
theorem state_file_round_trip (h : Storable limits d) :
    ∃ bytes, serializeDurableState limits d = .ok bytes ∧
      deserializeDurableState limits (some bytes) = .ok d := by
  refine ⟨fileBytes d, serialize_eq_ok_iff.mpr ⟨h.counts, h.payload, rfl⟩, ?_⟩
  exact (deserialize_fileBytes h.proper h.format h.payload h.carried d).mpr
    ⟨rfl, h.within, h.agree⟩

/-- What is durable of a state in which a plan is under way. -/
def recordedPlan : DurableState :=
  (EngineState.runOps {} (EngineState.init {}) enteredPlan).exportDurableState

theorem recordedPlan_storable : Storable {} recordedPlan where
  proper := {
    overrides := OrdMap.of_entries (by decide +kernel)
    models := OrdMap.of_entries (by decide +kernel)
    versions := OrdMap.of_entries (by decide +kernel)
    facts := OrdMap.of_entries (by decide +kernel)
    plans := OrdMap.of_entries (by decide +kernel)
    numbers := by
      have hplain : ∀ plan ∈ recordedPlan.rollouts.values, plan.currentStageIndex < 2 ^ 32 ∧
          (∀ s ∈ plan.stages, s.acceptance = [] ∧ s.failure = []) ∧
            ∀ r ∈ plan.history, r.reasons = [] := by
        decide +kernel
      intro plan hplan
      obtain ⟨hindex, hstages, hhistory⟩ := hplain plan hplan
      refine ⟨hindex, ?_, ?_⟩
      · intro s hs
        obtain ⟨hacceptance, hfailure⟩ := hstages s hs
        simp [properStage, hacceptance, hfailure]
      · intro r hr
        simp [properStageRecord, hhistory r hr]
    grants := OrdMap.of_entries (by unfold properGrants; decide +kernel)
    leases := OrdMap.of_entries (by decide +kernel)
    attempts := OrdMap.of_entries (by decide +kernel) }
  format := by decide +kernel
  counts := by unfold withinCounts; decide +kernel
  payload := by decide +kernel
  carried := by decide +kernel
  within := {
    scopes := by decide +kernel
    policy := by decide +kernel
    models := by decide +kernel
    versions := by decide +kernel
    facts := by decide +kernel
    plans := by decide +kernel
    grants := by decide +kernel
    leases := by decide +kernel
    evidence := by decide +kernel
    attempts := by decide +kernel
    commits := by decide +kernel
    allocators := by decide +kernel }
  agree := by decide +kernel

theorem state_file_round_trip_witness :
    ∃ bytes, serializeDurableState {} recordedPlan = .ok bytes ∧
      deserializeDurableState {} (some bytes) = .ok recordedPlan :=
  state_file_round_trip recordedPlan_storable

end LifecycleFabric.StateFile
