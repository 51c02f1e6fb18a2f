import LifecycleFabric.Engine.Leases

/-!
# Requirements of a current publisher

A requirement may ask that the boot which published its record be still current. The engine
looks the record up without naming any boot as current, so such a requirement is met by what
no boot published, and by nothing else.
-/

namespace LifecycleFabric

open EngineState Runs

variable {c : EngineConfig} {s : EngineState} {need : EvidenceRequirement}
  {subject : EvidenceSubject} {record : EvidenceRecord}

/-! ## The boots of leases -/

/-- Every unfenced lease is for a boot. -/
def LeasesBooted (s : EngineState) : Prop :=
  ∀ key lease, s.workers.get? key = some lease → lease.fenced = false → lease.boot.valid = true

theorem leasesBooted_init (c : EngineConfig) : LeasesBooted (init c) := by
  intro key lease hlease
  cases hlease

theorem step_leasesBooted (hs : Coherent s) (hbooted : LeasesBooted s) (op : Operation) :
    LeasesBooted (step c s op) := by
  have hcase := step_leases (c := c) hs op
  intro key lease hlease hactive
  generalize (step c s op).workers = workers at hcase hlease
  cases hcase with
  | kept => exact hbooted key lease hlease hactive
  | registered registration h =>
    rw [OrdMap.get?_insert] at hlease
    split_ifs at hlease with hkey
    · obtain rfl := Option.some.inj hlease
      exact h.named.2
    · exact hbooted key lease hlease hactive
  | fenced worker boot epoch reason held fenced hheld hunfenced hfenced =>
    rw [OrdMap.get?_modify] at hlease
    split_ifs at hlease with hkey
    · obtain ⟨_, _, rfl⟩ := Option.map_eq_some_iff.mp hlease
      rw [hfenced.1] at hactive
      cases hactive
    · exact hbooted key lease (by simpa using hlease) hactive
  | cleared cause clamped =>
    rw [OrdMap.get?_mapValues] at hlease
    obtain ⟨_, _, rfl⟩ := Option.map_eq_some_iff.mp hlease
    cases hactive
  | recovered d newEpoch recovered h =>
    rw [OrdMap.get?_mapValues] at hlease
    obtain ⟨_, _, rfl⟩ := Option.map_eq_some_iff.mp hlease
    cases hactive

theorem EngineState.ReachableState.leasesBooted (h : ReachableState c s) : LeasesBooted s := by
  have hboth : Coherent s ∧ LeasesBooted s :=
    Runs.reachable_invariant (P := fun t => Coherent t ∧ LeasesBooted t) (step c)
      (fun _ op ht => ⟨(step_cases ht.1 op).coherent ht.1, step_leasesBooted ht.1 ht.2 op⟩)
      ⟨coherent_init c, leasesBooted_init c⟩ h
  exact hboth.2

/-- A current boot is a boot. -/
theorem boot_valid_of_current (hs : LeasesBooted s) {worker : WorkerId} {boot : WorkerBootId}
    (h : s.workerBootCurrent worker boot = true) : boot.valid = true := by
  unfold workerBootCurrent workerOf at h
  cases hlease : s.workers.get? worker.raw with
  | none => simp [hlease] at h
  | some lease =>
    simp only [hlease, Bool.and_eq_true, Bool.not_eq_true', decide_eq_true_eq] at h
    rw [← h.2]
    exact hs worker.raw lease hlease h.1

/-! ## The matching record -/

/-- The record that answers a requirement once its publisher is left aside. -/
def EngineState.Matches (s : EngineState) (need : EvidenceRequirement) (subject : EvidenceSubject)
    (record : EvidenceRecord) : Prop :=
  s.checkEvidence { need with requireCurrentPublisher := false } subject =
    { currentness := .current, record := some record }

/-- A record is accepted for a requirement. -/
def EngineState.Accepts (s : EngineState) (need : EvidenceRequirement) (subject : EvidenceSubject)
    (record : EvidenceRecord) : Prop :=
  s.checkEvidence need subject = { currentness := .current, record := some record }

/-- The search for a record does not look at publishers. -/
theorem findCandidate_publisher (current : Bool) (bucket : List EvidenceRecord)
    (fallback : Option EvidenceCurrentness) :
    EvidenceStore.findCandidate { need with requireCurrentPublisher := current } subject bucket
      fallback = EvidenceStore.findCandidate need subject bucket fallback := by
  induction bucket generalizing fallback with
  | nil => rfl
  | cons head rest ih =>
    unfold EvidenceStore.findCandidate
    cases fallback with
    | none => simp only [ih]
    | some first => simp only [ih]

/-- A lookup answers with the record its search found, if no other record conflicts with it,
its provenance is known, and no boot published it where a current publisher is required. -/
theorem checkEvidence_current_iff :
    s.checkEvidence need subject = { currentness := .current, record := some record } ↔
      subject.version.raw ≠ 0 ∧
        (EvidenceStore.findCandidate need subject
          (s.evidence.bucket (EvidenceStore.makeKey subject need.kind)).reverse none).1 =
            some record ∧
        ((s.evidence.bucket (EvidenceStore.makeKey subject need.kind)).any fun stored =>
          decide (stored.generation = record.generation ∧ stored.subject = subject ∧
            stored.verdict ≠ record.verdict)) = false ∧
        record.provenance ≠ .unknown ∧
        ¬(need.requireCurrentPublisher = true ∧ record.boot.valid = true) := by
  have hboot : ∀ boot : WorkerBootId, boot.valid = true → boot ≠ {} := by
    rintro boot hvalid rfl
    exact absurd hvalid (by decide)
  unfold checkEvidence EvidenceStore.resolve
  by_cases hversion : subject.version.raw = 0
  · simp [hversion]
  · rw [if_neg hversion]
    dsimp only
    cases hfind : EvidenceStore.findCandidate need subject
        (s.evidence.bucket (EvidenceStore.makeKey subject need.kind)).reverse none with
    | mk found fallback =>
      cases found with
      | none => simp
      | some candidate =>
        dsimp only
        constructor
        · intro h
          split_ifs at h with hconflict hprovenance hpublisher hexpired
          · cases h
          · cases h
          · cases h
          · cases h
          · obtain rfl := Option.some.inj (congrArg EvidenceLookup.record h)
            refine ⟨hversion, rfl, by simpa using hconflict, hprovenance, ?_⟩
            rintro ⟨hneeds, hvalid⟩
            exact hpublisher ⟨by simp [hneeds], hvalid, hboot _ hvalid⟩
        · rintro ⟨_, hrecord, hconflict, hprovenance, hpublisher⟩
          obtain rfl := Option.some.inj hrecord
          rw [if_neg (by simpa using hconflict), if_neg hprovenance, if_neg, if_neg]
          · exact fun hexpired => absurd hexpired.2.1 (by simp)
          · rw [Bool.or_self]
            exact fun hstale => hpublisher ⟨hstale.1, hstale.2.1⟩

/-- A requirement of a current publisher accepts the matching record exactly when no boot
published it. -/
theorem accepts_iff_bootless (hneed : need.requireCurrentPublisher = true)
    (hmatch : s.Matches need subject record) :
    s.Accepts need subject record ↔ record.boot.valid = false := by
  unfold EngineState.Matches at hmatch
  rw [checkEvidence_current_iff, findCandidate_publisher] at hmatch
  obtain ⟨hversion, hfind, hconflict, hprovenance, _⟩ := hmatch
  unfold EngineState.Accepts
  rw [checkEvidence_current_iff, hneed]
  constructor
  · rintro ⟨_, _, _, _, hpublisher⟩
    simpa using hpublisher
  · intro hbootless
    exact ⟨hversion, hfind, hconflict, hprovenance, by simp [hbootless]⟩

/-- A requirement the matching record answers with the required verdict is met exactly when
the record is accepted. -/
theorem meets_iff_accepts (hmatch : s.Matches need subject record)
    (hverdict : record.verdict = need.requiredVerdict) :
    s.Meets need subject ↔ s.Accepts need subject record := by
  rw [meets_iff]
  unfold EngineState.Accepts
  constructor
  · rintro ⟨found, hlookup, _⟩
    have hsearch := (checkEvidence_current_iff.mp hlookup).2.1
    unfold EngineState.Matches at hmatch
    rw [checkEvidence_current_iff, findCandidate_publisher] at hmatch
    have hsame : found = record := Option.some.inj (hsearch.symm.trans hmatch.2.1)
    rw [hlookup, hsame]
  · intro haccepts
    exact ⟨record, haccepts, hverdict⟩

/-! ## Accepted publishers -/

/-- A requirement of a current publisher is checked as such: the matching record is accepted
exactly when its boot is current, by a lookup, and by every gate whose other requirements
are met when it has the required verdict. -/
structure EngineState.PublisherChecked (s : EngineState) (need : EvidenceRequirement)
    (subject : EvidenceSubject) (record : EvidenceRecord) : Prop where
  lookup : s.Accepts need subject record ↔ s.workerBootCurrent record.worker record.boot = true
  gates : record.verdict = need.requiredVerdict → ∀ needs, need ∈ needs →
    (∀ other ∈ needs, other ≠ need → s.Meets other subject) →
      ((s.checkEvidenceList needs subject).allowed = true ↔
        s.workerBootCurrent record.worker record.boot = true)

/-- The publisher of a matching record is checked exactly when the record names a boot and
that boot is not current: a record of a current worker is rejected, and one no boot published
is accepted. -/
theorem publisher_checked_iff (hs : ReachableState c s)
    (hneed : need.requireCurrentPublisher = true) (hmatch : s.Matches need subject record) :
    s.PublisherChecked need subject record ↔
      record.boot.valid = true ∧ s.workerBootCurrent record.worker record.boot = false := by
  have haccepts := accepts_iff_bootless hneed hmatch
  have hcurrent : s.workerBootCurrent record.worker record.boot = true →
      record.boot.valid = true := boot_valid_of_current hs.leasesBooted
  constructor
  · rintro ⟨hlookup, _⟩
    rw [haccepts, ← Bool.not_eq_true] at hlookup
    cases hboot : s.workerBootCurrent record.worker record.boot with
    | true => exact absurd (hcurrent hboot) (hlookup.mpr hboot)
    | false =>
      refine ⟨?_, rfl⟩
      by_contra hbootless
      rw [hlookup.mp hbootless] at hboot
      cases hboot
  · rintro ⟨hvalid, hstale⟩
    have hrejected : ¬s.Accepts need subject record := by
      rw [haccepts, hvalid]
      exact Bool.noConfusion
    refine ⟨by simp [hrejected, hstale], ?_⟩
    intro hverdict needs hlisted _
    rw [checkEvidenceList_allowed_iff, hstale]
    refine iff_of_false ?_ Bool.false_ne_true
    intro hmet
    exact hrejected ((meets_iff_accepts hmatch hverdict).mp (hmet need hlisted))

/-! ### A reading of a current worker -/

/-- The exact subject of the version the runs below register. -/
def registeredSubject : EvidenceSubject where
  model := ⟨1⟩
  version := ⟨1⟩
  modelGeneration := ⟨1⟩
  artifactSet := ⟨1⟩
  artifactGeneration := ⟨1⟩
  compatibilityGeneration := ⟨1⟩

/-- A worker registers, and publishes a satisfied health check of a version. -/
def readingPublished : List Operation :=
  [.registerModel [109] [] .synthetic,
    .registerVersion
      { model := ⟨1⟩, label := [49]
        artifact := { setId := ⟨1⟩, generation := ⟨1⟩, digest := [97] } },
    .registerWorker { id := ⟨1⟩, boot := ⟨7⟩ },
    .publishEvidence
      { kind := .healthCheck, subject := registeredSubject, verdict := .satisfied
        provenance := .real, worker := ⟨1⟩, boot := ⟨7⟩ }]

/-- The reading as it is filed. -/
def filedReading : EvidenceRecord where
  id := ⟨1⟩
  generation := ⟨1⟩
  kind := .healthCheck
  verdict := .satisfied
  subject := registeredSubject
  provenance := .real
  worker := ⟨1⟩
  boot := ⟨7⟩
  epoch := ⟨1⟩
  policyGeneration := ⟨1⟩

theorem publisher_checked_witness :
    (run (step {}) (init {}) readingPublished).PublisherChecked
        { kind := .healthCheck, requireCurrentPublisher := true } registeredSubject filedReading ↔
      filedReading.boot.valid = true ∧
        (run (step {}) (init {}) readingPublished).workerBootCurrent filedReading.worker
          filedReading.boot = false := by
  have hs : ReachableState {} (run (step {}) (init {}) readingPublished) := ⟨_, rfl⟩
  refine publisher_checked_iff hs rfl ?_
  unfold EngineState.Matches
  decide +kernel

/-- The reading of a current worker is rejected for its publisher. -/
theorem current_publisher_rejected :
    ((run (step {}) (init {}) readingPublished).Matches
        { kind := .healthCheck, requireCurrentPublisher := true } registeredSubject filedReading ∧
      (run (step {}) (init {}) readingPublished).workerBootCurrent filedReading.worker
        filedReading.boot = true) ∧
      ¬(run (step {}) (init {}) readingPublished).PublisherChecked
        { kind := .healthCheck, requireCurrentPublisher := true } registeredSubject
        filedReading := by
  have hcurrent : (run (step {}) (init {}) readingPublished).workerBootCurrent filedReading.worker
      filedReading.boot = true := by
    decide +kernel
  refine ⟨⟨?_, hcurrent⟩, ?_⟩
  · unfold EngineState.Matches
    decide +kernel
  · intro hchecked
    have haccepts := hchecked.lookup.mpr hcurrent
    unfold EngineState.Accepts at haccepts
    revert haccepts
    decide +kernel

end LifecycleFabric
