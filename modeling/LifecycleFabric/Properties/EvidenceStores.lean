import LifecycleFabric.EvidenceHistory

/-!
# What the evidence store keeps and answers

A lookup of an exact subject answers with the newest stored record of that subject. The
counters of the store follow its records through every history, and a full store gives up
its oldest record for a new one.
-/

namespace LifecycleFabric

open EvidenceStore

variable {store : EvidenceStore} {capacity : ℕ} {j : Journal EvidenceRecord}
  {log : List EvidenceRecord}

/-! ## Lookups of an exact subject -/

/-- Scanned from the back, a list shows its last match first. -/
theorem find?_reverse_eq {α : Type} (p : α → Bool) (l : List α) :
    l.reverse.find? p = (l.filter p).getLast? := by
  rw [← List.head?_filter, List.filter_reverse, List.head?_reverse]

theorem code_injective {kind kind' : EvidenceKind}
    (h : UInt16.ofNat kind.code = UInt16.ofNat kind'.code) : kind = kind' := by
  have hread : ∀ kind : EvidenceKind,
      EvidenceKind.all[(UInt16.ofNat kind.code).toNat]? = some kind := by
    intro kind
    cases kind <;> rfl
  have hsame := hread kind
  rw [h, hread kind'] at hsame
  exact (Option.some.inj hsame).symm

/-- The records of a subject lie in the bucket of their kind. -/
theorem keyOf_eq_iff {record : EvidenceRecord} {subject : EvidenceSubject} {kind : EvidenceKind}
    (hsubject : record.subject = subject) :
    keyOf record = makeKey subject kind ↔ record.kind = kind := by
  rw [keyOf, hsubject]
  constructor
  · intro hkey
    exact code_injective (congrArg (fun key : EvidenceKey => (ofLex key).2) hkey)
  · intro hkind
    rw [hkind]

/-- The last stored record of a subject and kind, where there is one. -/
theorem EvidenceStore.Represents.find_reverse (h : store.Represents capacity j)
    (subject : EvidenceSubject) (kind : EvidenceKind) :
    (store.bucket (makeKey subject kind)).reverse.find? (fun r => decide (r.subject = subject)) =
      (j.kept.filter fun r => decide (r.kind = kind ∧ r.subject = subject)).getLast? := by
  rw [find?_reverse_eq, h.buckets, List.filter_filter]
  congr 1
  refine List.filter_congr fun r _ => ?_
  by_cases hsubject : r.subject = subject
  · simp [hsubject, keyOf_eq_iff hsubject]
  · simp [hsubject]

/-- Without a need of a publisher and without an age limit, the newest stored record of an
exact subject is current unless its provenance is unknown. -/
theorem EvidenceStore.Represents.resolve_eq (h : store.Represents capacity j)
    {requirement : EvidenceRequirement} (hexact : requirement.requireExactSubject = true)
    (hpublisher : requirement.requireCurrentPublisher = false) {subject : EvidenceSubject}
    (hversion : subject.version.valid = true) (boot : WorkerBootId) (now : UInt64)
    (found : EvidenceRecord) :
    store.resolve requirement subject boot false now 0 =
        { currentness := .current, record := some found } ↔
      (j.kept.filter fun r => decide (r.kind = requirement.kind ∧ r.subject = subject)).getLast? =
        some found ∧ found.provenance ≠ .unknown := by
  have hzero : subject.version.raw ≠ 0 := by simpa [Ident.valid] using hversion
  have hfind := h.find_reverse subject requirement.kind
  have hscan : (findCandidate requirement subject
      (store.bucket (makeKey subject requirement.kind)).reverse none).1 =
      (store.bucket (makeKey subject requirement.kind)).reverse.find? fun r =>
        decide (r.subject = subject) := findCandidate_eq_find hexact _ none
  rw [← hfind, ← hscan]
  unfold resolve
  rw [if_neg hzero]
  dsimp only
  generalize findCandidate requirement subject
    (store.bucket (makeKey subject requirement.kind)).reverse none = scanned at hscan ⊢
  obtain ⟨candidate, fallback⟩ := scanned
  cases candidate with
  | none =>
    refine iff_of_false ?_ fun hboth => by cases hboth.1
    intro heq
    cases congrArg EvidenceLookup.record heq
  | some candidate =>
    dsimp only at hscan ⊢
    have hmem : candidate ∈ store.bucket (makeKey subject requirement.kind) :=
      List.mem_reverse.mp (List.mem_of_find?_eq_some hscan.symm)
    have hconflict : ((store.bucket (makeKey subject requirement.kind)).any fun record =>
        decide (record.generation = candidate.generation ∧ record.subject = subject ∧
          record.verdict ≠ candidate.verdict)) = false := by
      rw [List.any_eq_false]
      intro stored hstored hconflicting
      obtain ⟨hgeneration, _, hverdict⟩ := of_decide_eq_true hconflicting
      have hsame := h.generation_inj (h.mem_bucket_iff.mp hstored).1
        (h.mem_bucket_iff.mp hmem).1 hgeneration
      exact hverdict (congrArg EvidenceRecord.verdict hsame)
    rw [hconflict, hpublisher, Bool.or_self, if_neg Bool.false_ne_true]
    by_cases hprovenance : candidate.provenance = .unknown
    · rw [if_pos hprovenance]
      refine iff_of_false (fun heq => by cases congrArg EvidenceLookup.currentness heq) ?_
      rintro ⟨hfound, hknown⟩
      obtain rfl := Option.some.inj hfound
      exact hknown hprovenance
    · rw [if_neg hprovenance, if_neg (by simp), if_neg (by simp)]
      constructor
      · intro heq
        obtain rfl := Option.some.inj (congrArg EvidenceLookup.record heq)
        exact ⟨rfl, hprovenance⟩
      · rintro ⟨hfound, _⟩
        obtain rfl := Option.some.inj hfound
        rfl

/-- A lookup of an exact subject is current exactly with the record last published among
those stored of its kind and subject, where that record's provenance is known, and never
with a record of another subject. -/
theorem resolve_current_iff (capacity : ℕ) (ops : List EvidenceCall)
    {requirement : EvidenceRequirement} (hexact : requirement.requireExactSubject = true)
    (hpublisher : requirement.requireCurrentPublisher = false) {subject : EvidenceSubject}
    (hversion : subject.version.valid = true) (boot : WorkerBootId) (now : UInt64) :
    (∀ found, (afterCalls capacity ops).resolve requirement subject boot false now 0 =
        { currentness := .current, record := some found } ↔
      ((publications capacity ops).filter fun r => (afterCalls capacity ops).stores r &&
        decide (r.kind = requirement.kind ∧ r.subject = subject)).getLast? = some found ∧
          found.provenance ≠ .unknown) ∧
      (((afterCalls capacity ops).resolve requirement subject boot false now 0).currentness =
          .current →
        ∃ found, ((afterCalls capacity ops).resolve requirement subject boot false now 0).record =
          some found ∧ found.subject = subject) := by
  obtain ⟨j, hkeeps⟩ := keeps_afterCalls capacity ops
  have hstored : ((publications capacity ops).filter fun r => (afterCalls capacity ops).stores r &&
      decide (r.kind = requirement.kind ∧ r.subject = subject)) =
        j.kept.filter fun r => decide (r.kind = requirement.kind ∧ r.subject = subject) := by
    rw [← hkeeps.filter_stores, List.filter_filter]
    simp only [Bool.and_comm]
  refine ⟨fun found => ?_, fun hcurrent => ?_⟩
  · rw [hstored]
    exact hkeeps.represents.resolve_eq hexact hpublisher hversion boot now found
  · obtain ⟨found, hfound⟩ := resolve_current hcurrent
    exact ⟨found, hfound, resolve_exact hexact hfound⟩

/-- A version's readings of health, the last of another stage. -/
def sampleReading (generation : UInt64) (stage : RolloutStageId) : EvidenceRecord where
  generation := ⟨generation⟩
  verdict := .satisfied
  subject := { version := ⟨7⟩, stage }
  provenance := .real

theorem resolve_current_iff_witness :
    (afterCalls 4 [.publish (sampleReading 1 ⟨1⟩), .publish (sampleReading 2 ⟨1⟩),
        .publish (sampleReading 3 ⟨2⟩)]).resolve {} { version := ⟨7⟩, stage := ⟨1⟩ } {} false 0 0 =
      { currentness := .current, record := some (sampleReading 2 ⟨1⟩) } :=
  ((resolve_current_iff 4 _ rfl rfl rfl {} 0).1 _).mpr ⟨by decide +kernel, by decide⟩

/-! ## Counts and evictions -/

/-- A full store gives up its oldest record for a new one. -/
theorem EvidenceStore.Represents.publish_full (h : store.Represents capacity j)
    (hcapacity : 1 ≤ capacity) {record : EvidenceRecord}
    (hallowed : (store.publish record).2.allowed = true) (hfull : store.recordCount = capacity) :
    ∃ victim, store.stores victim = true ∧
      (∀ r, store.stores r = true → victim.generation ≤ r.generation) ∧
      ∀ r, (store.publish record).1.stores r = true ↔
        r = record ∨ store.stores r = true ∧ r ≠ victim := by
  have hlength : j.kept.length = capacity := h.count.symm.trans hfull
  rcases h.publish record with ⟨hrefused, _⟩ | ⟨_, _, _, hnew⟩
  · rw [hrefused] at hallowed
    cases hallowed
  · have hordered := h.ordered
    cases hkept : j.kept with
    | nil =>
      rw [hkept, List.length_nil] at hlength
      omega
    | cons oldest later =>
      rw [hkept] at hordered
      have holder := (List.pairwise_cons.mp hordered).1
      have hstores : ∀ r, store.stores r = true ↔ r = oldest ∨ r ∈ later := by
        intro r
        rw [h.stores_iff, hkept, List.mem_cons]
      refine ⟨oldest, (hstores oldest).mpr (Or.inl rfl), ?_, ?_⟩
      · intro r hr
        rcases (hstores r).mp hr with rfl | hlater
        · exact le_rfl
        · exact (holder r hlater).le
      · intro r
        rw [hnew.stores_iff, hstores, Journal.append, Journal.room_of_full hkept hlength,
          List.mem_append, List.mem_singleton]
        constructor
        · rintro (hlater | rfl)
          · refine Or.inr ⟨Or.inr hlater, ?_⟩
            rintro rfl
            exact (holder r hlater).ne rfl
          · exact Or.inl rfl
        · rintro (rfl | ⟨hold, hother⟩)
          · exact Or.inr rfl
          · exact Or.inl (hold.resolve_left hother)

/-- In every history of a store of at least one record the count is that of the stored records
and within the capacity, the eviction order lists every stored record, a publication at
capacity evicts the stored record of the least generation alone, and each accepted record is
stored or counted as dropped. -/
theorem evidence_accounted (capacity : ℕ) (hcapacity : 1 ≤ capacity) (ops : List EvidenceCall) :
    (afterCalls capacity ops).recordCount = total (afterCalls capacity ops).records ∧
      (afterCalls capacity ops).recordCount ≤ capacity ∧
      (∀ key, ∀ r ∈ (afterCalls capacity ops).bucket key,
        (afterCalls capacity ops).evictionOrder.get? r.generation.raw = some key) ∧
      (∀ record, ((afterCalls capacity ops).publish record).2.allowed = true →
        (afterCalls capacity ops).recordCount = capacity →
        ∃ victim, (afterCalls capacity ops).stores victim = true ∧
          (∀ r, (afterCalls capacity ops).stores r = true → victim.generation ≤ r.generation) ∧
          ∀ r, ((afterCalls capacity ops).publish record).1.stores r = true ↔
            r = record ∨ (afterCalls capacity ops).stores r = true ∧ r ≠ victim) ∧
      (publications capacity ops).length =
        (afterCalls capacity ops).recordCount + (afterCalls capacity ops).dropped := by
  obtain ⟨j, hkeeps⟩ := keeps_afterCalls capacity ops
  have hrepresents := hkeeps.represents
  have hcount := hrepresents.count
  refine ⟨hcount.trans hrepresents.total_eq.symm, ?_, ?_, ?_, ?_⟩
  · rw [hcount]
    exact hkeeps.holds.length_le hcapacity
  · intro key r hr
    obtain ⟨hkept, rfl⟩ := hrepresents.mem_bucket_iff.mp hr
    exact hrepresents.entered r hkept
  · intro record hallowed hfull
    exact hrepresents.publish_full hcapacity hallowed hfull
  · rw [hcount, hrepresents.dropped]
    exact hkeeps.holds.length_eq

theorem evidence_accounted_witness :
    (publications 2 [.publish (sampleReading 1 ⟨1⟩), .publish (sampleReading 2 ⟨1⟩),
        .publish (sampleReading 3 ⟨2⟩), .removeKinds [.healthCheck]]).length =
      (afterCalls 2 [.publish (sampleReading 1 ⟨1⟩), .publish (sampleReading 2 ⟨1⟩),
        .publish (sampleReading 3 ⟨2⟩), .removeKinds [.healthCheck]]).recordCount +
      (afterCalls 2 [.publish (sampleReading 1 ⟨1⟩), .publish (sampleReading 2 ⟨1⟩),
        .publish (sampleReading 3 ⟨2⟩), .removeKinds [.healthCheck]]).dropped :=
  (evidence_accounted 2 (by decide) _).2.2.2.2

end LifecycleFabric
