import LifecycleFabric.EvidenceFiling

/-!
# What a lookup of evidence answers

A lookup answers with a record of the bucket of its subject and kind. A requirement of the
exact subject is answered by that subject only, and the newest record answers first.
-/

namespace LifecycleFabric

/-! ## Found records -/

theorem findCandidate_mem {requirement : EvidenceRequirement} {subject : EvidenceSubject}
    {bucket : List EvidenceRecord} {fallback : Option EvidenceCurrentness}
    {found : EvidenceRecord}
    (h : (EvidenceStore.findCandidate requirement subject bucket fallback).1 = some found) :
    found ∈ bucket := by
  induction bucket generalizing fallback with
  | nil => cases h
  | cons record rest ih =>
    unfold EvidenceStore.findCandidate at h
    split at h
    · obtain rfl := Option.some.inj h
      exact List.mem_cons_self
    · cases fallback with
      | some first => exact List.mem_cons_of_mem _ (ih h)
      | none =>
        dsimp only at h
        split at h
        · obtain rfl := Option.some.inj h
          exact List.mem_cons_self
        · exact List.mem_cons_of_mem _ (ih h)

/-- What a lookup finds is filed. -/
theorem resolve_mem {store : EvidenceStore} {requirement : EvidenceRequirement}
    {subject : EvidenceSubject} {boot : WorkerBootId} {current : Bool} {now age : UInt64}
    {found : EvidenceRecord}
    (h : (store.resolve requirement subject boot current now age).record = some found) :
    found ∈ store.bucket (EvidenceStore.makeKey subject requirement.kind) := by
  unfold EvidenceStore.resolve at h
  split at h
  · cases h
  · dsimp only at h
    split at h
    · cases h
    · rename_i candidate _ hfound
      have hcandidate : found = candidate := by
        split_ifs at h <;> exact (Option.some.inj h).symm
      rw [hcandidate]
      exact List.mem_reverse.mp (findCandidate_mem (congrArg Prod.fst hfound))

/-- For an exact subject the scan finds the first record of that subject. -/
theorem findCandidate_eq_find {requirement : EvidenceRequirement} {subject : EvidenceSubject}
    (hexact : requirement.requireExactSubject = true) (bucket : List EvidenceRecord)
    (fallback : Option EvidenceCurrentness) :
    (EvidenceStore.findCandidate requirement subject bucket fallback).1 =
      bucket.find? fun r => decide (r.subject = subject) := by
  induction bucket generalizing fallback with
  | nil => rfl
  | cons record rest ih =>
    unfold EvidenceStore.findCandidate
    by_cases hsame : record.subject = subject
    · rw [if_pos hsame, List.find?_cons_of_pos (by simpa using hsame)]
    · rw [if_neg hsame, List.find?_cons_of_neg (by simpa using hsame)]
      cases fallback with
      | some first => exact ih _
      | none =>
        dsimp only
        rw [hexact, Bool.not_true, if_neg Bool.false_ne_true]
        exact ih _

/-- A record found for a requirement of the exact subject is of that subject. -/
theorem findCandidate_exact {requirement : EvidenceRequirement} {subject : EvidenceSubject}
    (hexact : requirement.requireExactSubject = true) {bucket : List EvidenceRecord}
    {fallback : Option EvidenceCurrentness} {found : EvidenceRecord}
    (h : (EvidenceStore.findCandidate requirement subject bucket fallback).1 = some found) :
    found.subject = subject := by
  rw [findCandidate_eq_find hexact] at h
  simpa using List.find?_some h

/-- What answers a requirement of the exact subject is a record of that subject. -/
theorem resolve_exact {store : EvidenceStore} {requirement : EvidenceRequirement}
    {subject : EvidenceSubject} (hexact : requirement.requireExactSubject = true)
    {boot : WorkerBootId} {current : Bool} {now age : UInt64} {found : EvidenceRecord}
    (h : (store.resolve requirement subject boot current now age).record = some found) :
    found.subject = subject := by
  unfold EvidenceStore.resolve at h
  split at h
  · cases h
  · dsimp only at h
    split at h
    · cases h
    · rename_i candidate _ hfound
      have hcandidate : found = candidate := by
        split_ifs at h <;> exact (Option.some.inj h).symm
      rw [hcandidate]
      exact findCandidate_exact hexact (congrArg Prod.fst hfound)

/-- A mismatch is never reported as current evidence. -/
theorem classifyMismatch_ne_current (stored requested : EvidenceSubject) :
    EvidenceStore.classifyMismatch stored requested ≠ .current := by
  unfold EvidenceStore.classifyMismatch
  dsimp only
  split_ifs <;> exact fun h => by cases h

theorem findCandidate_fallback {requirement : EvidenceRequirement} {subject : EvidenceSubject}
    {bucket : List EvidenceRecord} {fallback : Option EvidenceCurrentness}
    (hfallback : fallback ≠ some .current) :
    (EvidenceStore.findCandidate requirement subject bucket fallback).2 ≠ some .current := by
  induction bucket generalizing fallback with
  | nil => exact hfallback
  | cons record rest ih =>
    unfold EvidenceStore.findCandidate
    split
    · exact hfallback
    · cases fallback with
      | some first => exact ih hfallback
      | none =>
        dsimp only
        split
        · exact fun h => by cases h
        · refine ih ?_
          intro h
          exact classifyMismatch_ne_current _ _ (Option.some.inj h)

/-- What is reported as current is a record. -/
theorem resolve_current {store : EvidenceStore} {requirement : EvidenceRequirement}
    {subject : EvidenceSubject} {boot : WorkerBootId} {current : Bool} {now age : UInt64}
    (h : (store.resolve requirement subject boot current now age).currentness = .current) :
    ∃ found, (store.resolve requirement subject boot current now age).record = some found := by
  unfold EvidenceStore.resolve at h ⊢
  split at h
  · cases h
  · rename_i hversion
    rw [if_neg hversion]
    dsimp only at h ⊢
    have hfallback : (EvidenceStore.findCandidate requirement subject
        (store.bucket (EvidenceStore.makeKey subject requirement.kind)).reverse none).2 ≠
          some .current := by
      apply findCandidate_fallback
      simp
    split at h
    · rename_i fallback hnone
      rw [hnone] at hfallback
      cases fallback with
      | none => cases h
      | some first => exact absurd (congrArg some h) hfallback
    · rename_i candidate _ hfound
      refine ⟨candidate, ?_⟩
      split_ifs <;> rfl

/-! ## The newest record -/

/-- A record that is the newest of its bucket answers a need for its own subject, or for any
subject where the need asks for no exact one. A need of a current publisher is not met by
what a boot published. -/
theorem resolve_newest_iff {store : EvidenceStore} {record : EvidenceRecord}
    {older : List EvidenceRecord} {subject : EvidenceSubject} (need : EvidenceRequirement)
    (hversion : subject.version.valid = true)
    (hbucket : store.bucket (EvidenceStore.makeKey subject need.kind) = older ++ [record])
    (hnewest : ∀ old ∈ older, old.generation ≠ record.generation)
    (hprovenance : record.provenance ≠ .unknown) (age : UInt64) :
    store.resolve need subject {} need.requireCurrentPublisher 0 age =
        { currentness := .current, record := some record } ↔
      (need.requireExactSubject = true → record.subject = subject) ∧
        (need.requireCurrentPublisher = true → record.boot.valid = false) := by
  have hzero : subject.version.raw ≠ 0 := by simpa [Ident.valid] using hversion
  by_cases hanswers : need.requireExactSubject = true → record.subject = subject
  · have hfound : EvidenceStore.findCandidate need subject (older ++ [record]).reverse none =
        (some record, none) := by
      rw [List.reverse_append, List.reverse_singleton, List.singleton_append]
      unfold EvidenceStore.findCandidate
      by_cases hsubject : record.subject = subject
      · rw [if_pos hsubject]
      · have hloose : need.requireExactSubject = false := by
          rw [← Bool.not_eq_true]
          exact fun hexact => hsubject (hanswers hexact)
        rw [if_neg hsubject, hloose]
        rfl
    have hconflict : ((older ++ [record]).any fun stored =>
        decide (stored.generation = record.generation ∧ stored.subject = subject ∧
          stored.verdict ≠ record.verdict)) = false := by
      rw [List.any_eq_false]
      intro stored hstored
      rcases List.mem_append.mp hstored with hold | hnew
      · simp [hnewest stored hold]
      · simp [List.mem_singleton.mp hnew]
    unfold EvidenceStore.resolve
    rw [if_neg hzero]
    dsimp only
    rw [hbucket, hfound]
    dsimp only
    rw [hconflict, Bool.or_self, if_neg Bool.false_ne_true, if_neg hprovenance]
    by_cases hpublisher : need.requireCurrentPublisher = true ∧ record.boot.valid = true
    · have hstale : need.requireCurrentPublisher = true ∧ record.boot.valid = true ∧
          record.boot ≠ {} := by
        refine ⟨hpublisher.1, hpublisher.2, ?_⟩
        rintro hboot
        rw [hboot] at hpublisher
        exact absurd hpublisher.2 (by decide)
      rw [if_pos hstale]
      simp [hpublisher.1, hpublisher.2]
    · have hcurrent : ¬(need.requireCurrentPublisher = true ∧ record.boot.valid = true ∧
          record.boot ≠ {}) := fun h => hpublisher ⟨h.1, h.2.1⟩
      rw [if_neg hcurrent, if_neg (by simp)]
      rw [not_and, Bool.not_eq_true] at hpublisher
      exact iff_of_true rfl ⟨hanswers, hpublisher⟩
  · rw [Classical.not_imp] at hanswers
    refine iff_of_false ?_ fun h => hanswers.2 (h.1 hanswers.1)
    intro hresolve
    refine hanswers.2 ?_
    exact resolve_exact hanswers.1 (congrArg EvidenceLookup.record hresolve)

end LifecycleFabric
