import LifecycleFabric.Engine.Stats
import LifecycleFabric.Properties.Withdrawals

/-!
# The reported amount of evidence

The engine reports as its amount of evidence the number of buckets of the store, not of
records. The two agree as long as every publication goes to a bucket that holds nothing else.
-/

namespace LifecycleFabric

open EngineState EvidenceStore Runs

variable {c : EngineConfig} {s : EngineState} {store : EvidenceStore} {capacity : ℕ}
  {j : Journal EvidenceRecord} {log : List EvidenceRecord}

/-! ## Buckets and records -/

/-- The keys of the buckets are those of the stored records. -/
theorem EvidenceStore.Represents.mem_keys_iff (h : store.Represents capacity j)
    {key : EvidenceKey} : key ∈ store.records.keys ↔ key ∈ j.kept.map keyOf := by
  rw [OrdMap.mem_keys_iff, List.mem_map]
  constructor
  · rintro ⟨bucket, hbucket⟩
    have hfilled : bucket ≠ [] := by
      rintro rfl
      exact h.filled key hbucket
    obtain ⟨r, hr⟩ := List.exists_mem_of_ne_nil bucket hfilled
    have hmem : r ∈ store.bucket key := by
      rw [EvidenceStore.bucket, hbucket]
      exact hr
    exact ⟨r, h.mem_bucket_iff.mp hmem⟩
  · rintro ⟨r, hr, rfl⟩
    exact OrdMap.contains_iff.mp (h.contains_of_mem hr)

/-- There are as many buckets as records exactly when no two records share one. -/
theorem EvidenceStore.Represents.size_eq_iff (h : store.Represents capacity j) :
    store.size = store.recordCount ↔ (j.kept.map keyOf).Nodup := by
  have hkeys : store.records.keys.Perm (j.kept.map keyOf).dedup := by
    refine (List.perm_ext_iff_of_nodup store.records.nodup_keys (List.nodup_dedup _)).mpr ?_
    intro key
    rw [h.mem_keys_iff, List.mem_dedup]
  have hsize : store.size = (j.kept.map keyOf).dedup.length := by
    rw [← hkeys.length_eq]
    exact (List.length_map _).symm
  have hcount : store.recordCount = (j.kept.map keyOf).length := by
    rw [h.count, List.length_map]
  rw [hsize, hcount]
  constructor
  · intro hlength
    rw [← List.dedup_eq_self]
    exact (List.dedup_sublist _).eq_of_length hlength
  · intro hnodup
    rw [List.Nodup.dedup hnodup]

/-! ## One publication -/

/-- A publication goes to a bucket that holds no record, but for the one record that it
evicts. -/
def EngineState.FilesAlone (s : EngineState) : Operation → Prop
  | .publishEvidence record => s.publishes record = true →
      ∀ stored ∈ s.evidence.bucket (keyOf (s.filedRecord record)),
        s.evidence.maxRecords ≤ s.evidence.recordCount ∧
          ∀ other, s.evidence.stores other = true → stored.generation ≤ other.generation
  | _ => True

/-- What stays of a journal that makes room are the records that are not the oldest of a
full store. -/
theorem EvidenceStore.Keeps.mem_room_iff (h : store.Keeps capacity log j)
    {r : EvidenceRecord} (hr : r ∈ j.kept) :
    r ∉ (j.room capacity).kept ↔ store.maxRecords ≤ store.recordCount ∧
      ∀ other, store.stores other = true → r.generation ≤ other.generation := by
  have hbound := h.represents.bound
  have hcount := h.represents.count
  have hordered := h.represents.ordered
  have hstores : ∀ other, store.stores other = true ↔ other ∈ j.kept :=
    fun other => h.represents.stores_iff
  rw [Journal.kept_room h.holds.length_le_max, hbound, hcount]
  split_ifs with hroom
  · refine iff_of_false (not_not.mpr hr) ?_
    rintro ⟨hfull, _⟩
    omega
  · cases hkept : j.kept with
    | nil =>
      rw [hkept] at hr
      cases hr
    | cons oldest later =>
      rw [hkept] at hordered hr
      have holder := (List.pairwise_cons.mp hordered).1
      simp only [hstores, hkept]
      rw [hkept] at hroom
      constructor
      · intro hgone
        refine ⟨not_lt.mp hroom, ?_⟩
        have holdest : r = oldest := (List.mem_cons.mp hr).resolve_right hgone
        intro other hother
        rcases List.mem_cons.mp hother with rfl | hlater
        · rw [holdest]
        · rw [holdest]
          exact (holder other hlater).le
      · rintro ⟨_, hleast⟩ hlater
        have hle := hleast oldest List.mem_cons_self
        exact absurd (holder r hlater) (not_lt.mpr hle)

/-- A publication that finds each record in a bucket of its own leaves each record in one
exactly when it goes to a bucket of its own. -/
theorem EvidenceStore.Keeps.size_publish_iff (h : store.Keeps capacity log j)
    (hsize : store.size = store.recordCount) {record : EvidenceRecord}
    (hallowed : (store.publish record).2.allowed = true) :
    (store.publish record).1.size = (store.publish record).1.recordCount ↔
      ∀ stored ∈ store.bucket (keyOf record), store.maxRecords ≤ store.recordCount ∧
        ∀ other, store.stores other = true → stored.generation ≤ other.generation := by
  have hnodup := h.represents.size_eq_iff.mp hsize
  have hroom : (j.room capacity).kept.Sublist j.kept := List.drop_sublist _ _
  rcases h.represents.publish record with ⟨hrefused, _⟩ | ⟨_, _, _, hnew⟩
  · rw [hrefused] at hallowed
    cases hallowed
  · rw [hnew.size_eq_iff, Journal.append, List.map_append, List.nodup_append]
    constructor
    · rintro ⟨_, _, hapart⟩ stored hstored
      obtain ⟨hkept, hkey⟩ := h.represents.mem_bucket_iff.mp hstored
      refine (h.mem_room_iff hkept).mp ?_
      intro hstays
      exact hapart (keyOf stored) (List.mem_map_of_mem hstays) (keyOf record) (by simp) hkey
    · intro halone
      refine ⟨hnodup.sublist (hroom.map keyOf), List.nodup_singleton _, ?_⟩
      intro key hkey key' hkey' hsame
      obtain ⟨stored, hstays, rfl⟩ := List.mem_map.mp hkey
      rw [List.map_singleton, List.mem_singleton] at hkey'
      have hstored : stored ∈ store.bucket (keyOf record) :=
        h.represents.mem_bucket_iff.mpr ⟨hroom.subset hstays, hsame.trans hkey'⟩
      exact (h.mem_room_iff (hroom.subset hstays)).mpr (halone stored hstored) hstays

theorem EvidenceStore.Keeps.size_withdrawn {store' : EvidenceStore}
    (h : store.Keeps capacity log j) (hsize : store.size = store.recordCount)
    (hchange : Withdrawn store store') : store'.size = store'.recordCount := by
  obtain ⟨_, test, hrepresents⟩ := hchange.represents h.represents
  rw [hrepresents.size_eq_iff]
  exact (h.represents.size_eq_iff.mp hsize).sublist (List.filter_sublist.map keyOf)

/-! ## Runs -/

/-- Whether an operation is a publication of evidence that is accepted. -/
def Operation.isAcceptedPublication (s : EngineState) : Operation → Bool
  | .publishEvidence record => (s.publishEvidence record).2.1.allowed
  | _ => false

/-- The number of accepted publications of a run. -/
def acceptedPublications (c : EngineConfig) : EngineState → List Operation → ℕ
  | _, [] => 0
  | s, op :: ops => (op.isAcceptedPublication s).toNat + acceptedPublications c (step c s op) ops

/-- The amount of evidence that is reported, with what is reported as dropped. -/
def EngineState.reportedEvidence (s : EngineState) : ℕ := s.stats.evidence + s.stats.evidenceDropped

theorem EvidenceStore.Keeps.withdrawals {store' : EvidenceStore} (h : store.Keeps capacity log j)
    (hchange : Relation.ReflTransGen Withdrawn store store') :
    ∃ j', store'.Keeps capacity log j' := by
  refine chain_preserves (P := fun t : EvidenceStore => ∃ j', t.Keeps capacity log j') ?_ hchange
    ⟨j, h⟩
  rintro before after hstep ⟨j', hbefore⟩
  exact hbefore.withdrawn hstep

/-- The evidence of a run is kept in a journal of the accepted publications. -/
structure Accounted (c : EngineConfig) (s : EngineState) (count : ℕ) : Prop where
  coherent : Coherent s
  kept : ∃ log j, s.evidence.Keeps c.bounds.maxEvidence log j ∧ log.length = count

theorem accounted_init (c : EngineConfig) : Accounted c (init c) 0 where
  coherent := coherent_init c
  kept := ⟨[], {}, keeps_empty c.bounds.maxEvidence, rfl⟩

theorem Accounted.step {count : ℕ} (h : Accounted c s count) {op : Operation}
    (hop : op.isImport = false) :
    Accounted c (EngineState.step c s op) (count + (op.isAcceptedPublication s).toNat) := by
  obtain ⟨log, j, hkeeps, hlength⟩ := h.kept
  refine ⟨(step_cases h.coherent op).coherent h.coherent, ?_⟩
  cases hpublishes : op.publishes with
  | false =>
    obtain ⟨j', hkept⟩ := hkeeps.withdrawals (step_withdraws (c := c) h.coherent hpublishes)
    have hnone : op.isAcceptedPublication s = false := by
      cases op with
      | publishEvidence record => cases hpublishes
      | _ => rfl
    rw [hnone]
    exact ⟨log, j', hkept, hlength⟩
  | true =>
    cases op with
    | publishEvidence record =>
      have hevidence : (EngineState.step c s (.publishEvidence record)).evidence = _ :=
        publishEvidence_evidence s record
      rw [Operation.isAcceptedPublication, publishEvidence_allowed, hevidence]
      cases haccepted : s.publishes record with
      | false => exact ⟨log, j, hkeeps, hlength⟩
      | true =>
        obtain ⟨j', hkept⟩ := hkeeps.publish (s.filedRecord record)
        refine ⟨_, j', hkept, ?_⟩
        rw [accepts, publish_filedRecord haccepted, if_pos rfl, List.length_append, hlength]
        rfl
    | importDurableState d newEpoch => cases hop
    | _ => cases hpublishes

theorem Accounted.run {count : ℕ} (h : Accounted c s count) {ops : List Operation}
    (hops : ∀ op ∈ ops, op.isImport = false) :
    Accounted c (runOps c s ops) (count + acceptedPublications c s ops) := by
  induction ops generalizing s count with
  | nil => exact h
  | cons op ops ih =>
    obtain ⟨hop, hrest⟩ := List.forall_mem_cons.mp hops
    have hlater := ih (h.step hop) hrest
    rw [Nat.add_assoc] at hlater
    exact hlater

/-- What is reported is the number of accepted publications where each record has a bucket of
its own, and only there. -/
theorem Accounted.reported_iff {count : ℕ} (h : Accounted c s count) :
    s.reportedEvidence = count ↔ s.evidence.size = s.evidence.recordCount := by
  obtain ⟨log, j, hkeeps, rfl⟩ := h.kept
  have hlength := hkeeps.holds.length_eq
  have hcount := hkeeps.represents.count
  have hdropped := hkeeps.represents.dropped
  unfold reportedEvidence stats
  dsimp only
  omega

/-- Where each record has a bucket of its own, an operation leaves it so exactly when it files
no record in a bucket with another one. -/
theorem Accounted.size_step_iff {count : ℕ} (h : Accounted c s count)
    (hsize : s.evidence.size = s.evidence.recordCount) {op : Operation}
    (hop : op.isImport = false) :
    (EngineState.step c s op).evidence.size = (EngineState.step c s op).evidence.recordCount ↔
      s.FilesAlone op := by
  obtain ⟨log, j, hkeeps, _⟩ := h.kept
  cases hpublishes : op.publishes with
  | false =>
    have hkept : ∀ {store' : EvidenceStore},
        Relation.ReflTransGen Withdrawn s.evidence store' →
          store'.size = store'.recordCount := by
      intro store' hchange
      have hboth := chain_preserves
        (P := fun t : EvidenceStore => (∃ j', t.Keeps c.bounds.maxEvidence log j') ∧
          t.size = t.recordCount) ?_ hchange ⟨⟨j, hkeeps⟩, hsize⟩
      · exact hboth.2
      · rintro before after hstep ⟨⟨j', hbefore⟩, hsame⟩
        exact ⟨hbefore.withdrawn hstep, hbefore.size_withdrawn hsame hstep⟩
    refine iff_of_true (hkept (step_withdraws (c := c) h.coherent hpublishes)) ?_
    cases op with
    | publishEvidence record => cases hpublishes
    | _ => trivial
  | true =>
    cases op with
    | publishEvidence record =>
      have hevidence : (EngineState.step c s (.publishEvidence record)).evidence = _ :=
        publishEvidence_evidence s record
      rw [hevidence]
      cases haccepted : s.publishes record with
      | false =>
        refine iff_of_true hsize ?_
        intro hpublished
        rw [haccepted] at hpublished
        cases hpublished
      | true =>
        rw [if_pos rfl, hkeeps.size_publish_iff hsize (publish_filedRecord haccepted)]
        exact ⟨fun halone _ => halone, fun halone => halone haccepted⟩
    | importDurableState d newEpoch => cases hop
    | _ => cases hpublishes

/-- What the engine reports of its evidence adds up to the accepted publications, all along a
run without an import, exactly when no accepted publication of the run goes to a bucket that
still holds a record once there is room for it. -/
theorem reportedEvidence_iff (c : EngineConfig) {ops : List Operation}
    (hops : ∀ op ∈ ops, op.isImport = false) :
    (∀ before, before <+: ops → (runOps c (init c) before).reportedEvidence =
        acceptedPublications c (init c) before) ↔
      Along (EngineState.step c) EngineState.FilesAlone (init c) ops := by
  have haccounted : ∀ before, before <+: ops →
      Accounted c (runOps c (init c) before) (acceptedPublications c (init c) before) := by
    intro before hbefore
    have hrun := (accounted_init c).run fun op hop => hops op (hbefore.subset hop)
    rwa [Nat.zero_add] at hrun
  have hcount : (∀ before, before <+: ops → (runOps c (init c) before).reportedEvidence =
        acceptedPublications c (init c) before) ↔
      Always (EngineState.step c) (fun s => s.evidence.size = s.evidence.recordCount) (init c)
        ops := by
    refine forall₂_congr fun before hbefore => ?_
    exact (haccounted before hbefore).reported_iff
  rw [hcount]
  refine always_iff_along (EngineState.step c) (P := fun s => ∃ count, Accounted c s count)
    ?_ ?_ hops ⟨0, accounted_init c⟩ rfl
  · rintro s op ⟨count, h⟩ hop
    exact ⟨_, h.step hop⟩
  · rintro s op ⟨count, h⟩ hsize hop
    exact h.size_step_iff hsize hop

/-- A version of which health is read twice. -/
def readTwice : List Operation :=
  [.registerModel [109] [] .synthetic,
    .registerVersion
      { model := ⟨1⟩, label := [49]
        artifact := { setId := ⟨1⟩, generation := ⟨1⟩, digest := [97] } },
    .publishEvidence { kind := .healthCheck, subject := { version := ⟨1⟩ }, provenance := .real },
    .publishEvidence { kind := .healthCheck, subject := { version := ⟨1⟩ }, provenance := .real }]

theorem reportedEvidence_iff_witness :
    (∀ before, before <+: readTwice → (runOps {} (init {}) before).reportedEvidence =
        acceptedPublications {} (init {}) before) ↔
      Along (EngineState.step {}) EngineState.FilesAlone (init {}) readTwice :=
  reportedEvidence_iff {} (by decide)

/-- Both readings are stored, one is reported. -/
theorem second_reading_unreported :
    ¬∀ before, before <+: readTwice → (runOps {} (init {}) before).reportedEvidence =
      acceptedPublications {} (init {}) before := by
  intro h
  have hall := h readTwice (List.prefix_refl _)
  revert hall
  decide +kernel

end LifecycleFabric
