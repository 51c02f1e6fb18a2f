import LifecycleFabric.EvidenceFiling
import LifecycleFabric.Lib.Journal

/-!
# The evidence store as a journal

Buckets, eviction order and counters of the store stand for one journal of records: what the
store keeps, in the order of publication. A publication adds to the journal, which gives up
its oldest record when it is full, and a withdrawal takes records out of it.
-/

namespace LifecycleFabric.EvidenceStore

/-- The bucket a record belongs to. -/
def keyOf (record : EvidenceRecord) : EvidenceKey := makeKey record.subject record.kind

/-- The store keeps the records of a journal. The eviction order may still list records that
were withdrawn, but none past the watermark. -/
structure Represents (store : EvidenceStore) (capacity : ℕ) (j : Journal EvidenceRecord) :
    Prop where
  bound : store.maxRecords = capacity
  buckets : ∀ key, store.bucket key = j.kept.filter fun r => decide (keyOf r = key)
  filled : ∀ key, store.records.get? key ≠ some []
  ordered : j.kept.Pairwise fun a b => a.generation < b.generation
  marked : ∀ r ∈ j.kept, r.generation ≤ store.watermark
  entered : ∀ r ∈ j.kept, store.evictionOrder.get? r.generation.raw = some (keyOf r)
  past : ∀ generation key, store.evictionOrder.get? generation = some key →
    generation ≤ store.watermark.raw
  count : store.recordCount = j.kept.length
  dropped : store.dropped = j.lost

variable {store : EvidenceStore} {capacity : ℕ} {j : Journal EvidenceRecord}

theorem represents_empty (capacity : ℕ) :
    ({ maxRecords := capacity } : EvidenceStore).Represents capacity {} where
  bound := rfl
  buckets _ := rfl
  filled _ h := by cases h
  ordered := List.Pairwise.nil
  marked _ h := by cases h
  entered _ h := by cases h
  past _ _ h := by cases h
  count := rfl
  dropped := rfl

/-! ## Counts -/

/-- Buckets that file the records of a list hold these records. -/
theorem perm_of_buckets {records : OrdMap EvidenceKey (List EvidenceRecord)}
    {kept : List EvidenceRecord}
    (h : ∀ key, (records.get? key).getD [] = kept.filter fun r => decide (keyOf r = key)) :
    records.values.flatten.Perm kept := by
  refine OrdMap.perm_flatten_values (f := keyOf) fun key => ?_
  convert h key

theorem total_eq {records : OrdMap EvidenceKey (List EvidenceRecord)} {kept : List EvidenceRecord}
    (h : ∀ key, (records.get? key).getD [] = kept.filter fun r => decide (keyOf r = key)) :
    total records = kept.length := by
  rw [total, ← List.length_flatten]
  exact (perm_of_buckets h).length_eq

theorem Represents.total_eq (h : store.Represents capacity j) :
    total store.records = j.kept.length :=
  EvidenceStore.total_eq h.buckets

/-- A stored record is one of the journal. -/
theorem Represents.mem_bucket_iff (h : store.Represents capacity j) {key : EvidenceKey}
    {r : EvidenceRecord} : r ∈ store.bucket key ↔ r ∈ j.kept ∧ keyOf r = key := by
  rw [h.buckets key, List.mem_filter, decide_eq_true_eq]

/-- A bucket that is stored holds a record. -/
theorem Represents.contains_of_mem (h : store.Represents capacity j) {r : EvidenceRecord}
    (hr : r ∈ j.kept) : store.records.contains (keyOf r) = true := by
  have hmem := h.mem_bucket_iff.mpr ⟨hr, rfl⟩
  unfold bucket at hmem
  cases hbucket : store.records.get? (keyOf r) with
  | none =>
    rw [hbucket] at hmem
    cases hmem
  | some stored => exact OrdMap.contains_iff.mpr ⟨stored, hbucket⟩

/-- Records of one generation are one record. -/
theorem Represents.generation_inj (h : store.Represents capacity j) {r r' : EvidenceRecord}
    (hr : r ∈ j.kept) (hr' : r' ∈ j.kept) (hsame : r.generation = r'.generation) : r = r' := by
  have hnodup : (j.kept.map EvidenceRecord.generation).Nodup :=
    List.pairwise_map.mpr (h.ordered.imp fun hlt => hlt.ne)
  exact List.inj_on_of_nodup_map hnodup hr hr' hsame

/-! ## Withdrawals -/

/-- Buckets, order and counters that follow the removal of some records stand for the journal
without them. -/
theorem Represents.withdraw (h : store.Represents capacity j) (test : EvidenceRecord → Bool)
    {records : OrdMap EvidenceKey (List EvidenceRecord)} {order : OrdMap UInt64 EvidenceKey}
    {count dropped : ℕ}
    (hbuckets : ∀ key, (records.get? key).getD [] =
      (store.bucket key).filter fun r => !test r)
    (hfilled : ∀ key, records.get? key ≠ some [])
    (hpast : ∀ generation key, order.get? generation = some key →
      store.evictionOrder.get? generation = some key)
    (hentered : ∀ r ∈ j.kept, test r = false →
      order.get? r.generation.raw = some (keyOf r))
    (hcount : count = (j.withdraw test).kept.length)
    (hdropped : dropped = (j.withdraw test).lost) :
    ({ store with
        records, evictionOrder := order, recordCount := count, dropped } :
      EvidenceStore).Represents capacity (j.withdraw test) where
  bound := h.bound
  buckets key := by
    refine (hbuckets key).trans ?_
    rw [h.buckets key, List.filter_filter, Journal.withdraw, List.filter_filter]
    simp only [Bool.and_comm]
  filled := hfilled
  ordered := h.ordered.sublist List.filter_sublist
  marked r hr := h.marked r (List.mem_filter.mp hr).1
  entered r hr := by
    obtain ⟨hkept, htest⟩ := List.mem_filter.mp hr
    exact hentered r hkept (by simpa using htest)
  past generation key hget := h.past generation key (hpast generation key hget)
  count := hcount
  dropped := hdropped

/-- A withdrawal of records of the store. -/
theorem Represents.withdrawn (h : store.Represents capacity j) (test : EvidenceRecord → Bool)
    {records : OrdMap EvidenceKey (List EvidenceRecord)}
    (hbuckets : ∀ key, (records.get? key).getD [] =
      (store.bucket key).filter fun r => !test r)
    (hfilled : ∀ key, records.get? key ≠ some []) :
    (store.withdrawn records).Represents capacity (j.withdraw test) := by
  have hkept : ∀ key, (records.get? key).getD [] =
      (j.withdraw test).kept.filter fun r => decide (keyOf r = key) := by
    intro key
    rw [hbuckets key, h.buckets key, List.filter_filter, Journal.withdraw, List.filter_filter]
    simp only [Bool.and_comm]
  have htotal := EvidenceStore.total_eq hkept
  have hparts := List.length_eq_countP_add_countP test (l := j.kept)
  have hrest : (j.withdraw test).kept.length = j.kept.countP fun r => ¬test r = true := by
    rw [Journal.withdraw, ← List.countP_eq_length_filter]
    refine List.countP_congr fun r _ => ?_
    simp
  refine h.withdraw test hbuckets hfilled ?_ ?_ ?_ ?_
  · intro generation key hget
    rw [OrdMap.get?_filter, Option.filter_eq_some_iff] at hget
    exact hget.1
  · intro r hr htest
    have hstored : r ∈ (records.get? (keyOf r)).getD [] := by
      rw [hbuckets, List.mem_filter]
      exact ⟨h.mem_bucket_iff.mpr ⟨hr, rfl⟩, by simp [htest]⟩
    have hcontains : records.contains (keyOf r) = true := by
      cases hbucket : records.get? (keyOf r) with
      | none =>
        rw [hbucket] at hstored
        cases hstored
      | some stored => exact OrdMap.contains_iff.mpr ⟨stored, hbucket⟩
    rw [OrdMap.get?_filter, h.entered r hr, Option.filter_some, if_pos hcontains]
  · have hcount := h.count
    have hbefore := h.total_eq
    omega
  · have hdropped := h.dropped
    have hbefore := h.total_eq
    simp only [Journal.withdraw] at *
    omega

theorem getD_dropWhere (drop : EvidenceRecord → Bool)
    (records : OrdMap EvidenceKey (List EvidenceRecord)) (key : EvidenceKey) :
    ((dropWhere drop records).get? key).getD [] =
      ((records.get? key).getD []).filter fun r => !drop r := by
  rw [dropWhere, OrdMap.get?_filterMap]
  cases records.get? key with
  | none => rfl
  | some bucket =>
    dsimp only [Option.bind_some, Option.getD_some]
    split_ifs with hempty
    · rw [List.isEmpty_iff.mp hempty]
      rfl
    · rfl

theorem dropWhere_filled (drop : EvidenceRecord → Bool)
    (records : OrdMap EvidenceKey (List EvidenceRecord)) (key : EvidenceKey) :
    (dropWhere drop records).get? key ≠ some [] := by
  rw [dropWhere, OrdMap.get?_filterMap]
  cases records.get? key with
  | none => exact fun h => by cases h
  | some bucket =>
    dsimp only [Option.bind_some]
    split_ifs with hempty
    · exact fun h => by cases h
    · intro h
      rw [Option.some.inj h] at hempty
      exact hempty rfl

theorem Represents.dropWhere (h : store.Represents capacity j) (test : EvidenceRecord → Bool) :
    (store.withdrawn (dropWhere test store.records)).Represents capacity (j.withdraw test) :=
  h.withdrawn test (getD_dropWhere test store.records) (dropWhere_filled test store.records)

/-- Whole buckets go with the kinds of their keys. -/
theorem Represents.removeKinds (h : store.Represents capacity j) (kinds : List EvidenceKind) :
    (store.removeKinds kinds).Represents capacity (j.withdraw fun r =>
      kinds.any fun kind => (ofLex (keyOf r)).2 == UInt16.ofNat kind.code) := by
  refine h.withdrawn _ ?_ ?_
  · intro key
    have hsame : ∀ r ∈ store.bucket key, keyOf r = key :=
      fun r hr => (h.mem_bucket_iff.mp hr).2
    rw [OrdMap.get?_filter]
    unfold bucket at hsame ⊢
    cases hbucket : store.records.get? key with
    | none => rfl
    | some stored =>
      rw [hbucket] at hsame
      rw [Option.filter_some, Option.getD_some] at *
      split_ifs with hkind
      · refine (List.filter_eq_self.mpr ?_).symm
        intro r hr
        rw [hsame r hr]
        exact hkind
      · refine (List.filter_eq_nil_iff.mpr ?_).symm
        intro r hr
        rw [hsame r hr]
        exact hkind
  · intro key hnil
    rw [OrdMap.get?_filter, Option.filter_eq_some_iff] at hnil
    exact h.filled key hnil.1

/-! ## Eviction -/

/-- A bucket without the records of one generation, in place of the one that is stored. -/
theorem getD_replaced {records : OrdMap EvidenceKey (List EvidenceRecord)} {victim : EvidenceKey}
    {kept : List EvidenceRecord} (key : EvidenceKey) :
    ((if kept.isEmpty then records.erase victim else records.insert victim kept).get? key).getD
        [] = if key = victim then kept else (records.get? key).getD [] := by
  split_ifs with hempty hkey hkey
  · rw [OrdMap.get?_erase, if_pos hkey, List.isEmpty_iff.mp hempty]
    rfl
  · rw [OrdMap.get?_erase, if_neg hkey]
  · rw [hkey, OrdMap.get?_insert_self, Option.getD_some]
  · rw [OrdMap.get?_insert_of_ne _ _ hkey]

theorem replaced_filled {records : OrdMap EvidenceKey (List EvidenceRecord)}
    {victim : EvidenceKey} {kept : List EvidenceRecord}
    (hfilled : ∀ key, records.get? key ≠ some []) (key : EvidenceKey) :
    (if kept.isEmpty then records.erase victim else records.insert victim kept).get? key ≠
      some [] := by
  split_ifs with hempty
  · rw [OrdMap.get?_erase]
    split_ifs
    · exact fun h => by cases h
    · exact hfilled key
  · rw [OrdMap.get?_insert]
    split_ifs
    · intro h
      rw [Option.some.inj h] at hempty
      exact hempty rfl
    · exact hfilled key

/-- An eviction takes the records of the first generation of the eviction order. -/
theorem Represents.evictOldest (h : store.Represents capacity j) {generation : UInt64}
    {victim : EvidenceKey} {rest : List (UInt64 × EvidenceKey)}
    (horder : store.evictionOrder.entries = (generation, victim) :: rest) :
    store.evictOldest.Represents capacity
      (j.withdraw fun r => decide (r.generation.raw = generation)) := by
  have hvictim : store.evictionOrder.get? generation = some victim := by
    refine OrdMap.get?_eq_some_iff.mpr ?_
    rw [horder]
    exact List.mem_cons_self
  have hkey : ∀ r ∈ j.kept, r.generation.raw = generation → keyOf r = victim := by
    intro r hr hgeneration
    have hentered := h.entered r hr
    rw [hgeneration, hvictim] at hentered
    exact (Option.some.inj hentered).symm
  have hpast : ∀ generation' key, (store.evictionOrder.erase generation).get? generation' =
      some key → store.evictionOrder.get? generation' = some key := by
    intro generation' key hget
    rw [OrdMap.get?_erase] at hget
    split_ifs at hget
    exact hget
  have hentered : ∀ r ∈ j.kept, decide (r.generation.raw = generation) = false →
      (store.evictionOrder.erase generation).get? r.generation.raw = some (keyOf r) := by
    intro r hr hother
    rw [OrdMap.get?_erase, if_neg (of_decide_eq_false hother)]
    exact h.entered r hr
  have hparts := List.length_eq_countP_add_countP
    (fun r : EvidenceRecord => decide (r.generation.raw = generation)) (l := j.kept)
  have hkept : (j.withdraw fun r => decide (r.generation.raw = generation)).kept.length =
      j.kept.countP fun r => ¬decide (r.generation.raw = generation) = true := by
    rw [Journal.withdraw, ← List.countP_eq_length_filter]
    refine List.countP_congr fun r _ => ?_
    simp
  have hcount := h.count
  have hdropped := h.dropped
  unfold EvidenceStore.evictOldest
  rw [horder]
  dsimp only
  cases hstored : store.records.get? victim with
  | none =>
    -- The record of this generation was withdrawn before: the entry alone goes.
    have hnone : store.bucket victim = [] := by rw [bucket, hstored]; rfl
    have hgone : ∀ r ∈ j.kept, ¬decide (r.generation.raw = generation) = true := by
      intro r hr hgeneration
      have hmem := h.mem_bucket_iff.mpr ⟨hr, hkey r hr (of_decide_eq_true hgeneration)⟩
      rw [hnone] at hmem
      cases hmem
    have hzero : j.kept.countP (fun r => decide (r.generation.raw = generation)) = 0 :=
      List.countP_eq_zero.mpr hgone
    refine h.withdraw _ ?_ h.filled hpast hentered ?_ ?_
    · intro key
      refine (List.filter_eq_self.mpr ?_).symm
      intro r hr
      have hother := hgone r (h.mem_bucket_iff.mp hr).1
      simpa using hother
    · omega
    · rw [Journal.withdraw, hzero]
      exact hdropped
  | some bucket =>
    have hbucket : store.bucket victim = bucket := by rw [EvidenceStore.bucket, hstored]; rfl
    have hremoved : bucket.length - (bucket.filter fun record =>
        record.generation.raw != generation).length =
          j.kept.countP fun r => decide (r.generation.raw = generation) := by
      have hbucketParts := List.length_eq_countP_add_countP
        (fun r : EvidenceRecord => decide (r.generation.raw = generation)) (l := bucket)
      have hrest : (bucket.filter fun record => record.generation.raw != generation).length =
          bucket.countP fun r => ¬decide (r.generation.raw = generation) = true := by
        rw [← List.countP_eq_length_filter]
        refine List.countP_congr fun r _ => ?_
        simp
      have hsame : bucket.countP (fun r => decide (r.generation.raw = generation)) =
          j.kept.countP fun r => decide (r.generation.raw = generation) := by
        rw [← hbucket, h.buckets victim, List.countP_filter]
        refine List.countP_congr fun r hr => ?_
        simp only [Bool.and_eq_true, decide_eq_true_eq]
        constructor
        · exact fun hboth => hboth.1
        · exact fun hgeneration => ⟨hgeneration, hkey r hr hgeneration⟩
      omega
    refine h.withdraw _ ?_ (replaced_filled h.filled) hpast hentered ?_ ?_
    · intro key
      rw [getD_replaced]
      have htest : ∀ r : EvidenceRecord, (r.generation.raw != generation) =
          !decide (r.generation.raw = generation) := fun r => rfl
      split_ifs with hvictimKey
      · rw [hvictimKey, hbucket]
        exact List.filter_congr fun r _ => htest r
      · refine (List.filter_eq_self.mpr ?_).symm
        intro r hr
        obtain ⟨hmem, hown⟩ := h.mem_bucket_iff.mp hr
        have hother : r.generation.raw ≠ generation := by
          intro hgeneration
          exact hvictimKey (hown.symm.trans (hkey r hmem hgeneration))
        simpa using hother
    · omega
    · rw [Journal.withdraw, hdropped, hremoved]

/-- The first generation of the eviction order is that of the oldest record, or of a record
that was withdrawn before. -/
theorem Represents.withdraw_first (h : store.Represents capacity j) {generation : UInt64}
    {victim : EvidenceKey} {rest : List (UInt64 × EvidenceKey)}
    (horder : store.evictionOrder.entries = (generation, victim) :: rest) :
    j.withdraw (fun r => decide (r.generation.raw = generation)) = j ∨
      ∃ oldest later, j.kept = oldest :: later ∧
        j.withdraw (fun r => decide (r.generation.raw = generation)) =
          { kept := later, lost := j.lost + 1 } := by
  have hordered := h.ordered
  have hleast : ∀ r ∈ j.kept, generation ≤ r.generation.raw :=
    fun r hr => OrdMap.head_le horder (h.entered r hr)
  have hnone : ∀ kept : List EvidenceRecord, (∀ r ∈ kept, generation < r.generation.raw) →
      kept.filter (fun r => !decide (r.generation.raw = generation)) = kept ∧
        kept.countP (fun r => decide (r.generation.raw = generation)) = 0 := by
    intro kept hlater
    refine ⟨List.filter_eq_self.mpr ?_, List.countP_eq_zero.mpr ?_⟩
    · intro r hr
      simpa using (hlater r hr).ne'
    · intro r hr
      simpa using (hlater r hr).ne'
  obtain ⟨kept, lost⟩ := j
  dsimp only at hordered hleast ⊢
  cases kept with
  | nil => exact Or.inl rfl
  | cons oldest later =>
    have holder := (List.pairwise_cons.mp hordered).1
    by_cases hfirst : oldest.generation.raw = generation
    · have hlater : ∀ r ∈ later, generation < r.generation.raw := by
        intro r hr
        rw [← hfirst]
        exact holder r hr
      obtain ⟨hfilter, hzero⟩ := hnone later hlater
      refine Or.inr ⟨oldest, later, rfl, ?_⟩
      simp only [Journal.withdraw, Journal.mk.injEq]
      rw [List.filter_cons_of_neg (by simp [hfirst]), hfilter,
        List.countP_cons_of_pos (by simp [hfirst]), hzero]
      exact ⟨rfl, rfl⟩
    · have hlater : ∀ r ∈ oldest :: later, generation < r.generation.raw := by
        have hbefore := lt_of_le_of_ne (hleast oldest List.mem_cons_self) (Ne.symm hfirst)
        intro r hr
        rcases List.mem_cons.mp hr with rfl | hr
        · exact hbefore
        · exact hbefore.trans (holder r hr)
      obtain ⟨hfilter, hzero⟩ := hnone _ hlater
      refine Or.inl ?_
      simp only [Journal.withdraw, Journal.mk.injEq]
      rw [hfilter, hzero]
      exact ⟨rfl, rfl⟩

theorem evictionOrder_evictOldest {generation : UInt64} {victim : EvidenceKey}
    {rest : List (UInt64 × EvidenceKey)}
    (horder : store.evictionOrder.entries = (generation, victim) :: rest) :
    store.evictOldest.evictionOrder.entries = rest := by
  unfold EvidenceStore.evictOldest
  rw [horder]
  dsimp only
  split
  · exact OrdMap.entries_erase_head horder
  · exact OrdMap.entries_erase_head horder

/-- Evicting until there is room makes room in the journal, whatever stale entries the
eviction order lists. -/
theorem Represents.makeRoom (h : store.Represents capacity j) {rounds : ℕ}
    (hrounds : store.evictionOrder.entries.length ≤ rounds) :
    (makeRoom rounds store).Represents capacity (j.room capacity) := by
  have hcount := h.count
  have hbound := h.bound
  induction rounds generalizing store j with
  | zero =>
    have hempty : store.evictionOrder.entries = [] := List.length_eq_zero_iff.mp (by omega)
    have hkept : j.kept = [] := by
      refine List.eq_nil_iff_forall_not_mem.mpr fun r hr => ?_
      have hentered := OrdMap.get?_eq_some_iff.mp (h.entered r hr)
      rw [hempty] at hentered
      cases hentered
    rw [Journal.room_of_nil hkept]
    exact h
  | succ rounds ih =>
    unfold EvidenceStore.makeRoom
    split_ifs with hfull
    · obtain ⟨hfull, hentries⟩ := hfull
      cases horder : store.evictionOrder.entries with
      | nil =>
        rw [horder] at hentries
        exact absurd rfl hentries
      | cons first rest =>
        obtain ⟨generation, victim⟩ := first
        have hevicted := h.evictOldest horder
        have hrest : store.evictOldest.evictionOrder.entries.length ≤ rounds := by
          rw [evictionOrder_evictOldest horder]
          rw [horder, List.length_cons] at hrounds
          omega
        have hroom := ih hevicted hrest hevicted.count hevicted.bound
        rcases h.withdraw_first horder with hstale | ⟨oldest, later, hkept, hfirst⟩
        · rwa [hstale] at hroom
        · rw [hfirst] at hroom
          obtain ⟨kept, lost⟩ := j
          dsimp only at hkept hcount hroom
          subst hkept
          rw [List.length_cons] at hcount
          rwa [Journal.room_of_cons (by omega)]
    · have hdone : j.room capacity = j := by
        by_cases hroom : store.recordCount < store.maxRecords
        · exact Journal.room_of_lt (by omega)
        · refine Journal.room_of_nil (List.eq_nil_iff_forall_not_mem.mpr fun r hr => ?_)
          have hentered := OrdMap.get?_eq_some_iff.mp (h.entered r hr)
          refine hfull ⟨not_lt.mp hroom, ?_⟩
          rw [List.isEmpty_iff]
          exact List.ne_nil_of_mem hentered
      rw [hdone]
      exact h

theorem makeRoom_watermark (rounds : ℕ) (store : EvidenceStore) :
    (makeRoom rounds store).watermark = store.watermark := by
  induction rounds generalizing store with
  | zero => rfl
  | succ rounds ih =>
    unfold EvidenceStore.makeRoom
    split_ifs
    · rw [ih, evictOldest_watermark]
    · rfl

/-! ## Publications -/

/-- A publication adds its record to the journal when it is accepted, and changes nothing
otherwise. -/
theorem Represents.publish (h : store.Represents capacity j) (record : EvidenceRecord) :
    (store.publish record).2.allowed = false ∧ (store.publish record).1 = store ∨
      (store.publish record).2.allowed = true ∧ store.watermark < record.generation ∧
        (store.publish record).1.watermark = record.generation ∧
        (store.publish record).1.Represents capacity (j.append capacity record) := by
  unfold EvidenceStore.publish
  dsimp only
  split_ifs with hversion hgeneration htexts holder hsame hverdict hwatermark
  · exact Or.inl ⟨rfl, rfl⟩
  · exact Or.inl ⟨rfl, rfl⟩
  · exact Or.inl ⟨rfl, rfl⟩
  · exact Or.inl ⟨rfl, rfl⟩
  · exact Or.inl ⟨rfl, rfl⟩
  · exact Or.inl ⟨rfl, rfl⟩
  · exact Or.inl ⟨rfl, rfl⟩
  · have hpast : store.watermark < record.generation := by
      refine watermark_lt (by simpa using hgeneration) ?_
      intro hvalid
      by_contra hnot
      exact hwatermark ⟨hvalid, not_lt.mp hnot⟩
    have hroom : (EvidenceStore.makeRoom store.evictionOrder.size store).Represents capacity
        (j.room capacity) := h.makeRoom le_rfl
    have hmark := makeRoom_watermark store.evictionOrder.size store
    refine Or.inr ⟨rfl, hpast, rfl, ?_⟩
    generalize EvidenceStore.makeRoom store.evictionOrder.size store = roomy at hroom hmark
    have hnew : ∀ r ∈ (j.room capacity).kept, r.generation < record.generation := by
      intro r hr
      have hle := hroom.marked r hr
      rw [hmark] at hle
      exact hle.trans_lt hpast
    have hfresh : roomy.evictionOrder.get? record.generation.raw = none := by
      rw [Option.eq_none_iff_forall_ne_some]
      intro key hget
      have hle : record.generation ≤ roomy.watermark := hroom.past _ _ hget
      rw [hmark] at hle
      exact absurd hpast (not_lt.mpr hle)
    have horder : ∀ generation key,
        (roomy.evictionOrder.insertNew record.generation.raw
          (makeKey record.subject record.kind)).get? generation = some key ↔
          generation = record.generation.raw ∧ key = keyOf record ∨
            roomy.evictionOrder.get? generation = some key := by
      intro generation key
      rw [OrdMap.insertNew_of_get?_none hfresh, OrdMap.get?_insert]
      split_ifs with hsame
      · subst hsame
        rw [hfresh, Option.some.injEq]
        constructor
        · rintro rfl
          exact Or.inl ⟨rfl, rfl⟩
        · rintro (⟨_, rfl⟩ | hnone)
          · rfl
          · cases hnone
      · constructor
        · exact Or.inr
        · rintro (⟨hgeneration, _⟩ | hget)
          · exact absurd hgeneration hsame
          · exact hget
    refine ⟨hroom.bound, ?_, ?_, ?_, ?_, ?_, ?_, ?_, ?_⟩
    · intro key
      rw [Journal.append, List.filter_append, ← hroom.buckets key]
      unfold bucket
      dsimp only
      rw [OrdMap.get?_insert]
      by_cases hkey : key = makeKey record.subject record.kind
      · rw [if_pos hkey, Option.getD_some, List.filter_cons_of_pos (by simp [keyOf, hkey]), hkey]
        rfl
      · have hother : [record].filter (fun r => decide (keyOf r = key)) = [] := by
          rw [List.filter_eq_nil_iff]
          intro r hr
          rw [List.mem_singleton.mp hr, decide_eq_true_eq]
          exact fun hown => hkey hown.symm
        rw [if_neg hkey, hother, List.append_nil]
    · intro key
      dsimp only
      rw [OrdMap.get?_insert]
      split_ifs
      · simp
      · exact hroom.filled key
    · refine List.pairwise_append.mpr ⟨hroom.ordered, List.pairwise_singleton _ _, ?_⟩
      intro r hr last hlast
      rw [List.mem_singleton.mp hlast]
      exact hnew r hr
    · intro r hr
      rcases List.mem_append.mp hr with hold | hlast
      · exact (hnew r hold).le
      · rw [List.mem_singleton.mp hlast]
    · intro r hr
      refine (horder _ _).mpr ?_
      rcases List.mem_append.mp hr with hold | hlast
      · exact Or.inr (hroom.entered r hold)
      · rw [List.mem_singleton.mp hlast]
        exact Or.inl ⟨rfl, rfl⟩
    · intro generation key hget
      rcases (horder _ _).mp hget with ⟨hsame, _⟩ | hold
      · exact hsame.le
      · have hle := hroom.past _ _ hold
        rw [hmark] at hle
        exact hle.trans hpast.le
    · rw [Journal.append, List.length_append, hroom.count]
      rfl
    · exact hroom.dropped

end LifecycleFabric.EvidenceStore
