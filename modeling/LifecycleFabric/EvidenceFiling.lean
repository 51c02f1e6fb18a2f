import LifecycleFabric.Evidence

/-!
# Where evidence is filed

A record lies in the bucket of its own subject and kind. Publications file a record there,
withdrawals and evictions only remove records, and a recovery files each record anew.
-/

namespace LifecycleFabric.EvidenceStore

variable {store store' : EvidenceStore}

/-- Every record lies in its own bucket. -/
def Filed (store : EvidenceStore) : Prop :=
  ∀ key, ∀ record ∈ store.bucket key, makeKey record.subject record.kind = key

/-- One change of a store. -/
inductive Changed (store : EvidenceStore) : EvidenceStore → Prop
  | publish (record : EvidenceRecord) : Changed store (store.publish record).1
  | revise (version : ModelVersionId) (current : ModelGeneration) :
      Changed store (store.invalidateModelGeneration version current)
  | expire (boot : WorkerBootId) : Changed store (store.invalidatePublisherBoot boot).1
  | removeKinds (kinds : List EvidenceKind) : Changed store (store.removeKinds kinds)

/-! ## Removals -/

/-- Every bucket keeps only records it had. -/
def Shrinks (store store' : EvidenceStore) : Prop :=
  ∀ key, store'.bucket key ⊆ store.bucket key

theorem Shrinks.refl (store : EvidenceStore) : store.Shrinks store :=
  fun _ => List.Subset.refl _

theorem Shrinks.trans {store'' : EvidenceStore} (h : store.Shrinks store')
    (h' : store'.Shrinks store'') : store.Shrinks store'' :=
  fun key => List.Subset.trans (h' key) (h key)

theorem Shrinks.filed (h : store.Shrinks store') (hfiled : store.Filed) : store'.Filed :=
  fun key record hrecord => hfiled key record (h key hrecord)

theorem bucket_dropWhere_subset (drop : EvidenceRecord → Bool)
    (records : OrdMap EvidenceKey (List EvidenceRecord)) (key : EvidenceKey) :
    ((dropWhere drop records).get? key).getD [] ⊆ (records.get? key).getD [] := by
  rw [dropWhere, OrdMap.get?_filterMap]
  cases records.get? key with
  | none => exact List.Subset.refl _
  | some bucket =>
    dsimp only [Option.bind_some, Option.getD_some]
    split_ifs
    · exact List.nil_subset _
    · exact List.filter_sublist.subset

theorem shrinks_revise (store : EvidenceStore) (version : ModelVersionId)
    (current : ModelGeneration) :
    store.Shrinks (store.invalidateModelGeneration version current) :=
  bucket_dropWhere_subset _ store.records

theorem shrinks_expire (store : EvidenceStore) (boot : WorkerBootId) :
    store.Shrinks (store.invalidatePublisherBoot boot).1 := by
  unfold invalidatePublisherBoot
  split_ifs
  · exact Shrinks.refl store
  · exact bucket_dropWhere_subset _ store.records

theorem shrinks_removeKinds (store : EvidenceStore) (kinds : List EvidenceKind) :
    store.Shrinks (store.removeKinds kinds) := by
  intro key
  unfold removeKinds withdrawn bucket
  dsimp only
  rw [OrdMap.get?_filter]
  cases store.records.get? key with
  | none => exact List.Subset.refl _
  | some bucket =>
    rw [Option.filter_some]
    split_ifs
    · exact List.Subset.refl _
    · exact List.nil_subset _

theorem shrinks_evictOldest (store : EvidenceStore) : store.Shrinks store.evictOldest := by
  unfold evictOldest
  split
  · exact Shrinks.refl store
  · rename_i generation victim rest _
    dsimp only
    split
    · exact Shrinks.refl store
    · rename_i bucket hbucket
      intro key
      unfold EvidenceStore.bucket
      dsimp only
      by_cases hkey : key = victim
      · rw [hkey, hbucket]
        split_ifs
        · rw [OrdMap.get?_erase, if_pos rfl]
          exact List.nil_subset _
        · rw [OrdMap.get?_insert_self]
          exact List.filter_sublist.subset
      · split_ifs
        · rw [OrdMap.get?_erase, if_neg hkey]
          exact List.Subset.refl _
        · rw [OrdMap.get?_insert_of_ne _ _ hkey]
          exact List.Subset.refl _

theorem shrinks_makeRoom (rounds : ℕ) (store : EvidenceStore) :
    store.Shrinks (makeRoom rounds store) := by
  induction rounds generalizing store with
  | zero => exact Shrinks.refl store
  | succ rounds ih =>
    unfold makeRoom
    split_ifs
    · exact (shrinks_evictOldest store).trans (ih _)
    · exact Shrinks.refl store

/-! ## Changes keep every record filed -/

theorem filed_publish (hfiled : store.Filed) (record : EvidenceRecord) :
    (store.publish record).1.Filed := by
  have hroom : (makeRoom store.evictionOrder.size store).Filed :=
    (shrinks_makeRoom _ store).filed hfiled
  unfold publish
  dsimp only
  split_ifs
  · exact hfiled
  · exact hfiled
  · exact hfiled
  · exact hfiled
  · exact hfiled
  · exact hfiled
  · exact hfiled
  · intro key stored hstored
    unfold EvidenceStore.bucket at hstored
    dsimp only at hstored
    rw [OrdMap.get?_insert] at hstored
    split_ifs at hstored with hkey
    · rw [Option.getD_some, List.mem_append, List.mem_singleton] at hstored
      rcases hstored with hold | rfl
      · rw [hkey]
        exact hroom _ stored hold
      · exact hkey.symm
    · exact hroom key stored hstored

theorem Changed.filed (h : Changed store store') (hfiled : store.Filed) : store'.Filed := by
  cases h with
  | publish record => exact filed_publish hfiled record
  | revise version current => exact (shrinks_revise store version current).filed hfiled
  | expire boot => exact (shrinks_expire store boot).filed hfiled
  | removeKinds kinds => exact (shrinks_removeKinds store kinds).filed hfiled

/-! ## The watermark -/

/-- No record is of a generation past the watermark. -/
def Marked (store : EvidenceStore) : Prop :=
  ∀ key, ∀ record ∈ store.bucket key, record.generation ≤ store.watermark

theorem evictOldest_watermark (store : EvidenceStore) :
    store.evictOldest.watermark = store.watermark := by
  unfold evictOldest
  split
  · rfl
  · dsimp only
    split
    · rfl
    · rfl

theorem Shrinks.marked (h : store.Shrinks store') (hmark : store'.watermark = store.watermark)
    (hmarked : store.Marked) : store'.Marked := by
  intro key record hrecord
  rw [hmark]
  exact hmarked key record (h key hrecord)

/-- An accepted publication makes room, files the record as the newest of its bucket and
moves the watermark to it. -/
theorem publish_cases (store : EvidenceStore) (record : EvidenceRecord) :
    (store.publish record).1 = store ∧ (store.publish record).2.allowed = false ∨
      record.generation.valid = true ∧
        (store.watermark.valid = true → store.watermark < record.generation) ∧
        (store.publish record).1.watermark = record.generation ∧
        ∃ room, store.Shrinks room ∧ ∀ key, (store.publish record).1.bucket key =
          if key = makeKey record.subject record.kind then room.bucket key ++ [record]
          else room.bucket key := by
  unfold publish
  dsimp only
  split_ifs with hversion hgeneration htexts holder hsame hverdict hwatermark
  · exact Or.inl ⟨rfl, rfl⟩
  · exact Or.inl ⟨rfl, rfl⟩
  · exact Or.inl ⟨rfl, rfl⟩
  · exact Or.inl ⟨rfl, rfl⟩
  · exact Or.inl ⟨rfl, rfl⟩
  · exact Or.inl ⟨rfl, rfl⟩
  · exact Or.inl ⟨rfl, rfl⟩
  · refine Or.inr ⟨by simpa using hgeneration, ?_, rfl, makeRoom store.evictionOrder.size store,
      shrinks_makeRoom _ store, ?_⟩
    · intro hvalid
      by_contra hpast
      exact hwatermark ⟨hvalid, not_lt.mp hpast⟩
    · intro key
      unfold EvidenceStore.bucket
      dsimp only
      rw [OrdMap.get?_insert]
      split_ifs with hkey
      · rw [hkey, Option.getD_some]
      · rfl

/-- The generation of an accepted publication is past the watermark. -/
theorem watermark_lt {record : EvidenceRecord} (hvalid : record.generation.valid = true)
    (hpast : store.watermark.valid = true → store.watermark < record.generation) :
    store.watermark < record.generation := by
  by_cases hwatermark : store.watermark.valid = true
  · exact hpast hwatermark
  · have hpositive := Ident.valid_iff_pos.mp hvalid
    have hzero : ¬0 < store.watermark.raw.toNat := fun h => hwatermark (Ident.valid_iff_pos.mpr h)
    rw [Ident.lt_iff_toNat]
    omega

theorem Changed.marked (h : Changed store store') (hmarked : store.Marked) : store'.Marked := by
  cases h with
  | publish record =>
    rcases store.publish_cases record with ⟨hsame, _⟩ | ⟨hvalid, hpast, hmark, room, hroom, hbucket⟩
    · rw [hsame]
      exact hmarked
    · have hnewer := watermark_lt hvalid hpast
      intro key stored hstored
      rw [hmark]
      have hold : ∀ old ∈ room.bucket key, old.generation ≤ record.generation := by
        intro old hold
        exact (hmarked key old (hroom key hold)).trans hnewer.le
      rw [hbucket key] at hstored
      split_ifs at hstored with hkey
      · rcases List.mem_append.mp hstored with hstored | hstored
        · exact hold stored hstored
        · rw [List.mem_singleton.mp hstored]
      · exact hold stored hstored
  | revise version current => exact (shrinks_revise store version current).marked rfl hmarked
  | expire boot =>
    refine (shrinks_expire store boot).marked ?_ hmarked
    unfold invalidatePublisherBoot
    split <;> rfl
  | removeKinds kinds => exact (shrinks_removeKinds store kinds).marked rfl hmarked

/-- Expiring a boot leaves no record of it. -/
theorem boot_of_expired {boot : WorkerBootId} (hvalid : boot.valid = true) {key : EvidenceKey}
    {record : EvidenceRecord}
    (hrecord : record ∈ (store.invalidatePublisherBoot boot).1.bucket key) :
    record.boot ≠ boot := by
  unfold invalidatePublisherBoot at hrecord
  simp only [hvalid, Bool.not_true, Bool.false_eq_true, if_false] at hrecord
  unfold bucket withdrawn dropWhere at hrecord
  dsimp only at hrecord
  rw [OrdMap.get?_filterMap] at hrecord
  cases hstored : store.records.get? key with
  | none =>
    rw [hstored] at hrecord
    cases hrecord
  | some stored =>
    rw [hstored] at hrecord
    dsimp only [Option.bind_some] at hrecord
    split_ifs at hrecord
    · cases hrecord
    · rw [Option.getD_some, List.mem_filter] at hrecord
      simpa using hrecord.2

/-! ## Recovery -/

/-- A recovery appends each record to its own bucket. -/
theorem bucket_restoreRecords {records : List EvidenceRecord}
    {rebuilt rebuilt' : OrdMap EvidenceKey (List EvidenceRecord)}
    {order order' : OrdMap UInt64 EvidenceKey}
    (h : restoreRecords records rebuilt order = some (rebuilt', order')) (key : EvidenceKey) :
    (rebuilt'.get? key).getD [] = (rebuilt.get? key).getD [] ++
      records.filter fun record => decide (makeKey record.subject record.kind = key) := by
  induction records generalizing rebuilt order with
  | nil =>
    unfold restoreRecords at h
    obtain ⟨rfl, _⟩ := Prod.mk.inj (Option.some.inj h)
    rw [List.filter_nil, List.append_nil]
  | cons record records ih =>
    unfold restoreRecords at h
    dsimp only at h
    split_ifs at h with hrestorable hduplicate
    rw [ih h, OrdMap.get?_insert]
    by_cases hkey : key = makeKey record.subject record.kind
    · rw [if_pos hkey, Option.getD_some, List.append_assoc,
        List.filter_cons_of_pos (by simpa using hkey.symm), hkey]
      rfl
    · rw [if_neg hkey, List.filter_cons_of_neg (by simpa using Ne.symm hkey)]

/-- The bucket of a recovered store holds the records given for it. -/
theorem bucket_restore {records : List EvidenceRecord} {dropped : ℕ}
    (h : store.restore records dropped = some store') (key : EvidenceKey) :
    (store'.bucket key).Perm
      (records.filter fun record => decide (makeKey record.subject record.kind = key)) := by
  unfold restore at h
  split at h
  · cases h
  · rename_i rebuilt order hrebuilt
    split_ifs at h
    obtain rfl := Option.some.inj h
    have hbucket := bucket_restoreRecords hrebuilt key
    rw [OrdMap.get?_empty, Option.getD_none, List.nil_append] at hbucket
    rw [← hbucket, EvidenceStore.bucket, OrdMap.get?_mapValues]
    cases rebuilt.get? key with
    | none => exact List.Perm.refl _
    | some bucket => exact List.perm_insertionSort _ bucket

theorem filed_restore {records : List EvidenceRecord} {dropped : ℕ}
    (h : store.restore records dropped = some store') : store'.Filed := by
  intro key record hrecord
  have hmem := (bucket_restore h key).mem_iff.mp hrecord
  simpa using (List.mem_filter.mp hmem).2

/-- The watermark of a recovery is that of the newest record of its buckets. -/
theorem le_watermark (buckets : List (List EvidenceRecord)) (start : EvidenceGeneration) :
    start ≤ buckets.foldl (fun watermark bucket =>
        match bucket.getLast? with
        | some newest => max watermark newest.generation
        | none => watermark) start ∧
      ∀ bucket ∈ buckets, ∀ newest, bucket.getLast? = some newest →
        newest.generation ≤ buckets.foldl (fun watermark bucket =>
          match bucket.getLast? with
          | some newest => max watermark newest.generation
          | none => watermark) start := by
  induction buckets generalizing start with
  | nil =>
    constructor
    · exact le_rfl
    · intro bucket hbucket
      cases hbucket
  | cons bucket buckets ih =>
    rw [List.foldl_cons]
    cases hlast : bucket.getLast? with
    | none =>
      dsimp only
      obtain ⟨hstart, hrest⟩ := ih start
      refine ⟨hstart, ?_⟩
      intro other hother newest hnewest
      rcases List.mem_cons.mp hother with rfl | hother
      · rw [hlast] at hnewest
        cases hnewest
      · exact hrest other hother newest hnewest
    | some newest =>
      dsimp only
      obtain ⟨hstart, hrest⟩ := ih (max start newest.generation)
      refine ⟨(le_max_left _ _).trans hstart, ?_⟩
      intro other hother last hlastOther
      rcases List.mem_cons.mp hother with rfl | hother
      · rw [hlast] at hlastOther
        obtain rfl := Option.some.inj hlastOther
        exact (le_max_right _ _).trans hstart
      · exact hrest other hother last hlastOther

/-- The last record in generation order is the newest. -/
theorem le_last_byGeneration {records : List EvidenceRecord} {record : EvidenceRecord}
    (hrecord : record ∈ byGeneration records) :
    ∃ newest, (byGeneration records).getLast? = some newest ∧
      record.generation ≤ newest.generation := by
  have hsorted : (byGeneration records).Pairwise fun a b => a.generation ≤ b.generation :=
    List.pairwise_insertionSort (fun a b : EvidenceRecord => a.generation ≤ b.generation) records
  have hne : byGeneration records ≠ [] := List.ne_nil_of_mem hrecord
  refine ⟨(byGeneration records).getLast hne, List.getLast?_eq_some_getLast hne, ?_⟩
  rw [← List.dropLast_append_getLast hne] at hsorted hrecord
  rcases List.mem_append.mp hrecord with hbefore | hlast
  · exact (List.pairwise_append.mp hsorted).2.2 record hbefore _ (List.mem_singleton_self _)
  · rw [List.mem_singleton.mp hlast]

theorem marked_restore {records : List EvidenceRecord} {dropped : ℕ}
    (h : store.restore records dropped = some store') : store'.Marked := by
  unfold restore at h
  split at h
  · cases h
  · rename_i rebuilt order _
    split_ifs at h
    obtain rfl := Option.some.inj h
    intro key record hrecord
    unfold bucket at hrecord
    dsimp only at hrecord
    rw [OrdMap.get?_mapValues] at hrecord
    cases hbucket : rebuilt.get? key with
    | none =>
      rw [hbucket] at hrecord
      cases hrecord
    | some bucket =>
      rw [hbucket] at hrecord
      obtain ⟨newest, hnewest, hle⟩ := le_last_byGeneration hrecord
      have hmem :
          byGeneration bucket ∈ (rebuilt.mapValues fun _ bucket => byGeneration bucket).values := by
        refine OrdMap.mem_values_iff.mpr ⟨key, ?_⟩
        rw [OrdMap.get?_mapValues, hbucket]
        rfl
      exact hle.trans ((le_watermark _ _).2 _ hmem newest hnewest)

/-! ## Keys -/

/-- Reading the digits back gives the number. -/
theorem ofDigits_decimal (n : ℕ) :
    Nat.ofDigits 10 ((decimal n).reverse.map fun c => c.toNat - 48) = n := by
  unfold decimal
  split_ifs with hzero
  · subst hzero
    decide
  · have hdigits : (Nat.digits 10 n).map (fun d => (UInt8.ofNat (48 + d)).toNat - 48) =
        Nat.digits 10 n := by
      conv_rhs => rw [← List.map_id (Nat.digits 10 n)]
      refine List.map_congr_left ?_
      intro d hd
      have hlt := Nat.digits_lt_base (by omega : 1 < 10) hd
      rw [UInt8.toNat_ofNat', id]
      omega
    rw [← List.map_reverse, List.reverse_reverse, List.map_map]
    exact (congrArg (Nat.ofDigits 10) hdigits).trans (Nat.ofDigits_digits 10 n)

theorem decimal_injective : Function.Injective decimal := by
  intro n m h
  rw [← ofDigits_decimal n, h, ofDigits_decimal]

/-- A decimal has no separator. -/
theorem ne_separator_of_decimal {n : ℕ} {c : UInt8} (hc : c ∈ decimal n) : c ≠ 58 := by
  unfold decimal at hc
  split_ifs at hc
  · rw [List.mem_singleton.mp hc]
    decide
  · obtain ⟨d, hd, rfl⟩ := List.mem_map.mp hc
    have hlt := Nat.digits_lt_base (by omega : 1 < 10) (List.mem_reverse.mp hd)
    intro hcolon
    have hnat := congrArg UInt8.toNat hcolon
    rw [UInt8.toNat_ofNat'] at hnat
    have hsep : (58 : UInt8).toNat = 58 := rfl
    omega

/-- The text before the separator. -/
theorem takeWhile_key (n m : ℕ) :
    (decimal n ++ [58] ++ decimal m).takeWhile (fun c => decide (c ≠ 58)) = decimal n := by
  rw [List.append_assoc, List.takeWhile_append_of_pos]
  · simp
  · intro c hc
    simpa using ne_separator_of_decimal hc

/-- Subjects of one bucket are of one model. -/
theorem model_of_makeKey {subject subject' : EvidenceSubject} {kind kind' : EvidenceKind}
    (h : makeKey subject kind = makeKey subject' kind') : subject.model = subject'.model := by
  have htext := congrArg (fun key : EvidenceKey => (ofLex key).1) h
  have hmodel := congrArg (List.takeWhile fun c => decide (c ≠ 58)) htext
  simp only [makeKey, ofLex_toLex, takeWhile_key] at hmodel
  exact Ident.ext (UInt64.toNat_inj.mp (decimal_injective hmodel))

end LifecycleFabric.EvidenceStore
