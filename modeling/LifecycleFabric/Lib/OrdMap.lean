import Mathlib

/-!
# Finite maps in key order

A finite map over a linearly ordered key type, kept as a list of entries in
strictly increasing key order. Two maps that look up equally are equal, so a
map is determined by its lookup function. Traversal order is key order.
-/

/-- A finite map: entries in strictly increasing key order. -/
@[ext]
structure OrdMap (κ : Type*) (ν : Type*) [LinearOrder κ] where
  /-- The entries, least key first. -/
  entries : List (κ × ν)
  /-- Keys increase strictly, so no key occurs twice. -/
  sorted : entries.Pairwise fun a b => a.1 < b.1
  deriving DecidableEq

namespace OrdMap

variable {κ ν ν' : Type*} [LinearOrder κ]

/-- The map without entries. -/
def empty : OrdMap κ ν := ⟨[], List.Pairwise.nil⟩

instance : Inhabited (OrdMap κ ν) := ⟨empty⟩

/-- The value stored under a key. -/
def get? (m : OrdMap κ ν) (k : κ) : Option ν :=
  (m.entries.find? fun e => decide (e.1 = k)).map Prod.snd

/-- Whether a key occurs. -/
def contains (m : OrdMap κ ν) (k : κ) : Bool := (m.get? k).isSome

/-- The number of entries. -/
def size (m : OrdMap κ ν) : ℕ := m.entries.length

/-- The keys, least first. -/
def keys (m : OrdMap κ ν) : List κ := m.entries.map Prod.fst

/-- The values, in key order. -/
def values (m : OrdMap κ ν) : List ν := m.entries.map Prod.snd

/-- Put an entry at its place in an ordered list, replacing one of equal key. -/
def insertEntry (k : κ) (v : ν) : List (κ × ν) → List (κ × ν)
  | [] => [(k, v)]
  | e :: es =>
    if k < e.1 then (k, v) :: e :: es
    else if e.1 < k then e :: insertEntry k v es
    else (k, v) :: es

private theorem mem_insertEntry {k : κ} {v : ν} {es : List (κ × ν)} {e : κ × ν}
    (he : e ∈ insertEntry k v es) : e = (k, v) ∨ e ∈ es := by
  induction es with
  | nil => simpa [insertEntry] using he
  | cons a es ih =>
    unfold insertEntry at he
    split_ifs at he <;> grind

private theorem sorted_insertEntry {k : κ} {v : ν} {es : List (κ × ν)}
    (hes : es.Pairwise fun a b => a.1 < b.1) :
    (insertEntry k v es).Pairwise fun a b => a.1 < b.1 := by
  induction es with
  | nil => simp [insertEntry]
  | cons a es ih =>
    obtain ⟨ha, hes⟩ := List.pairwise_cons.mp hes
    unfold insertEntry
    split_ifs with hka hak
    · refine List.pairwise_cons.mpr ⟨?_, List.pairwise_cons.mpr ⟨ha, hes⟩⟩
      intro b hb
      rcases List.mem_cons.mp hb with rfl | hb
      · exact hka
      · exact hka.trans (ha b hb)
    · refine List.pairwise_cons.mpr ⟨?_, ih hes⟩
      intro b hb
      rcases mem_insertEntry hb with rfl | hb
      · exact hak
      · exact ha b hb
    · have hk : k = a.1 := le_antisymm (not_lt.mp hak) (not_lt.mp hka)
      exact List.pairwise_cons.mpr ⟨fun b hb => hk ▸ ha b hb, hes⟩

/-- Store a value under a key, replacing the value stored there. -/
def insert (m : OrdMap κ ν) (k : κ) (v : ν) : OrdMap κ ν :=
  ⟨insertEntry k v m.entries, sorted_insertEntry m.sorted⟩

/-- Store a value under a key unless the key occurs already. -/
def insertNew (m : OrdMap κ ν) (k : κ) (v : ν) : OrdMap κ ν :=
  if m.contains k then m else m.insert k v

/-- Keep, and rewrite, the entries a partial function accepts. -/
def filterMap (f : κ → ν → Option ν') (m : OrdMap κ ν) : OrdMap κ ν' :=
  ⟨m.entries.filterMap fun e => (f e.1 e.2).map (e.1, ·), by
    refine List.Pairwise.filterMap _ ?_ m.sorted
    intro a b hab a' ha b' hb
    obtain ⟨_, _, rfl⟩ := Option.map_eq_some_iff.mp ha
    obtain ⟨_, _, rfl⟩ := Option.map_eq_some_iff.mp hb
    exact hab⟩

/-- Keep the entries a test accepts. -/
def filter (p : κ → ν → Bool) (m : OrdMap κ ν) : OrdMap κ ν :=
  m.filterMap fun k v => if p k v then some v else none

/-- Rewrite every value. -/
def mapValues (f : κ → ν → ν') (m : OrdMap κ ν) : OrdMap κ ν' :=
  m.filterMap fun k v => some (f k v)

/-- Rewrite the value under one key, if the key occurs. -/
def modify (m : OrdMap κ ν) (k : κ) (f : ν → ν) : OrdMap κ ν :=
  m.mapValues fun k' v => if k' = k then f v else v

/-- Remove a key. -/
def erase (m : OrdMap κ ν) (k : κ) : OrdMap κ ν :=
  m.filter fun k' _ => decide (k' ≠ k)

/-! ## Lookup determines the map -/

private theorem find?_eq_some_iff {es : List (κ × ν)}
    (hes : es.Pairwise fun a b => a.1 < b.1) {k : κ} {e : κ × ν} :
    es.find? (fun e => decide (e.1 = k)) = some e ↔ e ∈ es ∧ e.1 = k := by
  induction es with
  | nil => simp
  | cons a es ih =>
    obtain ⟨ha, hes⟩ := List.pairwise_cons.mp hes
    by_cases hak : a.1 = k
    · simp only [List.find?_cons, hak, decide_true, Option.some.injEq, List.mem_cons]
      constructor
      · rintro rfl
        exact ⟨Or.inl rfl, hak⟩
      · rintro ⟨rfl | he, hek⟩
        · rfl
        · exact absurd (ha e he) (by rw [hak, hek]; exact lt_irrefl k)
    · simp only [List.find?_cons, hak, decide_false, ih hes, List.mem_cons]
      grind

theorem get?_eq_some_iff {m : OrdMap κ ν} {k : κ} {v : ν} :
    m.get? k = some v ↔ (k, v) ∈ m.entries := by
  unfold get?
  rw [Option.map_eq_some_iff]
  constructor
  · rintro ⟨e, he, rfl⟩
    obtain ⟨hmem, rfl⟩ := (find?_eq_some_iff m.sorted).mp he
    exact hmem
  · intro hmem
    exact ⟨(k, v), (find?_eq_some_iff m.sorted).mpr ⟨hmem, rfl⟩, rfl⟩

theorem get?_of_mem {m : OrdMap κ ν} {e : κ × ν} (he : e ∈ m.entries) :
    m.get? e.1 = some e.2 :=
  get?_eq_some_iff.mpr he

/-- What holds of the entries holds of every lookup. -/
theorem of_entries {m : OrdMap κ ν} {P : κ → ν → Prop} (h : ∀ e ∈ m.entries, P e.1 e.2) (k : κ)
    (v : ν) (hv : m.get? k = some v) : P k v :=
  h (k, v) (get?_eq_some_iff.mp hv)

theorem mem_values_iff {m : OrdMap κ ν} {v : ν} :
    v ∈ m.values ↔ ∃ k, m.get? k = some v := by
  simp only [values, List.mem_map, Prod.exists, get?_eq_some_iff, exists_eq_right]

theorem contains_iff {m : OrdMap κ ν} {k : κ} : m.contains k = true ↔ ∃ v, m.get? k = some v := by
  rw [contains, Option.isSome_iff_exists]

theorem contains_eq_false_iff {m : OrdMap κ ν} {k : κ} :
    m.contains k = false ↔ m.get? k = none := by
  rw [contains, Option.isSome_eq_false_iff, Option.isNone_iff_eq_none]

theorem nodup_entries (m : OrdMap κ ν) : m.entries.Nodup := by
  refine m.sorted.imp ?_
  rintro a b hab rfl
  exact lt_irrefl _ hab

theorem mem_keys_iff {m : OrdMap κ ν} {k : κ} : k ∈ m.keys ↔ ∃ v, m.get? k = some v := by
  simp only [keys, List.mem_map, Prod.exists, exists_and_right, exists_eq_right, get?_eq_some_iff]

theorem nodup_keys (m : OrdMap κ ν) : m.keys.Nodup := by
  refine (List.pairwise_map.mpr (m.sorted.imp ?_) :)
  intro a b hab heq
  rw [heq] at hab
  exact lt_irrefl _ hab

/-- Maps with equal lookups are equal. -/
theorem ext_get? {m m' : OrdMap κ ν} (h : ∀ k, m.get? k = m'.get? k) : m = m' := by
  have hperm : m.entries.Perm m'.entries := by
    refine (List.perm_ext_iff_of_nodup m.nodup_entries m'.nodup_entries).mpr ?_
    rintro ⟨k, v⟩
    rw [← get?_eq_some_iff, ← get?_eq_some_iff, h k]
  ext1
  exact hperm.eq_of_pairwise (fun a b _ _ hab hba => absurd hab hba.asymm) m.sorted m'.sorted

/-! ## Lookup after each operation -/

@[simp] theorem get?_empty (k : κ) : (empty : OrdMap κ ν).get? k = none := rfl

private theorem find?_insertEntry {es : List (κ × ν)}
    (hes : es.Pairwise fun a b => a.1 < b.1) (k k' : κ) (v : ν) :
    (insertEntry k v es).find? (fun e => decide (e.1 = k')) =
      if k' = k then some (k, v) else es.find? fun e => decide (e.1 = k') := by
  induction es with
  | nil => grind [insertEntry]
  | cons a es ih =>
    obtain ⟨_, hes⟩ := List.pairwise_cons.mp hes
    unfold insertEntry
    split_ifs with h1 h2 h3 h3 <;> grind

theorem get?_insert (m : OrdMap κ ν) (k k' : κ) (v : ν) :
    (m.insert k v).get? k' = if k' = k then some v else m.get? k' := by
  simp only [get?, insert, find?_insertEntry m.sorted]
  split_ifs <;> rfl

@[simp] theorem get?_insert_self (m : OrdMap κ ν) (k : κ) (v : ν) :
    (m.insert k v).get? k = some v := by
  rw [get?_insert, if_pos rfl]

theorem get?_insert_of_ne (m : OrdMap κ ν) {k k' : κ} (v : ν) (h : k' ≠ k) :
    (m.insert k v).get? k' = m.get? k' := by
  rw [get?_insert, if_neg h]

theorem insertNew_of_get?_none {m : OrdMap κ ν} {k : κ} (h : m.get? k = none) (v : ν) :
    m.insertNew k v = m.insert k v := by
  rw [insertNew, contains_eq_false_iff.mpr h]
  rfl

theorem insertNew_of_get?_some {m : OrdMap κ ν} {k : κ} {w : ν} (h : m.get? k = some w) (v : ν) :
    m.insertNew k v = m := by
  rw [insertNew, contains_iff.mpr ⟨w, h⟩]
  rfl

theorem get?_insertNew (m : OrdMap κ ν) (k k' : κ) (v : ν) :
    (m.insertNew k v).get? k' =
      if k' = k then some ((m.get? k).getD v) else m.get? k' := by
  cases h : m.get? k with
  | none => rw [insertNew_of_get?_none h, get?_insert]; rfl
  | some w =>
    rw [insertNew_of_get?_some h]
    split_ifs with hk
    · rw [hk, h]; rfl
    · rfl

theorem get?_filterMap (f : κ → ν → Option ν') (m : OrdMap κ ν) (k : κ) :
    (m.filterMap f).get? k = (m.get? k).bind (f k) := by
  ext w
  rw [get?_eq_some_iff, Option.bind_eq_some_iff]
  simp only [filterMap, List.mem_filterMap, Option.map_eq_some_iff, Prod.mk.injEq, Prod.exists]
  constructor
  · rintro ⟨k', v, hmem, w', hf, rfl, rfl⟩
    exact ⟨v, get?_eq_some_iff.mpr hmem, hf⟩
  · rintro ⟨v, hv, hf⟩
    exact ⟨k, v, get?_eq_some_iff.mp hv, w, hf, rfl, rfl⟩

theorem get?_filter (p : κ → ν → Bool) (m : OrdMap κ ν) (k : κ) :
    (m.filter p).get? k = (m.get? k).filter (p k) := by
  rw [filter, get?_filterMap]
  cases m.get? k <;> simp [Option.filter]

theorem get?_mapValues (f : κ → ν → ν') (m : OrdMap κ ν) (k : κ) :
    (m.mapValues f).get? k = (m.get? k).map (f k) := by
  rw [mapValues, get?_filterMap]
  cases m.get? k <;> rfl

theorem get?_modify (m : OrdMap κ ν) (k k' : κ) (f : ν → ν) :
    (m.modify k f).get? k' = (m.get? k').map fun v => if k' = k then f v else v := by
  rw [modify, get?_mapValues]

@[simp] theorem get?_modify_self (m : OrdMap κ ν) (k : κ) (f : ν → ν) :
    (m.modify k f).get? k = (m.get? k).map f := by
  simp [get?_modify]

theorem get?_modify_of_ne (m : OrdMap κ ν) {k k' : κ} (f : ν → ν) (h : k' ≠ k) :
    (m.modify k f).get? k' = m.get? k' := by
  simp [get?_modify, h]

theorem get?_erase (m : OrdMap κ ν) (k k' : κ) :
    (m.erase k).get? k' = if k' = k then none else m.get? k' := by
  rw [erase, get?_filter]
  cases m.get? k' <;> by_cases h : k' = k <;> simp [h, Option.filter]

/-- The first entry has the least key. -/
theorem head_le {m : OrdMap κ ν} {k : κ} {v : ν} {rest : List (κ × ν)}
    (h : m.entries = (k, v) :: rest) {k' : κ} {v' : ν} (hget : m.get? k' = some v') : k ≤ k' := by
  have hsorted := m.sorted
  have hmem := get?_eq_some_iff.mp hget
  rw [h] at hsorted hmem
  rcases List.mem_cons.mp hmem with hfirst | hlater
  · rw [(Prod.mk.inj hfirst).1]
  · exact ((List.pairwise_cons.mp hsorted).1 _ hlater).le

/-- Removing the first key leaves the other entries. -/
theorem entries_erase_head {m : OrdMap κ ν} {k : κ} {v : ν} {rest : List (κ × ν)}
    (h : m.entries = (k, v) :: rest) : (m.erase k).entries = rest := by
  have hsorted := m.sorted
  rw [h] at hsorted
  have hlater := (List.pairwise_cons.mp hsorted).1
  have hrest : rest.filterMap (fun e => if e.1 = k then none else some e) = rest := by
    conv_rhs => rw [← List.filterMap_some (l := rest)]
    refine List.filterMap_congr ?_
    intro e he
    rw [if_neg (hlater e he).ne']
  simp only [erase, filter, filterMap, h, List.filterMap_cons]
  simpa [apply_ite] using hrest

/-! ## Sizes -/

/-- Something is left of a map by a filter when some value passes it. -/
theorem decide_size_filter (m : OrdMap κ ν) (p : ν → Bool) :
    decide (0 < (m.filter fun _ v => p v).size) = m.values.any p := by
  apply Bool.eq_iff_iff.mpr
  rw [decide_eq_true_iff, size, List.length_pos_iff_exists_mem, List.any_eq_true]
  simp only [filter, filterMap, values, List.mem_filterMap, List.mem_map]
  constructor
  · rintro ⟨_, e, he, hkept⟩
    by_cases hp : p e.2 = true
    · exact ⟨e.2, ⟨e, he, rfl⟩, hp⟩
    · rw [if_neg hp] at hkept
      cases hkept
  · rintro ⟨_, ⟨e, he, rfl⟩, hp⟩
    refine ⟨e, e, he, ?_⟩
    rw [if_pos hp]
    rfl

private theorem sum_insertEntry (measure : ν → ℕ) {k : κ} (v : ν) {es : List (κ × ν)}
    (hes : es.Pairwise fun a b => a.1 < b.1) :
    ((insertEntry k v es).map fun e => measure e.2).sum +
        ((es.find? fun e => decide (e.1 = k)).map fun e => measure e.2).getD 0 =
      (es.map fun e => measure e.2).sum + measure v := by
  induction es with
  | nil => simp [insertEntry]
  | cons a es ih =>
    obtain ⟨ha, hes⟩ := List.pairwise_cons.mp hes
    unfold insertEntry
    split_ifs with hka hak
    · -- The key stands before every other one, so it is not stored.
      have hnone : (a :: es).find? (fun e => decide (e.1 = k)) = none := by
        rw [List.find?_eq_none]
        intro e he
        rcases List.mem_cons.mp he with rfl | he
        · simpa using hka.ne'
        · simpa using (hka.trans (ha e he)).ne'
      rw [hnone]
      simp only [List.map_cons, List.sum_cons, Option.map_none, Option.getD_none]
      omega
    · rw [List.find?_cons_of_neg (by simpa using hak.ne)]
      have hrest := ih hes
      simp only [List.map_cons, List.sum_cons]
      omega
    · have hk : a.1 = k := le_antisymm (not_lt.mp hka) (not_lt.mp hak)
      rw [List.find?_cons_of_pos (by simpa using hk)]
      simp only [List.map_cons, List.sum_cons, Option.map_some, Option.getD_some]
      omega

/-- A measure summed over the values, after a value is stored. -/
theorem sum_values_insert (measure : ν → ℕ) (m : OrdMap κ ν) (k : κ) (v : ν) :
    ((m.insert k v).values.map measure).sum + ((m.get? k).map measure).getD 0 =
      (m.values.map measure).sum + measure v := by
  have hsum := sum_insertEntry measure v m.sorted (k := k)
  simpa only [values, insert, get?, List.map_map, Option.map_map, Function.comp_def] using hsum

/-- Rewriting the values to values of the same measure keeps the sum. -/
theorem sum_values_mapValues (measure : ν → ℕ) (m : OrdMap κ ν) {f : κ → ν → ν}
    (hf : ∀ k v, measure (f k v) = measure v) :
    ((m.mapValues f).values.map measure).sum = (m.values.map measure).sum := by
  have hentries : (m.mapValues f).entries = m.entries.map fun e => (e.1, f e.1 e.2) := by
    simp [mapValues, filterMap]
  simp only [values, hentries, List.map_map, Function.comp_def, hf]

/-- Where every element of a bucket has the bucket's key, the elements of all buckets with
one key are its bucket. -/
theorem filter_flatten_values {α : Type*} {m : OrdMap κ (List α)} {f : α → κ}
    (hfiled : ∀ k bucket, m.get? k = some bucket → ∀ a ∈ bucket, f a = k) (k : κ) :
    m.values.flatten.filter (fun a => decide (f a = k)) = (m.get? k).getD [] := by
  have hentries : ∀ e ∈ m.entries, ∀ a ∈ e.2, f a = e.1 := by
    intro e he
    exact hfiled e.1 e.2 (get?_of_mem he)
  have hsorted := m.sorted
  unfold values get?
  generalize m.entries = entries at hentries hsorted
  induction entries with
  | nil => rfl
  | cons e entries ih =>
    obtain ⟨hbefore, hrest⟩ := List.pairwise_cons.mp hsorted
    have hlater := ih (fun e' he' => hentries e' (List.mem_cons_of_mem _ he')) hrest
    rw [List.map_cons, List.flatten_cons, List.filter_append, hlater]
    by_cases hkey : e.1 = k
    · have hown : e.2.filter (fun a => decide (f a = k)) = e.2 := by
        rw [List.filter_eq_self]
        intro a ha
        rw [decide_eq_true_eq, hentries e List.mem_cons_self a ha, hkey]
      have hnone : entries.find? (fun e => decide (e.1 = k)) = none := by
        rw [List.find?_eq_none]
        intro e' he'
        simpa using (hkey ▸ hbefore e' he').ne'
      rw [hown, hnone, List.find?_cons_of_pos (by simpa using hkey)]
      simp
    · have hother : e.2.filter (fun a => decide (f a = k)) = [] := by
        rw [List.filter_eq_nil_iff]
        intro a ha
        rw [decide_eq_true_eq, hentries e List.mem_cons_self a ha]
        exact hkey
      rw [hother, List.find?_cons_of_neg (by simpa using hkey), List.nil_append]

/-- A list of which the elements of each key are the bucket of that key is, but for the order,
the elements of all buckets. -/
theorem perm_flatten_values {α : Type*} [DecidableEq α] {m : OrdMap κ (List α)} {f : α → κ}
    {l : List α} (h : ∀ k, (m.get? k).getD [] = l.filter fun a => decide (f a = k)) :
    m.values.flatten.Perm l := by
  have hfiled : ∀ k bucket, m.get? k = some bucket → ∀ a ∈ bucket, f a = k := by
    intro k bucket hbucket a ha
    have hkey := h k
    rw [hbucket, Option.getD_some] at hkey
    rw [hkey, List.mem_filter] at ha
    exact of_decide_eq_true ha.2
  rw [List.perm_iff_count]
  intro a
  have hcount := congrArg (List.count a) ((filter_flatten_values hfiled (f a)).trans (h (f a)))
  rwa [List.count_filter (by simp), List.count_filter (by simp)] at hcount

end OrdMap
