import LifecycleFabric.Lib.OrdMap

/-!
# Secondary indexes

A table keeps records under keys, and an index sends a name of each record to a target. As long
as no two records have one name, a lookup in the index finds what a search of the table finds.
-/

namespace SecondaryIndex

variable {κ ν ι τ : Type*} [LinearOrder κ] [LinearOrder ι] {table table' : OrdMap κ ν}
  {index index' : OrdMap ι τ} {name : κ → ν → ι} {target : κ → ν → τ}

/-- The index sends the name of each record of the table to its target, and nothing else. -/
def Indexes (name : κ → ν → ι) (target : κ → ν → τ) (index : OrdMap ι τ) (table : OrdMap κ ν) :
    Prop :=
  ∀ i t, index.get? i = some t ↔ ∃ key record, table.get? key = some record ∧
    name key record = i ∧ target key record = t

theorem indexes_empty (name : κ → ν → ι) (target : κ → ν → τ) :
    Indexes name target OrdMap.empty OrdMap.empty := by
  intro i t
  simp [OrdMap.get?_empty]

/-- A name that the index does not have is the name of no record. -/
theorem Indexes.unnamed (h : Indexes name target index table) {i : ι} (hnone : index.get? i = none)
    {key : κ} {record : ν} (hrecord : table.get? key = some record) : name key record ≠ i := by
  rintro rfl
  rw [(h _ _).mpr ⟨key, record, hrecord, rfl, rfl⟩] at hnone
  cases hnone

/-- A lookup in the index finds what a search of the table finds. -/
theorem Indexes.get?_eq (h : Indexes name target index table) (i : ι) :
    index.get? i =
      (table.entries.find? fun e => decide (name e.1 e.2 = i)).map fun e => target e.1 e.2 := by
  cases hfind : table.entries.find? fun e => decide (name e.1 e.2 = i) with
  | none =>
    rw [Option.map_none, Option.eq_none_iff_forall_ne_some]
    intro t ht
    obtain ⟨key, record, hrecord, hname, _⟩ := (h i t).mp ht
    have hmiss := List.find?_eq_none.mp hfind _ (OrdMap.get?_eq_some_iff.mp hrecord)
    exact hmiss (decide_eq_true hname)
  | some e =>
    have hname : name e.1 e.2 = i := by simpa using List.find?_some hfind
    rw [Option.map_some, h]
    exact ⟨e.1, e.2, OrdMap.get?_of_mem (List.mem_of_find?_eq_some hfind), hname, rfl⟩

/-- A new record of an unused name is entered into both. -/
theorem Indexes.insertNew (h : Indexes name target index table) {key : κ} {record : ν}
    (hkey : table.get? key = none) (hname : index.get? (name key record) = none) :
    Indexes name target (index.insertNew (name key record) (target key record))
      (table.insertNew key record) := by
  intro i t
  rw [OrdMap.insertNew_of_get?_none hname, OrdMap.insertNew_of_get?_none hkey, OrdMap.get?_insert]
  split_ifs with hi
  · subst hi
    constructor
    · intro ht
      refine ⟨key, record, ?_, rfl, Option.some.inj ht⟩
      rw [OrdMap.get?_insert, if_pos rfl]
    · rintro ⟨key', record', hrecord', hsame, rfl⟩
      rw [OrdMap.get?_insert] at hrecord'
      split_ifs at hrecord' with hkey'
      · subst hkey'
        rw [Option.some.inj hrecord']
      · exact absurd hsame (h.unnamed hname hrecord')
  · rw [h]
    constructor
    · rintro ⟨key', record', hrecord', hsame, ht⟩
      have hkey' : key' ≠ key := by
        rintro rfl
        rw [hkey] at hrecord'
        cases hrecord'
      exact ⟨key', record', by rwa [OrdMap.get?_insert_of_ne _ _ hkey'], hsame, ht⟩
    · rintro ⟨key', record', hrecord', hsame, ht⟩
      rw [OrdMap.get?_insert] at hrecord'
      split_ifs at hrecord' with hkey'
      · subst hkey'
        obtain rfl := Option.some.inj hrecord'
        exact absurd hsame.symm hi
      · exact ⟨key', record', hrecord', hsame, ht⟩

/-- Two tables with the same keys, names and targets have one index. -/
theorem Indexes.congr (h : Indexes name target index table)
    (hforth : ∀ key record, table.get? key = some record →
      ∃ record', table'.get? key = some record' ∧
      name key record' = name key record ∧ target key record' = target key record)
    (hback : ∀ key record', table'.get? key = some record' →
      ∃ record, table.get? key = some record ∧
      name key record' = name key record ∧ target key record' = target key record) :
    Indexes name target index table' := by
  intro i t
  rw [h]
  constructor
  · rintro ⟨key, record, hrecord, rfl, rfl⟩
    obtain ⟨record', hrecord', hname, htarget⟩ := hforth key record hrecord
    exact ⟨key, record', hrecord', hname, htarget⟩
  · rintro ⟨key, record', hrecord', rfl, rfl⟩
    obtain ⟨record, hrecord, hname, htarget⟩ := hback key record' hrecord'
    exact ⟨key, record, hrecord, hname.symm, htarget.symm⟩

/-! ## Rebuilding an index -/

/-- Enter records into an index one by one. It fails at a name that is there already. -/
def enter (name : κ → ν → ι) (target : κ → ν → τ) :
    List (κ × ν) → OrdMap ι τ → Option (OrdMap ι τ)
  | [], index => some index
  | e :: rest, index =>
    if index.contains (name e.1 e.2) then none
    else enter name target rest (index.insert (name e.1 e.2) (target e.1 e.2))

omit [LinearOrder κ] in
/-- What was entered is in the index, and it has names of its own. -/
theorem get?_enter {entries : List (κ × ν)}
    (h : enter name target entries index = some index') (i : ι) (t : τ) :
    index'.get? i = some t ↔
      index.get? i = some t ∨ ∃ e ∈ entries, name e.1 e.2 = i ∧ target e.1 e.2 = t := by
  induction entries generalizing index with
  | nil =>
    obtain rfl := Option.some.inj h
    simp
  | cons e rest ih =>
    unfold enter at h
    split_ifs at h with hused
    have hnone := OrdMap.contains_eq_false_iff.mp (Bool.eq_false_of_not_eq_true hused)
    rw [ih h, OrdMap.get?_insert, List.exists_mem_cons_iff]
    split_ifs with hi
    · subst hi
      simp [hnone, eq_comm]
    · simp [Ne.symm hi]

omit [LinearOrder κ] in
/-- Entering records of unused names is inserting what is new. -/
theorem foldl_insertNew {entries : List (κ × ν)}
    (h : enter name target entries index = some index') :
    entries.foldl (fun index e => index.insertNew (name e.1 e.2) (target e.1 e.2)) index =
      index' := by
  induction entries generalizing index with
  | nil => exact Option.some.inj h
  | cons e rest ih =>
    unfold enter at h
    split_ifs at h with hused
    have hnone := OrdMap.contains_eq_false_iff.mp (Bool.eq_false_of_not_eq_true hused)
    rw [List.foldl_cons, OrdMap.insertNew_of_get?_none hnone]
    exact ih h

/-- An index that is rebuilt from a table is one of the table. -/
theorem indexes_of_enter (h : enter name target table.entries OrdMap.empty = some index) :
    Indexes name target index table := by
  intro i t
  rw [get?_enter h, OrdMap.get?_empty]
  constructor
  · rintro (hnone | ⟨e, he, hname, htarget⟩)
    · cases hnone
    · exact ⟨e.1, e.2, OrdMap.get?_of_mem he, hname, htarget⟩
  · rintro ⟨key, record, hrecord, hname, htarget⟩
    exact .inr ⟨(key, record), OrdMap.get?_eq_some_iff.mp hrecord, hname, htarget⟩

omit [LinearOrder κ] in
/-- Records with names of their own, none of them used before, are all entered. -/
theorem enter_isSome (name : κ → ν → ι) (target : κ → ν → τ) {entries : List (κ × ν)}
    (hnames : (entries.map fun e => name e.1 e.2).Nodup)
    (hunused : ∀ e ∈ entries, index.get? (name e.1 e.2) = none) :
    ∃ index', enter name target entries index = some index' := by
  induction entries generalizing index with
  | nil => exact ⟨index, rfl⟩
  | cons e rest ih =>
    rw [List.map_cons, List.nodup_cons] at hnames
    have hnone := hunused e List.mem_cons_self
    unfold enter
    rw [if_neg (by rw [OrdMap.contains, hnone]; exact Bool.false_ne_true)]
    apply ih hnames.2
    intro e' he'
    rw [OrdMap.get?_insert_of_ne]
    · exact hunused e' (List.mem_cons_of_mem e he')
    · intro hsame
      exact hnames.1 (hsame ▸ List.mem_map_of_mem he')

end SecondaryIndex
