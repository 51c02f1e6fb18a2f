import LifecycleFabric.ScopeTree

/-!
# The indexes of the scope tree

Recovery rebuilds the child lists and the path index from the records. A registry that is
never recovered keeps the same lists and the same index: after any registration they are what
a recovery of its records would rebuild.
-/

namespace LifecycleFabric

namespace ScopeRegistry

/-- The direct children of a scope, in creation order. -/
def childrenOf (r : ScopeRegistry) (id : ScopeId) : List ScopeId :=
  if id.valid then (r.children[id.raw.toNat - 1]?).getD [] else []

/-- A registry that has its root, and whose lists and index recovery would rebuild. -/
structure Shaped (r : ScopeRegistry) : Prop where
  root : r.root = ⟨1⟩
  filled : r.records ≠ []
  bound : r.maxScopes < 2 ^ 64
  size : r.records.length < 2 ^ 64
  rebuilt : restoreRecords r.records 0 r.records (r.records.map fun _ => []) OrdMap.empty =
    some (r.children, r.pathIndex)

variable {r : ScopeRegistry} {records rest : List ScopeRecord} {position : ℕ}
  {children children' : List (List ScopeId)} {index index' : OrdMap Text ScopeId}

/-! ## Rebuilding -/

theorem restoreRecords_append (records first rest : List ScopeRecord) (position : ℕ)
    (children : List (List ScopeId)) (index : OrdMap Text ScopeId) :
    restoreRecords records position (first ++ rest) children index =
      (restoreRecords records position first children index).bind fun built =>
        restoreRecords records (position + first.length) rest built.1 built.2 := by
  induction first generalizing position children index with
  | nil => rfl
  | cons record first ih =>
    have hposition : position + 1 + first.length = position + (record :: first).length := by
      rw [List.length_cons]
      omega
    rw [List.cons_append, restoreRecords, restoreRecords]
    split_ifs
    · rfl
    · rfl
    · rw [ih, hposition]
    · rw [ih, hposition]

/-- The parent of a record that recovery accepts stands before it. -/
theorem parent_of_restorable {record : ScopeRecord} (hpos : position ≠ 0)
    (h : restorable records position record = true) :
    0 < record.parent.raw.toNat ∧ record.parent.raw < record.id.raw ∧
      ∃ parent, records[record.parent.raw.toNat - 1]? = some parent ∧
        record.depth = parent.depth + 1 ∧ record.depth ≤ maxScopeDepth ∧
        childPath parent.path record.kind record.name = record.path := by
  have hparts := h
  simp only [restorable, Bool.and_eq_true, decide_eq_true_eq, if_neg hpos] at hparts
  obtain ⟨_, ⟨⟨hvalid, _⟩, hlt⟩, hparent⟩ := hparts
  refine ⟨Ident.valid_iff_pos.mp hvalid, hlt, ?_⟩
  cases hfound : records[record.parent.raw.toNat - 1]? with
  | none =>
    rw [hfound] at hparent
    cases hparent
  | some parent =>
    rw [hfound] at hparent
    simp only [Bool.and_eq_true, decide_eq_true_eq] at hparent
    exact ⟨parent, rfl, hparent.1.1, hparent.1.2, hparent.2⟩

/-- The identity of a record that recovery accepts is its position. -/
theorem id_of_restorable {record : ScopeRecord} (hlt : position + 1 < 2 ^ 64)
    (h : restorable records position record = true) : record.id.raw.toNat = position + 1 := by
  simp only [restorable, Bool.and_eq_true, decide_eq_true_eq] at h
  rw [h.1.1.1.1.1, UInt64.toNat_add, UInt64.toNat_ofNat']
  change (position % 2 ^ 64 + 1) % 2 ^ 64 = position + 1
  omega

/-- More records after a record change nothing in the checks on it. -/
theorem restorable_snoc {record : ScopeRecord} (later : ScopeRecord)
    (h : restorable records position record = true) :
    restorable (records ++ [later]) position record = true := by
  by_cases hpos : position = 0
  · simpa only [restorable, if_pos hpos] using h
  · obtain ⟨_, _, parent, hfound, _⟩ := parent_of_restorable hpos h
    have hindex := (List.getElem?_eq_some_iff.mp hfound).1
    simp only [restorable, if_neg hpos, Bool.and_eq_true, decide_eq_true_eq] at h ⊢
    rw [List.getElem?_append_left hindex, List.length_append]
    refine ⟨h.1, ⟨⟨h.2.1.1.1, ?_⟩, h.2.1.2⟩, h.2.2⟩
    exact h.2.1.1.2.trans (Nat.le_add_right _ _)

theorem modify_snoc {α : Type} (l : List α) (last : α) {k : ℕ} (f : α → α) (h : k < l.length) :
    (l ++ [last]).modify k f = l.modify k f ++ [last] := by
  refine List.ext_getElem? fun i => ?_
  rw [List.getElem?_modify]
  rcases Nat.lt_or_ge i l.length with hi | hi
  · rw [List.getElem?_append_left hi, List.getElem?_append_left (by simpa using hi),
      List.getElem?_modify]
  · have hne : k ≠ i := by omega
    rw [List.getElem?_append_right hi, List.getElem?_append_right (by simpa using hi),
      List.length_modify]
    simp [hne]

/-- What recovery builds from some records it builds from them with one more, which has no
children yet. -/
theorem restoreRecords_snoc (later : ScopeRecord)
    (h : restoreRecords records position rest children index = some (children', index'))
    (hlength : children.length = records.length)
    (hrest : position + rest.length ≤ records.length) (hsize : records.length < 2 ^ 64) :
    restoreRecords (records ++ [later]) position rest (children ++ [[]]) index =
      some (children' ++ [[]], index') := by
  induction rest generalizing position children index with
  | nil =>
    obtain ⟨rfl, rfl⟩ := Prod.mk.inj (Option.some.inj h)
    rfl
  | cons record rest ih =>
    rw [List.length_cons] at hrest
    unfold restoreRecords at h ⊢
    split_ifs at h with hrestorable hcontains hpos
    · have hok : restorable (records ++ [later]) position record = true :=
        restorable_snoc later (by simpa using hrestorable)
      rw [if_neg (by simpa using hok), if_neg hcontains, if_pos hpos]
      exact ih h hlength (by omega)
    · have haccepted : restorable records position record = true := by simpa using hrestorable
      have hok := restorable_snoc later haccepted
      obtain ⟨hparent, hlt, _⟩ := parent_of_restorable hpos haccepted
      have hid := id_of_restorable (by omega) haccepted
      have hbefore := UInt64.lt_iff_toNat_lt.mp hlt
      have hindex : record.parent.raw.toNat - 1 < children.length := by omega
      rw [if_neg (by simpa using hok), if_neg hcontains, if_neg hpos]
      dsimp only
      rw [modify_snoc _ _ _ hindex]
      exact ih h (by simpa using hlength) (by omega)

/-- A record that differs from another in its generation only, which is no worse. -/
structure Regenerated (record record' : ScopeRecord) : Prop where
  id : record'.id = record.id
  parent : record'.parent = record.parent
  kind : record'.kind = record.kind
  name : record'.name = record.name
  path : record'.path = record.path
  depth : record'.depth = record.depth
  generation : record.generation.valid = true → record'.generation.valid = true

theorem regenerated_refl (record : ScopeRecord) : Regenerated record record :=
  ⟨rfl, rfl, rfl, rfl, rfl, rfl, id⟩

theorem regenerated_touched (record : ScopeRecord) : Regenerated record record.touched :=
  ⟨rfl, rfl, rfl, rfl, rfl, rfl, fun _ => Ident.nextGeneration_valid _⟩

theorem restorable_regenerated {records' : List ScopeRecord} {record record' : ScopeRecord}
    (hall : List.Forall₂ Regenerated records records') (hrecord : Regenerated record record')
    (h : restorable records position record = true) :
    restorable records' position record' = true := by
  by_cases hpos : position = 0
  · simp only [restorable, if_pos hpos, Bool.and_eq_true, decide_eq_true_eq] at h ⊢
    rw [hrecord.id, hrecord.path, hrecord.name, hrecord.kind, hrecord.parent, hrecord.depth]
    exact ⟨⟨⟨⟨⟨h.1.1.1.1.1, hrecord.generation h.1.1.1.1.2⟩, h.1.1.1.2⟩, h.1.1.2⟩, h.1.2⟩, h.2⟩
  · obtain ⟨_, _, parent, hfound, hdepth, hmax, hpath⟩ := parent_of_restorable hpos h
    have hindex := (List.getElem?_eq_some_iff.mp hfound).1
    have hindex' : record.parent.raw.toNat - 1 < records'.length := by
      rw [← hall.length_eq]
      exact hindex
    have hparent := hall.get hindex hindex'
    have hfound' : records'[record.parent.raw.toNat - 1]? =
        some records'[record.parent.raw.toNat - 1] := List.getElem?_eq_getElem hindex'
    have hsame := (List.getElem?_eq_some_iff.mp hfound).2
    rw [List.get_eq_getElem, hsame] at hparent
    simp only [restorable, if_neg hpos, Bool.and_eq_true, decide_eq_true_eq] at h ⊢
    rw [hrecord.id, hrecord.path, hrecord.name, hrecord.kind, hrecord.parent, hrecord.depth,
      hfound', ← hall.length_eq]
    simp only [Bool.and_eq_true, decide_eq_true_eq]
    refine ⟨⟨⟨⟨⟨h.1.1.1.1.1, hrecord.generation h.1.1.1.1.2⟩, h.1.1.1.2⟩, h.1.1.2⟩, h.1.2⟩, ?_⟩
    refine ⟨h.2.1, ⟨hdepth.trans ?_, hmax⟩, ?_⟩
    · exact congrArg (· + 1) hparent.depth.symm
    · rw [← hpath]
      exact congrArg (childPath · record.kind record.name) hparent.path

theorem restoreRecords_regenerated {records' rest' : List ScopeRecord}
    (hall : List.Forall₂ Regenerated records records')
    (hrest : List.Forall₂ Regenerated rest rest')
    (h : restoreRecords records position rest children index = some (children', index')) :
    restoreRecords records' position rest' children index = some (children', index') := by
  induction hrest generalizing position children index with
  | nil => exact h
  | @cons record record' rest rest' hrecord _ ih =>
    unfold restoreRecords at h ⊢
    split_ifs at h with hrestorable hcontains hpos
    · have hok := restorable_regenerated hall hrecord (by simpa using hrestorable)
      rw [if_neg (by simpa using hok), hrecord.path, if_neg hcontains, if_pos hpos, hrecord.id]
      exact ih h
    · have hok := restorable_regenerated hall hrecord (by simpa using hrestorable)
      rw [if_neg (by simpa using hok), hrecord.path, if_neg hcontains, if_neg hpos, hrecord.id,
        hrecord.parent]
      exact ih h

/-- The rebuilt index maps the path of each record to its identity. -/
theorem get?_restoreRecords
    (h : restoreRecords records position rest children index = some (children', index'))
    (path : Text) (id : ScopeId) :
    index'.get? path = some id ↔
      index.get? path = some id ∨ ∃ record ∈ rest, record.path = path ∧ record.id = id := by
  induction rest generalizing position children index with
  | nil =>
    obtain ⟨rfl, rfl⟩ := Prod.mk.inj (Option.some.inj h)
    simp
  | cons record rest ih =>
    rw [restoreRecords] at h
    split_ifs at h with _ hcontains
    all_goals
      have hnone := OrdMap.contains_eq_false_iff.mp (Bool.eq_false_iff.mpr hcontains)
      rw [ih h, OrdMap.get?_insert]
      by_cases hpath : path = record.path
      · subst hpath
        simp [hnone]
      · simp [hpath, Ne.symm hpath]

/-! ## What the shape says -/

/-- Every record of a shaped registry passes the checks of recovery. -/
theorem Shaped.restorable (h : r.Shaped) {i : ℕ} {record : ScopeRecord}
    (hrecord : r.records[i]? = some record) :
    ScopeRegistry.restorable r.records i record = true := by
  have hall := restorable_of_restoreRecords h.rebuilt i record hrecord
  rwa [Nat.zero_add] at hall

/-- Recovery of the records of a shaped registry finds the registry again. -/
theorem Shaped.restore (h : r.Shaped) {fresh : ScopeRegistry}
    (hfits : r.records.length ≤ fresh.maxScopes) :
    fresh.restore r.records r.root = ({ r with maxScopes := fresh.maxScopes }, true) :=
  restore_eq_true_iff.mpr ⟨h.filled, by rw [h.root], hfits, _, _, h.rebuilt, rfl⟩

theorem Shaped.treeSound (h : r.Shaped) : r.TreeSound := by
  have hsize := h.size
  obtain ⟨hsound, _⟩ := TreeSound.of_restore (r := { maxScopes := 2 ^ 64 - 1 }) (by decide)
    (h.restore (by dsimp only; omega))
  exact ⟨hsound.rooted, h.bound, hsize, hsound.position, hsound.parent, hsound.generation⟩

/-- The path index maps the path of each scope to the scope, and nothing else. -/
theorem Shaped.findPath_iff (h : r.Shaped) {path : Text} {id : ScopeId} :
    r.findPath path = some id ↔ ∃ record, r.find id = some record ∧ record.path = path := by
  have hindex := get?_restoreRecords h.rebuilt path id
  rw [OrdMap.get?_empty] at hindex
  rw [findPath, hindex]
  constructor
  · rintro (hnone | ⟨record, hmem, rfl, rfl⟩)
    · cases hnone
    · obtain ⟨i, hrecord⟩ := List.mem_iff_getElem?.mp hmem
      have hposition := h.treeSound.position i record hrecord
      refine ⟨record, find_eq_some_iff.mpr ⟨Ident.valid_iff_pos.mpr (by omega), ?_⟩, rfl⟩
      rwa [hposition, Nat.add_sub_cancel]
  · rintro ⟨record, hfind, hpath⟩
    have hmem := List.mem_of_getElem? (find_eq_some_iff.mp hfind).2
    exact Or.inr ⟨record, hmem, hpath, h.treeSound.find_id hfind⟩

/-! ## Registration keeps the shape -/

/-- A fresh registry that creates its root is shaped. -/
theorem Shaped.init {bound : ℕ} (hbound : bound < 2 ^ 64) :
    ({ maxScopes := bound } : ScopeRegistry).ensureRoot.Shaped := by
  have hrebuilt : restoreRecords [rootRecord] 0 [rootRecord] [[]] OrdMap.empty =
      some ([[]], OrdMap.empty.insertNew (text "global") ⟨1⟩) := by decide
  exact ⟨rfl, List.cons_ne_nil _ _, hbound, Nat.one_lt_two_pow (by decide), hrebuilt⟩

/-- The record of a new scope passes the checks of recovery. -/
theorem restorable_created {parentRecord record : ScopeRecord} {id : ScopeId}
    (hparent : r.find id = some parentRecord) (hsize : r.records.length + 1 < 2 ^ 64)
    (hid : record.id = ⟨UInt64.ofNat r.records.length + 1⟩) (hup : record.parent = id)
    (hgeneration : record.generation.valid = true) (hname : validName record.name = true)
    (hpath : record.path = childPath parentRecord.path record.kind record.name)
    (hlength : record.path.length ≤ maxScopePathLength)
    (hdepth : record.depth = parentRecord.depth + 1) (hmax : record.depth ≤ maxScopeDepth) :
    restorable (r.records ++ [record]) r.records.length record = true := by
  obtain ⟨hvalid, hrecord⟩ := find_eq_some_iff.mp hparent
  have hindex := (List.getElem?_eq_some_iff.mp hrecord).1
  have hpos := Ident.valid_iff_pos.mp hvalid
  have hfilled : record.path.isEmpty = false := by
    rw [hpath]
    simp [childPath]
  have hbefore : id.raw < UInt64.ofNat r.records.length + 1 := by
    rw [UInt64.lt_iff_toNat_lt, UInt64.toNat_add, UInt64.toNat_ofNat']
    change _ < (r.records.length % 2 ^ 64 + 1) % 2 ^ 64
    omega
  have hdeeper : parentRecord.depth + 1 ≤ maxScopeDepth := hdepth ▸ hmax
  unfold restorable
  rw [if_neg (by omega), hup, List.getElem?_append_left hindex, hrecord, hfilled]
  simp only [hgeneration, hname, hlength, hvalid, hbefore, hdepth, hdeeper, ← hpath, hid,
    List.length_append, decide_true, Bool.and_self, Bool.not_false, Bool.and_true, Bool.true_and,
    decide_eq_true_eq]
  omega

theorem Shaped.addChild (h : r.Shaped) (parent : ScopeId) (kind : ScopeKind) (name : Text) :
    (r.addChild parent kind name).1.Shaped := by
  unfold ScopeRegistry.addChild
  rw [h.treeSound.rooted.ensureRoot]
  dsimp only
  cases hparent : r.find parent with
  | none => exact h
  | some parentRecord =>
    dsimp only
    split_ifs with hglobal hname hroom hdepth hlength hcontains
    · exact h
    · exact h
    · exact h
    · exact h
    · exact h
    · exact h
    · have hbound := h.bound
      have hsize : r.records.length + 1 < 2 ^ 64 := by omega
      set record : ScopeRecord :=
        { id := ⟨UInt64.ofNat r.records.length + 1⟩, parent, kind, name,
          path := childPath parentRecord.path kind name, generation := ⟨firstGeneration⟩,
          depth := parentRecord.depth + 1 }
      have hok : ScopeRegistry.restorable (r.records ++ [record]) r.records.length record = true :=
        restorable_created hparent hsize rfl rfl (by simp [record, Ident.valid, firstGeneration])
          (by simpa using hname) rfl
          (Nat.not_lt.mp hlength) rfl (UInt32.not_lt.mp hdepth)
      have hcount := List.length_pos_of_ne_nil h.filled
      have hbuilt := restoreRecords_snoc record h.rebuilt (by simp) (by simp) h.size
      have hfresh := OrdMap.contains_eq_false_iff.mp (Bool.eq_false_iff.mpr hcontains)
      refine ⟨h.root, by simp, h.bound, by simpa using hsize, ?_⟩
      dsimp only
      rw [List.map_append, restoreRecords_append]
      refine (congrArg (Option.bind · _) hbuilt).trans ?_
      rw [Option.bind_some, restoreRecords, Nat.zero_add, if_neg (by simpa using hok),
        if_neg hcontains, if_neg (by omega), OrdMap.insertNew_of_get?_none hfresh]
      rfl

theorem Shaped.touch (h : r.Shaped) (id : ScopeId) : (r.touch id).Shaped := by
  unfold ScopeRegistry.touch
  split_ifs with hid
  · have hall : List.Forall₂ Regenerated r.records
        (r.records.modify (id.raw.toNat - 1) ScopeRecord.touched) := by
      refine List.forall₂_iff_get.mpr ⟨by simp, ?_⟩
      intro i hi hi'
      rw [List.get_eq_getElem, List.get_eq_getElem, List.getElem_modify]
      split_ifs
      · exact regenerated_touched _
      · exact regenerated_refl _
    refine ⟨h.root, ?_, h.bound, by simpa using h.size, ?_⟩
    · intro hempty
      exact h.filled (List.length_eq_zero_iff.mp (by simpa using congrArg List.length hempty))
    · have hsame : (r.records.modify (id.raw.toNat - 1) ScopeRecord.touched).map
          (fun _ => ([] : List ScopeId)) = r.records.map fun _ => [] := by
        simp
      rw [hsame]
      exact restoreRecords_regenerated hall hall h.rebuilt
  · exact h

theorem Shaped.of_restore {restored : ScopeRegistry} {root : ScopeId}
    (hbound : r.maxScopes < 2 ^ 64) (h : r.restore records root = (restored, true)) :
    restored.Shaped := by
  obtain ⟨hfilled, hroot, hroom, children, pathIndex, hrecords, rfl⟩ := restore_eq_true_iff.mp h
  refine ⟨?_, hfilled, hbound, by dsimp only; omega, hrecords⟩
  exact congrArg Ident.mk hroot

end ScopeRegistry

end LifecycleFabric
