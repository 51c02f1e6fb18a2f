import LifecycleFabric.Lib.Lineage
import LifecycleFabric.ScopeCalls

/-!
# Walks in the scope tree

Both walks of the registry follow the parents of a scope: the chain collects all of them, and
the ancestor test stops at the one it looks for. The chain is the lineage of the scope, and the
depth of a scope bounds the length of its lineage.
-/

namespace LifecycleFabric

namespace ScopeRegistry

/-- The parent of a registered scope; the root has none. -/
def parentOf (r : ScopeRegistry) (id : ScopeId) : Option ScopeId :=
  (r.find id).bind fun record => if record.parent.valid then some record.parent else none

variable {r : ScopeRegistry} {id : ScopeId} {record : ScopeRecord} {line : List ScopeId}

/-- A registered scope without a parent names none. -/
theorem parent_of_parentOf_none (hfind : r.find id = some record) (hnone : r.parentOf id = none) :
    record.parent.valid = false := by
  rw [parentOf, hfind, Option.bind_some] at hnone
  simpa using hnone

/-- A scope with a parent is registered, and its record names the parent. -/
theorem parentOf_eq_some_iff {parent : ScopeId} :
    r.parentOf id = some parent ↔
      ∃ record, r.find id = some record ∧ record.parent = parent ∧ parent.valid = true := by
  unfold parentOf
  rw [Option.bind_eq_some_iff]
  refine exists_congr fun record => and_congr_right fun _ => ?_
  rw [Option.ite_none_right_eq_some, Option.some_inj]
  constructor
  · rintro ⟨hvalid, rfl⟩
    exact ⟨rfl, hvalid⟩
  · rintro ⟨rfl, hvalid⟩
    exact ⟨hvalid, rfl⟩

/-! ## Walks are lineages -/

/-- A walk with enough steps visits the lineage of its scope. -/
theorem TreeSound.chainUp_lineage (h : r.TreeSound) (hline : Lineage r.parentOf id line)
    (hfind : r.find id = some record) {steps : ℕ} (hsteps : line.length ≤ steps) :
    r.chainUp steps (some record) = line := by
  induction hline generalizing record steps with
  | @top id hnone =>
    have hroot := parent_of_parentOf_none hfind hnone
    cases steps with
    | zero => simp at hsteps
    | succ steps => simp [chainUp, hroot, h.find_id hfind]
  | @under id parent above hparent hline ih =>
    obtain ⟨found, hfound, rfl, hvalid⟩ := parentOf_eq_some_iff.mp hparent
    obtain rfl : found = record := Option.some.inj (hfound.symm.trans hfind)
    obtain ⟨_, parentRecord, hparentRecord⟩ := h.find_parent hfind hvalid
    cases steps with
    | zero => simp at hsteps
    | succ steps =>
      have hrest := ih hparentRecord (show above.length ≤ steps by simpa using hsteps)
      simp [chainUp, hvalid, h.find_id hfind, hparentRecord, hrest]

/-- An ancestor test with enough steps looks through the lineage above its scope. -/
theorem TreeSound.hasAncestor_lineage (h : r.TreeSound) (hline : Lineage r.parentOf id line)
    (hfind : r.find id = some record) {steps : ℕ} (hsteps : line.length ≤ steps)
    (ancestor : ScopeId) :
    r.hasAncestor ancestor steps (some record) = true ↔ ancestor ∈ line.tail := by
  induction hline generalizing record steps with
  | @top id hnone =>
    have hroot := parent_of_parentOf_none hfind hnone
    cases steps with
    | zero => simp at hsteps
    | succ steps => simp [hasAncestor, hroot]
  | @under id parent above hparent hline ih =>
    obtain ⟨found, hfound, rfl, hvalid⟩ := parentOf_eq_some_iff.mp hparent
    obtain rfl : found = record := Option.some.inj (hfound.symm.trans hfind)
    obtain ⟨_, parentRecord, hparentRecord⟩ := h.find_parent hfind hvalid
    obtain ⟨higher, rfl⟩ := hline.eq_cons
    cases steps with
    | zero => simp at hsteps
    | succ steps =>
      have hrest := ih hparentRecord (show _ ≤ steps by simpa using hsteps)
      rw [List.tail_cons] at hrest ⊢
      rw [List.mem_cons, ← hrest, hasAncestor, hvalid, hparentRecord]
      by_cases hsame : found.parent = ancestor
      · simp [hsame]
      · simp [hsame, Ne.symm hsame]

/-! ## How long a walk is -/

/-- The parent of a scope is registered, one level above it, and its path begins the path of
the scope. -/
theorem Shaped.find_parent (h : r.Shaped) (hfind : r.find id = some record)
    (hvalid : record.parent.valid = true) :
    ∃ parentRecord, r.find record.parent = some parentRecord ∧
      record.depth = parentRecord.depth + 1 ∧ record.depth ≤ maxScopeDepth ∧
      record.path = childPath parentRecord.path record.kind record.name := by
  obtain ⟨_, hrecord⟩ := find_eq_some_iff.mp hfind
  have hok := h.restorable hrecord
  have hpos : id.raw.toNat - 1 ≠ 0 := by
    intro hzero
    simp [ScopeRegistry.restorable, hzero, hvalid] at hok
  obtain ⟨_, _, parentRecord, hfound, hdepth, hmax, hpath⟩ := parent_of_restorable hpos hok
  exact ⟨parentRecord, find_eq_some_iff.mpr ⟨hvalid, hfound⟩, hdepth, hmax, hpath.symm⟩

/-- The scope without a parent is the root. -/
theorem Shaped.eq_root (h : r.Shaped) (hfind : r.find id = some record)
    (hparent : record.parent.valid = false) :
    id = r.root ∧ record.depth = 0 ∧ record.path = text "global" := by
  obtain ⟨hid, hrecord⟩ := find_eq_some_iff.mp hfind
  have hok := h.restorable hrecord
  have hzero : id.raw.toNat - 1 = 0 := by
    by_contra hpos
    obtain ⟨hup, _⟩ := parent_of_restorable hpos hok
    rw [← Ident.valid_iff_pos, hparent] at hup
    cases hup
  have hpos := Ident.valid_iff_pos.mp hid
  simp only [ScopeRegistry.restorable, if_pos hzero, Bool.and_eq_true, decide_eq_true_eq] at hok
  refine ⟨?_, hok.2.2, hok.2.1.2⟩
  rw [h.root, Ident.eq_iff_toNat]
  exact (by omega : id.raw.toNat = 1)

theorem Shaped.validName_name (h : r.Shaped) (hfind : r.find id = some record) :
    validName record.name = true := by
  have hok := h.restorable (find_eq_some_iff.mp hfind).2
  simp only [ScopeRegistry.restorable, Bool.and_eq_true] at hok
  exact hok.1.2

/-- The depth of a registered scope. -/
def depthOf (r : ScopeRegistry) (id : ScopeId) : ℕ :=
  ((r.find id).map fun record => record.depth.toNat).getD 0

theorem Shaped.depthOf_le (h : r.Shaped) (id : ScopeId) : r.depthOf id ≤ maxScopeDepth.toNat := by
  unfold depthOf
  cases hfind : r.find id with
  | none => exact Nat.zero_le _
  | some record =>
    cases hparent : record.parent.valid with
    | false =>
      obtain ⟨_, hdepth, _⟩ := h.eq_root hfind hparent
      simp [hdepth]
    | true =>
      obtain ⟨_, _, _, hmax, _⟩ := h.find_parent hfind hparent
      exact UInt32.le_iff_toNat_le.mp hmax

/-- Depths decrease towards the root. -/
theorem Shaped.depthOf_parent (h : r.Shaped) {parent : ScopeId}
    (hparent : r.parentOf id = some parent) : r.depthOf parent < r.depthOf id := by
  obtain ⟨record, hfind, rfl, hvalid⟩ := parentOf_eq_some_iff.mp hparent
  obtain ⟨parentRecord, hfound, hdepth, hmax, _⟩ := h.find_parent hfind hvalid
  have hle := UInt32.le_iff_toNat_le.mp hmax
  rw [depthOf, depthOf, hfind, hfound, Option.map_some, Option.map_some, Option.getD_some,
    Option.getD_some]
  have hparentLe := h.depthOf_le record.parent
  rw [depthOf, hfound, Option.map_some, Option.getD_some] at hparentLe
  rw [hdepth, UInt32.toNat_add]
  change parentRecord.depth.toNat ≤ 32 at hparentLe
  change parentRecord.depth.toNat < (parentRecord.depth.toNat + 1) % 2 ^ 32
  omega

/-- Identities decrease towards the root. -/
theorem TreeSound.raw_parent (h : r.TreeSound) {parent : ScopeId}
    (hparent : r.parentOf id = some parent) : parent.raw.toNat - 1 < id.raw.toNat - 1 := by
  obtain ⟨record, hfind, rfl, hvalid⟩ := parentOf_eq_some_iff.mp hparent
  obtain ⟨hlt, _⟩ := h.find_parent hfind hvalid
  have hpos := Ident.valid_iff_pos.mp hvalid
  omega

/-- A registered scope has a lineage, which is its chain read upwards, and which neither walk
cuts. -/
theorem Shaped.lineage (h : r.Shaped) (hfind : r.find id = some record) :
    Lineage r.parentOf id (r.chain id).reverse ∧ (r.chain id).length ≤ maxScopeDepth.toNat + 1 ∧
      (r.chain id).length ≤ r.records.length := by
  obtain ⟨line, hline, hdepth⟩ :=
    Lineage.exists_of_rank (fun _ _ hparent => h.depthOf_parent hparent) id
  obtain ⟨line', hline', hraw⟩ :=
    Lineage.exists_of_rank (fun _ _ hparent => h.treeSound.raw_parent hparent) id
  obtain rfl := hline.unique hline'
  have hlevel := h.depthOf_le id
  have hpos := Ident.valid_iff_pos.mp (find_eq_some_iff.mp hfind).1
  have hcount := find_le_length hfind
  have hlength : line.length ≤ r.records.length := by omega
  have hchain : r.chain id = line.reverse := by
    rw [chain, hfind, h.treeSound.chainUp_lineage hline hfind hlength]
  rw [hchain, List.reverse_reverse, List.length_reverse]
  exact ⟨hline, by omega, hlength⟩

/-- A scope of a lineage is registered. -/
theorem TreeSound.find_of_lineage (h : r.TreeSound) (hline : Lineage r.parentOf id line)
    (hfind : r.find id = some record) {node : ScopeId} (hnode : node ∈ line) :
    ∃ found, r.find node = some found := by
  induction hline generalizing record with
  | @top id _ =>
    obtain rfl := List.mem_singleton.mp hnode
    exact ⟨record, hfind⟩
  | @under id parent above hparent _ ih =>
    rcases List.mem_cons.mp hnode with rfl | habove
    · exact ⟨record, hfind⟩
    · obtain ⟨child, hchild, rfl, hvalid⟩ := parentOf_eq_some_iff.mp hparent
      obtain ⟨_, parentRecord, hparentRecord⟩ := h.find_parent hchild hvalid
      exact ih hparentRecord habove

/-! ## The ancestor test -/

/-- A scope is an ancestor of a registered scope, or the scope itself, when it stands in the
chain of that scope. -/
theorem Shaped.isAncestorOrSelf_iff (h : r.Shaped) {ancestor : ScopeId}
    (hfind : r.find id = some record) :
    r.isAncestorOrSelf ancestor id = true ↔ ancestor ∈ r.chain id := by
  obtain ⟨hline, hlength, _⟩ := h.lineage hfind
  have hvalid := (find_eq_some_iff.mp hfind).1
  have hsteps : (r.chain id).reverse.length ≤ maxScopeDepth.toNat + 2 := by
    rw [List.length_reverse]
    omega
  have hwalk := h.treeSound.hasAncestor_lineage hline hfind hsteps ancestor
  rw [← List.mem_reverse]
  obtain ⟨above, habove⟩ := hline.eq_cons
  rw [habove, List.tail_cons] at hwalk
  rw [habove, List.mem_cons, ← hwalk, isAncestorOrSelf, hvalid, hfind]
  by_cases hancestor : ancestor.valid = true
  · by_cases hsame : ancestor = id
    · simp [hsame, hvalid]
    · simp [hancestor, hsame]
  · have hother : ancestor ≠ id := by
      rintro rfl
      exact hancestor hvalid
    have hnone : ¬r.hasAncestor ancestor (maxScopeDepth.toNat + 2) (some record) = true := by
      rw [hwalk]
      intro hmem
      have hin : ancestor ∈ (r.chain id).reverse := by
        rw [habove]
        exact List.mem_cons_of_mem _ hmem
      obtain ⟨found, hfound⟩ := h.treeSound.find_of_lineage hline hfind hin
      exact hancestor (find_eq_some_iff.mp hfound).1
    simp [hancestor, hother, hnone]

/-- The chain of an ancestor begins the chain of its descendant. -/
theorem Formed.chain_begins (h : r.Formed) {ancestor : ScopeId}
    (hancestor : r.isAncestorOrSelf ancestor id = true) : r.chain ancestor <+: r.chain id := by
  by_cases hsame : ancestor = id
  · rw [hsame]
  cases hfind : r.find id with
  | none =>
    unfold isAncestorOrSelf at hancestor
    rw [hfind] at hancestor
    simp [hsame, hasAncestor] at hancestor
  | some record =>
    have hshaped := h.shaped_of_find hfind
    obtain ⟨hline, _⟩ := hshaped.lineage hfind
    have hmem := List.mem_reverse.mpr ((hshaped.isAncestorOrSelf_iff hfind).mp hancestor)
    obtain ⟨found, hfound⟩ := hshaped.treeSound.find_of_lineage hline hfind hmem
    obtain ⟨lower, upper, hsplit, hupper⟩ := hline.suffix hmem
    obtain rfl := hupper.unique (hshaped.lineage hfound).1
    have hwhole := congrArg List.reverse hsplit
    rw [List.reverse_reverse, List.reverse_append, List.reverse_reverse] at hwhole
    exact ⟨lower.reverse, hwhole.symm⟩

end ScopeRegistry

end LifecycleFabric
