import LifecycleFabric.Scope

/-!
# The shape of the scope tree

The identity of a scope is its position, and the parent of a scope comes before it. The
walk from a scope to the root therefore visits strictly smaller identities and ends.
-/

namespace LifecycleFabric

namespace ScopeRegistry

/-- Scopes are numbered by position, and parents come first. -/
structure TreeSound (r : ScopeRegistry) : Prop where
  rooted : r.Rooted
  bound : r.maxScopes < 2 ^ 64
  size : r.records.length < 2 ^ 64
  position : ∀ (i : ℕ) (record : ScopeRecord), r.records[i]? = some record →
    record.id.raw.toNat = i + 1
  parent : ∀ (i : ℕ) (record : ScopeRecord), r.records[i]? = some record →
    record.parent.raw.toNat ≤ i
  generation : ∀ (i : ℕ) (record : ScopeRecord), r.records[i]? = some record →
    record.generation.valid = true

variable {r : ScopeRegistry}

/-! ## Lookup -/

/-- A registered scope is the record at its position. -/
theorem find_eq_some_iff {id : ScopeId} {record : ScopeRecord} :
    r.find id = some record ↔ id.valid = true ∧ r.records[id.raw.toNat - 1]? = some record := by
  unfold find
  split_ifs with hid <;> simp [hid]

theorem TreeSound.find_id (h : r.TreeSound) {id : ScopeId} {record : ScopeRecord}
    (hfind : r.find id = some record) : record.id = id := by
  obtain ⟨hid, hrecord⟩ := find_eq_some_iff.mp hfind
  have hpos := Ident.valid_iff_pos.mp hid
  have hposition := h.position _ _ hrecord
  rw [Ident.eq_iff_toNat]
  omega

/-- The parent of a registered scope is registered, and has a smaller identity. -/
theorem TreeSound.find_parent (h : r.TreeSound) {id : ScopeId} {record : ScopeRecord}
    (hfind : r.find id = some record) (hparent : record.parent.valid = true) :
    record.parent.raw.toNat < id.raw.toNat ∧ ∃ parent, r.find record.parent = some parent := by
  obtain ⟨hid, hrecord⟩ := find_eq_some_iff.mp hfind
  have hpos := Ident.valid_iff_pos.mp hid
  have hpos' := Ident.valid_iff_pos.mp hparent
  have hle := h.parent _ _ hrecord
  have hlength := (List.getElem?_eq_some_iff.mp hrecord).1
  have hindex : record.parent.raw.toNat - 1 < r.records.length := by omega
  exact ⟨by omega, _, find_eq_some_iff.mpr ⟨hparent, List.getElem?_eq_getElem hindex⟩⟩

theorem find_le_length {id : ScopeId} {record : ScopeRecord} (hfind : r.find id = some record) :
    id.raw.toNat ≤ r.records.length := by
  obtain ⟨hid, hrecord⟩ := find_eq_some_iff.mp hfind
  have hpos := Ident.valid_iff_pos.mp hid
  have hlength := (List.getElem?_eq_some_iff.mp hrecord).1
  omega

/-! ## Registration keeps the shape -/

theorem TreeSound.init {bound : ℕ} (hbound : bound < 2 ^ 64) :
    ({ maxScopes := bound } : ScopeRegistry).ensureRoot.TreeSound := by
  refine ⟨rooted_ensureRoot _, hbound, Nat.one_lt_two_pow (by decide), ?_, ?_, ?_⟩
  all_goals
    intro i record hrecord
    cases i with
    | zero =>
      obtain rfl : rootRecord = record := Option.some.inj hrecord
      decide
    | succ i => cases hrecord

theorem TreeSound.addChild (h : r.TreeSound) (parent : ScopeId) (kind : ScopeKind) (name : Text) :
    (r.addChild parent kind name).1.TreeSound := by
  have hrooted := h.rooted.addChild parent kind name
  unfold ScopeRegistry.addChild at hrooted ⊢
  rw [h.rooted.ensureRoot] at hrooted ⊢
  dsimp only at hrooted ⊢
  cases hparent : r.find parent with
  | none => exact h
  | some parentRecord =>
    rw [hparent] at hrooted
    dsimp only at hrooted ⊢
    split_ifs at hrooted ⊢ with h1 h2 h3 h4 h5 h6
    · exact h
    · exact h
    · exact h
    · exact h
    · exact h
    · exact h
    · have hbound := h.bound
      have hfound := find_le_length hparent
      have hroom : r.records.length + 1 < 2 ^ 64 := by omega
      have hcreated : (UInt64.ofNat r.records.length + 1).toNat = r.records.length + 1 := by
        rw [UInt64.toNat_add, UInt64.toNat_ofNat']
        change (r.records.length % 2 ^ 64 + 1) % 2 ^ 64 = r.records.length + 1
        omega
      refine ⟨hrooted, hbound, by simpa using hroom, ?_, ?_, ?_⟩
      all_goals
        intro i record hrecord
        rcases Nat.lt_or_ge i r.records.length with hi | hi
        · rw [List.getElem?_append_left hi] at hrecord
          first
            | exact h.position i record hrecord
            | exact h.parent i record hrecord
            | exact h.generation i record hrecord
        · rw [List.getElem?_append_right hi] at hrecord
          obtain ⟨hlast, rfl⟩ := List.getElem?_eq_some_iff.mp hrecord
          have hi' : i = r.records.length := by
            simp only [List.length_singleton] at hlast
            omega
          subst hi'
          first
            | simpa using hcreated
            | simpa using hfound
            | simp [Ident.valid, firstGeneration]

theorem TreeSound.ensurePath (h : r.TreeSound) (path : Text) :
    (r.ensurePath path).1.TreeSound :=
  ensurePath_preserves (fun _ h => h.rooted.ensureRoot.symm ▸ h)
    (fun _ parent kind name h => h.addChild parent kind name) h path

theorem TreeSound.grows {r' : ScopeRegistry} (h : r.TreeSound) (hgrows : r.Grows r') :
    r'.TreeSound := by
  refine Runs.chain_preserves ?_ hgrows h
  rintro before after ⟨path, rfl⟩ hbefore
  exact hbefore.ensurePath path

theorem TreeSound.touch (h : r.TreeSound) (id : ScopeId) : (r.touch id).TreeSound := by
  have hrooted := h.rooted.touch id
  unfold ScopeRegistry.touch at hrooted ⊢
  split_ifs at hrooted ⊢ with hid
  · refine ⟨hrooted, h.bound, by simpa using h.size, ?_, ?_, ?_⟩
    all_goals
      intro i record hrecord
      rw [List.getElem?_modify, Option.map_eq_map, Option.map_eq_some_iff] at hrecord
      obtain ⟨before, hbefore, rfl⟩ := hrecord
      have hposition := h.position i before hbefore
      have hparent := h.parent i before hbefore
      have hgeneration := h.generation i before hbefore
    · split_ifs
      · exact hposition
      · exact hposition
    · split_ifs
      · exact hparent
      · exact hparent
    · split_ifs
      · exact Ident.nextGeneration_valid _
      · exact hgeneration
  · exact h

/-! ## Walks to the root -/

/-- A scope of one tree stands in another under the same parent. -/
def Keeps (r r' : ScopeRegistry) : Prop :=
  ∀ id record, r.find id = some record → ∃ record', r'.find id = some record' ∧
    record'.id = record.id ∧ record'.parent = record.parent

theorem keeps_touch (r : ScopeRegistry) (id : ScopeId) : r.Keeps (r.touch id) := by
  intro other record hrecord
  refine ⟨_, by rw [find_touch, hrecord]; rfl, ?_⟩
  split_ifs
  · exact ⟨rfl, rfl⟩
  · exact ⟨rfl, rfl⟩

theorem Keeps.trans {r' r'' : ScopeRegistry} (h : r.Keeps r') (h' : r'.Keeps r'') :
    r.Keeps r'' := by
  intro id record hrecord
  obtain ⟨record', hrecord', hid, hparent⟩ := h id record hrecord
  obtain ⟨record'', hrecord'', hid', hparent'⟩ := h' id record' hrecord'
  exact ⟨record'', hrecord'', hid'.trans hid, hparent'.trans hparent⟩

theorem Extends.keeps {r' : ScopeRegistry} (h : r.Extends r') : r.Keeps r' :=
  fun _ record hrecord => ⟨record, h.find hrecord, rfl, rfl⟩

/-- The walk from a scope is the same wherever its tree stands, once it has enough steps. -/
theorem TreeSound.chainUp_eq (h : r.TreeSound) {r' : ScopeRegistry} (hkeeps : r.Keeps r')
    {steps steps' : ℕ} {id : ScopeId} {record record' : ScopeRecord}
    (hrecord : r.find id = some record) (hrecord' : r'.find id = some record')
    (hsteps : id.raw.toNat ≤ steps) (hsteps' : id.raw.toNat ≤ steps') :
    r'.chainUp steps' (some record') = r.chainUp steps (some record) := by
  obtain ⟨found, hfound, hid, hparent⟩ := hkeeps id record hrecord
  obtain rfl : found = record' := Option.some.inj (hfound.symm.trans hrecord')
  have hpos := Ident.valid_iff_pos.mp (find_eq_some_iff.mp hrecord).1
  induction steps generalizing steps' id record found with
  | zero => omega
  | succ steps ih =>
    obtain ⟨steps', rfl⟩ : ∃ n, steps' = n + 1 := ⟨steps' - 1, by omega⟩
    unfold chainUp
    rw [hid, hparent]
    by_cases hvalid : record.parent.valid = true
    · obtain ⟨hlt, parent, hfind⟩ := h.find_parent hrecord hvalid
      obtain ⟨parent', hfind', hid', hparent'⟩ := hkeeps _ parent hfind
      have hrest := ih hfind (by omega) (show _ ≤ steps' by omega) parent' hfind' hid' hparent'
        hfind' (Ident.valid_iff_pos.mp hvalid)
      rw [hfind, hfind', hrest]
    · simp [hvalid]

/-- The chain of a registered scope is the same wherever its tree stands. -/
theorem TreeSound.chain_eq (h : r.TreeSound) {r' : ScopeRegistry} (hkeeps : r.Keeps r')
    {id : ScopeId} (hfound : (r.find id).isSome = true) : r'.chain id = r.chain id := by
  obtain ⟨record, hrecord⟩ := Option.isSome_iff_exists.mp hfound
  obtain ⟨record', hrecord', _⟩ := hkeeps id record hrecord
  rw [chain, chain, hrecord, hrecord', h.chainUp_eq hkeeps hrecord hrecord' (find_le_length hrecord)
    (find_le_length hrecord')]

/-! ## Recovery -/

theorem restorable_of_restoreRecords {records rest : List ScopeRecord} {position : ℕ}
    {children children' : List (List ScopeId)} {index index' : OrdMap Text ScopeId}
    (h : restoreRecords records position rest children index = some (children', index')) :
    ∀ i record, rest[i]? = some record → restorable records (position + i) record = true := by
  induction rest generalizing position children index with
  | nil =>
    intro i record hrecord
    cases hrecord
  | cons head rest ih =>
    unfold restoreRecords at h
    split_ifs at h with hrestorable _
    all_goals
      intro i record hrecord
      cases i with
      | zero =>
        obtain rfl : head = record := Option.some.inj hrecord
        simpa using hrestorable
      | succ i =>
        have hlater := ih h i record hrecord
        rwa [Nat.add_right_comm, Nat.add_assoc] at hlater

theorem TreeSound.of_restore {restored : ScopeRegistry} {records : List ScopeRecord}
    {root : ScopeId} (hbound : r.maxScopes < 2 ^ 64)
    (h : r.restore records root = (restored, true)) :
    restored.TreeSound ∧ restored.records = records := by
  have hrooted := rooted_restore h
  obtain ⟨hfilled, hroot, hroom, children, pathIndex, hrecords, rfl⟩ := restore_eq_true_iff.mp h
  have hlength : records.length < 2 ^ 64 := by omega
  have hall := restorable_of_restoreRecords hrecords
  refine ⟨⟨hrooted, hbound, hlength, ?_, ?_, ?_⟩, rfl⟩
  all_goals
    intro i record hrecord
    have hi : i < records.length := (List.getElem?_eq_some_iff.mp hrecord).1
    have hrestorable := hall i record hrecord
    rw [Nat.zero_add] at hrestorable
    simp only [restorable, Bool.and_eq_true, decide_eq_true_eq] at hrestorable
    have hid : record.id.raw.toNat = i + 1 := by
      rw [hrestorable.1.1.1.1.1, UInt64.toNat_add, UInt64.toNat_ofNat']
      change (i % 2 ^ 64 + 1) % 2 ^ 64 = i + 1
      omega
  · exact hid
  · by_cases hzero : i = 0
    · have hnone := hrestorable.2
      rw [if_pos hzero] at hnone
      simp only [Bool.and_eq_true, Bool.not_eq_true', decide_eq_true_eq] at hnone
      have hparent : ¬0 < record.parent.raw.toNat := by
        rw [← Ident.valid_iff_pos, hnone.1.1.2]
        exact Bool.false_ne_true
      omega
    · have hsome := hrestorable.2
      rw [if_neg hzero] at hsome
      simp only [Bool.and_eq_true, decide_eq_true_eq] at hsome
      have hlt := UInt64.lt_iff_toNat_lt.mp hsome.1.2
      omega
  · exact hrestorable.1.1.1.1.2

end ScopeRegistry

end LifecycleFabric
