import LifecycleFabric.ScopeWalks

/-!
# Spellings of scope paths

Scopes are stored under the first spelling of their kind, and looked up by the text of a path.
A path that uses a second spelling leads to no scope, whichever scopes are registered.
-/

namespace LifecycleFabric

/-- Whether a segment spells its kind by the second spelling. -/
def secondSpelled (segment : Text) : Bool :=
  decide (segment.takeWhile (· != 58) = text "replicagroup") ||
    decide (segment.takeWhile (· != 58) = text "workloadclass")

/-- Whether a path spells the kind of some segment by its second spelling. -/
def secondSpelling (path : Text) : Bool := (path.splitOn 47).tail.any secondSpelled

/-- A path from its segments. -/
def joined (first : Text) (segments : List Text) : Text :=
  segments.foldl (fun path segment => path ++ [47] ++ segment) first

/-- The token of a segment that uses the first spelling is the token of its kind. -/
theorem ScopeKind.toText_of_parse {segment : Text} {kind : ScopeKind}
    (h : ScopeKind.parse (segment.takeWhile (· != 58)) = some kind)
    (hfirst : secondSpelled segment = false) : kind.toText = segment.takeWhile (· != 58) := by
  simp only [secondSpelled, Bool.or_eq_false_iff, decide_eq_false_iff_not] at hfirst
  obtain ⟨hgroup, hclass⟩ := hfirst
  unfold ScopeKind.parse at h
  cases hfound :
      ScopeKind.all.find? fun kind => decide (kind.toText = segment.takeWhile (· != 58)) with
  | none =>
    rw [hfound] at h
    simp [hgroup, hclass] at h
  | some found =>
    rw [hfound] at h
    obtain rfl := Option.some.inj h
    have hsame := List.find?_some hfound
    exact of_decide_eq_true hsame

theorem joined_append (start first : Text) (segments : List Text) :
    joined (start ++ first) segments = start ++ joined first segments := by
  induction segments generalizing first with
  | nil => rfl
  | cons segment segments ih =>
    have hrest := ih (first ++ [47] ++ segment)
    rw [← List.append_assoc, ← List.append_assoc] at hrest
    exact hrest

theorem joined_eq_intercalate (first : Text) (segments : List Text) :
    joined first segments = [47].intercalate (first :: segments) := by
  induction segments generalizing first with
  | nil => exact List.intercalate_singleton.symm
  | cons segment segments ih =>
    rw [List.intercalate_cons_cons, ← ih, ← joined_append]
    rfl

/-- The segments of a path make the path. -/
theorem joined_splitOn {path first : Text} {segments : List Text}
    (h : path.splitOn 47 = first :: segments) : joined first segments = path := by
  rw [joined_eq_intercalate, ← h, List.intercalate_splitOn]

/-- No segment of a path has the separator. -/
theorem not_mem_of_mem_splitOn {separator : UInt8} {path segment : Text}
    (h : segment ∈ path.splitOn separator) : separator ∉ segment := by
  induction path generalizing segment with
  | nil =>
    rw [List.splitOn_nil, List.mem_singleton] at h
    rw [h]
    exact List.not_mem_nil
  | cons c path ih =>
    rw [List.splitOn_cons_eq_if_modifyHead] at h
    split_ifs at h with hc
    · rcases List.mem_cons.mp h with rfl | hrest
      · exact List.not_mem_nil
      · exact ih hrest
    · cases hsplit : path.splitOn separator with
      | nil => exact absurd hsplit (List.splitOn_ne_nil _ _)
      | cons first rest =>
        rw [hsplit] at h ih
        rcases List.mem_cons.mp h with rfl | hrest
        · have hfirst := ih List.mem_cons_self
          have hne : c ≠ separator := by simpa using hc
          simp [hfirst, Ne.symm hne]
        · exact ih (List.mem_cons_of_mem _ hrest)

/-- A segment with a colon is the kind before the colon and the name after it. -/
theorem segment_eq {segment : Text} (h : segment.contains 58 = true) :
    segment.takeWhile (· != 58) ++ [58] ++ (segment.dropWhile (· != 58)).drop 1 = segment := by
  induction segment with
  | nil => cases h
  | cons c segment ih =>
    by_cases hc : c = 58
    · subst hc
      simp
    · have hrest : segment.contains 58 = true := by simpa [Ne.symm hc] using h
      rw [List.takeWhile_cons_of_pos (by simpa using hc),
        List.dropWhile_cons_of_pos (by simpa using hc)]
      exact congrArg (c :: ·) (ih hrest)

namespace ScopeRegistry

variable {r : ScopeRegistry} {id parent : ScopeId} {record : ScopeRecord} {kind : ScopeKind}
  {name : Text}

/-! ## Stored paths -/

/-- The token of a kind has no slash and no colon, and is no second spelling. -/
theorem toText_spelling (kind : ScopeKind) :
    47 ∉ kind.toText ∧ 58 ∉ kind.toText ∧ kind.toText ≠ text "replicagroup" ∧
      kind.toText ≠ text "workloadclass" := by
  cases kind <;> decide

theorem not_mem_of_validName (h : validName name = true) : 47 ∉ name := by
  simp only [validName, Bool.and_eq_true, List.all_eq_true] at h
  intro hmem
  have hslash := h.2 47 hmem
  revert hslash
  decide

/-- Below a path of first spellings, the path of a child uses first spellings. -/
theorem secondSpelling_childPath {path : Text} (hname : validName name = true)
    (hpath : secondSpelling path = false) :
    secondSpelling (childPath path kind name) = false := by
  obtain ⟨hslash, hcolon, hgroup, hclass⟩ := toText_spelling kind
  have hchild : childPath path kind name = path ++ 47 :: (kind.toText ++ 58 :: name) := by
    simp [childPath]
  have hlast : (kind.toText ++ 58 :: name).splitOn 47 = [kind.toText ++ 58 :: name] := by
    refine List.splitOn_eq_singleton ?_
    simp [hslash, not_mem_of_validName hname]
  have htoken : (kind.toText ++ 58 :: name).takeWhile (· != 58) = kind.toText := by
    rw [List.takeWhile_append_of_pos]
    · simp
    · intro c hc
      have hne : c ≠ 58 := by
        rintro rfl
        exact hcolon hc
      simpa using hne
  unfold secondSpelling at hpath ⊢
  rw [hchild, List.splitOn_append_cons_self, hlast,
    List.tail_append_of_ne_nil (List.splitOn_ne_nil _ _), List.any_append, hpath]
  simp [secondSpelled, htoken, hgroup, hclass]

/-- A path that ends with a second spelling uses one. -/
theorem secondSpelling_append (path : Text) {segment : Text} (hslash : 47 ∉ segment)
    (hsecond : secondSpelled segment = true) :
    secondSpelling (path ++ [47] ++ segment) = true := by
  have hlonger : path ++ [47] ++ segment = path ++ 47 :: segment := by simp
  rw [hlonger, secondSpelling, List.splitOn_append_cons_self, List.splitOn_eq_singleton hslash,
    List.tail_append_of_ne_nil (List.splitOn_ne_nil _ _), List.any_append]
  simp [hsecond]

/-- The path of a registered scope uses first spellings only. -/
theorem Shaped.secondSpelling_path (h : r.Shaped) (hfind : r.find id = some record) :
    secondSpelling record.path = false := by
  have hline := (h.lineage hfind).1
  generalize (r.chain id).reverse = line at hline
  induction hline generalizing record with
  | @top id hnone =>
    obtain ⟨_, _, hpath⟩ := h.eq_root hfind (parent_of_parentOf_none hfind hnone)
    rw [hpath]
    decide
  | @under id parent above hparent hline ih =>
    obtain ⟨found, hfound, rfl, hvalid⟩ := parentOf_eq_some_iff.mp hparent
    obtain rfl : found = record := Option.some.inj (hfound.symm.trans hfind)
    obtain ⟨parentRecord, hparentRecord, _, _, hpath⟩ := h.find_parent hfind hvalid
    rw [hpath]
    exact secondSpelling_childPath (h.validName_name hfind) (ih hparentRecord)

/-- A path with a second spelling leads to no scope. -/
theorem Formed.findPath_secondSpelling (h : r.Formed) {path : Text}
    (hpath : secondSpelling path = true) : r.findPath path = none := by
  cases hfound : r.findPath path with
  | none => rfl
  | some id =>
    rcases h with hblank | hshaped
    · rw [hblank.1] at hfound
      cases hfound
    · obtain ⟨record, hfind, rfl⟩ := hshaped.findPath_iff.mp hfound
      rw [hshaped.secondSpelling_path hfind] at hpath
      cases hpath

/-! ## Registered paths -/

/-- An accepted child is found under its path. -/
theorem Shaped.findPath_addChild (h : r.Shaped) {path : Text}
    (hparent : r.findPath path = some parent)
    (hok : (r.addChild parent kind name).2.1.allowed = true) :
    (r.addChild parent kind name).1.findPath (childPath path kind name) =
      some (r.addChild parent kind name).2.2 := by
  obtain ⟨record, hfind, rfl⟩ := h.findPath_iff.mp hparent
  unfold ScopeRegistry.addChild at hok ⊢
  rw [h.treeSound.rooted.ensureRoot] at hok ⊢
  dsimp only at hok ⊢
  rw [hfind] at hok ⊢
  dsimp only at hok ⊢
  split_ifs at hok ⊢ with _ _ _ _ _ hcontains
  · cases hok
  · cases hok
  · cases hok
  · cases hok
  · cases hok
  · cases hok
  · have hfresh := OrdMap.contains_eq_false_iff.mp (Bool.eq_false_iff.mpr hcontains)
    rw [findPath, OrdMap.insertNew_of_get?_none hfresh, OrdMap.get?_insert_self]

/-- A child whose path is found is refused. -/
theorem Shaped.addChild_refused (h : r.Shaped) {path : Text}
    (hparent : r.findPath path = some parent)
    (hfound : r.findPath (childPath path kind name) = some id) :
    (r.addChild parent kind name).2.1.allowed = false := by
  obtain ⟨record, hfind, rfl⟩ := h.findPath_iff.mp hparent
  rw [(addChild_admits h.treeSound.rooted parent kind name).1, admits, hfind]
  have hcontains := OrdMap.contains_iff.mpr ⟨id, hfound⟩
  simp [hcontains]

/-- The path of a child made from a segment of the first spelling ends with the segment. -/
theorem childPath_segment (path : Text) {segment : Text} (hcolon : segment.contains 58 = true)
    (hkind : ScopeKind.parse (segment.takeWhile (· != 58)) = some kind)
    (hfirst : secondSpelled segment = false) :
    childPath path kind ((segment.dropWhile (· != 58)).drop 1) = path ++ [47] ++ segment := by
  have hsegment := segment_eq hcolon
  rw [childPath, ScopeKind.toText_of_parse hkind hfirst]
  simpa using hsegment

/-- An accepted registration of segments finds the scope of the first one, or creates it. -/
theorem ensureSegments_cons {segment : Text} {segments : List Text} {current : ScopeId}
    {pathPrefix : Text}
    (hok : (r.ensureSegments current pathPrefix (segment :: segments)).2.1.allowed = true) :
    segment.contains 58 = true ∧
      ∃ kind, ScopeKind.parse (segment.takeWhile (· != 58)) = some kind ∧
        ((∃ found, r.findPath (pathPrefix ++ [47] ++ segment) = some found ∧
            r.ensureSegments current pathPrefix (segment :: segments) =
              r.ensureSegments found (pathPrefix ++ [47] ++ segment) segments) ∨
          r.findPath (pathPrefix ++ [47] ++ segment) = none ∧
            (r.addChild current kind ((segment.dropWhile (· != 58)).drop 1)).2.1.allowed = true ∧
            r.ensureSegments current pathPrefix (segment :: segments) =
              (r.addChild current kind ((segment.dropWhile (· != 58)).drop 1)).1.ensureSegments
                (r.addChild current kind ((segment.dropWhile (· != 58)).drop 1)).2.2
                (pathPrefix ++ [47] ++ segment) segments) := by
  rw [ensureSegments] at hok ⊢
  split_ifs at hok ⊢ with hempty hcolon
  · cases hok
  · cases hok
  · refine ⟨by simpa using hcolon, ?_⟩
    cases hkind : ScopeKind.parse (segment.takeWhile (· != 58)) with
    | none =>
      rw [hkind] at hok
      cases hok
    | some kind =>
      rw [hkind] at hok
      refine ⟨kind, rfl, ?_⟩
      dsimp only at hok ⊢
      rw [findPath]
      cases hfound : r.pathIndex.get? (pathPrefix ++ [47] ++ segment) with
      | some found => exact Or.inl ⟨found, rfl, rfl⟩
      | none =>
        rw [hfound] at hok
        dsimp only at hok ⊢
        split_ifs at hok ⊢ with hrefused
        · rw [Bool.not_eq_true'] at hrefused
          rw [Decision.allowed, Decision.outcome_addAll] at hok
          rw [Decision.allowed] at hrefused
          rw [hrefused] at hok
          cases hok
        · rw [Bool.not_eq_true', Bool.not_eq_false] at hrefused
          exact Or.inr ⟨rfl, hrefused, rfl⟩

/-- After an accepted segment of the first spelling, its scope is found under its path. -/
theorem Shaped.ensureSegments_cons (h : r.Shaped) {segment : Text} {segments : List Text}
    {current : ScopeId} {pathPrefix : Text} (hcurrent : r.findPath pathPrefix = some current)
    (hfirst : secondSpelled segment = false)
    (hok : (r.ensureSegments current pathPrefix (segment :: segments)).2.1.allowed = true) :
    ∃ (r' : ScopeRegistry) (next : ScopeId), r'.Shaped ∧
      r'.findPath (pathPrefix ++ [47] ++ segment) = some next ∧
      r.ensureSegments current pathPrefix (segment :: segments) =
        r'.ensureSegments next (pathPrefix ++ [47] ++ segment) segments := by
  obtain ⟨hcolon, kind, hkind, ⟨found, hfound, hrest⟩ | ⟨_, hadded, hrest⟩⟩ :=
    ScopeRegistry.ensureSegments_cons hok
  · exact ⟨r, found, h, hfound, hrest⟩
  · have hcreated := h.findPath_addChild hcurrent hadded
    rw [childPath_segment _ hcolon hkind hfirst] at hcreated
    exact ⟨_, _, h.addChild _ _ _, hcreated, hrest⟩

/-- An accepted registration of segments, all of first spellings, is found under its path. -/
theorem Shaped.findPath_ensureSegments {segments : List Text} (h : r.Shaped) {current : ScopeId}
    {pathPrefix : Text} (hcurrent : r.findPath pathPrefix = some current)
    (hspelled : ∀ segment ∈ segments, secondSpelled segment = false)
    (hok : (r.ensureSegments current pathPrefix segments).2.1.allowed = true) :
    (r.ensureSegments current pathPrefix segments).1.findPath (joined pathPrefix segments) =
      some (r.ensureSegments current pathPrefix segments).2.2 := by
  induction segments generalizing r current pathPrefix with
  | nil =>
    unfold ensureSegments at hok ⊢
    split_ifs at hok ⊢
    · cases hok
    · exact hcurrent
  | cons segment segments ih =>
    obtain ⟨hfirst, hrest⟩ := List.forall_mem_cons.mp hspelled
    obtain ⟨r', next, hshaped, hnext, hsame⟩ := h.ensureSegments_cons hcurrent hfirst hok
    rw [hsame] at hok ⊢
    exact ih hshaped hnext hrest hok

/-- Registrations keep what is found. -/
theorem Shaped.findPath_extends (h : r.Shaped) {r' : ScopeRegistry} (h' : r'.Shaped)
    (hextends : r.Extends r') {path : Text} (hfound : r.findPath path = some id) :
    r'.findPath path = some id := by
  obtain ⟨record, hfind, hpath⟩ := h.findPath_iff.mp hfound
  exact h'.findPath_iff.mpr ⟨record, hextends.find hfind, hpath⟩

theorem Shaped.ensureSegments (h : r.Shaped) (segments : List Text) (current : ScopeId)
    (pathPrefix : Text) : (r.ensureSegments current pathPrefix segments).1.Shaped :=
  ensureSegments_preserves (fun _ parent kind name h => h.addChild parent kind name) segments h
    current pathPrefix

/-- Segments that are accepted a second time, where what the first time left is still found,
use first spellings only. -/
theorem Shaped.ensureSegments_twice {segments : List Text} (h : r.Shaped) {r' : ScopeRegistry}
    (h' : r'.Shaped) {current : ScopeId} {pathPrefix : Text}
    (hkept : ∀ path id, (r.ensureSegments current pathPrefix segments).1.findPath path = some id →
      r'.findPath path = some id)
    (hcurrent : r.findPath pathPrefix = some current) (hslash : ∀ segment ∈ segments, 47 ∉ segment)
    (hok : (r.ensureSegments current pathPrefix segments).2.1.allowed = true)
    (hagain : (r'.ensureSegments current pathPrefix segments).2.1.allowed = true) :
    ∀ segment ∈ segments, secondSpelled segment = false := by
  induction segments generalizing r current pathPrefix with
  | nil => exact fun _ hnone => absurd hnone List.not_mem_nil
  | cons segment segments ih =>
    obtain ⟨hhead, hrest⟩ := List.forall_mem_cons.mp hslash
    have hlater : ∀ {r₀ : ScopeRegistry} {path id}, r₀.Shaped →
        r₀.Extends (r.ensureSegments current pathPrefix (segment :: segments)).1 →
        r₀.findPath path = some id → r'.findPath path = some id :=
      fun hshaped hextends hfound =>
        hkept _ _ (hshaped.findPath_extends (h.ensureSegments _ _ _) hextends hfound)
    have hcurrent' : r'.findPath pathPrefix = some current :=
      hlater h (extends_ensureSegments _ _ _ _) hcurrent
    have hfirst : secondSpelled segment = false := by
      by_contra hsecond
      have hspelling :=
        secondSpelling_append pathPrefix hhead (Bool.eq_true_of_not_eq_false hsecond)
      obtain ⟨_, kind, hkind, ⟨found, hfound, _⟩ | ⟨_, hadded, hsame⟩⟩ :=
        ScopeRegistry.ensureSegments_cons hok
      · rw [Formed.findPath_secondSpelling (Or.inr h) hspelling] at hfound
        cases hfound
      obtain ⟨_, kind', hkind', ⟨found, hfound, _⟩ | ⟨_, hadded', _⟩⟩ :=
        ScopeRegistry.ensureSegments_cons hagain
      · rw [Formed.findPath_secondSpelling (Or.inr h') hspelling] at hfound
        cases hfound
      -- The first time created the child under its own path, which refuses it now.
      obtain rfl : kind = kind' := Option.some.inj (hkind.symm.trans hkind')
      have hcreated := h.findPath_addChild hcurrent hadded
      have hkeeps := extends_ensureSegments segments
        (r.addChild current kind ((segment.dropWhile (· != 58)).drop 1)).1
        (r.addChild current kind ((segment.dropWhile (· != 58)).drop 1)).2.2
        (pathPrefix ++ [47] ++ segment)
      rw [← hsame] at hkeeps
      have hrefused := h'.addChild_refused hcurrent' (hlater (h.addChild _ _ _) hkeeps hcreated)
      rw [hrefused] at hadded'
      cases hadded'
    obtain ⟨r₁, next, hshaped, hnext, hsame⟩ := h.ensureSegments_cons hcurrent hfirst hok
    have hkeeps := extends_ensureSegments segments r₁ next (pathPrefix ++ [47] ++ segment)
    rw [← hsame] at hkeeps
    have hnext' := hlater hshaped hkeeps hnext
    obtain ⟨_, _, _, ⟨found, hfound, hsame'⟩ | ⟨hnone, _, _⟩⟩ :=
      ScopeRegistry.ensureSegments_cons hagain
    · obtain rfl : next = found := Option.some.inj (hnext'.symm.trans hfound)
      rw [hsame] at hok hkept
      rw [hsame'] at hagain
      exact List.forall_mem_cons.mpr ⟨hfirst, ih hshaped hkept hnext hrest hok hagain⟩
    · rw [hnone] at hnext'
      cases hnext'

end ScopeRegistry

end LifecycleFabric
