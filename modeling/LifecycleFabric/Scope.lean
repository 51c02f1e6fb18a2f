import LifecycleFabric.Lib.Runs
import LifecycleFabric.Status

/-!
# The scope tree

Scopes form a strict tree rooted at the global scope. An identity is the 1-based
position of its record in creation order, so lookup is by index and a parent's
identity is always smaller than its child's.
-/

namespace LifecycleFabric

/-- Scope level. -/
inductive ScopeKind
  | global | site | region | cluster | environment | service | tenant | replicaGroup
  | workloadClass
  deriving DecidableEq

namespace ScopeKind

/-- Every kind, in order of its number. -/
def all : List ScopeKind :=
  [.global, .site, .region, .cluster, .environment, .service, .tenant, .replicaGroup,
    .workloadClass]

/-- The number of a kind. -/
def code (kind : ScopeKind) : ℕ := kind.ctorIdx

/-- The number of kinds. -/
def count : ℕ := 9

/-- The token of a kind. -/
def toText : ScopeKind → Text
  | global => text "global"
  | site => text "site"
  | region => text "region"
  | cluster => text "cluster"
  | environment => text "environment"
  | service => text "service"
  | tenant => text "tenant"
  | replicaGroup => text "replica-group"
  | workloadClass => text "workload-class"

/-- Parse a kind token; two kinds have a second spelling. -/
def parse (token : Text) : Option ScopeKind :=
  match all.find? fun kind => decide (kind.toText = token) with
  | some kind => some kind
  | none =>
    if token = text "replicagroup" then some replicaGroup
    else if token = text "workloadclass" then some workloadClass
    else none

end ScopeKind

/-- Longest scope name. -/
def maxScopeNameLength : ℕ := 64

/-- Longest scope path. -/
def maxScopePathLength : ℕ := 1024

/-- Greatest depth of a scope. -/
def maxScopeDepth : UInt32 := 32

/-- One node of the scope tree. -/
structure ScopeRecord where
  id : ScopeId := {}
  parent : ScopeId := {}
  kind : ScopeKind := .global
  name : Text := []
  /-- Canonical path such as `global/region:us-east/cluster:c1`. -/
  path : Text := []
  /-- Advances whenever the lifecycle binding of the scope changes. -/
  generation : ScopeGeneration := {}
  depth : UInt32 := 0
  deriving DecidableEq

/-- The record with its generation advanced. -/
def ScopeRecord.touched (record : ScopeRecord) : ScopeRecord :=
  { record with generation := record.generation.nextGeneration }

/-- The bounded scope tree. -/
structure ScopeRegistry where
  records : List ScopeRecord := []
  children : List (List ScopeId) := []
  pathIndex : OrdMap Text ScopeId := OrdMap.empty
  maxScopes : ℕ := 4096
  root : ScopeId := {}
  deriving DecidableEq

namespace ScopeRegistry

/-- A scope name is a bounded token of letters, digits, dot, underscore and dash. -/
def validName (name : Text) : Bool :=
  !name.isEmpty && decide (name.length ≤ maxScopeNameLength) &&
    name.all fun c => isAlphanumeric c || c == 46 || c == 95 || c == 45

/-- The number of scopes. -/
def size (r : ScopeRegistry) : ℕ := r.records.length

/-- The record of the root scope. -/
def rootRecord : ScopeRecord where
  id := ⟨1⟩
  name := text "global"
  path := text "global"
  generation := ⟨firstGeneration⟩

/-- Create the root scope unless it exists. -/
def ensureRoot (r : ScopeRegistry) : ScopeRegistry :=
  if r.root.valid ∧ ¬r.records.isEmpty then r
  else
    { r with
      records := r.records ++ [rootRecord]
      children := r.children ++ [[]]
      pathIndex := r.pathIndex.insertNew (text "global") ⟨1⟩
      root := ⟨1⟩ }

/-- The record of an identity. -/
def find (r : ScopeRegistry) (id : ScopeId) : Option ScopeRecord :=
  if id.valid then r.records[id.raw.toNat - 1]? else none

/-- The canonical path of a child scope. -/
def childPath (parentPath : Text) (kind : ScopeKind) (name : Text) : Text :=
  parentPath ++ [47] ++ kind.toText ++ [58] ++ name

/-- Create a child scope under an existing parent. -/
def addChild (r : ScopeRegistry) (parent : ScopeId) (kind : ScopeKind) (name : Text) :
    ScopeRegistry × Decision × ScopeId :=
  let r := r.ensureRoot
  match r.find parent with
  | none => (r, .because .rejected .unknownScope (text "parent scope is not registered"), {})
  | some parentRecord =>
    if kind = .global then
      (r, .because .rejected .invalidName (text "only one global scope exists"), {})
    else if !validName name then
      (r, .because .rejected .invalidName
        (text "scope name must be [A-Za-z0-9._-]\x7b1,64\x7d"), {})
    else if r.maxScopes ≤ r.records.length then
      (r, .because .boundsExceeded .boundsScopeCount (text "scope bound reached"), {})
    else if maxScopeDepth < parentRecord.depth + 1 then
      (r, .because .rejected .invalidName (text "scope depth bound reached"), {})
    else
      let path := childPath parentRecord.path kind name
      if maxScopePathLength < path.length then
        (r, .because .boundsExceeded .boundsStringLength (text "scope path too long"), {})
      else if r.pathIndex.contains path then
        (r, .because .conflict .invalidName (text "scope path already exists"), {})
      else
        let created : ScopeId := ⟨UInt64.ofNat r.records.length + 1⟩
        let record : ScopeRecord :=
          { id := created, parent, kind, name, path
            generation := ⟨firstGeneration⟩
            depth := parentRecord.depth + 1 }
        ({ r with
            pathIndex := r.pathIndex.insertNew path created
            records := r.records ++ [record]
            children := (r.children ++ [[]]).modify (parent.raw.toNat - 1) (· ++ [created]) },
          .accepted, created)

/-- Create the missing nodes for the segments after the root, below `current`. -/
def ensureSegments (r : ScopeRegistry) (current : ScopeId) (pathPrefix : Text) :
    List Text → ScopeRegistry × Decision × ScopeId
  | [] =>
    if !current.valid then
      (r, .because .rejected .unknownScope (text "path resolution failed"), {})
    else (r, .accepted, current)
  | segment :: segments =>
    if segment.isEmpty then
      (r, .because .rejected .invalidName (text "empty scope path segment"), {})
    else if !segment.contains 58 then
      (r, .because .rejected .invalidName (text "scope segment must be kind:name"), {})
    else
      match ScopeKind.parse (segment.takeWhile (· != 58)) with
      | none => (r, .because .rejected .invalidName (text "unknown scope kind"), {})
      | some kind =>
        let candidate := pathPrefix ++ [47] ++ segment
        match r.pathIndex.get? candidate with
        | some found => ensureSegments r found candidate segments
        | none =>
          let name := (segment.dropWhile (· != 58)).drop 1
          let (r, added, created) := r.addChild current kind name
          if !added.allowed then
            (r, ({ outcome := added.outcome } : Decision).addAll added.reasons, {})
          else ensureSegments r created candidate segments

/-- Create every missing node along a canonical path. Nodes created before a
segment fails stay. -/
def ensurePath (r : ScopeRegistry) (path : Text) : ScopeRegistry × Decision × ScopeId :=
  if path.isEmpty ∨ maxScopePathLength < path.length then
    (r, .because .rejected .boundsStringLength (text "scope path empty or oversized"), {})
  else
    let r := r.ensureRoot
    match r.pathIndex.get? path with
    | some found => (r, .accepted, found)
    | none =>
      match path.splitOn 47 with
      | [] => (r, .accepted, r.root)
      | segment :: segments =>
        if segment.isEmpty then
          (r, .because .rejected .invalidName (text "empty scope path segment"), {})
        else if segment ≠ text "global" then
          (r, .because .rejected .invalidName (text "scope path must start at global"), {})
        else r.ensureSegments r.root (text "global") segments

/-- Resolve a path without creating anything. -/
def findPath (r : ScopeRegistry) (path : Text) : Option ScopeId := r.pathIndex.get? path

/-- Walk the parents looking for an ancestor; the walk is cut after `steps` scopes. -/
def hasAncestor (r : ScopeRegistry) (ancestor : ScopeId) : ℕ → Option ScopeRecord → Bool
  | 0, _ => false
  | _ + 1, none => false
  | steps + 1, some record =>
    if !record.parent.valid then false
    else if record.parent = ancestor then true
    else hasAncestor r ancestor steps (r.find record.parent)

/-- Whether a scope is another one or an ancestor of it. -/
def isAncestorOrSelf (r : ScopeRegistry) (ancestor descendant : ScopeId) : Bool :=
  if !ancestor.valid || !descendant.valid then false
  else if ancestor = descendant then true
  else hasAncestor r ancestor (maxScopeDepth.toNat + 2) (r.find descendant)

/-- The scopes from a record up to the root. Identities decrease on the way, so the
number of records bounds the walk. -/
def chainUp (r : ScopeRegistry) : ℕ → Option ScopeRecord → List ScopeId
  | 0, _ => []
  | _ + 1, none => []
  | steps + 1, some record =>
    if !record.parent.valid then [record.id]
    else record.id :: chainUp r steps (r.find record.parent)

/-- Root-first chain including the scope itself. -/
def chain (r : ScopeRegistry) (id : ScopeId) : List ScopeId :=
  (r.chainUp r.records.length (r.find id)).reverse

/-- Advance a scope generation because its lifecycle binding changed. -/
def touch (r : ScopeRegistry) (id : ScopeId) : ScopeRegistry :=
  if id.valid then
    { r with records := r.records.modify (id.raw.toNat - 1) ScopeRecord.touched }
  else r

/-- The checks recovery makes on the record at one position. -/
def restorable (records : List ScopeRecord) (position : ℕ) (record : ScopeRecord) : Bool :=
  decide (record.id.raw = UInt64.ofNat position + 1) &&
  record.generation.valid &&
  !record.path.isEmpty && decide (record.path.length ≤ maxScopePathLength) &&
  validName record.name &&
  if position = 0 then
    decide (record.kind = .global) && !record.parent.valid &&
      decide (record.path = text "global") && decide (record.depth = 0)
  else
    record.parent.valid && decide (record.parent.raw.toNat ≤ records.length) &&
    decide (record.parent.raw < record.id.raw) &&
    match records[record.parent.raw.toNat - 1]? with
    | none => false
    | some parent =>
      decide (record.depth = parent.depth + 1) && decide (record.depth ≤ maxScopeDepth) &&
        decide (childPath parent.path record.kind record.name = record.path)

/-- Check the records in order while rebuilding the child lists and the path index. -/
def restoreRecords (records : List ScopeRecord) :
    ℕ → List ScopeRecord → List (List ScopeId) → OrdMap Text ScopeId →
      Option (List (List ScopeId) × OrdMap Text ScopeId)
  | _, [], children, index => some (children, index)
  | position, record :: rest, children, index =>
    if !restorable records position record then none
    else if index.contains record.path then none
    else
      let children :=
        if position = 0 then children
        else children.modify (record.parent.raw.toNat - 1) (· ++ [record.id])
      restoreRecords records (position + 1) rest children (index.insert record.path record.id)

/-- Replace the whole tree during recovery, and say whether it was. The members are replaced
only after the last check. -/
def restore (r : ScopeRegistry) (records : List ScopeRecord) (root : ScopeId) :
    ScopeRegistry × Bool :=
  if records.isEmpty then (r, false)
  else if root.raw ≠ 1 then (r, false)
  else if r.maxScopes < records.length then (r, false)
  else
    match restoreRecords records 0 records (records.map fun _ => []) OrdMap.empty with
    | none => (r, false)
    | some (children, pathIndex) => ({ r with records, children, pathIndex, root }, true)

/-! ## Registration only adds scopes -/

/-- The records of one registry continue those of another. -/
def Extends (before after : ScopeRegistry) : Prop := before.records <+: after.records

theorem Extends.refl (r : ScopeRegistry) : r.Extends r := List.prefix_rfl

theorem Extends.trans {r r' r'' : ScopeRegistry} (h : r.Extends r') (h' : r'.Extends r'') :
    r.Extends r'' := List.IsPrefix.trans h h'

/-- A scope keeps its record when the registry is continued. -/
theorem Extends.find {r r' : ScopeRegistry} (h : r.Extends r') {id : ScopeId}
    {record : ScopeRecord} (hfind : r.find id = some record) : r'.find id = some record := by
  obtain ⟨added, hadded⟩ := h
  unfold ScopeRegistry.find at hfind ⊢
  split_ifs at hfind ⊢ with hid
  have hindex : id.raw.toNat - 1 < r.records.length := (List.getElem?_eq_some_iff.mp hfind).1
  rw [← hadded, List.getElem?_append_left hindex]
  exact hfind

theorem extends_ensureRoot (r : ScopeRegistry) : r.Extends r.ensureRoot := by
  unfold ensureRoot
  split_ifs
  · exact Extends.refl r
  · exact List.prefix_append _ _

theorem extends_addChild (r : ScopeRegistry) (parent : ScopeId) (kind : ScopeKind) (name : Text) :
    r.Extends (r.addChild parent kind name).1 := by
  have hroot := extends_ensureRoot r
  unfold addChild
  dsimp only
  split
  · exact hroot
  · split_ifs
    · exact hroot
    · exact hroot
    · exact hroot
    · exact hroot
    · exact hroot
    · exact hroot
    · exact hroot.trans (List.prefix_append _ _)

/-- What creating a child preserves, creating the nodes of some segments preserves. -/
theorem ensureSegments_preserves {P : ScopeRegistry → Prop}
    (hadd : ∀ r parent kind name, P r → P (addChild r parent kind name).1) (segments : List Text)
    {r : ScopeRegistry} (hr : P r) (current : ScopeId) (pathPrefix : Text) :
    P (r.ensureSegments current pathPrefix segments).1 := by
  induction segments generalizing r current pathPrefix with
  | nil =>
    unfold ensureSegments
    split_ifs
    · exact hr
    · exact hr
  | cons segment segments ih =>
    unfold ensureSegments
    split_ifs
    · exact hr
    · exact hr
    · split
      · exact hr
      · rename_i kind _
        dsimp only
        split
        · exact ih hr _ _
        · have hadded := hadd r current kind ((segment.dropWhile (· != 58)).drop 1) hr
          split_ifs
          · exact hadded
          · exact ih hadded _ _

/-- What creating the root and creating a child preserve, registering a path preserves. -/
theorem ensurePath_preserves {P : ScopeRegistry → Prop} (hroot : ∀ r, P r → P (ensureRoot r))
    (hadd : ∀ r parent kind name, P r → P (addChild r parent kind name).1)
    {r : ScopeRegistry} (hr : P r) (path : Text) : P (r.ensurePath path).1 := by
  have hrooted := hroot r hr
  unfold ensurePath
  split_ifs
  · exact hr
  · dsimp only
    split
    · exact hrooted
    · split
      · exact hrooted
      · split_ifs
        · exact hrooted
        · exact hrooted
        · exact ensureSegments_preserves hadd _ hrooted _ _

theorem extends_ensureSegments (segments : List Text) (r : ScopeRegistry) (current : ScopeId)
    (pathPrefix : Text) : r.Extends (r.ensureSegments current pathPrefix segments).1 := by
  refine ensureSegments_preserves (P := r.Extends) ?_ segments (Extends.refl r) current pathPrefix
  intro r' parent kind name h
  exact h.trans (extends_addChild r' parent kind name)

theorem extends_ensurePath (r : ScopeRegistry) (path : Text) :
    r.Extends (r.ensurePath path).1 := by
  refine ensurePath_preserves (P := r.Extends) ?_ ?_ (Extends.refl r) path
  · intro r' h
    exact h.trans (extends_ensureRoot r')
  · intro r' parent kind name h
    exact h.trans (extends_addChild r' parent kind name)

/-- Registrations turn one registry into another. -/
def Grows : ScopeRegistry → ScopeRegistry → Prop :=
  Relation.ReflTransGen fun before after => ∃ path, after = (before.ensurePath path).1

theorem Grows.refl (r : ScopeRegistry) : r.Grows r := Relation.ReflTransGen.refl

theorem Grows.trans {r r' r'' : ScopeRegistry} (h : r.Grows r') (h' : r'.Grows r'') :
    r.Grows r'' := Relation.ReflTransGen.trans h h'

theorem grows_ensurePath (r : ScopeRegistry) (path : Text) : r.Grows (r.ensurePath path).1 :=
  Relation.ReflTransGen.single ⟨path, rfl⟩

theorem Grows.extends {r r' : ScopeRegistry} (h : r.Grows r') : r.Extends r' := by
  induction h with
  | refl => exact Extends.refl r
  | tail _ hstep ih =>
    obtain ⟨path, rfl⟩ := hstep
    exact ih.trans (extends_ensurePath _ path)

/-! ## When a registration creates a scope -/

/-- The root scope exists. -/
def Rooted (r : ScopeRegistry) : Prop := r.root.valid = true ∧ r.records ≠ []

theorem Rooted.ensureRoot {r : ScopeRegistry} (h : r.Rooted) : r.ensureRoot = r := by
  unfold ScopeRegistry.ensureRoot
  rw [if_pos]
  exact ⟨h.1, by simpa using h.2⟩

/-- Whether a child scope may be created under a parent. -/
def admits (r : ScopeRegistry) (parent : ScopeId) (kind : ScopeKind) (name : Text) : Bool :=
  match r.find parent with
  | none => false
  | some record =>
    decide (kind ≠ .global) && validName name && decide (r.records.length < r.maxScopes) &&
      decide (record.depth + 1 ≤ maxScopeDepth) &&
      decide ((childPath record.path kind name).length ≤ maxScopePathLength) &&
      !r.pathIndex.contains (childPath record.path kind name)

/-- Whether the first of some segments that is not registered may be created. -/
def opens (r : ScopeRegistry) (current : ScopeId) (pathPrefix : Text) : List Text → Bool
  | [] => false
  | segment :: segments =>
    if segment.isEmpty ∨ !segment.contains 58 then false
    else
      match ScopeKind.parse (segment.takeWhile (· != 58)) with
      | none => false
      | some kind =>
        match r.pathIndex.get? (pathPrefix ++ [47] ++ segment) with
        | some found => opens r found (pathPrefix ++ [47] ++ segment) segments
        | none => r.admits current kind ((segment.dropWhile (· != 58)).drop 1)

/-- Whether a path is not registered, and its first missing segment may be created. -/
def opensPath (r : ScopeRegistry) (path : Text) : Bool :=
  !path.isEmpty && decide (path.length ≤ maxScopePathLength) && !r.pathIndex.contains path &&
    match path.splitOn 47 with
    | [] => false
    | segment :: segments =>
      decide (segment = text "global") && r.opens r.root (text "global") segments

/-- A child is created exactly when it is admitted; otherwise nothing changes. -/
theorem addChild_admits {r : ScopeRegistry} (hroot : r.Rooted) (parent : ScopeId)
    (kind : ScopeKind) (name : Text) :
    (r.addChild parent kind name).2.1.allowed = r.admits parent kind name ∧
      (r.admits parent kind name = false → (r.addChild parent kind name).1 = r) ∧
      (r.admits parent kind name = true →
        r.records.length < (r.addChild parent kind name).1.records.length) := by
  unfold addChild admits
  rw [hroot.ensureRoot]
  dsimp only
  cases r.find parent with
  | none => exact ⟨rfl, fun _ => rfl, fun h => absurd h Bool.false_ne_true⟩
  | some record =>
    dsimp only
    have hrefused : ∀ {b : Bool} (d : Decision), b = false → d.allowed = false →
        (r, d, ({} : ScopeId)).2.1.allowed = b ∧ (b = false → (r, d, ({} : ScopeId)).1 = r) ∧
        (b = true → r.records.length < (r, d, ({} : ScopeId)).1.records.length) := by
      intro b d hb hd
      subst hb
      exact ⟨hd, fun _ => rfl, fun h => absurd h Bool.false_ne_true⟩
    split_ifs with h1 h2 h3 h4 h5 h6
    · exact hrefused _ (by simp [h1]) rfl
    · exact hrefused _ (by simp only [Bool.not_eq_true'] at h2; simp [h2]) rfl
    · exact hrefused _ (by simp [Nat.not_lt.mpr h3]) rfl
    · exact hrefused _ (by simp [UInt32.not_le.mpr h4]) rfl
    · exact hrefused _ (by simp [Nat.not_le.mpr h5]) rfl
    · exact hrefused _ (by simp [h6]) rfl
    · have hadmitted : (decide (kind ≠ .global) && validName name &&
          decide (r.records.length < r.maxScopes) &&
          decide (record.depth + 1 ≤ maxScopeDepth) &&
          decide ((childPath record.path kind name).length ≤ maxScopePathLength) &&
          !r.pathIndex.contains (childPath record.path kind name)) = true := by
        simp only [Bool.not_eq_true', Bool.not_eq_false, Bool.not_eq_true] at h2 h6
        simp [h1, h2, h6, Nat.not_le.mp h3, UInt32.not_lt.mp h4, Nat.not_lt.mp h5]
      rw [hadmitted]
      refine ⟨rfl, fun h => absurd h.symm Bool.false_ne_true, fun _ => ?_⟩
      simp

theorem ensureSegments_opens (segments : List Text) {r : ScopeRegistry} (hroot : r.Rooted)
    (current : ScopeId) (pathPrefix : Text) :
    (r.opens current pathPrefix segments = false →
        (r.ensureSegments current pathPrefix segments).1 = r) ∧
      (r.opens current pathPrefix segments = true →
        r.records.length < (r.ensureSegments current pathPrefix segments).1.records.length) := by
  induction segments generalizing current pathPrefix with
  | nil =>
    refine ⟨fun _ => ?_, fun h => absurd h Bool.false_ne_true⟩
    unfold ensureSegments
    split_ifs
    · rfl
    · rfl
  | cons segment segments ih =>
    unfold opens ensureSegments
    by_cases hempty : segment.isEmpty = true
    · rw [if_pos (Or.inl hempty), if_pos hempty]
      exact ⟨fun _ => rfl, fun h => absurd h Bool.false_ne_true⟩
    by_cases hcolon : (!segment.contains 58) = true
    · rw [if_pos (Or.inr hcolon), if_neg hempty, if_pos hcolon]
      exact ⟨fun _ => rfl, fun h => absurd h Bool.false_ne_true⟩
    rw [if_neg (not_or.mpr ⟨hempty, hcolon⟩), if_neg hempty, if_neg hcolon]
    cases ScopeKind.parse (segment.takeWhile (· != 58)) with
    | none => exact ⟨fun _ => rfl, fun h => absurd h Bool.false_ne_true⟩
    | some kind =>
      dsimp only
      cases r.pathIndex.get? (pathPrefix ++ [47] ++ segment) with
      | some found => exact ih found _
      | none =>
        obtain ⟨hallowed, hsame, hgrows⟩ :=
          addChild_admits hroot current kind ((segment.dropWhile (· != 58)).drop 1)
        dsimp only
        rw [hallowed]
        constructor
        · intro hrefused
          rw [hrefused, if_pos Bool.not_false]
          exact hsame hrefused
        · intro hadmitted
          rw [hadmitted, if_neg (by simp)]
          exact (hgrows hadmitted).trans_le (extends_ensureSegments segments _ _ _).length_le

/-- Registering a path creates scopes exactly when its first missing segment may be
created; otherwise nothing changes. -/
theorem ensurePath_opens {r : ScopeRegistry} (hroot : r.Rooted) (path : Text) :
    (r.opensPath path = false → (r.ensurePath path).1 = r) ∧
      (r.opensPath path = true → r.records.length < (r.ensurePath path).1.records.length) := by
  unfold opensPath ensurePath
  rw [hroot.ensureRoot]
  by_cases hempty : path.isEmpty = true
  · simp [hempty]
  by_cases hlength : maxScopePathLength < path.length
  · simp [hlength, Nat.not_le.mpr hlength]
  rw [if_neg (by simp [hempty, hlength])]
  dsimp only
  cases hfound : r.pathIndex.get? path with
  | some found =>
    have hcontains : r.pathIndex.contains path = true := OrdMap.contains_iff.mpr ⟨found, hfound⟩
    simp [hcontains]
  | none =>
    have hcontains : r.pathIndex.contains path = false := OrdMap.contains_eq_false_iff.mpr hfound
    simp only [hempty, hcontains, Nat.not_lt.mp hlength, decide_true, Bool.not_false,
      Bool.true_and, Bool.not_eq_true] at *
    cases path.splitOn 47 with
    | nil => exact ⟨fun _ => rfl, fun h => absurd h Bool.false_ne_true⟩
    | cons segment segments =>
      dsimp only
      by_cases hglobal : segment = text "global"
      · have hfilled : segment.isEmpty = false := by rw [hglobal]; decide
        rw [hfilled, if_neg Bool.false_ne_true, if_neg (not_not.mpr hglobal)]
        simp only [hglobal, decide_true, Bool.true_and]
        exact ensureSegments_opens segments hroot _ _
      · simp only [hglobal, decide_false, Bool.false_and]
        refine ⟨fun _ => ?_, fun h => absurd h Bool.false_ne_true⟩
        split_ifs
        · rfl
        · rfl

/-- Registration keeps the root. -/
theorem rooted_ensureRoot (r : ScopeRegistry) : r.ensureRoot.Rooted := by
  unfold ensureRoot
  split_ifs with h
  · exact ⟨h.1, by simpa using h.2⟩
  · exact ⟨rfl, by simp⟩

theorem Rooted.addChild {r : ScopeRegistry} (h : r.Rooted) (parent : ScopeId) (kind : ScopeKind)
    (name : Text) : (r.addChild parent kind name).1.Rooted := by
  unfold ScopeRegistry.addChild
  rw [h.ensureRoot]
  dsimp only
  split
  · exact h
  · split_ifs
    · exact h
    · exact h
    · exact h
    · exact h
    · exact h
    · exact h
    · exact ⟨h.1, by simp⟩

theorem Rooted.ensurePath {r : ScopeRegistry} (h : r.Rooted) (path : Text) :
    (r.ensurePath path).1.Rooted :=
  ensurePath_preserves (fun _ _ => rooted_ensureRoot _)
    (fun _ parent kind name h => h.addChild parent kind name) h path

theorem Rooted.touch {r : ScopeRegistry} (h : r.Rooted) (id : ScopeId) : (r.touch id).Rooted := by
  unfold ScopeRegistry.touch
  split_ifs
  · refine ⟨h.1, ?_⟩
    intro hempty
    exact h.2 (List.length_eq_zero_iff.mp (by simpa using congrArg List.length hempty))
  · exact h

/-- A recovery that is not refused replaces the tree by the one of the records. -/
theorem restore_eq_true_iff {r restored : ScopeRegistry} {records : List ScopeRecord}
    {root : ScopeId} :
    r.restore records root = (restored, true) ↔
      records ≠ [] ∧ root.raw = 1 ∧ records.length ≤ r.maxScopes ∧
        ∃ children pathIndex,
          restoreRecords records 0 records (records.map fun _ => []) OrdMap.empty =
            some (children, pathIndex) ∧
          restored = { r with records, children, pathIndex, root } := by
  unfold restore
  split_ifs with hempty hroot hroom
  · simp [List.isEmpty_iff.mp hempty]
  · simp [hroot]
  · simp [hroom]
  · have hfilled : records ≠ [] := by simpa using hempty
    cases restoreRecords records 0 records (records.map fun _ => []) OrdMap.empty with
    | none => simp
    | some built =>
      simp only [hfilled, Decidable.not_not.mp hroot, not_lt.mp hroom, ne_eq, not_false_eq_true,
        true_and, Prod.mk.injEq, and_true, Option.some.injEq]
      constructor
      · rintro rfl
        exact ⟨built.1, built.2, rfl, rfl⟩
      · rintro ⟨children, pathIndex, rfl, rfl⟩
        rfl

/-- A refused recovery leaves the registry as it was. -/
theorem restore_refused {r : ScopeRegistry} {records : List ScopeRecord} {root : ScopeId}
    (h : (r.restore records root).2 = false) : (r.restore records root).1 = r := by
  unfold restore at h ⊢
  split_ifs at h ⊢
  · rfl
  · rfl
  · rfl
  · split at h
    · rfl
    · cases h

/-- A restored tree has a root. -/
theorem rooted_restore {r restored : ScopeRegistry} {records : List ScopeRecord} {root : ScopeId}
    (h : r.restore records root = (restored, true)) : restored.Rooted := by
  obtain ⟨hfilled, hroot, _, children, pathIndex, _, rfl⟩ := restore_eq_true_iff.mp h
  refine ⟨?_, hfilled⟩
  rw [Ident.valid, hroot]
  rfl

/-! ## Lookup after a touch -/

theorem find_touch (r : ScopeRegistry) (id id' : ScopeId) :
    (r.touch id).find id' =
      (r.find id').map fun record => if id' = id then record.touched else record := by
  unfold touch find
  by_cases hid : id.valid = true
  · by_cases hid' : id'.valid = true
    · have hpos := Ident.valid_iff_pos.mp hid
      have hpos' := Ident.valid_iff_pos.mp hid'
      simp only [hid, hid', if_true, List.getElem?_modify]
      have hindex : id.raw.toNat - 1 = id'.raw.toNat - 1 ↔ id' = id := by
        rw [Ident.eq_iff_toNat]
        omega
      by_cases hsame : id' = id
      · simp [hsame]
      · simp [hsame, hindex.not.mpr hsame]
    · simp [hid']
  · by_cases hid' : id'.valid = true
    · have hne : id' ≠ id := by
        rintro rfl
        exact hid hid'
      simp [hid, hid', hne]
    · simp [hid']

end ScopeRegistry

end LifecycleFabric
