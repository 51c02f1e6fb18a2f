import LifecycleFabric.ScopePaths

/-!
# Registered paths, recovered trees and walks

What a scope registry promises of every tree that calls can build: registering a path twice,
refusing a path, recovering the records, and walking the parents.
-/

namespace LifecycleFabric

namespace ScopeRegistry

open Runs

variable {r : ScopeRegistry} {path : Text} {id : ScopeId}

/-! ## Registering a path again -/

/-- The root is found under its path. -/
theorem Shaped.findPath_root (h : r.Shaped) : r.findPath (text "global") = some r.root := by
  obtain ⟨record, rest, hrecords⟩ := List.exists_cons_of_ne_nil h.filled
  have hfind : r.find r.root = some record := by
    rw [h.root, find, hrecords]
    rfl
  have hok := h.restorable (show r.records[0]? = some record by rw [hrecords]; rfl)
  simp only [ScopeRegistry.restorable, if_true, Bool.and_eq_true, decide_eq_true_eq] at hok
  exact h.findPath_iff.mpr ⟨record, hfind, hok.2.1.2⟩

/-- An accepted path that is not found is registered segment by segment, from the root. -/
theorem Shaped.ensurePath_segments (h : r.Shaped) (hnone : r.findPath path = none)
    (hok : (r.ensurePath path).2.1.allowed = true) :
    ∃ segments, path.splitOn 47 = text "global" :: segments ∧
      r.ensurePath path = r.ensureSegments r.root (text "global") segments := by
  rw [findPath] at hnone
  unfold ScopeRegistry.ensurePath at hok ⊢
  rw [h.treeSound.rooted.ensureRoot] at hok ⊢
  split_ifs at hok ⊢
  · cases hok
  · dsimp only at hok ⊢
    rw [hnone] at hok ⊢
    dsimp only at hok ⊢
    cases hsplit : path.splitOn 47 with
    | nil => exact absurd hsplit (List.splitOn_ne_nil _ _)
    | cons segment segments =>
      rw [hsplit] at hok
      dsimp only at hok ⊢
      split_ifs at hok ⊢ with hempty hglobal
      · cases hok
      · cases hok
      · exact ⟨segments, by rw [Decidable.not_not.mp hglobal], rfl⟩

/-- Registering a path that is found changes nothing, and leads to the scope found. -/
theorem Rooted.ensurePath_found (h : r.Rooted)
    (hfits : ¬(path.isEmpty ∨ maxScopePathLength < path.length))
    (hfound : r.findPath path = some id) : r.ensurePath path = (r, .accepted, id) := by
  rw [findPath] at hfound
  rw [ScopeRegistry.ensurePath, if_neg hfits, h.ensureRoot]
  dsimp only
  rw [hfound]

/-- Registration of a path that is neither empty nor too long ensures the root first. -/
theorem ensurePath_ensureRoot (r : ScopeRegistry)
    (hfits : ¬(path.isEmpty ∨ maxScopePathLength < path.length)) :
    r.ensureRoot.ensurePath path = r.ensurePath path := by
  rw [ensurePath, ensurePath, if_neg hfits, if_neg hfits, (rooted_ensureRoot r).ensureRoot]

/-- An accepted path is neither empty nor too long. -/
theorem fits_of_allowed (hok : (r.ensurePath path).2.1.allowed = true) :
    ¬(path.isEmpty ∨ maxScopePathLength < path.length) := by
  intro hmisfit
  rw [ensurePath, if_pos hmisfit] at hok
  cases hok

/-- An accepted path of first spellings is found. -/
theorem Shaped.findPath_ensurePath (h : r.Shaped) (hspelled : secondSpelling path = false)
    (hok : (r.ensurePath path).2.1.allowed = true) :
    (r.ensurePath path).1.findPath path = some (r.ensurePath path).2.2 := by
  cases hfound : r.findPath path with
  | some found =>
    rw [h.treeSound.rooted.ensurePath_found (fits_of_allowed hok) hfound]
    exact hfound
  | none =>
    obtain ⟨segments, hsplit, hsame⟩ := h.ensurePath_segments hfound hok
    rw [secondSpelling, hsplit, List.tail_cons, List.any_eq_false] at hspelled
    rw [hsame] at hok ⊢
    have hregistered := h.findPath_ensureSegments h.findPath_root
      (fun segment hsegment => by simpa using hspelled segment hsegment) hok
    rwa [joined_splitOn hsplit] at hregistered

/-- A path accepted a second time, after any registrations, uses first spellings only. -/
theorem Shaped.ensurePath_twice (h : r.Shaped) (hok : (r.ensurePath path).2.1.allowed = true)
    {later : List ScopeCall} (hlater : ∀ op ∈ later, op.registers = true)
    (hagain : ((run ScopeRegistry.call (r.ensurePath path).1 later).ensurePath path).2.1.allowed =
      true) : secondSpelling path = false := by
  by_contra hsecond
  have hspelling := Bool.eq_true_of_not_eq_false hsecond
  have hfirst := h.ensurePath path
  have hkept : ∀ other id, (r.ensurePath path).1.findPath other = some id →
      (run ScopeRegistry.call (r.ensurePath path).1 later).Shaped ∧
        (run ScopeRegistry.call (r.ensurePath path).1 later).findPath other = some id :=
    fun _ _ hfound => hfirst.findPath_run hlater hfound
  obtain ⟨hafter, _⟩ := hkept _ _ hfirst.findPath_root
  generalize run ScopeRegistry.call (r.ensurePath path).1 later = r' at hagain hkept hafter
  obtain ⟨segments, hsplit, hsame⟩ :=
    h.ensurePath_segments (Formed.findPath_secondSpelling (Or.inr h) hspelling) hok
  obtain ⟨segments', hsplit', hsame'⟩ :=
    hafter.ensurePath_segments (Formed.findPath_secondSpelling (Or.inr hafter) hspelling) hagain
  obtain ⟨_, rfl⟩ := List.cons.inj (hsplit.symm.trans hsplit')
  have hroot : r'.root = r.root := hafter.root.trans h.root.symm
  rw [hsame] at hok hkept
  rw [hsame', hroot] at hagain
  have hslash : ∀ segment ∈ segments, 47 ∉ segment := by
    intro segment hsegment
    have hmem : segment ∈ path.splitOn 47 := by
      rw [hsplit]
      exact List.mem_cons_of_mem _ hsegment
    exact not_mem_of_mem_splitOn hmem
  have hspelled := h.ensureSegments_twice hafter (fun _ _ hfound => (hkept _ _ hfound).2)
    h.findPath_root hslash hok hagain
  rw [secondSpelling, hsplit, List.tail_cons, List.any_eq_true] at hspelling
  obtain ⟨segment, hsegment, hspelling⟩ := hspelling
  rw [hspelled segment hsegment] at hspelling
  cases hspelling

/-- An accepted path is accepted again, and found, exactly when it uses first spellings only. -/
theorem ensurePath_again_iff (hr : Reachable call {} r)
    (hok : (r.ensurePath path).2.1.allowed = true) {later : List ScopeCall}
    (hlater : ∀ op ∈ later, op.registers = true) :
    (((run call (r.ensurePath path).1 later).ensurePath path).2.1.allowed = true ∧
        ((run call (r.ensurePath path).1 later).ensurePath path).2.2 = (r.ensurePath path).2.2 ∧
        ((run call (r.ensurePath path).1 later).ensurePath path).1.size =
          (run call (r.ensurePath path).1 later).size ∧
        (run call (r.ensurePath path).1 later).findPath path = some (r.ensurePath path).2.2) ↔
      secondSpelling path = false := by
  have hfits := fits_of_allowed hok
  have hformed := formed_of_reachable hr
  have hshaped := hformed.ensureRoot
  rw [← ensurePath_ensureRoot r hfits] at hok ⊢
  constructor
  · rintro ⟨hagain, _⟩
    exact hshaped.ensurePath_twice hok hlater hagain
  · intro hspelled
    obtain ⟨hafter, hfound⟩ := (hshaped.ensurePath path).findPath_run hlater
      (hshaped.findPath_ensurePath hspelled hok)
    rw [hafter.treeSound.rooted.ensurePath_found hfits hfound]
    exact ⟨rfl, rfl, rfl, hfound⟩

theorem ensurePath_again_cluster :
    ((run call (({} : ScopeRegistry).ensurePath (text "global/cluster:c1")).1
        [.touch ⟨2⟩, .ensurePath (text "global/site:s1")]).ensurePath
          (text "global/cluster:c1")).2.2 = ⟨2⟩ ∧
      (run call (({} : ScopeRegistry).ensurePath (text "global/cluster:c1")).1
        [.touch ⟨2⟩, .ensurePath (text "global/site:s1")]).findPath (text "global/cluster:c1") =
        some ⟨2⟩ := by
  have hok : (({} : ScopeRegistry).ensurePath (text "global/cluster:c1")).2.1.allowed = true := by
    decide +kernel
  have hlater : ∀ op ∈ [ScopeCall.touch ⟨2⟩, .ensurePath (text "global/site:s1")],
      op.registers = true := by decide
  have hagain := (ensurePath_again_iff (reachable_refl call {}) hok hlater).mpr (by decide)
  have hid : (({} : ScopeRegistry).ensurePath (text "global/cluster:c1")).2.2 = ⟨2⟩ := by
    decide +kernel
  rw [hid] at hagain
  exact ⟨hagain.2.1, hagain.2.2.2⟩

/-- A path with a second spelling is accepted once, and found by none. -/
theorem second_spelling_conflicts :
    (({} : ScopeRegistry).ensurePath (text "global/replicagroup:a")).2.1.allowed = true ∧
      ((({} : ScopeRegistry).ensurePath (text "global/replicagroup:a")).1.ensurePath
        (text "global/replicagroup:a")).2.1.outcome = .conflict ∧
      (({} : ScopeRegistry).ensurePath (text "global/replicagroup:a")).1.findPath
        (text "global/replicagroup:a") = none := by
  decide +kernel

/-! ## Refused paths -/

/-- Registering a path, refused or not, leaves the registry as it was exactly when the path is
empty or too long, or when the root stands and the first segment that is missing is itself
refused. -/
theorem ensurePath_unchanged_iff (r : ScopeRegistry) (path : Text) :
    (r.ensurePath path).1 = r ↔
      path.isEmpty = true ∨ maxScopePathLength < path.length ∨
        r.Rooted ∧ r.opensPath path = false := by
  by_cases hfits : path.isEmpty = true ∨ maxScopePathLength < path.length
  · have hsame : (r.ensurePath path).1 = r := by
      rw [ensurePath, if_pos hfits]
    rw [← or_assoc]
    exact iff_of_true hsame (Or.inl hfits)
  · rw [← or_assoc, or_iff_right hfits]
    constructor
    · intro hsame
      have hrooted : r.Rooted := by
        rw [← hsame, ← ensurePath_ensureRoot r hfits]
        exact (rooted_ensureRoot r).ensurePath path
      refine ⟨hrooted, ?_⟩
      by_contra hopens
      have hgrows := (ensurePath_opens hrooted path).2 (Bool.eq_true_of_not_eq_false hopens)
      rw [hsame] at hgrows
      exact lt_irrefl _ hgrows
    · rintro ⟨hrooted, hopens⟩
      exact (ensurePath_opens hrooted path).1 hopens

/-- A refused path leaves the scope of an earlier segment behind. -/
theorem refused_path_leaves_scope :
    (({} : ScopeRegistry).ensureRoot.ensurePath (text "global/cluster:c1/bogus")).2.1.allowed =
        false ∧
      (({} : ScopeRegistry).ensureRoot.ensurePath (text "global/cluster:c1/bogus")).1.findPath
        (text "global/cluster:c1") = some ⟨2⟩ ∧
      (({} : ScopeRegistry).ensureRoot.ensurePath (text "global/cluster:c1/bogus")).1 ≠
        ({} : ScopeRegistry).ensureRoot := by
  decide +kernel

/-! ## Recovery -/

/-- A registry with scopes is recovered from its records, and answers as before; a refused
recovery changes nothing. -/
theorem restore_agrees (bound : UInt64) (hbound : 1 ≤ bound) :
    (∀ ops : List ScopeCall, (∀ op ∈ ops, op.registers = true) →
      (run call { maxScopes := bound.toNat } ops).records ≠ [] →
      ∃ restored,
        ({ maxScopes := bound.toNat } : ScopeRegistry).restore
            (run call { maxScopes := bound.toNat } ops).records
            (run call { maxScopes := bound.toNat } ops).root = (restored, true) ∧
          restored.find = (run call { maxScopes := bound.toNat } ops).find ∧
          restored.findPath = (run call { maxScopes := bound.toNat } ops).findPath ∧
          restored.childrenOf = (run call { maxScopes := bound.toNat } ops).childrenOf ∧
          restored.chain = (run call { maxScopes := bound.toNat } ops).chain ∧
          restored.isAncestorOrSelf =
            (run call { maxScopes := bound.toNat } ops).isAncestorOrSelf) ∧
      ∀ (r : ScopeRegistry) (records : List ScopeRecord) (root : ScopeId),
        (r.restore records root).2 = false → r.call (.restore records root) = r := by
  constructor
  · intro ops hops hrecords
    obtain ⟨hformed, hmax, hlength⟩ := within_run bound hops
    generalize run call { maxScopes := bound.toNat } ops = r at hformed hmax hlength hrecords ⊢
    have hpos := UInt64.le_iff_toNat_le.mp hbound
    change 1 ≤ bound.toNat at hpos
    have hshaped := hformed.shaped hrecords
    have hfits : r.records.length ≤ ({ maxScopes := bound.toNat } : ScopeRegistry).maxScopes := by
      dsimp only
      omega
    have hrestored := hshaped.restore hfits
    dsimp only at hrestored
    rw [← hmax] at hrestored ⊢
    exact ⟨r, hrestored, rfl, rfl, rfl, rfl, rfl⟩
  · intro r records root hrefused
    exact restore_refused hrefused

theorem restore_agrees_cluster :
    ∃ restored, ({ maxScopes := 2 } : ScopeRegistry).restore
      (run call { maxScopes := 2 } [.ensurePath (text "global/cluster:c1"), .touch ⟨2⟩]).records
      (run call { maxScopes := 2 } [.ensurePath (text "global/cluster:c1"), .touch ⟨2⟩]).root =
        (restored, true) := by
  obtain ⟨restored, hrestored, _⟩ := (restore_agrees 2 (by decide)).1
    [.ensurePath (text "global/cluster:c1"), .touch ⟨2⟩] (by decide) (by decide +kernel)
  exact ⟨restored, hrestored⟩

/-- A registry without scopes is not recovered from its records. -/
theorem blank_not_restored :
    ¬∀ (bound : UInt64) (ops : List ScopeCall), 1 ≤ bound →
      (∀ op ∈ ops, op.registers = true) →
      (({ maxScopes := bound.toNat } : ScopeRegistry).restore
        (run call { maxScopes := bound.toNat } ops).records
        (run call { maxScopes := bound.toNat } ops).root).2 = true := by
  intro h
  have haccepted := h 1 [] (by decide) (by decide)
  revert haccepted
  decide +kernel

/-! ## Walks -/

/-- The ancestor test agrees with the chain, the chain leads from the root down to the scope
without repeating one, and no step bound cuts either walk. -/
theorem walks_agree (hr : Reachable call {} r) {ancestor descendant : ScopeId}
    {record : ScopeRecord} (hdescendant : r.find descendant = some record) :
    (r.isAncestorOrSelf ancestor descendant = true ↔ ancestor ∈ r.chain descendant) ∧
      (r.chain descendant).head? = some r.root ∧
      (r.chain descendant).getLast? = some descendant ∧
      ((r.chain descendant).IsChain fun parent child =>
        (r.find child).map ScopeRecord.parent = some parent) ∧
      (r.chain descendant).Nodup ∧
      (r.chain descendant).length ≤ maxScopeDepth.toNat + 1 ∧
      (∀ steps, r.records.length ≤ steps →
        r.chainUp steps (some record) = (r.chain descendant).reverse) ∧
      ∀ steps, maxScopeDepth.toNat + 2 ≤ steps →
        r.hasAncestor ancestor steps (some record) =
          r.hasAncestor ancestor (maxScopeDepth.toNat + 2) (some record) := by
  have hshaped := (formed_of_reachable hr).shaped_of_find hdescendant
  have hsound := hshaped.treeSound
  obtain ⟨hline, hdepth, hcount⟩ := hshaped.lineage hdescendant
  have hlength : (r.chain descendant).reverse.length = (r.chain descendant).length :=
    List.length_reverse
  obtain ⟨above, habove⟩ := hline.eq_cons
  refine ⟨hshaped.isAncestorOrSelf_iff hdescendant, ?_, ?_, ?_, ?_, hdepth, ?_, ?_⟩
  · obtain ⟨last, hlast, hnone⟩ := hline.getLast?_eq
    obtain ⟨found, hfound⟩ :=
      hsound.find_of_lineage hline hdescendant (List.mem_of_getLast? hlast)
    obtain ⟨rfl, _⟩ := hshaped.eq_root hfound (parent_of_parentOf_none hfound hnone)
    rw [List.getLast?_reverse] at hlast
    exact hlast
  · have hfirst := congrArg List.head? habove
    rw [List.head?_reverse] at hfirst
    exact hfirst
  · have hdown := List.isChain_reverse.mpr hline.isChain
    rw [List.reverse_reverse] at hdown
    refine hdown.imp ?_
    intro parent child hparent
    obtain ⟨found, hfound, hup, _⟩ := parentOf_eq_some_iff.mp hparent
    rw [hfound, Option.map_some, hup]
  · have hnodup := hline.nodup fun _ _ hparent => hsound.raw_parent hparent
    exact List.nodup_reverse.mp hnodup
  · intro steps hsteps
    exact hsound.chainUp_lineage hline hdescendant (by omega)
  · intro steps hsteps
    rw [Bool.eq_iff_iff, hsound.hasAncestor_lineage hline hdescendant (by omega),
      hsound.hasAncestor_lineage hline hdescendant (by omega)]

theorem walks_agree_tenant :
    (run call {} [.ensurePath (text "global/cluster:c1/tenant:t1")]).chain ⟨3⟩ =
        [⟨1⟩, ⟨2⟩, ⟨3⟩] ∧
      (run call {} [.ensurePath (text "global/cluster:c1/tenant:t1")]).isAncestorOrSelf ⟨2⟩ ⟨3⟩ =
        true := by
  have htenant : ((run call {} [.ensurePath (text "global/cluster:c1/tenant:t1")]).find
      ⟨3⟩).isSome = true := by decide +kernel
  obtain ⟨record, hrecord⟩ := Option.isSome_iff_exists.mp htenant
  have hchain : (run call {} [.ensurePath (text "global/cluster:c1/tenant:t1")]).chain ⟨3⟩ =
      [⟨1⟩, ⟨2⟩, ⟨3⟩] := by decide +kernel
  refine ⟨hchain, (walks_agree ⟨_, rfl⟩ hrecord).1.mpr ?_⟩
  rw [hchain]
  decide

end ScopeRegistry

end LifecycleFabric
