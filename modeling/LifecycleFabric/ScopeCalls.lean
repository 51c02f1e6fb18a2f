import LifecycleFabric.ScopeShape

/-!
# Runs of a scope registry

A registry starts without a root, and its first registration creates one. From then on every
call keeps it shaped.
-/

namespace LifecycleFabric

/-- The calls that change a registry. -/
inductive ScopeCall
  | ensureRoot
  | addChild (parent : ScopeId) (kind : ScopeKind) (name : Text)
  | ensurePath (path : Text)
  | touch (id : ScopeId)
  | setMaxScopes (value : UInt64)
  | restore (records : List ScopeRecord) (root : ScopeId)
  deriving DecidableEq

/-- Whether a call registers scopes in the tree that stands, or touches one of them. -/
def ScopeCall.registers : ScopeCall → Bool
  | .setMaxScopes _ => false
  | .restore _ _ => false
  | _ => true

namespace ScopeRegistry

/-- The registry after a call; a refused recovery leaves it as it was. -/
def call (r : ScopeRegistry) : ScopeCall → ScopeRegistry
  | .ensureRoot => r.ensureRoot
  | .addChild parent kind name => (r.addChild parent kind name).1
  | .ensurePath path => (r.ensurePath path).1
  | .touch id => r.touch id
  | .setMaxScopes value => { r with maxScopes := value.toNat }
  | .restore records root => (r.restore records root).1

/-- A registry without scopes. -/
def Blank (r : ScopeRegistry) : Prop := r = { maxScopes := r.maxScopes } ∧ r.maxScopes < 2 ^ 64

/-- A registry that calls may leave: without scopes, or shaped. -/
def Formed (r : ScopeRegistry) : Prop := r.Blank ∨ r.Shaped

variable {r : ScopeRegistry}

/-! ## Calls keep the shape -/

theorem Blank.ensureRoot (h : r.Blank) : r.ensureRoot.Shaped := by
  rw [h.1]
  exact Shaped.init h.2

/-- Every registry has its root once it is ensured. -/
theorem Formed.ensureRoot (h : r.Formed) : r.ensureRoot.Shaped := by
  rcases h with hblank | hshaped
  · exact hblank.ensureRoot
  · rw [hshaped.treeSound.rooted.ensureRoot]
    exact hshaped

/-- A child is created under the root that creating it ensures. -/
theorem addChild_ensureRoot (r : ScopeRegistry) (parent : ScopeId) (kind : ScopeKind)
    (name : Text) : r.ensureRoot.addChild parent kind name = r.addChild parent kind name := by
  unfold addChild
  rw [(rooted_ensureRoot r).ensureRoot]

theorem Formed.addChild (h : r.Formed) (parent : ScopeId) (kind : ScopeKind) (name : Text) :
    (r.addChild parent kind name).1.Formed := by
  rw [← addChild_ensureRoot]
  exact Or.inr (h.ensureRoot.addChild parent kind name)

theorem Formed.ensurePath (h : r.Formed) (path : Text) : (r.ensurePath path).1.Formed :=
  ensurePath_preserves (fun _ h => Or.inr h.ensureRoot)
    (fun _ parent kind name h => h.addChild parent kind name) h path

theorem Shaped.ensurePath (h : r.Shaped) (path : Text) : (r.ensurePath path).1.Shaped :=
  ensurePath_preserves (fun _ h => Formed.ensureRoot (Or.inr h))
    (fun _ parent kind name h => h.addChild parent kind name) h path

theorem Formed.touch (h : r.Formed) (id : ScopeId) : (r.touch id).Formed := by
  rcases h with hblank | hshaped
  · have hsame : r.touch id = r := by
      rw [hblank.1]
      simp [ScopeRegistry.touch]
    rw [hsame]
    exact Or.inl hblank
  · exact Or.inr (hshaped.touch id)

theorem Formed.maxScopes_lt (h : r.Formed) : r.maxScopes < 2 ^ 64 := by
  rcases h with hblank | hshaped
  · exact hblank.2
  · exact hshaped.bound

theorem Formed.setMaxScopes (h : r.Formed) (value : UInt64) :
    ({ r with maxScopes := value.toNat } : ScopeRegistry).Formed := by
  rcases h with hblank | hshaped
  · refine Or.inl ⟨?_, value.toNat_lt⟩
    rw [hblank.1]
  · exact Or.inr ⟨hshaped.root, hshaped.filled, value.toNat_lt, hshaped.size, hshaped.rebuilt⟩

theorem Formed.restore (h : r.Formed) (records : List ScopeRecord) (root : ScopeId) :
    (r.restore records root).1.Formed := by
  cases haccepted : (r.restore records root).2 with
  | false =>
    rw [restore_refused haccepted]
    exact h
  | true => exact Or.inr (Shaped.of_restore h.maxScopes_lt (Prod.ext rfl haccepted))

theorem Formed.call (h : r.Formed) (op : ScopeCall) : (r.call op).Formed := by
  cases op with
  | ensureRoot => exact Or.inr h.ensureRoot
  | addChild parent kind name => exact h.addChild parent kind name
  | ensurePath path => exact h.ensurePath path
  | touch id => exact h.touch id
  | setMaxScopes value => exact h.setMaxScopes value
  | restore records root => exact h.restore records root

/-- Every registry that calls lead to is without scopes, or shaped. -/
theorem formed_of_reachable (h : Runs.Reachable call {} r) : r.Formed := by
  refine Runs.reachable_invariant call (fun _ op h => h.call op) ?_ h
  exact Or.inl ⟨rfl, by decide⟩

theorem Formed.shaped (h : r.Formed) (hrecords : r.records ≠ []) : r.Shaped := by
  rcases h with hblank | hshaped
  · rw [hblank.1] at hrecords
    exact absurd rfl hrecords
  · exact hshaped

/-- A registry with a registered scope is shaped. -/
theorem Formed.shaped_of_find (h : r.Formed) {id : ScopeId} {record : ScopeRecord}
    (hfind : r.find id = some record) : r.Shaped := by
  refine h.shaped ?_
  intro hempty
  obtain ⟨_, hrecord⟩ := find_eq_some_iff.mp hfind
  rw [hempty] at hrecord
  cases hrecord

/-! ## Registrations keep the scopes -/

/-- A registration leaves every scope where it is, with its path. -/
theorem find_call {op : ScopeCall} (hop : op.registers = true) {id : ScopeId}
    {record : ScopeRecord} (hfind : r.find id = some record) :
    ∃ record', (r.call op).find id = some record' ∧ Regenerated record record' := by
  cases op with
  | ensureRoot => exact ⟨record, (extends_ensureRoot r).find hfind, regenerated_refl record⟩
  | addChild parent kind name =>
    exact ⟨record, (extends_addChild r parent kind name).find hfind, regenerated_refl record⟩
  | ensurePath path =>
    exact ⟨record, (extends_ensurePath r path).find hfind, regenerated_refl record⟩
  | touch touched =>
    refine ⟨_, by rw [call, find_touch, hfind]; rfl, ?_⟩
    split_ifs
    · exact regenerated_touched record
    · exact regenerated_refl record
  | setMaxScopes value => cases hop
  | restore records root => cases hop

theorem Shaped.call (h : r.Shaped) (op : ScopeCall) : (r.call op).Shaped := by
  cases op with
  | ensureRoot => exact Formed.ensureRoot (Or.inr h)
  | addChild parent kind name => exact h.addChild parent kind name
  | ensurePath path => exact h.ensurePath path
  | touch id => exact h.touch id
  | setMaxScopes value => exact ⟨h.root, h.filled, value.toNat_lt, h.size, h.rebuilt⟩
  | restore records root =>
    rw [ScopeRegistry.call]
    cases haccepted : (r.restore records root).2 with
    | false =>
      rw [restore_refused haccepted]
      exact h
    | true => exact Shaped.of_restore h.bound (Prod.ext rfl haccepted)

/-- A path that leads to a scope leads to it after any registrations. -/
theorem Shaped.findPath_run (h : r.Shaped) {ops : List ScopeCall}
    (hops : ∀ op ∈ ops, op.registers = true) {path : Text} {id : ScopeId}
    (hpath : r.findPath path = some id) :
    (Runs.run ScopeRegistry.call r ops).Shaped ∧
      (Runs.run ScopeRegistry.call r ops).findPath path = some id := by
  have halong : Runs.Along ScopeRegistry.call (fun _ op => op.registers = true) r ops :=
    Runs.along_of_forall _ hops
  refine Runs.run_preserves ScopeRegistry.call
    (P := fun r => r.Shaped ∧ r.findPath path = some id) ?_ halong ⟨h, hpath⟩
  rintro r op ⟨hshaped, hfound⟩ hop
  obtain ⟨record, hrecord, rfl⟩ := hshaped.findPath_iff.mp hfound
  obtain ⟨record', hrecord', hkept⟩ := find_call hop hrecord
  have hnext := hshaped.call op
  exact ⟨hnext, hnext.findPath_iff.mpr ⟨record', hrecord', hkept.path⟩⟩

/-! ## Registrations respect the bound -/

/-- A registry within a bound on its scopes, which its root alone may exceed. -/
def Within (bound : ℕ) (r : ScopeRegistry) : Prop :=
  r.Formed ∧ r.maxScopes = bound ∧ r.records.length ≤ max 1 bound

theorem Within.ensureRoot {bound : ℕ} (h : r.Within bound) : r.ensureRoot.Within bound := by
  obtain ⟨hformed, hbound, hlength⟩ := h
  rcases hformed with hblank | hshaped
  · refine ⟨Or.inr hblank.ensureRoot, ?_, ?_⟩
    · rw [hblank.1]
      exact hbound
    · rw [hblank.1]
      exact le_max_left 1 bound
  · rw [hshaped.treeSound.rooted.ensureRoot]
    exact ⟨Or.inr hshaped, hbound, hlength⟩

theorem Within.addChild {bound : ℕ} (h : r.Within bound) (parent : ScopeId) (kind : ScopeKind)
    (name : Text) : (r.addChild parent kind name).1.Within bound := by
  have hroot := h.ensureRoot
  refine ⟨h.1.addChild parent kind name, ?_⟩
  unfold ScopeRegistry.addChild
  dsimp only
  split
  · exact hroot.2
  · split_ifs with _ _ hroom
    · exact hroot.2
    · exact hroot.2
    · exact hroot.2
    · exact hroot.2
    · exact hroot.2
    · exact hroot.2
    · refine ⟨hroot.2.1, ?_⟩
      have hbound := hroot.2.1
      rw [List.length_append, List.length_singleton]
      omega

theorem Within.call {bound : ℕ} (h : r.Within bound) {op : ScopeCall}
    (hop : op.registers = true) : (r.call op).Within bound := by
  cases op with
  | ensureRoot => exact h.ensureRoot
  | addChild parent kind name => exact h.addChild parent kind name
  | ensurePath path =>
    exact ensurePath_preserves (fun _ h => h.ensureRoot)
      (fun _ parent kind name h => h.addChild parent kind name) h path
  | touch id =>
    refine ⟨h.1.touch id, ?_⟩
    rw [ScopeRegistry.call, ScopeRegistry.touch]
    split_ifs
    · simpa using h.2
    · exact h.2
  | setMaxScopes value => cases hop
  | restore records root => cases hop

/-- Registrations in an empty registry respect its bound. -/
theorem within_run (bound : UInt64) {ops : List ScopeCall}
    (hops : ∀ op ∈ ops, op.registers = true) :
    (Runs.run call { maxScopes := bound.toNat } ops).Within bound.toNat := by
  have halong : Runs.Along call (fun _ op => op.registers = true)
      { maxScopes := bound.toNat } ops := Runs.along_of_forall _ hops
  refine Runs.run_preserves call (fun _ _ h hop => h.call hop) halong ?_
  exact ⟨Or.inl ⟨rfl, bound.toNat_lt⟩, rfl, Nat.zero_le _⟩

end ScopeRegistry

end LifecycleFabric
