import LifecycleFabric.Authority

/-!
# What table operations do to standing

Every operation of the authority table leaves each binding in its place, where it at
most loses standing, and appends at most one binding. The number of live exclusive
bindings of a scope therefore grows only by an append, which `grant` and
`replaceExclusive` make only into a scope that has none left.
-/

namespace LifecycleFabric

namespace AuthorityBinding

theorem ofVersion_iff {binding : AuthorityBinding} {model : ModelId} {version : ModelVersionId} :
    binding.ofVersion model version = true ↔ binding.model = model ∧ binding.version = version := by
  rw [ofVersion, Bool.and_eq_true, decide_eq_true_eq, decide_eq_true_eq]

theorem isLiveExclusive_iff {binding : AuthorityBinding} :
    binding.isLiveExclusive = true ↔ binding.live = true ∧ binding.kind = .exclusive := by
  rw [isLiveExclusive, Bool.and_eq_true, decide_eq_true_eq]

/-- A rewriting of a binding in place: it is kept, superseded, or set to drain. A retained
binding does not drain. -/
def Weakens (before after : AuthorityBinding) : Prop :=
  after = before ∨ after = before.supersede ∨
    before.live = true ∧ before.kind ≠ .rollbackRetained ∧ after = { before with kind := .draining }

theorem Weakens.refl (binding : AuthorityBinding) : binding.Weakens binding := Or.inl rfl

theorem weakens_supersede (binding : AuthorityBinding) : binding.Weakens binding.supersede :=
  Or.inr (Or.inl rfl)

theorem weakens_drain (model : ModelId) (version : ModelVersionId) (binding : AuthorityBinding) :
    binding.Weakens (AuthorityTable.drain model version binding) := by
  unfold AuthorityTable.drain
  split_ifs with h
  · obtain ⟨hlive, _, _, hserving⟩ := h
    exact Or.inr (Or.inr ⟨hlive, hserving, rfl⟩)
  · exact Or.inl rfl

/-- A rewriting keeps what a binding is about. -/
theorem Weakens.same {before after : AuthorityBinding} (h : before.Weakens after) :
    after.scope = before.scope ∧ after.model = before.model ∧ after.version = before.version ∧
      after.modelGeneration = before.modelGeneration ∧ after.rollout = before.rollout ∧
      after.rolloutGeneration = before.rolloutGeneration ∧
      after.grantedSequence = before.grantedSequence ∧
      after.scopeGeneration = before.scopeGeneration := by
  obtain rfl | rfl | ⟨_, _, rfl⟩ := h <;> simp [supersede]

/-- A rewriting revives nothing. -/
theorem Weakens.live_of_live {before after : AuthorityBinding} (h : before.Weakens after)
    (hafter : after.live = true) : before.live = true := by
  obtain rfl | rfl | ⟨hlive, _, rfl⟩ := h
  · exact hafter
  · simp [supersede, live] at hafter
  · exact hlive

/-- A rewriting makes nothing exclusive. -/
theorem Weakens.exclusive_of_exclusive {before after : AuthorityBinding}
    (h : before.Weakens after) (hafter : after.isLiveExclusive = true) :
    before.isLiveExclusive = true := by
  obtain rfl | rfl | ⟨hlive, _, rfl⟩ := h
  · exact hafter
  · simp [isLiveExclusive, supersede, live] at hafter
  · simp [isLiveExclusive] at hafter

end AuthorityBinding

namespace AuthorityTable

open AuthorityBinding

/-! ## Rewriting in place -/

/-- Every binding stays in its place and at most loses standing. -/
structure Weakened (before after : AuthorityTable) : Prop where
  maxBindings : after.maxBindings = before.maxBindings
  bindings : ∀ scope, List.Forall₂ Weakens (before.bindingsFor scope) (after.bindingsFor scope)

theorem weakens_list_refl (bindings : List AuthorityBinding) :
    List.Forall₂ Weakens bindings bindings :=
  List.forall₂_same.mpr fun binding _ => Weakens.refl binding

theorem weakens_list_map {f : AuthorityBinding → AuthorityBinding} (hf : ∀ b, Weakens b (f b))
    (bindings : List AuthorityBinding) : List.Forall₂ Weakens bindings (bindings.map f) := by
  induction bindings with
  | nil => exact .nil
  | cons binding bindings ih => exact .cons (hf binding) ih

theorem Weakened.refl (table : AuthorityTable) : table.Weakened table :=
  ⟨rfl, fun _ => weakens_list_refl _⟩

/-- A rewriting of every list that keeps the places is a weakening of the table. -/
theorem weakened_mapValues (table : AuthorityTable)
    {f : UInt64 → List AuthorityBinding → List AuthorityBinding}
    (hf : ∀ key bindings, List.Forall₂ Weakens bindings (f key bindings)) :
    table.Weakened { table with bindings := table.bindings.mapValues f } := by
  refine ⟨rfl, ?_⟩
  intro scope
  simp only [bindingsFor, OrdMap.get?_mapValues]
  cases table.bindings.get? scope.raw with
  | none => exact .nil
  | some bindings => exact hf scope.raw bindings

theorem weakened_mapAll (table : AuthorityTable) {f : AuthorityBinding → AuthorityBinding}
    (hf : ∀ b, Weakens b (f b)) : table.Weakened (table.mapAll f) :=
  weakened_mapValues table fun _ bindings => weakens_list_map hf bindings

theorem bindingsFor_mapAll (table : AuthorityTable) (f : AuthorityBinding → AuthorityBinding)
    (scope : ScopeId) : (table.mapAll f).bindingsFor scope = (table.bindingsFor scope).map f := by
  simp only [mapAll, bindingsFor, OrdMap.get?_mapValues]
  cases table.bindings.get? scope.raw <;> rfl

/-- Once a version is superseded everywhere, no binding of it is live. -/
theorem not_live_of_supersedeVersion {table : AuthorityTable} {model : ModelId}
    {version : ModelVersionId} {scope : ScopeId} {binding : AuthorityBinding}
    (hbinding : binding ∈ (table.supersedeVersion model version).bindingsFor scope)
    (hversion : binding.ofVersion model version = true) : binding.live = false := by
  rw [supersedeVersion, bindingsFor_mapAll, List.mem_map] at hbinding
  obtain ⟨origin, _, rfl⟩ := hbinding
  split_ifs at hversion ⊢ with hsame
  · rfl
  · exact absurd hversion hsame

theorem weakened_modify (table : AuthorityTable) (scope : ScopeId)
    {f : List AuthorityBinding → List AuthorityBinding}
    (hf : ∀ bindings, List.Forall₂ Weakens bindings (f bindings)) :
    table.Weakened { table with bindings := table.bindings.modify scope.raw f } := by
  refine weakened_mapValues table ?_
  intro key bindings
  split_ifs
  · exact hf bindings
  · exact weakens_list_refl bindings

theorem weakened_mapScope (table : AuthorityTable) (scope : ScopeId)
    {f : AuthorityBinding → AuthorityBinding} (hf : ∀ b, Weakens b (f b)) :
    table.Weakened (table.mapScope scope f) :=
  weakened_modify table scope (weakens_list_map hf)

theorem weakened_supersedeScope (table : AuthorityTable) (scope : ScopeId) :
    table.Weakened (table.supersedeScope scope) :=
  weakened_mapScope table scope weakens_supersede

theorem weakened_supersedeRollout (table : AuthorityTable) (rollout : RolloutId)
    (generation : RolloutGeneration) : table.Weakened (table.supersedeRollout rollout generation) := by
  refine weakened_mapAll table ?_
  intro binding
  split_ifs
  · exact weakens_supersede binding
  · exact Weakens.refl binding

theorem weakened_supersedeVersion (table : AuthorityTable) (model : ModelId)
    (version : ModelVersionId) : table.Weakened (table.supersedeVersion model version) := by
  refine weakened_mapAll table ?_
  intro binding
  split_ifs
  · exact weakens_supersede binding
  · exact Weakens.refl binding

theorem weakened_markDraining (table : AuthorityTable) (model : ModelId)
    (version : ModelVersionId) (scope : ScopeId) :
    table.Weakened (table.markDraining model version scope) :=
  weakened_mapScope table scope (weakens_drain model version)

theorem weakens_supersedeFirstExclusive (bindings : List AuthorityBinding) :
    List.Forall₂ Weakens bindings (supersedeFirstExclusive bindings) := by
  induction bindings with
  | nil => exact .nil
  | cons binding bindings ih =>
    unfold supersedeFirstExclusive
    split_ifs
    · exact .cons (weakens_supersede binding) (weakens_list_refl bindings)
    · exact .cons (Weakens.refl binding) ih

/-- Each binding of a weakened table has one it came from. -/
theorem Weakened.exists_before {before after : AuthorityTable} (h : before.Weakened after)
    {scope : ScopeId} {binding : AuthorityBinding} (hmem : binding ∈ after.bindingsFor scope) :
    ∃ origin ∈ before.bindingsFor scope, origin.Weakens binding := by
  have hlists := h.bindings scope
  obtain ⟨i, hi, rfl⟩ := List.mem_iff_getElem.mp hmem
  have hi' : i < (before.bindingsFor scope).length := hlists.length_eq ▸ hi
  exact ⟨_, List.getElem_mem hi', hlists.get hi' hi⟩

/-- Each binding of a table is rewritten to one of its weakening. -/
theorem Weakened.exists_after {before after : AuthorityTable} (h : before.Weakened after)
    {scope : ScopeId} {binding : AuthorityBinding} (hmem : binding ∈ before.bindingsFor scope) :
    ∃ image ∈ after.bindingsFor scope, binding.Weakens image := by
  have hlists := h.bindings scope
  obtain ⟨i, hi, rfl⟩ := List.mem_iff_getElem.mp hmem
  have hi' : i < (after.bindingsFor scope).length := hlists.length_eq ▸ hi
  exact ⟨_, List.getElem_mem hi', hlists.get hi hi'⟩

/-- A version that holds nothing holds nothing after a weakening. -/
theorem Weakened.idle {before after : AuthorityTable} (h : before.Weakened after)
    {model : ModelId} {version : ModelVersionId} {scope : ScopeId}
    (hidle : ∀ b ∈ before.bindingsFor scope, b.ofVersion model version = true → b.live = false)
    {b : AuthorityBinding} (hb : b ∈ after.bindingsFor scope)
    (hown : b.ofVersion model version = true) : b.live = false := by
  obtain ⟨origin, horigin, hweakens⟩ := h.exists_before hb
  have hsame : origin.ofVersion model version = true := by
    obtain ⟨_, hmodel, hversion, _⟩ := hweakens.same
    simpa [ofVersion, hmodel, hversion] using hown
  have hbefore := hidle origin horigin hsame
  by_contra hlive
  rw [hweakens.live_of_live (by simpa using hlive)] at hbefore
  cases hbefore

/-! ## Appending -/

theorem bindingsFor_push (table : AuthorityTable) (binding : AuthorityBinding) (scope : ScopeId) :
    (table.push binding).bindingsFor scope =
      table.bindingsFor scope ++ if scope = binding.scope then [binding] else [] := by
  by_cases h : scope = binding.scope
  · subst h
    simp [bindingsFor, push]
  · have hraw : scope.raw ≠ binding.scope.raw := fun heq => h (Ident.ext heq)
    simp [bindingsFor, push, OrdMap.get?_insert_of_ne _ _ hraw, h]

theorem mem_bindingsFor_push {table : AuthorityTable} {binding b : AuthorityBinding}
    {scope : ScopeId} :
    b ∈ (table.push binding).bindingsFor scope ↔
      b ∈ table.bindingsFor scope ∨ scope = binding.scope ∧ b = binding := by
  rw [bindingsFor_push, List.mem_append]
  split_ifs with h <;> simp [h]

/-! ## Live exclusive bindings -/

/-- The number of live exclusive bindings of a scope. -/
def exclusives (table : AuthorityTable) (scope : ScopeId) : ℕ :=
  (table.bindingsFor scope).countP isLiveExclusive

private theorem countP_le_of_weakens {before after : List AuthorityBinding}
    (h : List.Forall₂ Weakens before after) :
    after.countP isLiveExclusive ≤ before.countP isLiveExclusive := by
  induction h with
  | nil => exact le_rfl
  | @cons b a bs as hba _ ih =>
    simp only [List.countP_cons]
    by_cases ha : a.isLiveExclusive = true
    · have hb := hba.exclusive_of_exclusive ha
      simp only [ha, hb, if_true]
      omega
    · simp only [ha, if_false, Bool.false_eq_true]
      omega

/-- A weakening adds no live exclusive binding. -/
theorem Weakened.exclusives_le {before after : AuthorityTable} (h : before.Weakened after)
    (scope : ScopeId) : after.exclusives scope ≤ before.exclusives scope :=
  countP_le_of_weakens (h.bindings scope)

theorem exclusives_push (table : AuthorityTable) (binding : AuthorityBinding) (scope : ScopeId) :
    (table.push binding).exclusives scope =
      table.exclusives scope +
        if scope = binding.scope ∧ binding.isLiveExclusive = true then 1 else 0 := by
  unfold exclusives
  rw [bindingsFor_push, List.countP_append]
  by_cases hscope : scope = binding.scope <;> by_cases hex : binding.isLiveExclusive = true <;>
    simp [hscope, hex]

/-- Superseding the first live exclusive binding leaves one fewer. -/
theorem countP_supersedeFirstExclusive (bindings : List AuthorityBinding) :
    (supersedeFirstExclusive bindings).countP isLiveExclusive =
      bindings.countP isLiveExclusive - 1 := by
  induction bindings with
  | nil => rfl
  | cons binding bindings ih =>
    unfold supersedeFirstExclusive
    split_ifs with h
    · have hsuperseded : binding.supersede.isLiveExclusive = false := by
        simp [isLiveExclusive, supersede, live]
      simp [h, hsuperseded]
    · simp only [Bool.not_eq_true] at h
      simp [h, ih]

/-- A new exclusive binding that coexists with a list meets no live exclusive one. -/
theorem countP_of_coexistence {binding : AuthorityBinding} {allowCoexistence : Bool}
    (hkind : binding.kind = .exclusive) {bindings : List AuthorityBinding}
    (h : coexistenceConflict binding allowCoexistence bindings = none) :
    bindings.countP isLiveExclusive = 0 := by
  induction bindings with
  | nil => rfl
  | cons current rest ih =>
    unfold coexistenceConflict at h
    split_ifs at h with hsuperseded hexclusive
    · simp [ih h, isLiveExclusive, live, hsuperseded]
    · have hcurrent : current.kind ≠ .exclusive := fun heq => hexclusive ⟨hkind, heq⟩
      simp [ih h, isLiveExclusive, hcurrent]

/-! ## Granting and replacing -/

theorem malformed_refuses {binding : AuthorityBinding} {refusal : Decision}
    (h : malformed binding = some refusal) :
    refusal.allowed = false ∧ refusal.has .policyDeniesCoexistence = false := by
  unfold malformed at h
  split_ifs at h <;> cases h <;>
    exact ⟨by simp [OutcomeCode.isPositive],
      by simp [Decision.because, Decision.add, Decision.has]⟩

/-- A grant is refused without effect, or appends its binding to a scope that can hold
it. -/
theorem grant_cases (table : AuthorityTable) (binding : AuthorityBinding)
    (allowCoexistence : Bool) :
    ((table.grant binding allowCoexistence).1 = table ∧
        (table.grant binding allowCoexistence).2.allowed = false) ∨
      table.grant binding allowCoexistence = (table.push binding, .accepted) ∧
        malformed binding = none ∧
        (binding.kind = .exclusive → table.exclusives binding.scope = 0) := by
  unfold grant
  cases hmalformed : malformed binding with
  | some refusal => exact Or.inl ⟨rfl, (malformed_refuses hmalformed).1⟩
  | none =>
    cases hexisting : table.bindings.get? binding.scope.raw with
    | some existing =>
      have hbindings : table.bindingsFor binding.scope = existing := by
        simp [bindingsFor, hexisting]
      cases hconflict : coexistenceConflict binding allowCoexistence existing with
      | some detail =>
        simp only [hconflict]
        exact Or.inl ⟨trivial, by simp [OutcomeCode.isPositive]⟩
      | none =>
        simp only [hconflict]
        refine Or.inr ⟨trivial, trivial, ?_⟩
        intro hkind
        rw [exclusives, hbindings]
        exact countP_of_coexistence hkind hconflict
    | none =>
      dsimp only
      split_ifs with hfull
      · exact Or.inl ⟨rfl, by simp [OutcomeCode.isPositive]⟩
      · refine Or.inr ⟨rfl, rfl, ?_⟩
        intro _
        simp [exclusives, bindingsFor, hexisting]

/-- A grant is refused for coexistence only when the binding itself is sound. -/
theorem malformed_of_denied {table : AuthorityTable} {binding : AuthorityBinding}
    {allowCoexistence : Bool}
    (h : (table.grant binding allowCoexistence).2.has .policyDeniesCoexistence = true) :
    malformed binding = none := by
  cases hmalformed : malformed binding with
  | none => rfl
  | some refusal =>
    have hdecision : (table.grant binding allowCoexistence).2 = refusal := by
      simp [grant, hmalformed]
    rw [hdecision, (malformed_refuses hmalformed).2] at h
    cases h

/-- Replacing the exclusive binding of a scope is refused without effect, or weakens the
table to one that has room and appends the replacement there. The displaced binding is
one the scope held. -/
theorem replaceExclusive_cases (table : AuthorityTable) (binding : AuthorityBinding) :
    ((table.replaceExclusive binding).1 = table ∧
        (table.replaceExclusive binding).2.1.allowed = false) ∨
      ∃ mid displaced,
        table.replaceExclusive binding =
          (mid.push { binding with kind := .exclusive }, .accepted, displaced) ∧
        table.Weakened mid ∧ malformed { binding with kind := .exclusive } = none ∧
        (table.exclusives binding.scope ≤ 1 → mid.exclusives binding.scope = 0) ∧
        ∀ d, displaced = some d → ∃ origin ∈ table.bindingsFor binding.scope,
          origin.isLiveExclusive = true ∧ d = origin.supersede := by
  have hgrant := table.grant_cases { binding with kind := .exclusive } true
  unfold replaceExclusive
  rcases hgrant with ⟨_, hrefused⟩ | ⟨hpushed, hsound, hroom⟩
  · simp only [hrefused, Bool.false_eq_true, if_false]
    split_ifs with hdenied
    · right
      refine ⟨_, _, rfl, ?_, malformed_of_denied hdenied, ?_, ?_⟩
      · exact weakened_modify table binding.scope weakens_supersedeFirstExclusive
      · intro hone
        simp only [exclusives, bindingsFor, OrdMap.get?_modify_self] at hone ⊢
        cases hexisting : table.bindings.get? binding.scope.raw with
        | none => rfl
        | some existing =>
          simp only [hexisting, Option.getD_some, Option.map_some] at hone ⊢
          rw [countP_supersedeFirstExclusive]
          omega
      · intro d hd
        obtain ⟨origin, horigin, rfl⟩ := Option.map_eq_some_iff.mp hd
        exact ⟨origin, List.mem_of_find?_eq_some horigin, List.find?_some horigin, rfl⟩
    · exact Or.inl ⟨rfl, hrefused⟩
  · right
    simp only [hpushed, Decision.allowed_accepted, if_true]
    refine ⟨table, none, rfl, Weakened.refl table, hsound, fun _ => hroom rfl, ?_⟩
    intro d hd
    cases hd

end AuthorityTable

end LifecycleFabric
