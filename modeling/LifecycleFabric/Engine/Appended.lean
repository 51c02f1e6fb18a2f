import LifecycleFabric.Engine.Admission

/-!
# What a step appends

The list of a scope only grows at its end. What was there stays in its place and at most
loses standing; what follows was appended, and each binding of it came from one that the
permit of the operation allows.
-/

namespace LifecycleFabric

open EngineState AuthorityTable

variable {c : EngineConfig} {p : Permit} {s s' s'' : EngineState}

/-! ## Bindings that lost standing -/

/-- A binding that came from another by losing standing. -/
abbrev AuthorityBinding.Fades : AuthorityBinding → AuthorityBinding → Prop :=
  Relation.ReflTransGen AuthorityBinding.Weakens

namespace AuthorityBinding

theorem Fades.same {before after : AuthorityBinding} (h : before.Fades after) :
    after.scope = before.scope ∧ after.model = before.model ∧ after.version = before.version ∧
      after.modelGeneration = before.modelGeneration := by
  induction h with
  | refl => exact ⟨rfl, rfl, rfl, rfl⟩
  | tail _ hstep ih =>
    obtain ⟨hscope, hmodel, hversion, hgeneration⟩ := ih
    obtain ⟨hscope', hmodel', hversion', hgeneration', _⟩ := hstep.same
    exact ⟨hscope'.trans hscope, hmodel'.trans hmodel, hversion'.trans hversion,
      hgeneration'.trans hgeneration⟩

theorem Fades.exclusive_of_exclusive {before after : AuthorityBinding} (h : before.Fades after)
    (hafter : after.isLiveExclusive = true) : before.isLiveExclusive = true := by
  induction h with
  | refl => exact hafter
  | tail _ hstep ih => exact ih (hstep.exclusive_of_exclusive hafter)

end AuthorityBinding

/-! ## Lists that grew -/

/-- What one list of bindings became: its bindings stay in their places and at most lose
standing, and what follows them came from bindings with a property. -/
structure Grew (granted : AuthorityBinding → Prop) (before after : List AuthorityBinding) :
    Prop where
  length : before.length ≤ after.length
  kept : List.Forall₂ AuthorityBinding.Fades before (after.take before.length)
  added : ∀ b ∈ after.drop before.length, ∃ origin, granted origin ∧ origin.Fades b

variable {granted : AuthorityBinding → Prop} {before after after' : List AuthorityBinding}

theorem Grew.refl (granted : AuthorityBinding → Prop) (bindings : List AuthorityBinding) :
    Grew granted bindings bindings where
  length := le_rfl
  kept := by
    rw [List.take_length]
    exact List.forall₂_same.mpr fun _ _ => Relation.ReflTransGen.refl
  added b hb := by
    rw [List.drop_length] at hb
    cases hb

private theorem forall₂_fades_trans {first second third : List AuthorityBinding}
    (h : List.Forall₂ AuthorityBinding.Fades first second)
    (h' : List.Forall₂ AuthorityBinding.Weakens second third) :
    List.Forall₂ AuthorityBinding.Fades first third := by
  induction h generalizing third with
  | nil =>
    cases h'
    exact .nil
  | cons hhead _ ih =>
    cases h' with
    | cons hhead' htail' => exact .cons (hhead.tail hhead') (ih htail')

/-- A list that grew and was then weakened grew. -/
theorem Grew.weaken (h : Grew granted before after)
    (h' : List.Forall₂ AuthorityBinding.Weakens after after') : Grew granted before after' where
  length := by
    rw [← h'.length_eq]
    exact h.length
  kept := forall₂_fades_trans h.kept (List.forall₂_take _ h')
  added b hb := by
    have hdropped := List.forall₂_drop before.length h'
    obtain ⟨i, hi, rfl⟩ := List.mem_iff_getElem.mp hb
    have hi' : i < (after.drop before.length).length := hdropped.length_eq ▸ hi
    obtain ⟨origin, hgranted, hfades⟩ := h.added _ (List.getElem_mem hi')
    exact ⟨origin, hgranted, hfades.tail (hdropped.get hi' hi)⟩

/-- A list that grew and got another permitted binding grew. -/
theorem Grew.append (h : Grew granted before after) {binding : AuthorityBinding}
    (hgranted : granted binding) : Grew granted before (after ++ [binding]) where
  length := by
    rw [List.length_append]
    have hlength := h.length
    omega
  kept := by
    rw [List.take_append_of_le_length h.length]
    exact h.kept
  added b hb := by
    rw [List.drop_append_of_le_length h.length, List.mem_append] at hb
    rcases hb with hb | hb
    · exact h.added b hb
    · rw [List.mem_singleton.mp hb]
      exact ⟨binding, hgranted, Relation.ReflTransGen.refl⟩

/-! ## Chains -/

/-- What a chain does to the list of a scope. Each binding it appends was permitted, and
could be granted in a state on the way. -/
theorem Chain.grew (h : Chain c p s s') (scope : ScopeId) :
    Grew (fun b => p.grants b ∧ b.scope = scope ∧ ∃ t, Chain c p s t ∧ Grantable t b)
      (s.authority.bindingsFor scope) (s'.authority.bindingsFor scope) := by
  induction h with
  | refl => exact Grew.refl _ _
  | @tail mid last hbefore hstep ih =>
    cases hstep with
    | weaken table hweakened => exact ih.weaken (hweakened.bindings scope)
    | append weakened binding hweakened hroom hbinding hp =>
      have hkept := ih.weaken (hweakened.bindings scope)
      have hlist := bindingsFor_push weakened binding scope
      by_cases hscope : scope = binding.scope
      · rw [if_pos hscope] at hlist
        dsimp only
        rw [hlist]
        exact hkept.append ⟨hp, hscope.symm, mid, hbefore, hbinding⟩
      · rw [if_neg hscope, List.append_nil] at hlist
        dsimp only
        rw [hlist]
        exact hkept
    | _ => exact ih

/-- The bindings a step appended to the list of a scope. -/
def EngineState.appended (s s' : EngineState) (scope : ScopeId) : List AuthorityBinding :=
  (s'.authority.bindingsFor scope).drop (s.authority.bindingsFor scope).length

/-- A chain that may grant nothing appends nothing. -/
theorem Chain.appended_nil (h : Chain c p s s') (hp : ∀ b, ¬p.grants b) (scope : ScopeId) :
    s.appended s' scope = [] := by
  refine List.eq_nil_iff_forall_not_mem.mpr ?_
  intro b hb
  obtain ⟨origin, ⟨hgrants, _⟩, _⟩ := (h.grew scope).added b hb
  exact hp origin hgrants

/-- Every binding a chain appends has the model and the version of a permitted one. -/
theorem Chain.appended_permitted (h : Chain c p s s') {scope : ScopeId} {b : AuthorityBinding}
    (hb : b ∈ s.appended s' scope) : ∃ origin, p.grants origin ∧ origin.Fades b := by
  obtain ⟨origin, ⟨hgrants, _⟩, hfades⟩ := (h.grew scope).added b hb
  exact ⟨origin, hgrants, hfades⟩

/-- A chain that may grant nothing leaves the length of every list. -/
theorem Chain.length_bindingsFor (h : Chain c p s s') (hp : ∀ b, ¬p.grants b) (scope : ScopeId) :
    (s'.authority.bindingsFor scope).length = (s.authority.bindingsFor scope).length := by
  have hnone := h.appended_nil hp scope
  rw [EngineState.appended, List.drop_eq_nil_iff] at hnone
  exact Nat.le_antisymm hnone (h.grew scope).length

/-! ## Admitted grants -/

theorem bindingsFor_pushAll_self {scope : ScopeId} (bindings : List AuthorityBinding)
    (table : AuthorityTable) (hbindings : ∀ b ∈ bindings, b.scope = scope) :
    (bindings.foldl push table).bindingsFor scope = table.bindingsFor scope ++ bindings := by
  induction bindings generalizing table with
  | nil => exact (List.append_nil _).symm
  | cons binding rest ih =>
    rw [List.foldl_cons, ih _ fun b hb => hbindings b (List.mem_cons_of_mem _ hb),
      bindingsFor_push, hbindings binding List.mem_cons_self, if_pos rfl, List.append_assoc,
      List.singleton_append]

/-- What a grant leaves of the list it appends to. -/
def GrantRequest.keeps (g : GrantRequest) (bindings : List AuthorityBinding) :
    List AuthorityBinding :=
  if g.supersedeExisting then supersedeFirstExclusive bindings else bindings

theorem GrantRequest.weakens_keeps (g : GrantRequest) (bindings : List AuthorityBinding) :
    List.Forall₂ AuthorityBinding.Weakens bindings (g.keeps bindings) := by
  unfold GrantRequest.keeps
  split_ifs
  · exact weakens_supersedeFirstExclusive bindings
  · exact weakens_list_refl bindings

theorem bindingsFor_withdrawExclusive (table : AuthorityTable) (scope : ScopeId) :
    (table.withdrawExclusive scope).bindingsFor scope =
      supersedeFirstExclusive (table.bindingsFor scope) := by
  rw [withdrawExclusive, bindingsFor, OrdMap.get?_modify_self, bindingsFor]
  cases table.bindings.get? scope.raw <;> rfl

/-- Placing a binding appends it to what the grant keeps. -/
theorem bindingsFor_placedTable (g : GrantRequest) {binding : AuthorityBinding}
    (hscope : binding.scope = g.scope) :
    (g.placedTable s binding).bindingsFor g.scope =
      g.keeps (s.authority.bindingsFor g.scope) ++ [binding] := by
  rw [GrantRequest.placedTable, bindingsFor_push, GrantRequest.keeps, hscope]
  refine congrArg₂ (· ++ ·) ?_ (if_pos rfl)
  split_ifs
  · exact bindingsFor_withdrawExclusive s.authority g.scope
  · rfl

/-- The list of the scope of an admitted grant: what was kept, the granted binding, and
what was retained, if anything. -/
theorem Granted.bindingsFor_placed {g : GrantRequest} (h : Granted s g s') :
    ∃ record scopeRecord, ∃ retained : List AuthorityBinding,
      s.versionOf g.model g.version = some record ∧ s.scopes.find g.scope = some scopeRecord ∧
      retained.length = (if g.retains s then 1 else 0) ∧
      (∀ b ∈ retained, b.kind = .rollbackRetained) ∧
      s'.authority.bindingsFor g.scope = g.keeps (s.authority.bindingsFor g.scope) ++
        s.bumpSequence.grantedBinding g record scopeRecord.generation :: retained := by
  obtain ⟨record, scopeRecord, hrecord, hscope, retained, hlength, hretained, htable⟩ := h.placed
  refine ⟨record, scopeRecord, retained, hrecord, hscope, hlength, fun b hb => (hretained b hb).2,
    ?_⟩
  rw [htable, bindingsFor_pushAll_self retained _ fun b hb => (hretained b hb).1,
    bindingsFor_placedTable g rfl, List.append_assoc, List.singleton_append]

theorem Granted.bindingsFor_self {g : GrantRequest} (h : Granted s g s') :
    ∃ record scopeRecord, ∃ retained : List AuthorityBinding,
      s.versionOf g.model g.version = some record ∧ s.scopes.find g.scope = some scopeRecord ∧
      (∀ b ∈ retained, b.kind = .rollbackRetained) ∧
      s'.authority.bindingsFor g.scope = g.keeps (s.authority.bindingsFor g.scope) ++
        s.bumpSequence.grantedBinding g record scopeRecord.generation :: retained := by
  obtain ⟨record, scopeRecord, retained, hrecord, hscope, _, hretained, hlist⟩ :=
    h.bindingsFor_placed
  exact ⟨record, scopeRecord, retained, hrecord, hscope, hretained, hlist⟩

/-- A grant that retains nothing appends the granted binding alone. -/
theorem Granted.bindingsFor_alone {g : GrantRequest} (h : Granted s g s')
    (hnone : g.retains s = false) :
    ∃ record scopeRecord,
      s.versionOf g.model g.version = some record ∧ s.scopes.find g.scope = some scopeRecord ∧
      s'.authority.bindingsFor g.scope = g.keeps (s.authority.bindingsFor g.scope) ++
        [s.bumpSequence.grantedBinding g record scopeRecord.generation] := by
  obtain ⟨record, scopeRecord, retained, hrecord, hscope, hlength, _, hlist⟩ :=
    h.bindingsFor_placed
  rw [hnone, if_neg Bool.false_ne_true] at hlength
  rw [List.length_eq_zero_iff.mp hlength] at hlist
  exact ⟨record, scopeRecord, hrecord, hscope, hlist⟩

/-- A grant leaves the lists of the other scopes alone. -/
theorem grantAuthority_elsewhere (hs : Coherent s) (hstanding : Standing s) (g : GrantRequest)
    {scope : ScopeId} (hne : scope ≠ g.scope) :
    (s.grantAuthority g).1.authority.bindingsFor scope = s.authority.bindingsFor scope := by
  cases hadmitted : g.admitted s with
  | true => exact (grantAuthority_admitted hs hstanding hadmitted).2.bindingsFor_of_ne hne
  | false =>
    rcases (grantAuthority_refused hs hstanding hadmitted).2 with hsame | hbumped
    · rw [hsame]
    · rw [hbumped]
      rfl

end LifecycleFabric
