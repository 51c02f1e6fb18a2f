import LifecycleFabric.Engine.GrantRuns
import LifecycleFabric.Engine.Plans

/-!
# Partial authority

A canary, or a part of the traffic, serves a scope beside what else holds it. Weakening a
table makes no such binding, nor does a grant that moves exclusive authority; a grant beside
the others adds one of its own plan.
-/

namespace LifecycleFabric

open EngineState AuthorityTable

variable {c : EngineConfig} {p : Permit} {s t u : EngineState}

namespace AuthorityBinding

/-- A live binding that serves its scope beside others. -/
def isLivePartial (binding : AuthorityBinding) : Bool :=
  binding.live && (decide (binding.kind = .canary) || decide (binding.kind = .splitTraffic))

theorem isLivePartial_iff {binding : AuthorityBinding} :
    binding.isLivePartial = true ↔
      binding.live = true ∧ (binding.kind = .canary ∨ binding.kind = .splitTraffic) := by
  rw [isLivePartial, Bool.and_eq_true, Bool.or_eq_true, decide_eq_true_eq, decide_eq_true_eq]

theorem not_partial_of_dead {binding : AuthorityBinding} (h : binding.live = false) :
    binding.isLivePartial = false := by
  rw [isLivePartial, h, Bool.false_and]

/-- What a partial binding came from by losing standing is that binding itself. -/
theorem Weakens.eq_of_isLivePartial {before after : AuthorityBinding} (h : before.Weakens after)
    (hafter : after.isLivePartial = true) : after = before := by
  obtain rfl | rfl | ⟨_, _, rfl⟩ := h
  · rfl
  · rw [not_partial_of_dead rfl] at hafter
    cases hafter
  · obtain ⟨_, hkind | hkind⟩ := isLivePartial_iff.mp hafter
    · cases hkind
    · cases hkind

theorem Fades.eq_of_isLivePartial {before after : AuthorityBinding} (h : before.Fades after)
    (hafter : after.isLivePartial = true) : after = before := by
  induction h with
  | refl => rfl
  | tail _ hstep ih =>
    have hsame := hstep.eq_of_isLivePartial hafter
    rw [hsame] at hafter ⊢
    exact ih hafter

/-- The partial bindings of a list that lost standing were in the list. -/
theorem mem_of_fades {before after : List AuthorityBinding} {b : AuthorityBinding}
    (h : List.Forall₂ Fades before after) (hb : b ∈ after) (hshares : b.isLivePartial = true) :
    b ∈ before := by
  induction h with
  | nil => exact hb
  | cons hhead _ ih =>
    rcases List.mem_cons.mp hb with rfl | hb
    · rw [hhead.eq_of_isLivePartial hshares]
      exact List.mem_cons_self
    · exact List.mem_cons_of_mem _ (ih hb)

theorem mem_of_weakens {before after : List AuthorityBinding} {b : AuthorityBinding}
    (h : List.Forall₂ Weakens before after) (hb : b ∈ after)
    (hshares : b.isLivePartial = true) : b ∈ before :=
  mem_of_fades (h.imp fun _ _ hstep => Relation.ReflTransGen.single hstep) hb hshares

end AuthorityBinding

open AuthorityBinding

/-! ## Added bindings -/

variable {added added' : AuthorityBinding → Prop}

/-- Every partial binding of a state was in its place before, or has a property. -/
def AddsPartials (added : AuthorityBinding → Prop) (s t : EngineState) : Prop :=
  ∀ scope, ∀ b ∈ t.authority.bindingsFor scope, b.isLivePartial = true →
    b ∈ s.authority.bindingsFor scope ∨ added b

/-- Nothing partial is new. -/
abbrev AddsNoPartial : EngineState → EngineState → Prop := AddsPartials fun _ => False

theorem addsPartials_of_authority (h : t.authority = s.authority) : AddsPartials added s t := by
  intro scope b hb _
  rw [h] at hb
  exact Or.inl hb

theorem AddsPartials.trans (h : AddsPartials added s t) (h' : AddsPartials added t u) :
    AddsPartials added s u := by
  intro scope b hb hshares
  rcases h' scope b hb hshares with hold | hnew
  · exact h scope b hold hshares
  · exact Or.inr hnew

theorem AddsPartials.mono (h : AddsPartials added s t) (himp : ∀ b, added b → added' b) :
    AddsPartials added' s t :=
  fun scope b hb hshares => (h scope b hb hshares).imp_right (himp b)

/-- A chain that may grant nothing partial adds nothing partial. -/
theorem Chain.addsPartials (h : Chain c p s t)
    (hp : ∀ b, p.grants b → b.isLivePartial = false) : AddsPartials added s t := by
  intro scope b hb hshares
  have hgrew := h.grew scope
  rw [← List.take_append_drop (s.authority.bindingsFor scope).length
    (t.authority.bindingsFor scope)] at hb
  rcases List.mem_append.mp hb with hold | hnew
  · exact Or.inl (mem_of_fades hgrew.kept hold hshares)
  · obtain ⟨origin, ⟨hgrants, _⟩, hfades⟩ := hgrew.added b hnew
    have hnone := hp origin hgrants
    rw [← hfades.eq_of_isLivePartial hshares, hshares] at hnone
    cases hnone

/-! ## Grants -/

/-- The partial bindings a grant may add: none when it moves exclusive authority, and those
of its plan otherwise. -/
def GrantRequest.addsPartial (g : GrantRequest) (b : AuthorityBinding) : Prop :=
  g.supersedeExisting = false ∧ b.rollout = (g.plan.map RolloutPlan.id).getD {}

theorem grantAuthority_addsPartials (hs : Coherent s) (hstanding : Standing s)
    (g : GrantRequest) : AddsPartials g.addsPartial s (s.grantAuthority g).1 := by
  intro scope b hb hshares
  by_cases hscope : scope = g.scope
  · subst hscope
    cases hadmitted : g.admitted s with
    | false =>
      rcases (grantAuthority_refused hs hstanding hadmitted).2 with hsame | hbumped
      · rw [hsame] at hb
        exact Or.inl hb
      · rw [hbumped] at hb
        exact Or.inl hb
    | true =>
      obtain ⟨record, scopeRecord, retained, _, _, hretained, hlist⟩ :=
        (grantAuthority_admitted hs hstanding hadmitted).2.bindingsFor_self
      rw [hlist] at hb
      rcases List.mem_append.mp hb with hold | hnew
      · exact Or.inl (mem_of_weakens (g.weakens_keeps _) hold hshares)
      · obtain ⟨_, hkind⟩ := isLivePartial_iff.mp hshares
        rcases List.mem_cons.mp hnew with rfl | hnew
        · cases hsupersede : g.supersedeExisting with
          | false => exact Or.inr ⟨hsupersede, rfl⟩
          | true => simp [grantedBinding, hsupersede] at hkind
        · rw [hretained b hnew] at hkind
          rcases hkind with hkind | hkind
          · cases hkind
          · cases hkind
  · rw [grantAuthority_elsewhere hs hstanding g hscope] at hb
    exact Or.inl hb

/-- A grant that moves exclusive authority adds nothing partial. -/
theorem grantAuthority_addsNoPartial (hs : Coherent s) (hstanding : Standing s)
    {g : GrantRequest} (hsupersede : g.supersedeExisting = true) :
    AddsNoPartial s (s.grantAuthority g).1 := by
  refine (grantAuthority_addsPartials hs hstanding g).mono ?_
  rintro b ⟨hbeside, _⟩
  rw [hsupersede] at hbeside
  cases hbeside

/-- A run of grants adds what its grants may add. -/
theorem grantOver_addsPartials {grant : ScopeId → GrantRequest}
    {after : ScopeId → EngineState → EngineState} {scopes : List ScopeId}
    (hnames : ∀ scope t, t.rollouts = s.rollouts → (grant scope).NamesStored t)
    (hafter : ∀ scope t, Steady s t →
      Steady s (after scope t) ∧ AddsPartials added t (after scope t))
    (hadded : ∀ scope b, (grant scope).addsPartial b → added b) (ht : Steady s t) :
    AddsPartials added t (grantOver grant after scopes t).1 := by
  refine (grantOver_preserves (P := fun u => Steady s u ∧ AddsPartials added t u) ?_ ?_
    ⟨ht, addsPartials_of_authority rfl⟩).2
  · rintro scope _ u ⟨hu, hadds⟩ _
    have hgrant := grantAuthority_addsPartials hu.coherent hu.standing (grant scope)
    exact ⟨hu.grant (hnames scope u hu.plans), hadds.trans (hgrant.mono (hadded scope))⟩
  · rintro scope _ u ⟨hu, hadds⟩ _
    have hgrant := grantAuthority_addsPartials hu.coherent hu.standing (grant scope)
    obtain ⟨hsteady, hfollows⟩ := hafter scope _ (hu.grant (hnames scope u hu.plans))
    exact ⟨hsteady, (hadds.trans (hgrant.mono (hadded scope))).trans hfollows⟩

end LifecycleFabric
