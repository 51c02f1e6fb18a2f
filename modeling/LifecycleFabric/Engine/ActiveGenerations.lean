import LifecycleFabric.Engine.GrantRuns
import LifecycleFabric.Engine.StageGrants

/-!
# The generations active in a scope

A live binding counts for the generation it was granted for, unless it only retains that
generation for a rollback. Losing standing adds no generation to a scope, and a grant adds
that of the version it serves.
-/

namespace LifecycleFabric

open EngineState AuthorityTable

variable {c : EngineConfig} {p : Permit} {s t : EngineState}

/-! ## Lists of bindings -/

/-- A version of a model at one of its generations. -/
abbrev HeldGeneration := ModelId × ModelVersionId × ModelGeneration

namespace AuthorityBinding

/-- The generation a binding was granted for. -/
def held (binding : AuthorityBinding) : HeldGeneration :=
  (binding.model, binding.version, binding.modelGeneration)

/-- Whether a binding counts for its generation. -/
def active (binding : AuthorityBinding) : Bool :=
  binding.live && decide (binding.kind ≠ .rollbackRetained)

theorem active_iff {binding : AuthorityBinding} :
    binding.active = true ↔ binding.live = true ∧ binding.kind ≠ .rollbackRetained := by
  rw [active, Bool.and_eq_true, decide_eq_true_eq]

theorem Weakens.active_of_active {before after : AuthorityBinding} (h : before.Weakens after)
    (hafter : after.active = true) : before.active = true ∧ after.held = before.held := by
  rw [active_iff] at hafter ⊢
  obtain rfl | rfl | ⟨hlive, hkind, rfl⟩ := h
  · exact ⟨hafter, rfl⟩
  · cases hafter.1
  · exact ⟨⟨hlive, hkind⟩, rfl⟩

/-- Draining a binding leaves what it counts for. -/
theorem active_drain (model : ModelId) (version : ModelVersionId) (binding : AuthorityBinding) :
    (drain model version binding).active = binding.active ∧
      (drain model version binding).held = binding.held := by
  unfold drain
  split_ifs with h
  · obtain ⟨hlive, _, _, hserving⟩ := h
    have hbefore : binding.active = true := active_iff.mpr ⟨hlive, hserving⟩
    refine ⟨?_, rfl⟩
    rw [hbefore, active_iff]
    exact ⟨hlive, by simp⟩
  · exact ⟨rfl, rfl⟩

end AuthorityBinding

/-- The generations some bindings count for. -/
def activeGenerations (bindings : List AuthorityBinding) : Finset HeldGeneration :=
  ((bindings.filter AuthorityBinding.active).map AuthorityBinding.held).toFinset

variable {bindings before after : List AuthorityBinding} {generation : HeldGeneration}

theorem mem_activeGenerations :
    generation ∈ activeGenerations bindings ↔
      ∃ b ∈ bindings, b.active = true ∧ b.held = generation := by
  simp [activeGenerations, and_assoc]

@[simp] theorem activeGenerations_nil : activeGenerations [] = ∅ := rfl

theorem activeGenerations_append (bindings added : List AuthorityBinding) :
    activeGenerations (bindings ++ added) = activeGenerations bindings ∪ activeGenerations added := by
  simp [activeGenerations]

theorem activeGenerations_cons {binding : AuthorityBinding} (hactive : binding.active = true) :
    activeGenerations (binding :: bindings) =
      insert binding.held (activeGenerations bindings) := by
  simp [activeGenerations, hactive]

theorem activeGenerations_inactive (hbindings : ∀ b ∈ bindings, b.active = false) :
    activeGenerations bindings = ∅ := by
  rw [Finset.eq_empty_iff_forall_notMem]
  intro generation hmem
  obtain ⟨b, hb, hactive, _⟩ := mem_activeGenerations.mp hmem
  rw [hbindings b hb] at hactive
  cases hactive

/-- Losing standing adds no generation. -/
theorem activeGenerations_weakens (h : List.Forall₂ AuthorityBinding.Weakens before after) :
    activeGenerations after ⊆ activeGenerations before := by
  intro generation hmem
  obtain ⟨b, hb, hactive, rfl⟩ := mem_activeGenerations.mp hmem
  obtain ⟨i, hi, rfl⟩ := List.mem_iff_getElem.mp hb
  have hi' : i < before.length := h.length_eq ▸ hi
  obtain ⟨hbefore, hheld⟩ := (h.get hi' hi).active_of_active hactive
  exact mem_activeGenerations.mpr ⟨_, List.getElem_mem hi', hbefore, hheld.symm⟩

/-- Draining a version leaves the active generations. -/
theorem activeGenerations_drain (model : ModelId) (version : ModelVersionId)
    (bindings : List AuthorityBinding) :
    activeGenerations (bindings.map (drain model version)) = activeGenerations bindings := by
  ext generation
  rw [mem_activeGenerations, mem_activeGenerations]
  constructor
  · rintro ⟨drained, hdrained, hactive, hheld⟩
    obtain ⟨b, hb, rfl⟩ := List.mem_map.mp hdrained
    obtain ⟨hsame, hkept⟩ := AuthorityBinding.active_drain model version b
    exact ⟨b, hb, hsame ▸ hactive, hkept ▸ hheld⟩
  · rintro ⟨b, hb, hactive, hheld⟩
    obtain ⟨hsame, hkept⟩ := AuthorityBinding.active_drain model version b
    exact ⟨_, List.mem_map_of_mem hb, hsame.trans hactive, hkept.trans hheld⟩

/-! ## Scopes -/

namespace EngineState

/-- The generations active in a scope. -/
def activeIn (s : EngineState) (scope : ScopeId) : Finset HeldGeneration :=
  activeGenerations (s.authority.bindingsFor scope)

/-- The generation a version is at. -/
def heldBy (s : EngineState) (model : ModelId) (version : ModelVersionId) : HeldGeneration :=
  (model, version, ((s.versionOf model version).map ModelVersionRecord.generation).getD {})

end EngineState

variable {model : ModelId} {version : ModelVersionId}

/-- Effects that grant nothing that counts in a scope add no generation to it. -/
theorem Chain.activeIn_subset (h : Chain c p s t) {scope : ScopeId}
    (hp : ∀ b, p.grants b → b.scope = scope → b.kind = .rollbackRetained) :
    t.activeIn scope ⊆ s.activeIn scope := by
  refine Runs.chain_preserves (P := fun u => u.activeIn scope ⊆ s.activeIn scope) ?_ h
    (Finset.Subset.refl _)
  intro u v huv hu
  cases huv with
  | weaken table htable => exact (activeGenerations_weakens (htable.bindings scope)).trans hu
  | append mid binding hmid _ _ hgrants =>
    refine Finset.Subset.trans ?_ hu
    rw [activeIn, bindingsFor_push, activeGenerations_append]
    apply Finset.union_subset (activeGenerations_weakens (hmid.bindings scope))
    split_ifs with hscope
    · rw [activeGenerations_inactive]
      · exact Finset.empty_subset _
      · intro b hb
        rw [List.mem_singleton.mp hb, AuthorityBinding.active,
          hp binding hgrants hscope.symm, Bool.and_eq_false_iff]
        exact Or.inr rfl
    · exact Finset.empty_subset _
  | _ => exact hu

/-! ## The generation of a version -/

theorem heldBy_modifyVersion (s : EngineState) {model' : ModelId} {version' : ModelVersionId}
    {f : ModelVersionRecord → ModelVersionRecord}
    (hf : ∀ record, (f record).generation = record.generation) :
    (s.modifyVersion model' version' f).heldBy model version = s.heldBy model version := by
  rw [heldBy, heldBy, versionOf_modifyVersion]
  cases s.versionOf model version with
  | none => rfl
  | some record =>
    rw [Option.map_some, Option.map_some, Option.map_some]
    split_ifs
    · rw [hf]
    · rfl

theorem heldBy_advanceVersion (s : EngineState) (model' : ModelId) (version' : ModelVersionId)
    (target : LifecycleState) :
    (s.advanceVersion model' version' target).heldBy model version = s.heldBy model version :=
  heldBy_modifyVersion s fun record => advance_generation record target

theorem heldBy_stampVersion (s : EngineState) (model' : ModelId) (version' : ModelVersionId) :
    (s.stampVersion model' version').heldBy model version = s.heldBy model version :=
  heldBy_modifyVersion s.bumpSequence fun _ => rfl

theorem heldBy_recordStage (s : EngineState) (model' : ModelId) (version' : ModelVersionId)
    (stage : RolloutStageId) (generation : RolloutStageGeneration) :
    (s.recordStage model' version' stage generation).heldBy model version =
      s.heldBy model version :=
  heldBy_modifyVersion s fun _ => rfl

theorem heldBy_demoteDisplaced (s : EngineState) (model' : ModelId) (version' : ModelVersionId) :
    (s.demoteDisplaced model' version').heldBy model version = s.heldBy model version := by
  unfold demoteDisplaced
  split_ifs
  · exact heldBy_advanceVersion s model' version' .draining
  · split
    · split_ifs
      · exact heldBy_advanceVersion s model' version' .partiallyPromoted
      · rfl
    · rfl

theorem heldBy_settleDisplaced (s : EngineState) (g : GrantRequest)
    (scopeGeneration : ScopeGeneration) (displaced : AuthorityBinding) :
    (s.settleDisplaced g scopeGeneration displaced).1.heldBy model version =
      s.heldBy model version := by
  unfold settleDisplaced
  split
  · rfl
  · split_ifs
    · rfl
    · dsimp only
      split_ifs
      · rfl
      · exact heldBy_demoteDisplaced _ _ _
    · exact heldBy_demoteDisplaced _ _ _

/-- A grant leaves the generation of every version. -/
theorem heldBy_grantAuthority (s : EngineState) (g : GrantRequest) :
    (s.grantAuthority g).1.heldBy model version = s.heldBy model version := by
  unfold grantAuthority
  split
  · rfl
  · split_ifs
    · rfl
    · split
      · rfl
      · dsimp only
        split_ifs
        · rfl
        · split
          · split_ifs
            · rfl
            · exact heldBy_settleDisplaced _ _ _ _
            · exact heldBy_settleDisplaced _ _ _ _
          · rfl

/-! ## Grants -/

/-- A grant that counts adds the generation of its version to what it keeps of its scope. -/
theorem Granted.activeIn_self {g : GrantRequest} (h : Granted s g t) (hs : Coherent s)
    (hkind : g.supersedeExisting = true ∨ g.kind ≠ .rollbackRetained) :
    t.activeIn g.scope = insert (s.heldBy g.model g.version)
      (activeGenerations (g.keeps (s.authority.bindingsFor g.scope))) := by
  obtain ⟨record, scopeRecord, retained, hrecord, _, hretained, hlist⟩ := h.bindingsFor_self
  obtain ⟨hmodel, hversion⟩ := versionKey_inj.mp (hs.versions _ record hrecord)
  have hactive : (s.bumpSequence.grantedBinding g record scopeRecord.generation).active = true := by
    refine AuthorityBinding.active_iff.mpr ⟨rfl, ?_⟩
    change (if g.supersedeExisting then AuthorityKind.exclusive else g.kind) ≠ .rollbackRetained
    rcases hkind with hmoves | hcounts
    · rw [if_pos hmoves]
      decide
    · split_ifs
      · decide
      · exact hcounts
  have hheld : (s.bumpSequence.grantedBinding g record scopeRecord.generation).held =
      s.heldBy g.model g.version := by
    rw [heldBy, hrecord, hmodel, hversion]
    rfl
  have hinactive : ∀ b ∈ retained, b.active = false := by
    intro b hb
    rw [AuthorityBinding.active, hretained b hb, Bool.and_eq_false_iff]
    exact Or.inr rfl
  rw [activeIn, hlist, activeGenerations_append, activeGenerations_cons hactive,
    activeGenerations_inactive hinactive, hheld, Finset.union_insert, Finset.union_empty]

theorem activeIn_of_bindingsFor {scope : ScopeId}
    (h : t.authority.bindingsFor scope = s.authority.bindingsFor scope) :
    t.activeIn scope = s.activeIn scope := by
  rw [activeIn, activeIn, h]

/-! ## Runs of grants -/

/-- The scopes a run of grants is admitted to: it ends at the first refusal. -/
def EngineState.grantsOver (s : EngineState) (grant : ScopeId → GrantRequest) :
    List ScopeId → ℕ → List ScopeId → List ScopeId
  | _, _, [] => []
  | taken, used, scope :: scopes =>
    if (grant scope).admittedAfter s taken used then
      scope :: s.grantsOver grant (scope :: taken) (used + (grant scope).places s) scopes
    else []

theorem mem_of_mem_grantsOver {grant : ScopeId → GrantRequest} {taken : List ScopeId} {used : ℕ}
    {scopes : List ScopeId} {scope : ScopeId} (h : scope ∈ s.grantsOver grant taken used scopes) :
    scope ∈ scopes := by
  induction scopes generalizing taken used with
  | nil => cases h
  | cons first scopes ih =>
    unfold EngineState.grantsOver at h
    split_ifs at h
    · rcases List.mem_cons.mp h with rfl | h
      · exact List.mem_cons_self
      · exact List.mem_cons_of_mem _ (ih h)
    · cases h

variable {plans : OrdMap UInt64 RolloutPlan} {taken : List ScopeId} {used : ℕ}

/-- What a run of grants for a version leaves active: each scope it is admitted to gains the
generation of the version. -/
theorem activeIn_grantOver (grant : ScopeId → GrantRequest)
    (after : ScopeId → EngineState → EngineState)
    (hgrant : ∀ scope, (grant scope).scope = scope ∧ (grant scope).forStage model version)
    (hnames : ∀ scope t, t.rollouts = plans → (grant scope).NamesStored t)
    (hafter : ∀ scope taken used t, scope ∈ taken → Ahead s plans model version taken used t →
      Ahead s plans model version taken used (after scope t))
    (hkept : ∀ scope t, (after scope t).heldBy model version = t.heldBy model version ∧
      (∀ other, (after scope t).activeIn other = t.activeIn other) ∧
      ∀ other, other ≠ scope →
        (after scope t).authority.bindingsFor other = t.authority.bindingsFor other)
    {scopes : List ScopeId} (hnodup : scopes.Nodup)
    (hfresh : ∀ scope ∈ scopes, (grant scope).supersedeExisting = true → scope ∉ taken)
    (h : Ahead s plans model version taken used t) (other : ScopeId) :
    (grantOver grant after scopes t).1.activeIn other =
      if other ∈ s.grantsOver grant taken used scopes then
        insert (t.heldBy model version)
          (activeGenerations ((grant other).keeps (t.authority.bindingsFor other)))
      else t.activeIn other := by
  induction scopes generalizing taken used t with
  | nil => rfl
  | cons scope scopes ih =>
    obtain ⟨hscope, hmodel, hversion, hkind⟩ := hgrant scope
    obtain ⟨hnew, hrest⟩ := List.nodup_cons.mp hnodup
    have hadmits := h.admitted ⟨hmodel, hversion, hkind⟩
    unfold grantOver EngineState.grantsOver
    cases hadmitted : (grant scope).admittedAfter s taken used with
    | false =>
      rw [hadmitted] at hadmits
      obtain ⟨hrefused, hstate⟩ := grantAuthority_refused h.coherent h.standing hadmits
      dsimp only
      rw [hrefused, Bool.not_false, if_pos rfl, if_neg Bool.false_ne_true,
        if_neg List.not_mem_nil]
      rcases hstate with hsame | hbumped
      · rw [hsame]
      · rw [hbumped]
        rfl
    | true =>
      rw [hadmitted] at hadmits
      obtain ⟨hallowed, hgranted⟩ := grantAuthority_admitted h.coherent h.standing hadmits
      have hahead := h.grant (hnames scope t h.plans)
        (fun hsupersede => by
          rw [hscope]
          exact hfresh scope List.mem_cons_self hsupersede) hadmits
      rw [hscope] at hahead
      obtain ⟨hheld, hactive, helsewhere⟩ := hkept scope (t.grantAuthority (grant scope)).1
      have hnext := ih hrest (by
        intro next hnext hsupersede htaken
        rcases List.mem_cons.mp htaken with rfl | htaken
        · exact hnew hnext
        · exact hfresh next (List.mem_cons_of_mem _ hnext) hsupersede htaken)
        (hafter scope _ _ _ List.mem_cons_self hahead)
      rw [hheld, heldBy_grantAuthority, hactive] at hnext
      dsimp only
      rw [hallowed, Bool.not_true, if_neg Bool.false_ne_true, if_pos rfl, hnext]
      by_cases hother : other = scope
      · subst hother
        have hself := hgranted.activeIn_self h.coherent (by
          cases hsupersede : (grant other).supersedeExisting with
          | true => exact Or.inl rfl
          | false =>
            rw [hkind hsupersede]
            exact Or.inr (by decide))
        rw [hscope, hmodel, hversion] at hself
        rw [if_neg fun hmem => hnew (mem_of_mem_grantsOver hmem), if_pos List.mem_cons_self, hself]
      · have hlist : (after scope (t.grantAuthority (grant scope)).1).authority.bindingsFor other =
            t.authority.bindingsFor other :=
          (helsewhere other hother).trans
            (hgranted.bindingsFor_of_ne (by rw [hscope]; exact hother))
        have hlist' : (t.grantAuthority (grant scope)).1.authority.bindingsFor other =
            t.authority.bindingsFor other :=
          hgranted.bindingsFor_of_ne (by rw [hscope]; exact hother)
        rw [hlist, activeIn_of_bindingsFor hlist']
        simp only [List.mem_cons, hother, false_or]

end LifecycleFabric
