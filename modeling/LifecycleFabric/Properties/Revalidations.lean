import LifecycleFabric.Engine.Standing
import LifecycleFabric.Properties.Holders
import LifecycleFabric.Properties.Lifecycles
import LifecycleFabric.Properties.Rollbacks

/-!
# What a revalidation withdraws

A revalidation is meant to withdraw the provisional bindings of its version and to leave
committed authority. It supersedes every scope in which the version holds a provisional
binding as a whole, so it does so exactly when nothing else is live in those scopes.
-/

namespace LifecycleFabric

open EngineState AuthorityTable

variable {c : EngineConfig} {s : EngineState} {model : ModelId} {version : ModelVersionId}

/-- A live binding of a version that does not hold its scope exclusively. -/
def AuthorityBinding.provisionalOf (binding : AuthorityBinding) (model : ModelId)
    (version : ModelVersionId) : Bool :=
  binding.live && binding.ofVersion model version && decide (binding.kind ≠ .exclusive)

/-- A binding is kept, or superseded as a provisional one of a version. -/
def AuthorityBinding.WithdrawnAs (model : ModelId) (version : ModelVersionId)
    (before after : AuthorityBinding) : Prop :=
  after = before ∨ before.provisionalOf model version = true ∧ after = before.supersede

/-- Of all bindings only the provisional ones of a version may be superseded. -/
def WithdrawsOwn (model : ModelId) (version : ModelVersionId) (s s' : EngineState) : Prop :=
  ∀ scope, List.Forall₂ (AuthorityBinding.WithdrawnAs model version)
    (s.authority.bindingsFor scope) (s'.authority.bindingsFor scope)

/-- Where a version holds a provisional binding, no other binding is live. -/
def ProvisionalAlone (s : EngineState) (model : ModelId) (version : ModelVersionId) : Prop :=
  ∀ scope, (∃ binding ∈ s.authority.liveBindingsFor scope,
      binding.provisionalOf model version = true) →
    ∀ binding ∈ s.authority.liveBindingsFor scope, binding.provisionalOf model version = true

/-! ## The scopes a revalidation supersedes -/

/-- Whether a version holds a provisional binding in a scope. -/
def AuthorityTable.provisionalIn (table : AuthorityTable) (model : ModelId)
    (version : ModelVersionId) (scope : ScopeId) : Bool :=
  (table.bindingsFor scope).any (·.provisionalOf model version)

theorem provisionalIn_iff {table : AuthorityTable} {scope : ScopeId} :
    table.provisionalIn model version scope = true ↔
      ∃ binding ∈ table.liveBindingsFor scope, binding.provisionalOf model version = true := by
  rw [AuthorityTable.provisionalIn, List.any_eq_true]
  constructor
  · rintro ⟨binding, hbinding, hprovisional⟩
    have hlive : binding.live = true := by
      simp only [AuthorityBinding.provisionalOf, Bool.and_eq_true] at hprovisional
      exact hprovisional.1.1
    exact ⟨binding, List.mem_filter.mpr ⟨hbinding, hlive⟩, hprovisional⟩
  · rintro ⟨binding, hbinding, hprovisional⟩
    exact ⟨binding, List.mem_of_mem_filter hbinding, hprovisional⟩

theorem supersede_of_not_live {binding : AuthorityBinding} (h : binding.live = false) :
    binding.supersede = binding := by
  have hsuperseded : binding.superseded = true := by simpa [AuthorityBinding.live] using h
  simp [AuthorityBinding.supersede, ← hsuperseded]

/-- Superseding the scopes of some bindings rewrites those scopes and no other. -/
theorem bindingsFor_supersedeScopes (bindings : List AuthorityBinding) (s : EngineState)
    (scope : ScopeId) :
    (bindings.foldl (fun s binding => s.mapAuthority (·.supersedeScope binding.scope))
        s).authority.bindingsFor scope =
      if scope ∈ bindings.map AuthorityBinding.scope then
        (s.authority.bindingsFor scope).map AuthorityBinding.supersede
      else s.authority.bindingsFor scope := by
  induction bindings generalizing s with
  | nil => rfl
  | cons binding bindings ih =>
    have hfirst : (s.mapAuthority (·.supersedeScope binding.scope)).authority.bindingsFor scope =
        if scope = binding.scope then (s.authority.bindingsFor scope).map AuthorityBinding.supersede
        else s.authority.bindingsFor scope :=
      bindingsFor_mapScope s.authority binding.scope scope AuthorityBinding.supersede
    rw [List.foldl_cons, ih, hfirst]
    by_cases hhere : scope = binding.scope
    · have hmem : scope ∈ (binding :: bindings).map AuthorityBinding.scope := by
        rw [hhere]
        exact List.mem_cons_self
      rw [if_pos hhere, if_pos hmem]
      split_ifs
      · rw [List.map_map]
        rfl
      · rfl
    · rw [if_neg hhere]
      have hsame : scope ∈ (binding :: bindings).map AuthorityBinding.scope ↔
          scope ∈ bindings.map AuthorityBinding.scope := by
        rw [List.map_cons, List.mem_cons]
        exact or_iff_right hhere
      simp only [hsame]

/-- The provisional bindings of a version, in scope order. -/
def AuthorityTable.provisionals (table : AuthorityTable) (model : ModelId)
    (version : ModelVersionId) : List AuthorityBinding :=
  (table.bindingsForVersion model version).filter fun binding =>
    binding.live && decide (binding.kind ≠ .exclusive)

/-- An accepted revalidation is one of a stored version, and its table is the one with the
scopes of the provisional bindings superseded. -/
theorem revalidate_accepted {request : RevalidationRequest}
    (haccepted : (s.revalidate request).2.outcome = .revalidationRequired) :
    ∃ record, s.versionOf request.model request.version = some record ∧
      (s.revalidate request).1.authority =
        ((s.authority.provisionals record.model record.version).foldl
          (fun s binding => s.mapAuthority (·.supersedeScope binding.scope))
          (s.withdrawStanding request record)).authority := by
  unfold revalidate at haccepted ⊢
  cases hrecord : s.versionOf request.model request.version with
  | none =>
    rw [hrecord] at haccepted
    cases haccepted
  | some record =>
    rw [hrecord] at haccepted
    dsimp only at haccepted ⊢
    split_ifs at haccepted ⊢ with hretired hgeneration
    · cases haccepted
    · cases haccepted
    · exact ⟨record, rfl, rfl⟩

theorem mem_scopes_provisionals (hs : Coherent s) (scope : ScopeId) :
    scope ∈ (s.authority.provisionals model version).map AuthorityBinding.scope ↔
      s.authority.provisionalIn model version scope = true := by
  rw [List.mem_map, provisionalIn, List.any_eq_true]
  simp only [provisionals, bindingsForVersion, List.mem_filter, mem_allBindings_iff,
    AuthorityBinding.provisionalOf, Bool.and_eq_true]
  constructor
  · rintro ⟨binding, ⟨⟨⟨home, hmem⟩, hown⟩, hlive, hkind⟩, hscope⟩
    have hhome := hs.authority home binding hmem
    rw [← hscope, hhome]
    exact ⟨binding, hmem, ⟨hlive, hown⟩, hkind⟩
  · rintro ⟨binding, hmem, ⟨hlive, hown⟩, hkind⟩
    exact ⟨binding, ⟨⟨⟨scope, hmem⟩, hown⟩, hlive, hkind⟩, hs.authority scope binding hmem⟩

/-- An accepted revalidation supersedes the scopes in which its version holds a provisional
binding, and touches no other binding. -/
theorem revalidate_bindings (hs : Coherent s) {request : RevalidationRequest}
    (haccepted : (s.revalidate request).2.outcome = .revalidationRequired) (scope : ScopeId) :
    (s.revalidate request).1.authority.bindingsFor scope =
      if s.authority.provisionalIn request.model request.version scope then
        (s.authority.bindingsFor scope).map AuthorityBinding.supersede
      else s.authority.bindingsFor scope := by
  obtain ⟨record, hrecord, hauthority⟩ := revalidate_accepted haccepted
  obtain ⟨hmodel, hversion⟩ := versionKey_inj.mp (hs.versions _ record hrecord)
  have hscopes : ∀ home, home ∈ (s.authority.provisionals record.model record.version).map
      AuthorityBinding.scope ↔ s.authority.provisionalIn record.model record.version home = true :=
    mem_scopes_provisionals hs
  rw [← hmodel, ← hversion] at hscopes
  rw [hauthority, bindingsFor_supersedeScopes, ← hmodel, ← hversion]
  simp only [hscopes]
  rfl

/-! ## When only provisional bindings are withdrawn -/

/-- Superseding a list withdraws only provisional bindings of a version exactly when all
its live bindings are such. -/
theorem supersede_withdraws_own_iff (bindings : List AuthorityBinding) :
    List.Forall₂ (AuthorityBinding.WithdrawnAs model version) bindings
        (bindings.map AuthorityBinding.supersede) ↔
      ∀ binding ∈ bindings, binding.live = true → binding.provisionalOf model version = true := by
  rw [List.forall₂_map_right_iff, List.forall₂_same]
  refine forall₂_congr fun binding _ => ?_
  constructor
  · intro hwithdrawn hlive
    rcases hwithdrawn with hsame | ⟨hprovisional, _⟩
    · have hdead : binding.supersede.live = false := rfl
      rw [hsame, hlive] at hdead
      cases hdead
    · exact hprovisional
  · intro hprovisional
    cases hlive : binding.live with
    | true => exact Or.inr ⟨hprovisional hlive, rfl⟩
    | false => exact Or.inl (supersede_of_not_live hlive)

/-- In every reachable state an accepted revalidation withdraws nothing but the provisional
bindings of its version exactly when these are alone in their scopes. -/
theorem revalidate_withdraws_own_iff (hs : ReachableState c s) {request : RevalidationRequest}
    (haccepted : (s.revalidate request).2.outcome = .revalidationRequired) :
    WithdrawsOwn request.model request.version s (s.revalidate request).1 ↔
      ProvisionalAlone s request.model request.version := by
  refine forall_congr' fun scope => ?_
  rw [revalidate_bindings hs.coherent haccepted scope, ← provisionalIn_iff]
  cases hprovisional : s.authority.provisionalIn request.model request.version scope with
  | false =>
    simp only [Bool.false_eq_true, if_false, false_imp_iff, iff_true]
    exact List.forall₂_same.mpr fun _ _ => Or.inl rfl
  | true =>
    simp only [if_true, true_imp_iff, supersede_withdraws_own_iff, liveBindingsFor,
      List.mem_filter, and_imp]

/-- A second version of the model is rolled out to the root as a canary. -/
def secondInCanary : List Operation :=
  [.registerVersion
      { model := ⟨1⟩, label := [50]
        artifact := { setId := ⟨1⟩, generation := ⟨1⟩, digest := [97] } },
    .publishCompatibility ⟨2⟩ { key := [101] } .compatible [] .synthetic,
    .promote { model := ⟨1⟩, candidate := ⟨2⟩, scope := ⟨1⟩, environmentKey := [101] },
    .createRollout
      { model := ⟨1⟩, candidate := ⟨2⟩, rootScope := ⟨1⟩
        cohorts := [{ name := [99], scopes := [⟨1⟩] }]
        stages := [{ name := [115], cohortIndices := [0] }] },
    .beginRollout { rollout := ⟨1⟩ }]

/-- The first version serves the root. -/
def firstServes : List Operation :=
  [.publishCompatibility ⟨1⟩ { key := [101] } .compatible [] .synthetic,
    .promote
      { model := ⟨1⟩, candidate := ⟨1⟩, scope := ⟨1⟩, environmentKey := [101]
        requestImmediateCutover := true }]

/-- The canary of the second version serves the root alone. -/
def canaryAlone : EngineState := runOps {} (init {}) (versionRegistered ++ secondInCanary)

/-- The canary of the second version serves the root beside the first one. -/
def canaryBeside : EngineState :=
  runOps targetFree (init targetFree) (versionRegistered ++ firstServes ++ secondInCanary)

/-- The revalidation of the second version. -/
def revalidateSecond : RevalidationRequest := { model := ⟨1⟩, version := ⟨2⟩ }

theorem revalidate_withdraws_own_witness :
    canaryAlone.authority.provisionalIn ⟨1⟩ ⟨2⟩ ⟨1⟩ = true ∧
      WithdrawsOwn ⟨1⟩ ⟨2⟩ canaryAlone (canaryAlone.revalidate revalidateSecond).1 := by
  refine ⟨by decide +kernel, ?_⟩
  refine (revalidate_withdraws_own_iff (c := {}) ⟨versionRegistered ++ secondInCanary, rfl⟩
    (by decide +kernel : (canaryAlone.revalidate revalidateSecond).2.outcome =
      .revalidationRequired)).mpr ?_
  have hall : ∀ binding ∈ canaryAlone.authority.allBindings,
      binding.provisionalOf ⟨1⟩ ⟨2⟩ = true := by
    decide +kernel
  intro scope _ binding hbinding
  exact hall binding (mem_allBindings_iff.mpr ⟨scope, List.mem_of_mem_filter hbinding⟩)

/-- The canary of the second version is revalidated, and the first version loses the root. -/
theorem revalidate_withdraws_own_counterexample :
    ¬∀ (c : EngineConfig) (s : EngineState), ReachableState c s → ∀ request : RevalidationRequest,
      (s.revalidate request).2.outcome = .revalidationRequired →
        WithdrawsOwn request.model request.version s (s.revalidate request).1 := by
  intro hclaim
  have hown : List.Forall₂ (AuthorityBinding.WithdrawnAs ⟨1⟩ ⟨2⟩)
      (canaryBeside.authority.bindingsFor ⟨1⟩)
      ((canaryBeside.revalidate revalidateSecond).1.authority.bindingsFor ⟨1⟩) :=
    hclaim targetFree canaryBeside ⟨versionRegistered ++ firstServes ++ secondInCanary, rfl⟩
      revalidateSecond (by decide +kernel) ⟨1⟩
  have hfirst : ∃ before ∈ (canaryBeside.authority.bindingsFor ⟨1⟩).head?,
      before.provisionalOf ⟨1⟩ ⟨2⟩ = false ∧
        ((canaryBeside.revalidate revalidateSecond).1.authority.bindingsFor ⟨1⟩).head? ≠
          some before := by
    decide +kernel
  obtain ⟨before, hbefore, hcommitted, hlost⟩ := hfirst
  generalize canaryBeside.authority.bindingsFor ⟨1⟩ = earlier at hown hbefore
  cases hown with
  | cons hhead _ =>
    obtain rfl := Option.some.inj hbefore
    rcases hhead with hsame | ⟨hprovisional, _⟩
    · exact hlost (congrArg some hsame)
    · rw [hcommitted] at hprovisional
      cases hprovisional

end LifecycleFabric
