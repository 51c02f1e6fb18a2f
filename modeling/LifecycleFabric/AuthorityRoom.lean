import LifecycleFabric.AuthorityChange

/-!
# Room in the authority table

The bound on bindings is met only by the first binding of a scope: a scope that has a
list, be it of withdrawn bindings, always has room for one more. A grant succeeds exactly
when its binding is well formed, its scope has room, and the live bindings there permit it.
-/

namespace LifecycleFabric

namespace AuthorityTable

open AuthorityBinding

/-! ## Well-formed bindings -/

theorem malformed_eq_none_iff {binding : AuthorityBinding} :
    malformed binding = none ↔ binding.scope.valid = true ∧ binding.version.valid = true ∧
      binding.model.valid = true ∧ binding.modelGeneration.valid = true ∧
      binding.scopeGeneration.valid = true := by
  unfold malformed
  split_ifs with hscope hversion hgeneration hscopeGeneration
  · simp_all
  · rcases hversion with h | h <;> simp_all
  · simp_all
  · simp_all
  · simp_all [not_or]

theorem malformed_congr {binding binding' : AuthorityBinding}
    (hscope : binding'.scope = binding.scope) (hmodel : binding'.model = binding.model)
    (hversion : binding'.version = binding.version)
    (hgeneration : binding'.modelGeneration = binding.modelGeneration)
    (hscopeGeneration : binding'.scopeGeneration = binding.scopeGeneration) :
    malformed binding' = malformed binding := by
  simp only [malformed, hscope, hmodel, hversion, hgeneration, hscopeGeneration]

/-! ## Room -/

/-- Whether a scope has a list of bindings. -/
def listed (table : AuthorityTable) (scope : ScopeId) : Bool := table.bindings.contains scope.raw

/-- Whether a scope has room for one more binding. -/
def hasRoom (table : AuthorityTable) (scope : ScopeId) : Bool :=
  table.listed scope || decide (table.size < table.maxBindings)

theorem listed_iff {table : AuthorityTable} {scope : ScopeId} :
    table.listed scope = true ↔ ∃ bindings, table.bindings.get? scope.raw = some bindings :=
  OrdMap.contains_iff

theorem hasRoom_iff {table : AuthorityTable} {scope : ScopeId} :
    table.hasRoom scope = true ↔ table.listed scope = true ∨ table.size < table.maxBindings := by
  rw [hasRoom, Bool.or_eq_true, decide_eq_true_eq]

/-- A scope that has a binding has a list. -/
theorem listed_of_mem {table : AuthorityTable} {scope : ScopeId} {binding : AuthorityBinding}
    (h : binding ∈ table.bindingsFor scope) : table.listed scope = true := by
  rw [listed_iff]
  unfold bindingsFor at h
  cases hlist : table.bindings.get? scope.raw with
  | none =>
    rw [hlist] at h
    cases h
  | some bindings => exact ⟨bindings, rfl⟩

theorem listed_push (table : AuthorityTable) (binding : AuthorityBinding) (scope : ScopeId) :
    (table.push binding).listed scope =
      (table.listed scope || decide (scope = binding.scope)) := by
  simp only [listed, push, OrdMap.contains, OrdMap.get?_insert, Ident.ext_iff]
  by_cases hscope : scope.raw = binding.scope.raw
  · simp [hscope]
  · simp [hscope]

/-- Rewriting the bindings of a scope keeps which scopes have a list. -/
theorem listed_modify (table : AuthorityTable) (scope other : ScopeId)
    (f : List AuthorityBinding → List AuthorityBinding) :
    ({ table with bindings := table.bindings.modify scope.raw f } : AuthorityTable).listed other =
      table.listed other := by
  simp only [listed, OrdMap.contains, OrdMap.get?_modify, Option.isSome_map]

theorem size_push (table : AuthorityTable) (binding : AuthorityBinding) :
    (table.push binding).size = table.size + 1 := by
  have hsum := OrdMap.sum_values_insert List.length table.bindings binding.scope.raw
    (table.bindingsFor binding.scope ++ [binding])
  have hold : ((table.bindings.get? binding.scope.raw).map List.length).getD 0 =
      (table.bindingsFor binding.scope).length := by
    unfold bindingsFor
    cases table.bindings.get? binding.scope.raw <;> rfl
  rw [hold, List.length_append, List.length_singleton] at hsum
  simp only [size, push]
  omega

/-- Rewriting the bindings of a scope in their places keeps the number of bindings. -/
theorem size_modify (table : AuthorityTable) (scope : ScopeId)
    {f : List AuthorityBinding → List AuthorityBinding} (hf : ∀ bs, (f bs).length = bs.length) :
    ({ table with bindings := table.bindings.modify scope.raw f } : AuthorityTable).size =
      table.size := by
  refine OrdMap.sum_values_mapValues List.length table.bindings ?_
  intro key bindings
  split_ifs
  · exact hf bindings
  · rfl

theorem length_supersedeFirstExclusive (bindings : List AuthorityBinding) :
    (supersedeFirstExclusive bindings).length = bindings.length :=
  (weakens_supersedeFirstExclusive bindings).length_eq.symm

/-! ## When a grant succeeds -/

/-- An exclusive binding that may coexist is refused exactly beside a live exclusive one. -/
theorem coexistenceConflict_exclusive {binding : AuthorityBinding} (hkind : binding.kind = .exclusive)
    (bindings : List AuthorityBinding) :
    coexistenceConflict binding true bindings = none ↔
      bindings.find? isLiveExclusive = none := by
  induction bindings with
  | nil => exact ⟨fun _ => rfl, fun _ => rfl⟩
  | cons current rest ih =>
    unfold coexistenceConflict
    by_cases hsuperseded : current.superseded = true
    · rw [if_pos hsuperseded, List.find?_cons_of_neg (by
        simp [isLiveExclusive, live, hsuperseded])]
      exact ih
    · rw [if_neg hsuperseded]
      by_cases hcurrent : current.kind = .exclusive
      · rw [if_pos ⟨hkind, hcurrent⟩, List.find?_cons_of_pos (by
          simp [isLiveExclusive, live, hsuperseded, hcurrent])]
        simp
      · rw [if_neg (by simp [hcurrent]), if_neg (by simp [hkind]),
          List.find?_cons_of_neg (by simp [isLiveExclusive, hcurrent])]
        exact ih

/-- A retained binding coexists with every list. -/
theorem coexistenceConflict_retained {binding : AuthorityBinding}
    (hkind : binding.kind = .rollbackRetained) (allowCoexistence : Bool)
    (bindings : List AuthorityBinding) :
    coexistenceConflict binding allowCoexistence bindings = none := by
  induction bindings with
  | nil => rfl
  | cons current rest ih =>
    unfold coexistenceConflict
    simp [hkind, ih]

theorem grant_allowed_iff (table : AuthorityTable) (binding : AuthorityBinding)
    (allowCoexistence : Bool) :
    (table.grant binding allowCoexistence).2.allowed = true ↔
      malformed binding = none ∧ table.hasRoom binding.scope = true ∧
        coexistenceConflict binding allowCoexistence (table.bindingsFor binding.scope) = none := by
  unfold grant
  cases hmalformed : malformed binding with
  | some refusal =>
    have hrefused := (malformed_refuses hmalformed).1
    simp [hrefused]
  | none =>
    cases hlist : table.bindings.get? binding.scope.raw with
    | some existing =>
      have hbindings : table.bindingsFor binding.scope = existing := by
        simp [bindingsFor, hlist]
      have hlisted : table.listed binding.scope = true := listed_iff.mpr ⟨existing, hlist⟩
      rw [hbindings, hasRoom_iff]
      cases hconflict : coexistenceConflict binding allowCoexistence existing with
      | some detail => simp [hconflict, OutcomeCode.isPositive]
      | none => simp [hconflict, hlisted]
    | none =>
      have hbindings : table.bindingsFor binding.scope = [] := by simp [bindingsFor, hlist]
      have hlisted : table.listed binding.scope = false := by
        simp [listed, OrdMap.contains, hlist]
      rw [hbindings, hasRoom_iff]
      dsimp only
      split_ifs with hfull
      · simp [hlisted, hfull, OutcomeCode.isPositive]
      · have hfree : table.size < table.maxBindings := by omega
        simp [hlisted, hfree, coexistenceConflict]

/-- A grant that succeeds appends its binding. -/
theorem grant_of_allowed {table : AuthorityTable} {binding : AuthorityBinding}
    {allowCoexistence : Bool} (h : (table.grant binding allowCoexistence).2.allowed = true) :
    table.grant binding allowCoexistence = (table.push binding, .accepted) := by
  rcases table.grant_cases binding allowCoexistence with ⟨_, hrefused⟩ | ⟨heq, _⟩
  · rw [hrefused] at h
    cases h
  · exact heq

/-- Without a live exclusive binding there is none to supersede. -/
theorem supersedeFirstExclusive_of_none {bindings : List AuthorityBinding}
    (h : bindings.find? isLiveExclusive = none) : supersedeFirstExclusive bindings = bindings := by
  induction bindings with
  | nil => rfl
  | cons binding rest ih =>
    have hbinding := List.find?_eq_none.mp h binding List.mem_cons_self
    rw [List.find?_cons_of_neg hbinding] at h
    rw [supersedeFirstExclusive, if_neg hbinding, ih h]

/-- The table with the exclusive binding of a scope superseded. -/
def withdrawExclusive (table : AuthorityTable) (scope : ScopeId) : AuthorityTable :=
  { table with bindings := table.bindings.modify scope.raw supersedeFirstExclusive }

theorem withdrawExclusive_of_none {table : AuthorityTable} {scope : ScopeId}
    (h : (table.bindingsFor scope).find? isLiveExclusive = none) :
    table.withdrawExclusive scope = table := by
  have hbindings : table.bindings.modify scope.raw supersedeFirstExclusive = table.bindings := by
    refine OrdMap.ext_get? ?_
    intro key
    by_cases hkey : key = scope.raw
    · subst hkey
      rw [OrdMap.get?_modify_self]
      unfold bindingsFor at h
      cases hlist : table.bindings.get? scope.raw with
      | none => rfl
      | some bindings =>
        have hnone : bindings.find? isLiveExclusive = none := by
          rw [hlist] at h
          exact h
        rw [Option.map_some, supersedeFirstExclusive_of_none hnone]
    · rw [OrdMap.get?_modify_of_ne _ _ hkey]
  rw [withdrawExclusive, hbindings]

/-- Moving exclusive authority supersedes the binding that holds it, if there is one, and
appends the new one. -/
theorem replaceExclusive_of_room {table : AuthorityTable} {binding : AuthorityBinding}
    (hkind : binding.kind = .exclusive) (hsound : malformed binding = none)
    (hroom : table.hasRoom binding.scope = true) :
    table.replaceExclusive binding =
      ((table.withdrawExclusive binding.scope).push binding, .accepted,
        ((table.bindingsFor binding.scope).find? isLiveExclusive).map supersede) := by
  have hbinding : { binding with kind := .exclusive } = binding := by rw [← hkind]
  have hallowed := grant_allowed_iff table binding true
  rw [coexistenceConflict_exclusive hkind] at hallowed
  unfold replaceExclusive
  rw [hbinding]
  dsimp only
  cases hholder : (table.bindingsFor binding.scope).find? isLiveExclusive with
  | none =>
    have hgranted := grant_of_allowed (hallowed.mpr ⟨hsound, hroom, hholder⟩)
    rw [hgranted, withdrawExclusive_of_none hholder]
    rfl
  | some holder =>
    obtain ⟨bindings, hlist⟩ :=
      listed_iff.mp (listed_of_mem (List.mem_of_find?_eq_some hholder))
    have hbindings : table.bindingsFor binding.scope = bindings := by
      simp [bindingsFor, hlist]
    have hconflict : coexistenceConflict binding true bindings ≠ none := by
      rw [Ne, coexistenceConflict_exclusive hkind, ← hbindings, hholder]
      simp
    obtain ⟨detail, hdetail⟩ := Option.ne_none_iff_exists'.mp hconflict
    have hdenied : table.grant binding true =
        (table, .because .conflict .policyDeniesCoexistence detail) := by
      simp [grant, hsound, hlist, hdetail]
    rw [hdenied]
    rfl

theorem replaceExclusive_allowed_iff {table : AuthorityTable} {binding : AuthorityBinding}
    (hkind : binding.kind = .exclusive) :
    (table.replaceExclusive binding).2.1.allowed = true ↔
      malformed binding = none ∧ table.hasRoom binding.scope = true := by
  constructor
  · intro hallowed
    have hbinding : { binding with kind := .exclusive } = binding := by rw [← hkind]
    unfold replaceExclusive at hallowed
    rw [hbinding] at hallowed
    dsimp only at hallowed
    split_ifs at hallowed with hgranted hdenied
    · obtain ⟨hsound, hroom, _⟩ := (grant_allowed_iff _ _ _).mp hgranted
      exact ⟨hsound, hroom⟩
    · -- Only a scope with bindings is refused for coexistence.
      refine ⟨malformed_of_denied hdenied, ?_⟩
      rw [hasRoom_iff]
      left
      rw [listed_iff]
      by_contra hnone
      rw [not_exists] at hnone
      have hlist : table.bindings.get? binding.scope.raw = none :=
        Option.eq_none_iff_forall_ne_some.mpr hnone
      simp only [grant, malformed_of_denied hdenied, hlist] at hdenied
      split_ifs at hdenied with hfull
      · simp [Decision.because, Decision.add, Decision.has] at hdenied
      · simp [Decision.has, Decision.accepted] at hdenied
    · exact absurd hallowed hgranted
  · rintro ⟨hsound, hroom⟩
    rw [replaceExclusive_of_room hkind hsound hroom]
    rfl

/-! ## Rewriting one scope -/

theorem bindingsFor_mapScope (table : AuthorityTable) (scope other : ScopeId)
    (f : AuthorityBinding → AuthorityBinding) :
    (table.mapScope scope f).bindingsFor other =
      if other = scope then (table.bindingsFor other).map f else table.bindingsFor other := by
  by_cases hother : other = scope
  · subst hother
    simp only [mapScope, bindingsFor, OrdMap.get?_modify_self, if_true]
    cases table.bindings.get? other.raw <;> rfl
  · have hraw : other.raw ≠ scope.raw := fun heq => hother (Ident.ext heq)
    rw [if_neg hother, mapScope, bindingsFor, OrdMap.get?_modify_of_ne _ _ hraw, ← bindingsFor]

theorem hasRoom_mapScope (table : AuthorityTable) (scope other : ScopeId)
    (f : AuthorityBinding → AuthorityBinding) :
    (table.mapScope scope f).hasRoom other = table.hasRoom other := by
  have hlisted : (table.mapScope scope f).listed other = table.listed other :=
    listed_modify table scope other (List.map f)
  have hsize : (table.mapScope scope f).size = table.size :=
    size_modify table scope fun bindings => List.length_map f
  rw [hasRoom, hasRoom, hlisted, hsize]
  rfl

/-- Once a scope is superseded, nothing in it is live. -/
theorem not_live_of_supersedeScope {table : AuthorityTable} {scope : ScopeId}
    {binding : AuthorityBinding}
    (h : binding ∈ (table.supersedeScope scope).bindingsFor scope) : binding.live = false := by
  rw [supersedeScope, bindingsFor_mapScope, if_pos rfl, List.mem_map] at h
  obtain ⟨origin, _, rfl⟩ := h
  rfl

end AuthorityTable

end LifecycleFabric
