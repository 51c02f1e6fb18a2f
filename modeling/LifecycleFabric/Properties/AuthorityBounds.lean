import LifecycleFabric.AuthorityRoom
import LifecycleFabric.Lib.Runs

/-!
# The bound of the authority table

The table tests its bound only where a binding is the first of its scope. Superseded bindings
stay, so grants and replacements in one scope fill the table past its bound.
-/

namespace LifecycleFabric

open AuthorityTable Runs

/-- A call that changes a table. -/
inductive TableCall
  | grant (binding : AuthorityBinding) (allowCoexistence : Bool)
  | replaceExclusive (binding : AuthorityBinding)
  | supersedeScope (scope : ScopeId)
  | supersedeRollout (rollout : RolloutId) (generation : RolloutGeneration)
  | markDraining (model : ModelId) (version : ModelVersionId) (scope : ScopeId)
  | restore (bindings : OrdMap UInt64 (List AuthorityBinding))

namespace AuthorityTable

/-- The table after a call. -/
def call (table : AuthorityTable) : TableCall → AuthorityTable
  | .grant binding allowCoexistence => (table.grant binding allowCoexistence).1
  | .replaceExclusive binding => (table.replaceExclusive binding).1
  | .supersedeScope scope => table.supersedeScope scope
  | .supersedeRollout rollout generation => table.supersedeRollout rollout generation
  | .markDraining model version scope => table.markDraining model version scope
  | .restore bindings => (table.restore bindings).getD table

/-- A call adds no binding to a scope that has some, unless the table is below its bound. -/
def BoundedAt (table : AuthorityTable) : TableCall → Prop
  | .grant binding allowCoexistence => malformed binding = none →
      table.listed binding.scope = true →
      coexistenceConflict binding allowCoexistence (table.bindingsFor binding.scope) = none →
      table.size < table.maxBindings
  | .replaceExclusive binding => malformed { binding with kind := .exclusive } = none →
      table.listed binding.scope = true → table.size < table.maxBindings
  | _ => True

instance (table : AuthorityTable) (op : TableCall) : Decidable (table.BoundedAt op) := by
  delta BoundedAt
  cases op <;> infer_instance

variable {table : AuthorityTable} {bound : ℕ}

/-! ## Sizes -/

theorem size_mapAll (table : AuthorityTable) (f : AuthorityBinding → AuthorityBinding) :
    (table.mapAll f).size = table.size := by
  refine OrdMap.sum_values_mapValues List.length table.bindings ?_
  intro key bindings
  exact List.length_map f

theorem size_mapScope (table : AuthorityTable) (scope : ScopeId)
    (f : AuthorityBinding → AuthorityBinding) : (table.mapScope scope f).size = table.size :=
  table.size_modify scope fun _ => List.length_map f

theorem size_withdrawExclusive (table : AuthorityTable) (scope : ScopeId) :
    (table.withdrawExclusive scope).size = table.size :=
  table.size_modify scope length_supersedeFirstExclusive

/-- A grant adds its binding or changes nothing. -/
theorem grant_size (table : AuthorityTable) (binding : AuthorityBinding)
    (allowCoexistence : Bool) :
    (table.grant binding allowCoexistence).1.maxBindings = table.maxBindings ∧
      (table.grant binding allowCoexistence).1.size =
        if (table.grant binding allowCoexistence).2.allowed then table.size + 1
        else table.size := by
  rcases table.grant_cases binding allowCoexistence with ⟨hsame, hrefused⟩ | ⟨heq, _⟩
  · rw [hsame, hrefused]
    exact ⟨rfl, rfl⟩
  · rw [heq]
    exact ⟨rfl, table.size_push binding⟩

/-- A replacement adds its binding or changes nothing. -/
theorem replaceExclusive_size (table : AuthorityTable) (binding : AuthorityBinding) :
    (table.replaceExclusive binding).1.maxBindings = table.maxBindings ∧
      (table.replaceExclusive binding).1.size =
        if (table.replaceExclusive binding).2.1.allowed then table.size + 1 else table.size := by
  by_cases hallowed : (table.replaceExclusive binding).2.1.allowed = true
  · have hreplaced : table.replaceExclusive binding =
        table.replaceExclusive { binding with kind := .exclusive } := rfl
    rw [hreplaced] at hallowed ⊢
    obtain ⟨hsound, hroom⟩ := (replaceExclusive_allowed_iff rfl).mp hallowed
    rw [replaceExclusive_of_room rfl hsound hroom]
    refine ⟨rfl, ?_⟩
    rw [size_push, size_withdrawExclusive]
    rfl
  · rcases table.replaceExclusive_cases binding with ⟨hsame, _⟩ | ⟨mid, displaced, heq, _⟩
    · rw [hsame, if_neg hallowed]
      exact ⟨rfl, rfl⟩
    · rw [heq] at hallowed
      exact absurd rfl hallowed

theorem restore_size {bindings : OrdMap UInt64 (List AuthorityBinding)}
    {restored : AuthorityTable} (h : table.restore bindings = some restored) :
    restored.maxBindings = table.maxBindings ∧ restored.size ≤ table.maxBindings := by
  unfold restore at h
  split_ifs at h with _ hfull
  obtain rfl := Option.some.inj h
  exact ⟨rfl, not_lt.mp hfull⟩

theorem call_maxBindings (table : AuthorityTable) (op : TableCall) :
    (table.call op).maxBindings = table.maxBindings := by
  cases op with
  | grant binding allowCoexistence => exact (table.grant_size binding allowCoexistence).1
  | replaceExclusive binding => exact (table.replaceExclusive_size binding).1
  | supersedeScope scope => rfl
  | supersedeRollout rollout generation => rfl
  | markDraining model version scope => rfl
  | restore bindings =>
    unfold call
    dsimp only
    cases hrestored : table.restore bindings with
    | none => rfl
    | some restored => exact (restore_size hrestored).1

/-! ## One call -/

/-- Where a binding is accepted, a table within its bound stays within it exactly when it was
below it; a new scope is accepted only below it. -/
theorem size_within_iff {allowed : Bool} {size : ℕ} {sound granted : Prop} {scope : ScopeId}
    (hwithin : table.size ≤ table.maxBindings)
    (hallowed : allowed = true ↔ sound ∧ table.hasRoom scope = true ∧ granted)
    (hsize : size = if allowed then table.size + 1 else table.size) :
    size ≤ table.maxBindings ↔
      (sound → table.listed scope = true → granted → table.size < table.maxBindings) := by
  by_cases haccepted : allowed = true
  · obtain ⟨hsound, hroom, hgranted⟩ := hallowed.mp haccepted
    rw [hsize, if_pos haccepted]
    constructor
    · intro hle _ _ _
      omega
    · intro hbelow
      rcases hasRoom_iff.mp hroom with hlisted | hroom
      · exact hbelow hsound hlisted hgranted
      · exact hroom
  · rw [hsize, if_neg haccepted]
    refine iff_of_true hwithin ?_
    intro hsound hlisted hgranted
    exact absurd (hallowed.mpr ⟨hsound, hasRoom_iff.mpr (Or.inl hlisted), hgranted⟩) haccepted

/-- A table within its bound is within it after a call exactly when the call adds no binding
to a full table. -/
theorem call_within_iff (hwithin : table.size ≤ table.maxBindings) (op : TableCall) :
    (table.call op).size ≤ table.maxBindings ↔ table.BoundedAt op := by
  cases op with
  | grant binding allowCoexistence =>
    exact size_within_iff hwithin (grant_allowed_iff table binding allowCoexistence)
      (table.grant_size binding allowCoexistence).2
  | replaceExclusive binding =>
    have hallowed : (table.replaceExclusive binding).2.1.allowed = true ↔
        malformed { binding with kind := .exclusive } = none ∧
          table.hasRoom binding.scope = true ∧ True := by
      have hexclusive : (table.replaceExclusive { binding with kind := .exclusive }).2.1.allowed =
          true ↔ _ := replaceExclusive_allowed_iff rfl
      rw [and_true]
      exact hexclusive
    refine (size_within_iff hwithin hallowed (table.replaceExclusive_size binding).2).trans ?_
    constructor
    · exact fun hbelow hsound hlisted => hbelow hsound hlisted trivial
    · exact fun hbelow hsound hlisted _ => hbelow hsound hlisted
  | supersedeScope scope =>
    refine iff_of_true ?_ trivial
    exact (table.size_mapScope scope _).le.trans hwithin
  | supersedeRollout rollout generation =>
    refine iff_of_true ?_ trivial
    exact (table.size_mapAll _).le.trans hwithin
  | markDraining model version scope =>
    refine iff_of_true ?_ trivial
    exact (table.size_mapScope scope _).le.trans hwithin
  | restore bindings =>
    refine iff_of_true ?_ trivial
    unfold call
    dsimp only
    cases hrestored : table.restore bindings with
    | none => exact hwithin
    | some restored => exact (restore_size hrestored).2

/-! ## Runs -/

/-- The number of bindings stays within the bound exactly as long as no binding is added to a
scope that has some while the table is full. -/
theorem bindings_within_iff (bound : ℕ) (ops : List TableCall) :
    Always call (fun table => table.size ≤ bound) { maxBindings := bound } ops ↔
      Along call BoundedAt { maxBindings := bound } ops := by
  have hops : ∀ op ∈ ops, True := fun _ _ => trivial
  refine always_iff_along call (P := fun table => table.maxBindings = bound) ?_ ?_ hops rfl
    (Nat.zero_le bound)
  · rintro table op hbound -
    rw [call_maxBindings]
    exact hbound
  · rintro table op rfl hwithin -
    exact call_within_iff hwithin op

/-- An exclusive binding of the one scope there is room for. -/
def soleBinding (version : UInt64) : AuthorityBinding where
  scope := ⟨1⟩
  scopeGeneration := ⟨1⟩
  model := ⟨1⟩
  version := ⟨version⟩
  modelGeneration := ⟨1⟩

/-- A replacement in the one scope of a full table leaves two bindings. -/
theorem replacement_exceeds :
    ¬Always call (fun table => table.size ≤ 1) { maxBindings := 1 }
      [.grant (soleBinding 1) false, .replaceExclusive (soleBinding 2)] := by
  intro h
  have hlast := h _ (List.prefix_refl _)
  revert hlast
  decide +kernel

end AuthorityTable

end LifecycleFabric
