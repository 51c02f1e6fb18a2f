import LifecycleFabric.Engine.Frames
import LifecycleFabric.Lib.Allocators

/-!
# Identities

The engine hands out identities of ten kinds, each from an allocator of its own. What a
state holds under them is in its tables. Of promotions, rollbacks and compatibility
generations the records of the versions, the plans and the bindings keep the last one.
-/

namespace OrdMap

variable {κ ν : Type*} [LinearOrder κ] {m : OrdMap κ ν} {k k' : κ} {v v' : ν} {f : ν → ν}

theorem mem_keys_modify : k' ∈ (m.modify k f).keys ↔ k' ∈ m.keys := by
  simp only [mem_keys_iff, get?_modify, Option.map_eq_some_iff]
  constructor
  · rintro ⟨_, v, hv, _⟩
    exact ⟨v, hv⟩
  · rintro ⟨v, hv⟩
    exact ⟨_, v, hv, rfl⟩

/-- A rewritten value, or one that was there. -/
theorem mem_values_modify (h : v' ∈ (m.modify k f).values) :
    v' ∈ m.values ∨ ∃ v, m.get? k = some v ∧ v' = f v := by
  obtain ⟨k', hv'⟩ := mem_values_iff.mp h
  rw [get?_modify, Option.map_eq_some_iff] at hv'
  obtain ⟨v, hv, rfl⟩ := hv'
  by_cases hk : k' = k
  · subst hk
    exact Or.inr ⟨v, hv, if_pos rfl⟩
  · rw [if_neg hk]
    exact Or.inl (mem_values_iff.mpr ⟨k', hv⟩)

theorem mem_keys_insertNew (h : k' ∈ (m.insertNew k v).keys) : k' ∈ m.keys ∨ k' = k := by
  obtain ⟨v', hv'⟩ := mem_keys_iff.mp h
  rw [get?_insertNew] at hv'
  split_ifs at hv' with hk
  · exact Or.inr hk
  · exact Or.inl (mem_keys_iff.mpr ⟨v', hv'⟩)

theorem mem_values_insertNew (h : v' ∈ (m.insertNew k v).values) : v' ∈ m.values ∨ v' = v := by
  obtain ⟨k', hv'⟩ := mem_values_iff.mp h
  cases hstored : m.get? k with
  | none =>
    rw [insertNew_of_get?_none hstored, get?_insert] at hv'
    split_ifs at hv' with hk
    · exact Or.inr (Option.some.inj hv').symm
    · exact Or.inl (mem_values_iff.mpr ⟨k', hv'⟩)
  | some stored =>
    rw [insertNew_of_get?_some hstored] at hv'
    exact Or.inl (mem_values_iff.mpr ⟨k', hv'⟩)

theorem mem_keys_insert (h : k' ∈ (m.insert k v).keys) : k' ∈ m.keys ∨ k' = k := by
  obtain ⟨v', hv'⟩ := mem_keys_iff.mp h
  rw [get?_insert] at hv'
  split_ifs at hv' with hk
  · exact Or.inr hk
  · exact Or.inl (mem_keys_iff.mpr ⟨v', hv'⟩)

theorem mem_values_insert (h : v' ∈ (m.insert k v).values) : v' ∈ m.values ∨ v' = v := by
  obtain ⟨k', hv'⟩ := mem_values_iff.mp h
  rw [get?_insert] at hv'
  split_ifs at hv' with hk
  · exact Or.inr (Option.some.inj hv').symm
  · exact Or.inl (mem_values_iff.mpr ⟨k', hv'⟩)

theorem values_filter_subset (m : OrdMap κ ν) (p : κ → ν → Bool) :
    (m.filter p).values ⊆ m.values := by
  intro v hv
  obtain ⟨k, hv⟩ := mem_values_iff.mp hv
  rw [get?_filter, Option.filter_eq_some_iff] at hv
  exact mem_values_iff.mpr ⟨k, hv.1⟩

theorem mem_keys_mapValues {g : κ → ν → ν} : k ∈ (m.mapValues g).keys ↔ k ∈ m.keys := by
  simp only [mem_keys_iff, get?_mapValues, Option.map_eq_some_iff]
  constructor
  · rintro ⟨_, v, hv, _⟩
    exact ⟨v, hv⟩
  · rintro ⟨v, hv⟩
    exact ⟨_, v, hv, rfl⟩

end OrdMap

namespace LifecycleFabric

open EngineState Allocators

/-! ## What is held -/

/-- The kinds of identity the engine hands out. -/
inductive IdKind
  | model | version | rollout | stage | cohort | promotion | rollback | compatibility | evidence
  | attempt
  deriving DecidableEq

/-- What is kept under identities. -/
structure Holdings where
  models : OrdMap UInt64 ModelRecord
  versions : OrdMap VersionKey ModelVersionRecord
  rollouts : OrdMap UInt64 RolloutPlan
  promotions : OrdMap UInt64 Unit
  authority : OrdMap UInt64 (List AuthorityBinding)
  facts : OrdMap CompatibilityKey CompatibilityFact
  evidence : List EvidenceRecord
  attempts : OrdMap UInt64 Attempt

/-- The raw values of the identities of a list that are not absent. -/
def presentIds {tag : IdTag} (ids : List (Ident tag)) : List UInt64 :=
  (ids.filter Ident.valid).map Ident.raw

/-- The identities of a kind in use. -/
def Holdings.ids (h : Holdings) : IdKind → List UInt64
  | .model => h.models.keys
  | .version => h.versions.keys.map fun key => (ofLex key).2
  | .rollout => h.rollouts.keys
  | .stage => h.rollouts.values.flatMap fun plan => plan.stages.map fun stage => stage.id.raw
  | .cohort => h.rollouts.values.flatMap fun plan => plan.cohorts.map fun cohort => cohort.id.raw
  | .promotion =>
    h.promotions.keys ++ presentIds (h.versions.values.map ModelVersionRecord.lastPromotion) ++
      presentIds (h.rollouts.values.map RolloutPlan.promotion) ++
      presentIds (h.authority.values.flatten.map AuthorityBinding.promotion)
  | .rollback =>
    presentIds (h.versions.values.map ModelVersionRecord.lastRollback) ++
      presentIds (h.rollouts.values.map RolloutPlan.lastRollback) ++
      presentIds (h.authority.values.flatten.map AuthorityBinding.rollback)
  | .compatibility =>
    presentIds (h.facts.values.map CompatibilityFact.generation) ++
      presentIds (h.versions.values.map ModelVersionRecord.compatibilityGeneration)
  | .evidence => h.evidence.map fun record => record.id.raw
  | .attempt => h.attempts.keys

namespace EngineState

/-- What an engine keeps under identities. -/
def holdings (s : EngineState) : Holdings where
  models := s.models
  versions := s.versions
  rollouts := s.rollouts
  promotions := s.committedPromotions
  authority := s.authority.bindings
  facts := s.compatibility.facts
  evidence := s.evidence.records.values.flatten
  attempts := s.attempts

/-- The identities of a kind that are in an engine. -/
def ids (s : EngineState) (kind : IdKind) : List UInt64 := s.holdings.ids kind

/-- The identity of a kind that an engine hands out next. -/
def nextId (s : EngineState) : IdKind → UInt64
  | .model => s.nextModelId
  | .version => s.nextVersionId
  | .rollout => s.nextRolloutId
  | .stage => s.nextStageId
  | .cohort => s.nextCohortId
  | .promotion => s.nextPromotionId
  | .rollback => s.nextRollbackId
  | .compatibility => s.nextCompatibilityGeneration
  | .evidence => s.nextEvidenceId
  | .attempt => s.nextAttemptId

end EngineState

/-- The identities an engine holds, and its allocators. -/
def identities : Allocators.Allocation EngineState IdKind UInt64 where
  held s kind raw := raw ∈ s.ids kind
  next := EngineState.nextId

theorem mem_bindings_iff {table : AuthorityTable} {b : AuthorityBinding} :
    b ∈ table.bindings.values.flatten ↔ ∃ scope, b ∈ table.bindingsFor scope := by
  simp only [List.mem_flatten, OrdMap.mem_values_iff, AuthorityTable.bindingsFor]
  constructor
  · rintro ⟨list, ⟨key, hlist⟩, hb⟩
    exact ⟨⟨key⟩, by rwa [hlist]⟩
  · rintro ⟨scope, hb⟩
    cases hlist : table.bindings.get? scope.raw with
    | none =>
      rw [hlist] at hb
      cases hb
    | some list =>
      rw [hlist] at hb
      exact ⟨list, ⟨scope.raw, hlist⟩, hb⟩

theorem mem_records_iff {store : EvidenceStore} {record : EvidenceRecord} :
    record ∈ store.records.values.flatten ↔ ∃ key, record ∈ store.bucket key := by
  simp only [List.mem_flatten, OrdMap.mem_values_iff, EvidenceStore.bucket]
  constructor
  · rintro ⟨bucket, ⟨key, hkey⟩, hrecord⟩
    exact ⟨key, by rwa [hkey]⟩
  · rintro ⟨key, hrecord⟩
    cases hkey : store.records.get? key with
    | none =>
      rw [hkey] at hrecord
      cases hrecord
    | some bucket =>
      rw [hkey] at hrecord
      exact ⟨bucket, ⟨key, hkey⟩, hrecord⟩

/-! ## Parts of an operation -/

/-- No allocator moves, no version is new, and of each kind only identities with a property
are in use that were not. -/
structure Adds (new : IdKind → UInt64 → Prop) (s t : EngineState) : Prop where
  next : t.nextId = s.nextId
  versions : t.versions.keys ⊆ s.versions.keys
  ids : ∀ kind, GrowsBy (new kind) (s.ids kind) (t.ids kind)

/-- One identity of a kind. -/
def IdKind.only (kind : IdKind) (raw : UInt64) : IdKind → UInt64 → Prop :=
  fun other given => other = kind ∧ given = raw

variable {new : IdKind → UInt64 → Prop} {P : UInt64 → Prop} {s t u : EngineState}

theorem Adds.refl (s : EngineState) : Adds new s s := ⟨rfl, List.Subset.refl _, fun _ => .refl _⟩

theorem Adds.trans (h : Adds new s t) (h' : Adds new t u) : Adds new s u where
  next := h'.next.trans h.next
  versions := List.Subset.trans h'.versions h.versions
  ids kind := (h.ids kind).trans (h'.ids kind)

/-- An update of what is not kept under identities. -/
theorem adds_of_same (hnext : t.nextId = s.nextId) (hholdings : t.holdings = s.holdings) :
    Adds new s t where
  next := hnext
  versions := by
    change t.holdings.versions.keys ⊆ s.holdings.versions.keys
    rw [hholdings]
    exact List.Subset.refl _
  ids kind := by
    rw [EngineState.ids, EngineState.ids, hholdings]
    exact .refl _

theorem adds_bumpSequence (s : EngineState) : Adds new s s.bumpSequence := adds_of_same rfl rfl

theorem adds_touchScope (s : EngineState) (scope : ScopeId) : Adds new s (s.touchScope scope) :=
  adds_of_same rfl rfl

/-- Identities that values name, and that they named before or that have a property. -/
theorem growsBy_presentIds {α : Type*} {tag : IdTag} {g : α → Ident tag} {before after : List α}
    (h : ∀ a ∈ after, (g a).valid = true → (∃ b ∈ before, g b = g a) ∨ P (g a).raw) :
    GrowsBy P (presentIds (before.map g)) (presentIds (after.map g)) := by
  intro raw hraw
  simp only [presentIds, List.mem_map, List.mem_filter] at hraw ⊢
  obtain ⟨_, ⟨⟨a, ha, rfl⟩, hvalid⟩, rfl⟩ := hraw
  refine (h a ha hvalid).imp_left ?_
  rintro ⟨b, hb, hsame⟩
  exact ⟨g a, ⟨⟨b, hb, hsame⟩, hvalid⟩, rfl⟩

/-! ### Versions -/

/-- A version names what it named, nothing, or an identity with a property. -/
structure ModelVersionRecord.Gains (new : IdKind → UInt64 → Prop)
    (before after : ModelVersionRecord) : Prop where
  promotion : after.lastPromotion = before.lastPromotion ∨ new .promotion after.lastPromotion.raw
  rollback : after.lastRollback = before.lastRollback ∨ new .rollback after.lastRollback.raw
  compatibility : after.compatibilityGeneration.valid = true →
    after.compatibilityGeneration = before.compatibilityGeneration ∨
      new .compatibility after.compatibilityGeneration.raw

theorem gains_of_same {before after : ModelVersionRecord}
    (hpromotion : after.lastPromotion = before.lastPromotion)
    (hrollback : after.lastRollback = before.lastRollback)
    (hcompatibility : after.compatibilityGeneration = before.compatibilityGeneration) :
    before.Gains new after :=
  ⟨Or.inl hpromotion, Or.inl hrollback, fun _ => Or.inl hcompatibility⟩

theorem ModelVersionRecord.Gains.trans {before mid after : ModelVersionRecord}
    (h : before.Gains new mid) (h' : mid.Gains new after) : before.Gains new after where
  promotion := by
    rcases h'.promotion with hsame | hnew
    · rw [hsame]
      exact h.promotion
    · exact Or.inr hnew
  rollback := by
    rcases h'.rollback with hsame | hnew
    · rw [hsame]
      exact h.rollback
    · exact Or.inr hnew
  compatibility hvalid := by
    rcases h'.compatibility hvalid with hsame | hnew
    · rw [hsame] at hvalid ⊢
      exact h.compatibility hvalid
    · exact Or.inr hnew

/-- What rewritten values name. -/
theorem growsBy_modify {κ ν : Type*} [LinearOrder κ] {tag : IdTag} {g : ν → Ident tag}
    (m : OrdMap κ ν) (key : κ) {f : ν → ν}
    (hf : ∀ v, m.get? key = some v → (g (f v)).valid = true → g (f v) = g v ∨ P (g (f v)).raw) :
    GrowsBy P (presentIds (m.values.map g)) (presentIds ((m.modify key f).values.map g)) := by
  apply growsBy_presentIds
  intro after hafter hvalid
  rcases OrdMap.mem_values_modify hafter with hkept | ⟨v, hv, rfl⟩
  · exact Or.inl ⟨after, hkept, rfl⟩
  · refine (hf v hv hvalid).imp_left ?_
    intro hsame
    exact ⟨v, OrdMap.mem_values_iff.mpr ⟨key, hv⟩, hsame.symm⟩

theorem adds_modifyVersions (s : EngineState) (key : VersionKey)
    {f : ModelVersionRecord → ModelVersionRecord}
    (hf : ∀ record, s.versions.get? key = some record → record.Gains new (f record)) :
    Adds new s { s with versions := s.versions.modify key f } := by
  refine ⟨rfl, fun key' hkey => OrdMap.mem_keys_modify.mp hkey, fun kind => ?_⟩
  cases kind with
  | version =>
    exact growsBy_of_subset (List.map_subset _ fun key' hkey => OrdMap.mem_keys_modify.mp hkey)
  | promotion =>
    refine ((GrowsBy.refl _).append ?_).append (.refl _) |>.append (.refl _)
    exact growsBy_modify _ key fun record hrecord _ => (hf record hrecord).promotion
  | rollback =>
    refine (GrowsBy.append ?_ (.refl _)).append (.refl _)
    exact growsBy_modify _ key fun record hrecord _ => (hf record hrecord).rollback
  | compatibility =>
    refine (GrowsBy.refl _).append ?_
    exact growsBy_modify _ key fun record hrecord => (hf record hrecord).compatibility
  | _ => exact .refl _

theorem adds_modifyVersion (s : EngineState) (model : ModelId) (version : ModelVersionId)
    {f : ModelVersionRecord → ModelVersionRecord}
    (hf : ∀ record : ModelVersionRecord, record.Gains new (f record)) :
    Adds new s (s.modifyVersion model version f) :=
  adds_modifyVersions s _ fun record _ => hf record

/-! ### Plans -/

/-- A plan keeps its stages and cohorts, and names what it named, or a rollback with a
property. -/
structure RolloutPlan.Gains (new : IdKind → UInt64 → Prop) (before after : RolloutPlan) :
    Prop where
  stages : after.stages = before.stages
  cohorts : after.cohorts = before.cohorts
  promotion : after.promotion = before.promotion
  rollback : after.lastRollback = before.lastRollback ∨ new .rollback after.lastRollback.raw

theorem growsBy_parts {κ α : Type*} [LinearOrder κ] {f : RolloutPlan → List α} {g : α → UInt64}
    {m : OrdMap κ RolloutPlan} {key : κ} {edit : RolloutPlan → RolloutPlan}
    (hf : ∀ plan, f (edit plan) = f plan) :
    GrowsBy P (m.values.flatMap fun plan => (f plan).map g)
      ((m.modify key edit).values.flatMap fun plan => (f plan).map g) := by
  intro raw hraw
  obtain ⟨after, hafter, hmem⟩ := List.mem_flatMap.mp hraw
  left
  rcases OrdMap.mem_values_modify hafter with hkept | ⟨plan, hplan, rfl⟩
  · exact List.mem_flatMap.mpr ⟨after, hkept, hmem⟩
  · rw [hf] at hmem
    exact List.mem_flatMap.mpr ⟨plan, OrdMap.mem_values_iff.mpr ⟨key, hplan⟩, hmem⟩

theorem adds_modifyPlan (s : EngineState) (key : UInt64) {f : RolloutPlan → RolloutPlan}
    (hf : ∀ plan : RolloutPlan, plan.Gains new (f plan)) :
    Adds new s { s with rollouts := s.rollouts.modify key f } := by
  refine ⟨rfl, List.Subset.refl _, fun kind => ?_⟩
  cases kind with
  | rollout => exact growsBy_of_subset fun key' hkey => OrdMap.mem_keys_modify.mp hkey
  | stage => exact growsBy_parts fun plan => (hf plan).stages
  | cohort => exact growsBy_parts fun plan => (hf plan).cohorts
  | promotion =>
    refine ((GrowsBy.refl _).append ?_).append (.refl _)
    exact growsBy_modify _ key fun plan _ _ => Or.inl (hf plan).promotion
  | rollback =>
    refine ((GrowsBy.refl _).append ?_).append (.refl _)
    exact growsBy_modify _ key fun plan _ _ => (hf plan).rollback
  | _ => exact .refl _

theorem adds_modifyRollout (s : EngineState) (rollout : RolloutId)
    {f : RolloutPlan → RolloutPlan} (hf : ∀ plan : RolloutPlan, plan.Gains new (f plan)) :
    Adds new s (s.modifyRollout rollout f) :=
  adds_modifyPlan s rollout.raw hf

/-- What a new plan holds and names. -/
theorem adds_insertPlan (s : EngineState) {key : UInt64} {plan : RolloutPlan}
    (hkey : new .rollout key) (hstages : ∀ stage ∈ plan.stages, new .stage stage.id.raw)
    (hcohorts : ∀ cohort ∈ plan.cohorts, new .cohort cohort.id.raw)
    (hpromotion : plan.promotion.valid = true → new .promotion plan.promotion.raw)
    (hrollback : plan.lastRollback.valid = false) :
    Adds new s { s with rollouts := s.rollouts.insertNew key plan } := by
  have hvalues : ∀ stored ∈ (s.rollouts.insertNew key plan).values,
      stored ∈ s.rollouts.values ∨ stored = plan := fun _ => OrdMap.mem_values_insertNew
  refine ⟨rfl, List.Subset.refl _, fun kind => ?_⟩
  cases kind with
  | rollout =>
    intro raw hraw
    refine (OrdMap.mem_keys_insertNew hraw).imp_right ?_
    rintro rfl
    exact hkey
  | stage =>
    intro raw hraw
    obtain ⟨stored, hstored, hmem⟩ := List.mem_flatMap.mp hraw
    rcases hvalues stored hstored with hkept | rfl
    · exact Or.inl (List.mem_flatMap.mpr ⟨stored, hkept, hmem⟩)
    · obtain ⟨stage, hstage, rfl⟩ := List.mem_map.mp hmem
      exact Or.inr (hstages stage hstage)
  | cohort =>
    intro raw hraw
    obtain ⟨stored, hstored, hmem⟩ := List.mem_flatMap.mp hraw
    rcases hvalues stored hstored with hkept | rfl
    · exact Or.inl (List.mem_flatMap.mpr ⟨stored, hkept, hmem⟩)
    · obtain ⟨cohort, hcohort, rfl⟩ := List.mem_map.mp hmem
      exact Or.inr (hcohorts cohort hcohort)
  | promotion =>
    refine ((GrowsBy.refl _).append (growsBy_presentIds ?_)).append (.refl _)
    intro stored hstored hvalid
    rcases hvalues stored hstored with hkept | rfl
    · exact Or.inl ⟨stored, hkept, rfl⟩
    · exact Or.inr (hpromotion hvalid)
  | rollback =>
    refine ((GrowsBy.refl _).append (growsBy_presentIds ?_)).append (.refl _)
    intro stored hstored hvalid
    rcases hvalues stored hstored with hkept | rfl
    · exact Or.inl ⟨stored, hkept, rfl⟩
    · rw [hrollback] at hvalid
      cases hvalid
  | _ => exact .refl _

/-! ### Bindings -/

/-- What a binding names, a binding of a table names, or it has a property. -/
structure AuthorityBinding.Gains (new : IdKind → UInt64 → Prop) (table : AuthorityTable)
    (b : AuthorityBinding) : Prop where
  promotion : b.promotion.valid = true →
    (∃ scope, ∃ origin ∈ table.bindingsFor scope, origin.promotion = b.promotion) ∨
      new .promotion b.promotion.raw
  rollback : b.rollback.valid = true →
    (∃ scope, ∃ origin ∈ table.bindingsFor scope, origin.rollback = b.rollback) ∨
      new .rollback b.rollback.raw

theorem adds_authority (s : EngineState) {table : AuthorityTable}
    (h : ∀ scope, ∀ b ∈ table.bindingsFor scope, b.Gains new s.authority) :
    Adds new s { s with authority := table } := by
  refine ⟨rfl, List.Subset.refl _, fun kind => ?_⟩
  cases kind with
  | promotion =>
    refine (GrowsBy.refl _).append (growsBy_presentIds ?_)
    intro b hb hvalid
    obtain ⟨scope, hb⟩ := mem_bindings_iff.mp hb
    refine ((h scope b hb).promotion hvalid).imp_left ?_
    rintro ⟨scope, origin, horigin, hsame⟩
    exact ⟨origin, mem_bindings_iff.mpr ⟨scope, horigin⟩, hsame⟩
  | rollback =>
    refine (GrowsBy.refl _).append (growsBy_presentIds ?_)
    intro b hb hvalid
    obtain ⟨scope, hb⟩ := mem_bindings_iff.mp hb
    refine ((h scope b hb).rollback hvalid).imp_left ?_
    rintro ⟨scope, origin, horigin, hsame⟩
    exact ⟨origin, mem_bindings_iff.mpr ⟨scope, horigin⟩, hsame⟩
  | _ => exact .refl _

/-- What stands in a table gains nothing. -/
theorem gains_of_mem {table : AuthorityTable} {scope : ScopeId} {origin b : AuthorityBinding}
    (horigin : origin ∈ table.bindingsFor scope) (hpromotion : b.promotion = origin.promotion)
    (hrollback : b.rollback = origin.rollback) : b.Gains new table where
  promotion _ := Or.inl ⟨scope, origin, horigin, hpromotion.symm⟩
  rollback _ := Or.inl ⟨scope, origin, horigin, hrollback.symm⟩

theorem gains_of_weakened {table mid : AuthorityTable} (h : table.Weakened mid) {scope : ScopeId}
    {b : AuthorityBinding} (hb : b ∈ mid.bindingsFor scope) : b.Gains new table := by
  obtain ⟨origin, horigin, hweakens⟩ := h.exists_before hb
  rcases hweakens with rfl | rfl | ⟨_, _, rfl⟩
  · exact gains_of_mem horigin rfl rfl
  · exact gains_of_mem horigin rfl rfl
  · exact gains_of_mem horigin rfl rfl

theorem adds_weakened (s : EngineState) {table : AuthorityTable}
    (h : s.authority.Weakened table) : Adds new s { s with authority := table } :=
  adds_authority s fun _ _ hb => gains_of_weakened h hb

/-- Appending a binding to a weakened table. -/
theorem adds_push (s : EngineState) {mid : AuthorityTable} (hmid : s.authority.Weakened mid)
    {binding : AuthorityBinding} (hbinding : binding.Gains new s.authority) :
    Adds new s { s with authority := mid.push binding } := by
  apply adds_authority
  intro scope b hb
  rcases AuthorityTable.mem_bindingsFor_push.mp hb with hold | ⟨_, rfl⟩
  · exact gains_of_weakened hmid hold
  · exact hbinding

/-! ### Evidence, facts and attempts -/

/-- An update of the evidence. -/
theorem adds_evidence (s : EngineState) {store : EvidenceStore}
    (h : ∀ key, ∀ record ∈ store.bucket key,
      record ∈ s.evidence.bucket key ∨ new .evidence record.id.raw) :
    Adds new s { s with evidence := store } := by
  refine ⟨rfl, List.Subset.refl _, fun kind => ?_⟩
  cases kind with
  | evidence =>
    apply growsBy_map
    intro record hrecord
    obtain ⟨key, hrecord⟩ := mem_records_iff.mp hrecord
    refine (h key record hrecord).imp_left ?_
    intro hkept
    exact ⟨record, mem_records_iff.mpr ⟨key, hkept⟩, rfl⟩
  | _ => exact .refl _

theorem adds_shrinks (s : EngineState) {store : EvidenceStore} (h : s.evidence.Shrinks store) :
    Adds new s { s with evidence := store } :=
  adds_evidence s fun key _ hrecord => Or.inl (h key hrecord)

theorem adds_facts (s : EngineState) {registry : CompatibilityRegistry}
    (h : ∀ fact ∈ registry.facts.values,
      fact ∈ s.compatibility.facts.values ∨ new .compatibility fact.generation.raw) :
    Adds new s { s with compatibility := registry } := by
  refine ⟨rfl, List.Subset.refl _, fun kind => ?_⟩
  cases kind with
  | compatibility =>
    refine GrowsBy.append (growsBy_presentIds ?_) (.refl _)
    intro fact hfact _
    exact (h fact hfact).imp_left fun hkept => ⟨fact, hkept, rfl⟩
  | _ => exact .refl _

theorem adds_attempts (s : EngineState) {attempts : OrdMap UInt64 Attempt}
    (h : GrowsBy (new .attempt) s.attempts.keys attempts.keys) :
    Adds new s { s with attempts } := by
  refine ⟨rfl, List.Subset.refl _, fun kind => ?_⟩
  cases kind with
  | attempt => exact h
  | _ => exact .refl _

/-! ## Handing out -/

/-- At most one identity of a kind is handed out, the next one, and the allocator moves past
it. Only the registration of a version makes a version. -/
structure Spends (kind : IdKind) (s t : EngineState) : Prop where
  next : ∀ k, t.nextId k = if k = kind then s.nextId kind + 1 else s.nextId k
  versions : kind ≠ .version → t.versions.keys ⊆ s.versions.keys
  ids : ∀ k, GrowsBy (kind.only (s.nextId kind) k) (s.ids k) (t.ids k)

variable {kind : IdKind}

/-- What is kept under the next identity is kept before the allocator moves. -/
theorem Adds.spends (h : Adds (kind.only (s.nextId kind)) s t) (hholdings : u.holdings = t.holdings)
    (hnext : ∀ k, u.nextId k = if k = kind then t.nextId kind + 1 else t.nextId k) :
    Spends kind s u where
  next k := by rw [hnext, h.next]
  versions _ := by
    change u.holdings.versions.keys ⊆ s.versions.keys
    rw [hholdings]
    exact h.versions
  ids k := by
    have hsame : u.ids k = t.ids k := by rw [EngineState.ids, EngineState.ids, hholdings]
    rw [hsame]
    exact h.ids k

theorem lt_add_one_of_room {next : UInt64} (hroom : next.toNat + 1 < 2 ^ 64) : next < next + 1 := by
  rw [UInt64.lt_iff_toNat_lt, UInt64.toNat_add, UInt64.toNat_one, Nat.mod_eq_of_lt hroom]
  exact Nat.lt_succ_self _

/-- Allocators that move past what was added have handed it out. -/
theorem Adds.issued (h : Adds new s t) (hholdings : u.holdings = t.holdings)
    (hadvances : ∀ k, s.nextId k ≤ u.nextId k)
    (hnew : ∀ k raw, new k raw → s.nextId k ≤ raw ∧ raw < u.nextId k) :
    identities.Issues s u where
  advances := hadvances
  held k raw hraw := by
    change raw ∈ u.holdings.ids k at hraw
    rw [hholdings] at hraw
    exact (h.ids k raw hraw).imp_right (hnew k raw)

theorem Adds.issues (h : Adds (fun _ _ => False) s t) : identities.Issues s t := by
  refine h.issued rfl (fun k => ?_) fun _ _ => False.elim
  rw [h.next]

/-- An allocator that has room moves past what it handed out. -/
theorem Spends.issues (h : Spends kind s t) (hroom : (s.nextId kind).toNat + 1 < 2 ^ 64) :
    identities.Issues s t where
  advances k := by
    change s.nextId k ≤ t.nextId k
    rw [h.next]
    split_ifs with hk
    · rw [hk]
      exact (lt_add_one_of_room hroom).le
    · exact le_rfl
  held k raw hraw := by
    refine (h.ids k raw hraw).imp_right ?_
    rintro ⟨rfl, rfl⟩
    refine ⟨le_rfl, ?_⟩
    change _ < t.nextId k
    rw [h.next, if_pos rfl]
    exact lt_add_one_of_room hroom

end LifecycleFabric
