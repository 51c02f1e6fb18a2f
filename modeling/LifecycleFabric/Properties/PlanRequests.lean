import LifecycleFabric.Engine.Plans

/-!
# Refused plan requests

A plan request is admitted by the checks on its candidate, its caller and its root scope,
and then its cohorts and stages are built one by one. The sequence advances between the
two, and identities are handed out while building, so a request refused there leaves its
traces.
-/

namespace LifecycleFabric

open EngineState

variable {c : EngineConfig} {s : EngineState} {request : RolloutPlanRequest}

/-! ## Requests that can be built -/

/-- A cohort description with a bounded name, scopes under the root, and a share of at most
a hundred percent. -/
structure CohortSpec.Buildable (c : EngineConfig) (s : EngineState) (root : ScopeId)
    (spec : CohortSpec) : Prop where
  name : validToken spec.name c.bounds.maxNameLength = true
  scopes : spec.scopes ≠ []
  placed : ∀ scope ∈ spec.scopes, (s.scopes.find scope).isSome = true ∧
    s.scopes.isAncestorOrSelf root scope = true
  share : spec.trafficPercent ≤ 100

/-- A stage description with a bounded name and positions of cohorts. -/
structure StageSpec.Buildable (c : EngineConfig) (cohorts : ℕ) (spec : StageSpec) : Prop where
  name : validToken spec.name c.bounds.maxNameLength = true
  indices : spec.cohortIndices ≠ []
  known : ∀ index ∈ spec.cohortIndices, index < cohorts

namespace RolloutPlanRequest

/-- A plan request that passes the checks on its candidate, caller and root scope. -/
def Admitted (c : EngineConfig) (s : EngineState) (request : RolloutPlanRequest) : Prop :=
  ∃ record, s.versionOf request.model request.candidate = some record ∧
    s.planRefusal c request record = none

/-- A plan request whose cohorts and stages can be built: no two cohorts share a name, and
no cohort is in two stages. -/
structure Buildable (c : EngineConfig) (s : EngineState) (request : RolloutPlanRequest) :
    Prop where
  cohorts : ∀ spec ∈ request.cohorts, spec.Buildable c s request.rootScope
  names : (request.cohorts.map CohortSpec.name).Nodup
  stages : ∀ spec ∈ request.stages, spec.Buildable c request.cohorts.length
  once : (request.stages.flatMap StageSpec.cohortIndices).Nodup

/-- A plan request whose very first cohort is refused before it takes an identity. -/
def FailsAtOnce (c : EngineConfig) (request : RolloutPlanRequest) : Prop :=
  ∃ spec, request.cohorts.head? = some spec ∧
    (validToken spec.name c.bounds.maxNameLength = false ∨ spec.scopes = [])

end RolloutPlanRequest

/-! ## Cohorts -/

theorem cohortScopeRefusal_eq_none_iff {root : ScopeId} {scopes : List ScopeId} :
    s.cohortScopeRefusal root scopes = none ↔
      ∀ scope ∈ scopes, (s.scopes.find scope).isSome = true ∧
        s.scopes.isAncestorOrSelf root scope = true := by
  induction scopes with
  | nil => simp [cohortScopeRefusal]
  | cons scope scopes ih =>
    unfold cohortScopeRefusal
    rw [List.forall_mem_cons, ← ih]
    cases hfind : s.scopes.find scope with
    | none => simp
    | some record => cases s.scopes.isAncestorOrSelf root scope <;> simp

/-- Building the cohorts succeeds exactly when each can be built and their names are
distinct from one another and from those already built. -/
theorem buildCohorts_ok_iff (root : ScopeId) (specs : List CohortSpec) (next : UInt64)
    {built : List CohortDefinition} (hbuilt : (built.map CohortDefinition.name).Nodup) :
    (∃ cohorts, (s.buildCohorts c root specs next built).2 = .ok cohorts) ↔
      (∀ spec ∈ specs, spec.Buildable c s root) ∧
        (built.map CohortDefinition.name ++ specs.map CohortSpec.name).Nodup := by
  induction specs generalizing next built with
  | nil => simp [buildCohorts, hbuilt]
  | cons spec specs ih =>
    unfold buildCohorts
    rw [List.forall_mem_cons]
    by_cases hname : validToken spec.name c.bounds.maxNameLength = true
    swap
    · simp only [Bool.not_eq_true] at hname
      simp only [hname, Bool.not_false, if_true, reduceCtorEq, exists_false, false_iff]
      rintro ⟨⟨hspec, _⟩, _⟩
      rw [hspec.name] at hname
      cases hname
    simp only [hname, Bool.not_true, Bool.false_eq_true, if_false]
    by_cases hused : spec.name ∈ built.map CohortDefinition.name
    · have hany : (built.any fun cohort => decide (cohort.name = spec.name)) = true := by
        simpa using hused
      simp only [hany, if_true, reduceCtorEq, exists_false, false_iff]
      rintro ⟨_, hnodup⟩
      exact List.disjoint_of_nodup_append hnodup hused List.mem_cons_self
    have hany : (built.any fun cohort => decide (cohort.name = spec.name)) = false := by
      rw [Bool.eq_false_iff]
      intro hany
      exact hused (by simpa using hany)
    simp only [hany, Bool.false_eq_true, if_false]
    by_cases hscopes : spec.scopes = []
    · simp only [hscopes, List.isEmpty_nil, if_true, reduceCtorEq, exists_false, false_iff]
      rintro ⟨⟨hspec, _⟩, _⟩
      exact hspec.scopes hscopes
    simp only [List.isEmpty_iff, hscopes, if_false]
    cases hrefusal : s.cohortScopeRefusal root spec.scopes with
    | some refusal =>
      simp only [reduceCtorEq, exists_false, false_iff]
      rintro ⟨⟨hspec, _⟩, _⟩
      rw [cohortScopeRefusal_eq_none_iff.mpr hspec.placed] at hrefusal
      cases hrefusal
    | none =>
      by_cases hshare : 100 < spec.trafficPercent
      · simp only [hshare, if_true, reduceCtorEq, exists_false, false_iff]
        rintro ⟨⟨hspec, _⟩, _⟩
        exact absurd hspec.share (UInt32.not_le.mpr hshare)
      · simp only [hshare, if_false]
        rw [ih _ ?_]
        · have hspec : spec.Buildable c s root :=
            ⟨hname, hscopes, cohortScopeRefusal_eq_none_iff.mp hrefusal, UInt32.not_lt.mp hshare⟩
          simp [hspec]
        · rw [List.map_append, List.nodup_append]
          refine ⟨hbuilt, by simp, ?_⟩
          rintro a ha b hb rfl
          simp only [List.map_cons, List.map_nil, List.mem_singleton] at hb
          exact hused (hb ▸ ha)

/-- Building the cohorts hands out one identity after another, and none only where there
is no cohort or the first one is refused for its name or for having no scope. -/
theorem buildCohorts_spends (root : ScopeId) (specs : List CohortSpec) (next : UInt64)
    (built : List CohortDefinition) :
    ∃ count ≤ specs.length,
      (s.buildCohorts c root specs next built).1 = next + UInt64.ofNat count ∧
        (count = 0 ↔ ∀ spec, specs.head? = some spec →
          validToken spec.name c.bounds.maxNameLength = false ∨
            spec.name ∈ built.map CohortDefinition.name ∨ spec.scopes = []) := by
  induction specs generalizing next built with
  | nil => exact ⟨0, le_rfl, by simp [buildCohorts], by simp⟩
  | cons spec specs ih =>
    simp only [List.head?_cons, Option.some.injEq, forall_eq', List.length_cons]
    unfold buildCohorts
    by_cases hname : validToken spec.name c.bounds.maxNameLength = true
    swap
    · simp only [Bool.not_eq_true] at hname
      exact ⟨0, Nat.zero_le _, by simp [hname], by simp [hname]⟩
    by_cases hused : spec.name ∈ built.map CohortDefinition.name
    · have hany : (built.any fun cohort => decide (cohort.name = spec.name)) = true := by
        simpa using hused
      exact ⟨0, Nat.zero_le _, by simp [hname, hany], by simp [hused]⟩
    have hany : (built.any fun cohort => decide (cohort.name = spec.name)) = false := by
      rw [Bool.eq_false_iff]
      intro hany
      exact hused (by simpa using hany)
    by_cases hscopes : spec.scopes = []
    · exact ⟨0, Nat.zero_le _, by simp [hname, hany, hscopes], by simp [hscopes]⟩
    simp only [hname, hany, List.isEmpty_iff, hscopes, hused, Bool.not_true, Bool.false_eq_true,
      Bool.true_eq_false, if_false, or_self, iff_false]
    cases hrefusal : s.cohortScopeRefusal root spec.scopes with
    | some refusal => exact ⟨1, by omega, by simp, by decide⟩
    | none =>
      split_ifs
      · exact ⟨1, by omega, by simp, by decide⟩
      · obtain ⟨count, hcount, hnext, _⟩ := ih (next + 1) (built ++ [_])
        refine ⟨count + 1, by omega, ?_, by omega⟩
        rw [hnext, UInt64.ofNat_add, UInt64.add_assoc, UInt64.add_comm 1]
        rfl

/-! ## Stages -/

/-- Where identities are distinct, two cohorts share one exactly when they share a position. -/
theorem cohort_id_inj {cohorts : List CohortDefinition}
    (hids : (cohorts.map CohortDefinition.id).Nodup) {i j : ℕ} {a b : CohortDefinition}
    (ha : cohorts[i]? = some a) (hb : cohorts[j]? = some b) : a.id = b.id ↔ i = j := by
  constructor
  · intro hsame
    obtain ⟨hi, _⟩ := List.getElem?_eq_some_iff.mp ha
    refine (List.getElem?_inj (by simpa using hi) hids).mp ?_
    rw [List.getElem?_map, List.getElem?_map, ha, hb, Option.map_some, Option.map_some, hsame]
  · rintro rfl
    rw [Option.some.inj (ha.symm.trans hb)]

/-- Resolving positions succeeds exactly when each is that of a cohort, none is repeated,
and no cohort was used before. -/
theorem resolveCohorts_ok_iff {cohorts : List CohortDefinition}
    (hids : (cohorts.map CohortDefinition.id).Nodup) (indices : List ℕ)
    (used chosen : List CohortId) :
    (∃ resolved, resolveCohorts cohorts indices used chosen = .ok resolved) ↔
      (∀ index ∈ indices, index < cohorts.length) ∧ indices.Nodup ∧
        ∀ index ∈ indices, ∀ cohort, cohorts[index]? = some cohort → cohort.id ∉ used := by
  induction indices generalizing used chosen with
  | nil => simp [resolveCohorts]
  | cons index indices ih =>
    unfold resolveCohorts
    simp only [List.forall_mem_cons, List.nodup_cons]
    cases hcohort : cohorts[index]? with
    | none =>
      simp only [reduceCtorEq, exists_false, false_iff]
      rintro ⟨⟨hindex, _⟩, _⟩
      rw [List.getElem?_eq_none_iff] at hcohort
      omega
    | some cohort =>
      obtain ⟨hindex, _⟩ := List.getElem?_eq_some_iff.mp hcohort
      by_cases hused : cohort.id ∈ used
      · have hcontains : used.contains cohort.id = true := by simpa using hused
        simp only [hcontains, if_true, reduceCtorEq, exists_false, false_iff]
        rintro ⟨_, _, hfresh, _⟩
        exact hfresh cohort rfl hused
      · have hcontains : used.contains cohort.id = false := by simpa using hused
        simp only [hcontains, Bool.false_eq_true, if_false, ih, hindex, true_and,
          Option.some.injEq, forall_eq', hused, not_false_eq_true]
        constructor
        · rintro ⟨hknown, hnodup, hfresh⟩
          refine ⟨hknown, ⟨fun hmem => ?_, hnodup⟩, fun later hlater other hother hearlier => ?_⟩
          · exact hfresh index hmem cohort hcohort List.mem_cons_self
          · exact hfresh later hlater other hother (List.mem_cons_of_mem _ hearlier)
        · rintro ⟨hknown, ⟨hnew, hnodup⟩, hfresh⟩
          refine ⟨hknown, hnodup, fun later hlater other hother hmem => ?_⟩
          rcases List.mem_cons.mp hmem with hsame | hearlier
          · exact hnew ((cohort_id_inj hids hother hcohort).mp hsame ▸ hlater)
          · exact hfresh later hlater other hother hearlier

/-- Resolving positions uses their cohorts up. -/
theorem resolveCohorts_used {cohorts : List CohortDefinition} {indices : List ℕ}
    {used chosen used' chosen' : List CohortId}
    (h : resolveCohorts cohorts indices used chosen = .ok (used', chosen')) (id : CohortId) :
    id ∈ used' ↔ id ∈ used ∨
      ∃ index ∈ indices, ∃ cohort, cohorts[index]? = some cohort ∧ cohort.id = id := by
  induction indices generalizing used chosen with
  | nil =>
    simp only [resolveCohorts, Except.ok.injEq, Prod.mk.injEq] at h
    simp [h.1]
  | cons index indices ih =>
    unfold resolveCohorts at h
    split at h
    · cases h
    · rename_i cohort hcohort
      split_ifs at h
      rw [ih h, List.mem_cons]
      simp only [List.exists_mem_cons_iff, hcohort, Option.some.injEq, exists_eq_left']
      tauto

/-- Building the stages succeeds exactly when each can be built, no position is repeated
over all of them, and no cohort was used before. -/
theorem buildStages_ok_iff {cohorts : List CohortDefinition}
    (hids : (cohorts.map CohortDefinition.id).Nodup) {specs : List StageSpec} {next : UInt64}
    {used : List CohortId} {built : List StageDefinition} :
    (∃ stages, (buildStages c cohorts specs next used built).2 = .ok stages) ↔
      (∀ spec ∈ specs, spec.Buildable c cohorts.length) ∧
        (specs.flatMap StageSpec.cohortIndices).Nodup ∧
          ∀ index ∈ specs.flatMap StageSpec.cohortIndices,
            ∀ cohort, cohorts[index]? = some cohort → cohort.id ∉ used := by
  induction specs generalizing next used built with
  | nil => simp [buildStages]
  | cons spec specs ih =>
    unfold buildStages
    rw [List.forall_mem_cons, List.flatMap_cons]
    by_cases hname : validToken spec.name c.bounds.maxNameLength = true
    swap
    · simp only [Bool.not_eq_true] at hname
      simp only [hname, Bool.not_false, if_true, reduceCtorEq, exists_false, false_iff]
      rintro ⟨⟨hspec, _⟩, _⟩
      rw [hspec.name] at hname
      cases hname
    by_cases hindices : spec.cohortIndices = []
    · simp only [hname, hindices, Bool.not_true, Bool.false_eq_true, if_false, List.isEmpty_nil,
        if_true, reduceCtorEq, exists_false, false_iff]
      rintro ⟨⟨hspec, _⟩, _⟩
      exact hspec.indices hindices
    simp only [hname, hindices, Bool.not_true, Bool.false_eq_true, List.isEmpty_iff, if_false]
    have hresolves := resolveCohorts_ok_iff hids spec.cohortIndices used []
    cases hresolved : resolveCohorts cohorts spec.cohortIndices used [] with
    | error refusal =>
      simp only [hresolved, reduceCtorEq, exists_false, false_iff] at hresolves ⊢
      rintro ⟨⟨hspec, _⟩, hnodup, hfresh⟩
      refine hresolves ⟨hspec.known, (List.nodup_append.mp hnodup).1, ?_⟩
      exact fun index hindex => hfresh index (List.mem_append_left _ hindex)
    | ok resolved =>
      obtain ⟨used', chosen⟩ := resolved
      obtain ⟨hknown, hnodup, hfresh⟩ := hresolves.mp ⟨_, hresolved⟩
      have hused := resolveCohorts_used hresolved
      dsimp only
      rw [ih]
      constructor
      · rintro ⟨hrest, hrestNodup, hrestFresh⟩
        refine ⟨⟨⟨hname, hindices, hknown⟩, hrest⟩, ?_, ?_⟩
        · refine List.nodup_append.mpr ⟨hnodup, hrestNodup, ?_⟩
          rintro index hindex _ hlater rfl
          have hcohort := List.getElem?_eq_getElem (hknown index hindex)
          exact hrestFresh index hlater _ hcohort
            ((hused _).mpr (Or.inr ⟨index, hindex, _, hcohort, rfl⟩))
        · intro index hindex cohort hcohort hmem
          rcases List.mem_append.mp hindex with hfirst | hlater
          · exact hfresh index hfirst cohort hcohort hmem
          · exact hrestFresh index hlater cohort hcohort ((hused _).mpr (Or.inl hmem))
      · rintro ⟨⟨_, hrest⟩, hallNodup, hallFresh⟩
        obtain ⟨_, hrestNodup, hdisjoint⟩ := List.nodup_append.mp hallNodup
        refine ⟨hrest, hrestNodup, fun index hindex cohort hcohort hmem => ?_⟩
        rcases (hused _).mp hmem with hearlier | ⟨first, hfirst, other, hother, hsame⟩
        · exact hallFresh index (List.mem_append_right _ hindex) cohort hcohort hearlier
        · exact hdisjoint first hfirst index hindex ((cohort_id_inj hids hother hcohort).mp hsame)

/-! ## What a refusal leaves behind -/

/-- A word moved on by fewer steps than there are words has not come back. -/
theorem add_ofNat_eq_self_iff {word : UInt64} {count : ℕ} (hfew : count < 2 ^ 64) :
    word + UInt64.ofNat count = word ↔ count = 0 := by
  constructor
  · intro h
    have hzero : UInt64.ofNat count = 0 := by simpa using h
    have hcount := congrArg UInt64.toNat hzero
    rwa [UInt64.toNat_ofNat', Nat.mod_eq_of_lt hfew] at hcount
  · rintro rfl
    simp

/-- An admitted request has cohorts, no more than a word counts, and finds room. -/
theorem admitted_cohorts {record : ModelVersionRecord}
    (h : s.planRefusal c request record = none) :
    request.cohorts ≠ [] ∧ request.cohorts.length < 2 ^ 64 ∧
      s.rollouts.size < c.bounds.maxRollouts := by
  rw [planRefusal, firstRefusal_eq_none] at h
  simp only [List.append_eq_nil_iff] at h
  obtain ⟨_, hroot⟩ := h
  cases hfind : s.scopes.find request.rootScope with
  | none => simp [hfind] at hroot
  | some root =>
    simp only [hfind, List.append_eq_nil_iff, refuseIf_eq_nil, not_or, not_lt, not_le,
      Bool.not_eq_true, List.isEmpty_eq_false_iff] at hroot
    obtain ⟨⟨⟨⟨⟨_, hcohorts, _⟩, _⟩, hfew⟩, hroom⟩, _⟩ := hroot
    exact ⟨hcohorts, lt_of_le_of_lt hfew c.bounds.maxCohortsPerRollout_lt, hroom⟩

theorem cohortScopeRefusal_refuses {root : ScopeId} {scopes : List ScopeId} {refusal : Decision}
    (h : s.cohortScopeRefusal root scopes = some refusal) : refusal.allowed = false := by
  induction scopes with
  | nil => cases h
  | cons scope scopes ih =>
    unfold cohortScopeRefusal at h
    split_ifs at h
    · obtain rfl := Option.some.inj h
      rfl
    · obtain rfl := Option.some.inj h
      rfl
    · exact ih h

/-- No cohort is refused with a positive outcome. -/
theorem buildCohorts_refuses {root : ScopeId} {specs : List CohortSpec} {next after : UInt64}
    {built : List CohortDefinition} {refusal : Decision}
    (h : s.buildCohorts c root specs next built = (after, .error refusal)) :
    refusal.allowed = false := by
  induction specs generalizing next built with
  | nil => simp [buildCohorts] at h
  | cons spec specs ih =>
    unfold buildCohorts at h
    split_ifs at h
    · simp only [Prod.mk.injEq, Except.error.injEq] at h
      rw [← h.2]
      rfl
    · simp only [Prod.mk.injEq, Except.error.injEq] at h
      rw [← h.2]
      rfl
    · simp only [Prod.mk.injEq, Except.error.injEq] at h
      rw [← h.2]
      rfl
    · split at h
      · rename_i refused hscopes
        simp only [Prod.mk.injEq, Except.error.injEq] at h
        rw [← h.2]
        exact cohortScopeRefusal_refuses hscopes
      · simp only [Prod.mk.injEq, Except.error.injEq] at h
        rw [← h.2]
        rfl
    · split at h
      · rename_i refused hscopes
        simp only [Prod.mk.injEq, Except.error.injEq] at h
        rw [← h.2]
        exact cohortScopeRefusal_refuses hscopes
      · exact ih h

theorem resolveCohorts_refuses {cohorts : List CohortDefinition} {indices : List ℕ}
    {used chosen : List CohortId} {refusal : Decision}
    (h : resolveCohorts cohorts indices used chosen = .error refusal) :
    refusal.allowed = false := by
  induction indices generalizing used chosen with
  | nil => cases h
  | cons index indices ih =>
    unfold resolveCohorts at h
    split at h
    · obtain rfl := Except.error.inj h
      rfl
    · split_ifs at h
      · obtain rfl := Except.error.inj h
        rfl
      · exact ih h

/-- No stage is refused with a positive outcome. -/
theorem buildStages_refuses {cohorts : List CohortDefinition} {specs : List StageSpec}
    {next after : UInt64} {used : List CohortId} {built : List StageDefinition}
    {refusal : Decision}
    (h : buildStages c cohorts specs next used built = (after, .error refusal)) :
    refusal.allowed = false := by
  induction specs generalizing next used built with
  | nil => simp [buildStages] at h
  | cons spec specs ih =>
    unfold buildStages at h
    split_ifs at h
    · simp only [Prod.mk.injEq, Except.error.injEq] at h
      rw [← h.2]
      rfl
    · simp only [Prod.mk.injEq, Except.error.injEq] at h
      rw [← h.2]
      rfl
    · split at h
      · rename_i refused hresolved
        simp only [Prod.mk.injEq, Except.error.injEq] at h
        rw [← h.2]
        exact resolveCohorts_refuses hresolved
      · exact ih h

/-- A request that is not admitted is refused before anything is changed. -/
theorem createRollout_of_unadmitted (h : ¬request.Admitted c s) :
    (s.createRollout c request).1 = s := by
  unfold createRollout
  cases hrecord : s.versionOf request.model request.candidate with
  | none => rfl
  | some record =>
    dsimp only
    cases hrefusal : s.planRefusal c request record with
    | some refusal => rfl
    | none => exact absurd ⟨record, hrecord, hrefusal⟩ h

theorem saturated_iff_bump : s.sequence.nextGeneration = s.sequence ↔ s.sequence.Saturated := by
  constructor
  · intro hsame
    by_contra hroom
    exact (Ident.lt_nextGeneration hroom).ne hsame.symm
  · exact Ident.nextGeneration_of_saturated

/-- Building cohorts reads the scopes only, which a bump leaves alone. -/
theorem cohortSpec_buildable_bump {root : ScopeId} {spec : CohortSpec} :
    spec.Buildable c s.bumpSequence root ↔ spec.Buildable c s root :=
  ⟨fun h => ⟨h.name, h.scopes, h.placed, h.share⟩, fun h => ⟨h.name, h.scopes, h.placed, h.share⟩⟩

/-- The cohorts of a request are built exactly when each can be and no two share a name. -/
theorem request_cohorts_ok_iff :
    (∃ cohorts, (s.bumpSequence.buildCohorts c request.rootScope request.cohorts
        s.nextCohortId []).2 = .ok cohorts) ↔
      (∀ spec ∈ request.cohorts, spec.Buildable c s request.rootScope) ∧
        (request.cohorts.map CohortSpec.name).Nodup := by
  have hempty : (([] : List CohortDefinition).map CohortDefinition.name).Nodup := List.nodup_nil
  have hiff := buildCohorts_ok_iff (c := c) (s := s.bumpSequence) request.rootScope
    request.cohorts s.nextCohortId hempty
  simpa only [cohortSpec_buildable_bump, List.map_nil, List.nil_append] using hiff

/-- With its cohorts built, the stages of a request are built exactly when the request can
be built. -/
theorem request_stages_ok_iff {next : UInt64} {cohorts : List CohortDefinition}
    (hfew : request.cohorts.length < 2 ^ 64)
    (hcohorts : s.bumpSequence.buildCohorts c request.rootScope request.cohorts
      s.nextCohortId [] = (next, .ok cohorts)) :
    (∃ stages, (buildStages c cohorts request.stages s.nextStageId [] []).2 = .ok stages) ↔
      request.Buildable c s := by
  have hids := buildCohorts_ids hcohorts
  rw [List.map_nil, List.nil_append] at hids
  have hlength : cohorts.length = request.cohorts.length := by
    simpa using congrArg List.length hids
  have hdistinct : (cohorts.map CohortDefinition.id).Nodup := by
    refine List.Nodup.of_map Ident.raw ?_
    rw [List.map_map]
    exact (congrArg List.Nodup hids).mpr (consecutive_nodup _ hfew)
  obtain ⟨hspecs, hnames⟩ := request_cohorts_ok_iff.mp ⟨cohorts, congrArg Prod.snd hcohorts⟩
  rw [buildStages_ok_iff hdistinct, hlength]
  constructor
  · rintro ⟨hstages, honce, _⟩
    exact ⟨hspecs, hnames, hstages, honce⟩
  · intro h
    refine ⟨h.stages, h.once, ?_⟩
    intro index _ cohort _
    exact List.not_mem_nil

/-- A refused plan request leaves the engine as it was exactly when it is not admitted, or
its first cohort fails at once while the sequence cannot advance. An admitted request that
can be built is not refused. -/
theorem refused_request_unchanged_iff (c : EngineConfig) (s : EngineState)
    (request : RolloutPlanRequest) :
    ((s.createRollout c request).2.1.allowed = false → (s.createRollout c request).1 = s) ↔
      ¬request.Admitted c s ∨ request.Buildable c s ∨
        s.sequence.Saturated ∧ request.FailsAtOnce c := by
  by_cases hadmitted : request.Admitted c s
  swap
  · exact iff_of_true (fun _ => createRollout_of_unadmitted hadmitted) (Or.inl hadmitted)
  obtain ⟨record, hrecord, hrefusal⟩ := id hadmitted
  obtain ⟨hnonempty, hfew, hroom⟩ := admitted_cohorts hrefusal
  simp only [hadmitted, not_true_eq_false, false_or]
  obtain ⟨count, hcount, hspent, hnone⟩ := buildCohorts_spends (c := c) (s := s.bumpSequence)
    request.rootScope request.cohorts s.nextCohortId []
  have hmoved : (s.nextCohortId + UInt64.ofNat count = s.nextCohortId) ↔ count = 0 :=
    add_ofNat_eq_self_iff (lt_of_le_of_lt hcount hfew)
  have hatOnce : count = 0 ↔ request.FailsAtOnce c := by
    obtain ⟨spec, specs, hspecs⟩ := List.exists_cons_of_ne_nil hnonempty
    rw [hnone]
    simp [RolloutPlanRequest.FailsAtOnce, hspecs]
  rcases hcohorts : s.bumpSequence.buildCohorts c request.rootScope request.cohorts
    s.nextCohortId [] with ⟨next, refusal | cohorts⟩
  · have hcohorts' : s.bumpSequence.buildCohorts c request.rootScope request.cohorts
        s.bumpSequence.nextCohortId [] = (next, .error refusal) := hcohorts
    have heq : s.createRollout c request =
        ({ s.bumpSequence with nextCohortId := next }, refusal, {}, {}) := by
      simp [createRollout, hrecord, hrefusal, hcohorts']
    have hfails : ¬request.Buildable c s := by
      intro hbuildable
      obtain ⟨cohorts, hok⟩ := request_cohorts_ok_iff.mpr ⟨hbuildable.cohorts, hbuildable.names⟩
      rw [hcohorts] at hok
      cases hok
    have hnext : next = s.nextCohortId + UInt64.ofNat count := by rw [← hspent, hcohorts]
    rw [heq]
    simp only [buildCohorts_refuses hcohorts, forall_const, hfails, false_or, ← hatOnce, ← hmoved,
      ← saturated_iff_bump, ← hnext]
    constructor
    · intro hsame
      exact ⟨congrArg EngineState.sequence hsame, congrArg EngineState.nextCohortId hsame⟩
    · rintro ⟨hsequence, hcohort⟩
      unfold bumpSequence
      rw [hsequence, hcohort]
  · have hcohorts' : s.bumpSequence.buildCohorts c request.rootScope request.cohorts
        s.bumpSequence.nextCohortId [] = (next, .ok cohorts) := hcohorts
    have hstagesOk := request_stages_ok_iff hfew hcohorts
    have hnotAtOnce : ¬request.FailsAtOnce c := by
      rintro ⟨spec, hhead, hfails⟩
      have hspec : spec.Buildable c s request.rootScope :=
        (request_cohorts_ok_iff.mp ⟨cohorts, congrArg Prod.snd hcohorts⟩).1 spec
          (List.mem_of_mem_head? hhead)
      rcases hfails with hname | hscopes
      · rw [hspec.name] at hname
        cases hname
      · exact hspec.scopes hscopes
    have hnext : next ≠ s.nextCohortId := by
      have hnext : next = s.nextCohortId + UInt64.ofNat count := by rw [← hspent, hcohorts]
      rw [hnext, ne_eq, hmoved, hatOnce]
      exact hnotAtOnce
    rcases hstages : buildStages c cohorts request.stages s.nextStageId [] [] with
      ⟨nextStage, refusal | stages⟩
    · have hstages' : buildStages c cohorts request.stages s.bumpSequence.nextStageId [] [] =
          (nextStage, .error refusal) := hstages
      have heq : s.createRollout c request =
          ({ s.bumpSequence with nextCohortId := next, nextStageId := nextStage }, refusal, {},
            {}) := by
        simp [createRollout, hrecord, hrefusal, hcohorts', hstages']
      have hfails : ¬request.Buildable c s := by
        intro hbuildable
        obtain ⟨stages, hok⟩ := hstagesOk.mpr hbuildable
        rw [hstages] at hok
        cases hok
      rw [heq]
      simp only [buildStages_refuses hstages, forall_const, hfails, false_or, hnotAtOnce, and_false,
        iff_false]
      intro hsame
      exact hnext (congrArg EngineState.nextCohortId hsame)
    · have hstages' : buildStages c cohorts request.stages s.bumpSequence.nextStageId [] [] =
          (nextStage, .ok stages) := hstages
      have hallowed : (s.createRollout c request).2.1.allowed = true := by
        have hfits : ¬c.bounds.maxRollouts ≤ s.rollouts.size := not_le.mpr hroom
        simp [createRollout, hrecord, hrefusal, hcohorts', hstages', hfits]
      have hbuildable : request.Buildable c s := hstagesOk.mp ⟨stages, congrArg Prod.snd hstages⟩
      refine iff_of_true (fun hrefused => ?_) (Or.inl hbuildable)
      rw [hallowed] at hrefused
      cases hrefused

/-- A promoted version, and a plan request for it whose stage names a second cohort. -/
def promotedVersion : List Operation :=
  [.registerModel [109] [] .synthetic,
    .registerVersion
      { model := ⟨1⟩, label := [49]
        artifact := { setId := ⟨1⟩, generation := ⟨1⟩, digest := [97] } },
    .publishCompatibility ⟨1⟩ { key := [101] } .compatible [] .synthetic,
    .promote { model := ⟨1⟩, candidate := ⟨1⟩, scope := ⟨1⟩, environmentKey := [101] }]

def straySpec : RolloutPlanRequest where
  model := ⟨1⟩
  candidate := ⟨1⟩
  rootScope := ⟨1⟩
  cohorts := [{ name := [99], scopes := [⟨1⟩] }]
  stages := [{ name := [115], cohortIndices := [1] }]

/-- The request is refused, and the sequence and two allocators have moved. -/
theorem refused_request_changes :
    ¬∀ (c : EngineConfig) (s : EngineState) (request : RolloutPlanRequest), ReachableState c s →
      (s.createRollout c request).2.1.allowed = false → (s.createRollout c request).1 = s := by
  intro hclaim
  have hsame := hclaim {} (runOps {} (init {}) promotedVersion) straySpec ⟨_, rfl⟩
    (by decide +kernel)
  have hsequence : ((runOps {} (init {}) promotedVersion).createRollout {} straySpec).1.sequence ≠
      (runOps {} (init {}) promotedVersion).sequence := by decide +kernel
  exact hsequence (congrArg EngineState.sequence hsame)

end LifecycleFabric
