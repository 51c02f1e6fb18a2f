import LifecycleFabric.Properties.Query

/-!
# What a recovery restores

An engine that imports what another one exported answers every authority query as the
other did. Its stores are those of the other engine, less what is volatile: superseded
bindings, live readings, leases and the fate of attempts in flight.
-/

namespace LifecycleFabric

open EngineState AuthorityTable

variable {c : EngineConfig} {s r : EngineState}

/-! ## Evidence stays filed -/

theorem Chain.evidence {p : Permit} {s' : EngineState} (h : Chain c p s s') :
    Relation.ReflTransGen EvidenceStore.Changed s.evidence s'.evidence := by
  refine Runs.chain_preserves
    (P := fun t => Relation.ReflTransGen EvidenceStore.Changed s.evidence t.evidence) ?_ h .refl
  intro a b hab ha
  cases hab with
  | withdrawEvidence version current => exact ha.tail (.revise version current)
  | _ => exact ha

/-- What every change of a store keeps and every recovery establishes holds of the evidence of
every reachable state. -/
theorem EngineState.ReachableState.evidence_invariant (h : ReachableState c s)
    {P : EvidenceStore → Prop} (hstart : P (init c).evidence)
    (hchanged : ∀ store store', EvidenceStore.Changed store store' → P store → P store')
    (hrestored : ∀ (store store' : EvidenceStore) records dropped,
      store.restore records dropped = some store' → P store') : P s.evidence := by
  have hboth := Runs.reachable_invariant (P := fun t => Coherent t ∧ P t.evidence) (step c) ?_
    ⟨coherent_init c, hstart⟩ h
  · exact hboth.2
  · rintro t op ⟨ht, hevidence⟩
    have hcase := step_cases (c := c) ht op
    generalize step c t op = t' at hcase ⊢
    refine ⟨hcase.coherent ht, ?_⟩
    cases hcase with
    | aside h => exact Runs.chain_preserves hchanged h.evidence hevidence
    | chain p _ _ _ h => exact Runs.chain_preserves hchanged h.evidence hevidence
    | recover d newEpoch recovered hsound => exact hrestored _ _ _ _ hsound.evidence

/-- In every reachable state each record of evidence lies in its own bucket. -/
theorem EngineState.ReachableState.filed (h : ReachableState c s) : s.evidence.Filed := by
  refine h.evidence_invariant ?_ (fun _ _ hchange => hchange.filed)
    fun _ _ _ _ hrestored => EvidenceStore.filed_restore hrestored
  intro key record hrecord
  cases hrecord

/-- No record of a reachable state is of a generation past the watermark. -/
theorem EngineState.ReachableState.marked (h : ReachableState c s) : s.evidence.Marked := by
  refine h.evidence_invariant ?_ (fun _ _ hchange => hchange.marked)
    fun _ _ _ _ hrestored => EvidenceStore.marked_restore hrestored
  intro key record hrecord
  cases hrecord

/-- The exported records of a bucket are its durable ones. -/
theorem filter_durable {store : EvidenceStore} (hfiled : store.Filed) (key : EvidenceKey) :
    (store.durable.filter fun record =>
        decide (EvidenceStore.makeKey record.subject record.kind = key)).Perm
      ((store.bucket key).filter fun record => record.kind.isDurable) := by
  have hsorted : store.durable.Perm
      (store.records.values.flatten.filter fun record => record.kind.isDurable) :=
    List.perm_insertionSort _ _
  have hbuckets : (store.records.values.flatten.filter fun record =>
      decide (EvidenceStore.makeKey record.subject record.kind = key)) = store.bucket key := by
    have hown : ∀ key bucket, store.records.get? key = some bucket → ∀ record ∈ bucket,
        EvidenceStore.makeKey record.subject record.kind = key := by
      intro key bucket hbucket record hrecord
      refine hfiled key record ?_
      rw [EvidenceStore.bucket, hbucket]
      exact hrecord
    rw [EvidenceStore.bucket]
    convert OrdMap.filter_flatten_values hown key
  have hfiltered := hsorted.filter fun record =>
    decide (EvidenceStore.makeKey record.subject record.kind = key)
  rw [List.filter_filter] at hfiltered
  rw [← hbuckets, List.filter_filter]
  simpa only [Bool.and_comm] using hfiltered

/-! ## Queries read scopes, versions and live bindings -/

/-- Two engines with the same scopes, versions and live bindings. -/
structure AnswersAlike (s r : EngineState) : Prop where
  records : r.scopes.records = s.scopes.records
  versions : r.versions = s.versions
  live : ∀ scope, r.authority.liveBindingsFor scope = s.authority.liveBindingsFor scope

theorem AnswersAlike.find (h : AnswersAlike s r) (scope : ScopeId) :
    r.scopes.find scope = s.scopes.find scope := by
  unfold ScopeRegistry.find
  rw [h.records]

theorem AnswersAlike.chain (h : AnswersAlike s r) (scope : ScopeId) :
    r.scopes.chain scope = s.scopes.chain scope := by
  have hup : ∀ steps record, r.scopes.chainUp steps record = s.scopes.chainUp steps record := by
    intro steps
    induction steps with
    | zero => exact fun _ => rfl
    | succ steps ih =>
      intro record
      cases record with
      | none => rfl
      | some record => rw [ScopeRegistry.chainUp, ScopeRegistry.chainUp, h.find, ih]
  rw [ScopeRegistry.chain, ScopeRegistry.chain, h.find, h.records, hup]

theorem AnswersAlike.resolveAuthority (h : AnswersAlike s r) (scopes : List ScopeId)
    (result : AuthorityQueryResult) :
    r.resolveAuthority scopes result = s.resolveAuthority scopes result := by
  have hpath : ∀ scope, r.scopes.pathOf scope = s.scopes.pathOf scope := by
    intro scope
    rw [ScopeRegistry.pathOf, ScopeRegistry.pathOf, h.find]
  have hvisit : ∀ node result, r.visitScope node result = s.visitScope node result := by
    intro node result
    unfold visitScope
    rw [h.live]
  have hexplain : ∀ result node binding record,
      r.explainBinding result node binding record = s.explainBinding result node binding record := by
    intro result node binding record
    unfold explainBinding
    rw [hpath, hpath]
  induction scopes generalizing result with
  | nil =>
    unfold EngineState.resolveAuthority
    rw [hpath]
  | cons node rest ih =>
    unfold EngineState.resolveAuthority versionOf
    simp only [hpath, hvisit, hexplain, h.live, h.versions, ih]

theorem AnswersAlike.queryAuthority (h : AnswersAlike s r) (scope : ScopeId) :
    r.queryAuthority scope = s.queryAuthority scope := by
  unfold EngineState.queryAuthority
  rw [h.find, h.chain]
  cases s.scopes.find scope with
  | none => rfl
  | some record => exact h.resolveAuthority _ _

/-! ## The stores after a recovery -/

/-- No identity or generation counter fell behind. -/
structure AllocatorsKeptUp (s r : EngineState) : Prop where
  nextModelId : s.nextModelId ≤ r.nextModelId
  nextVersionId : s.nextVersionId ≤ r.nextVersionId
  nextRolloutId : s.nextRolloutId ≤ r.nextRolloutId
  nextStageId : s.nextStageId ≤ r.nextStageId
  nextCohortId : s.nextCohortId ≤ r.nextCohortId
  nextPromotionId : s.nextPromotionId ≤ r.nextPromotionId
  nextRollbackId : s.nextRollbackId ≤ r.nextRollbackId
  nextAttemptId : s.nextAttemptId ≤ r.nextAttemptId
  nextWorkerId : s.nextWorkerId ≤ r.nextWorkerId
  nextEvidenceId : s.nextEvidenceId ≤ r.nextEvidenceId
  nextEvidenceGeneration : s.nextEvidenceGeneration ≤ r.nextEvidenceGeneration
  nextCompatibilityGeneration : s.nextCompatibilityGeneration ≤ r.nextCompatibilityGeneration
  sequence : s.sequence ≤ r.sequence

/-- The engine `r` was restored from the engine `s`. -/
structure RestoredFrom (s r : EngineState) : Prop where
  answers : ∀ scope, r.queryAuthority scope = s.queryAuthority scope
  models : r.models = s.models
  versions : r.versions = s.versions
  scopes : r.scopes.records = s.scopes.records ∧ r.scopes.root = s.scopes.root
  policy : r.policy = s.policy
  rollouts : r.rollouts = s.rollouts
  authority : ∀ scope, r.authority.bindingsFor scope = s.authority.liveBindingsFor scope
  compatibility : r.compatibility.facts = s.compatibility.facts
  evidence : ∀ key, (r.evidence.bucket key).Perm
    ((s.evidence.bucket key).filter fun record => record.kind.isDurable)
  attempts : ∀ key, r.attempts.get? key =
    ((s.attempts.get? key).filter fun attempt => !attempt.state.isSettled).map Attempt.recovered
  allocators : AllocatorsKeptUp s r
  fenced : ∀ key lease, r.workers.get? key = some lease → lease.fenced = true
  undispatched : ∀ key attempt, r.attempts.get? key = some attempt → attempt.state ≠ .dispatched

/-- The exported bindings of a scope are the live ones. -/
theorem bindingsFor_durable (table : AuthorityTable) (maxBindings : ℕ) (scope : ScopeId) :
    ({ bindings := table.durable, maxBindings } : AuthorityTable).bindingsFor scope =
      table.liveBindingsFor scope := by
  unfold bindingsFor liveBindingsFor durable bindingsFor
  dsimp only
  rw [OrdMap.get?_filterMap]
  cases table.bindings.get? scope.raw with
  | none => rfl
  | some bindings =>
    dsimp only [Option.bind_some, Option.getD_some]
    split_ifs with hempty
    · exact (List.isEmpty_iff.mp hempty).symm
    · rfl

theorem restoredScopes {bound : ℕ} {d : DurableState} {restored : ScopeRegistry}
    (h : ({ maxScopes := bound } : ScopeRegistry).restore d.scopes d.rootScope = (restored, true)) :
    restored.records = d.scopes ∧ restored.root = d.rootScope := by
  obtain ⟨_, _, _, children, pathIndex, _, rfl⟩ := ScopeRegistry.restore_eq_true_iff.mp h
  exact ⟨rfl, rfl⟩

theorem restoredPolicy {d : DurableState} {restored : PolicySet}
    (h : PolicySet.restore d.policyOverrides d.basePolicy = some restored) :
    restored = { base := d.basePolicy, overrides := d.policyOverrides } := by
  unfold PolicySet.restore at h
  split_ifs at h
  exact (Option.some.inj h).symm

theorem restoredFacts {registry restored : CompatibilityRegistry} {d : DurableState}
    (h : registry.restore d.compatibility = some restored) :
    restored.facts = d.compatibility := by
  unfold CompatibilityRegistry.restore at h
  split_ifs at h
  obtain rfl := Option.some.inj h
  rfl

/-- A state that imports a sound export is restored from the exporting one. -/
theorem restoredFrom_applyDurableState (hfiled : s.evidence.Filed) {t : EngineState}
    {newEpoch : CoordinatorEpoch} {recovered : DurableState.Recovered}
    (h : s.exportDurableState.Sound c t newEpoch recovered) :
    RestoredFrom s (t.applyDurableState s.exportDurableState newEpoch recovered) := by
  have hscopes := restoredScopes h.scopes
  have hauthority : ∀ scope, recovered.authority.bindingsFor scope =
      s.authority.liveBindingsFor scope := by
    intro scope
    rw [(restored_authority h.authority).1]
    exact bindingsFor_durable s.authority t.authority.maxBindings scope
  have halike : AnswersAlike s (t.applyDurableState s.exportDurableState newEpoch recovered) := by
    refine ⟨hscopes.1, rfl, ?_⟩
    intro scope
    have hlive : (recovered.authority.bindingsFor scope).filter AuthorityBinding.live =
        s.authority.liveBindingsFor scope := by
      rw [hauthority, liveBindingsFor, List.filter_filter]
      simp
    exact hlive
  have himported := importedSoundly_applyDurableState h
  constructor
  · exact halike.queryAuthority
  · rfl
  · rfl
  · exact hscopes
  · exact restoredPolicy h.policy
  · rfl
  · exact hauthority
  · exact restoredFacts h.compatibility
  · intro key
    exact (EvidenceStore.bucket_restore h.evidence key).trans (filter_durable hfiled key)
  · intro key
    have hattempts : (t.applyDurableState s.exportDurableState newEpoch recovered).attempts =
        (s.attempts.filter fun _ attempt => !attempt.state.isSettled).mapValues fun _ =>
          Attempt.recovered := rfl
    rw [hattempts, OrdMap.get?_mapValues, OrdMap.get?_filter]
  · refine ⟨le_rfl, le_rfl, le_rfl, le_rfl, le_rfl, le_rfl, le_rfl, le_rfl, le_rfl, le_rfl, ?_,
      le_rfl, ?_⟩
    · exact le_max_left _ _
    · exact (le_max_left _ _).trans (Ident.le_nextGeneration _)
  · exact himported.leases
  · exact himported.attempts

/-- A fresh engine that accepts what a reachable one exported is restored from it. -/
theorem import_restores_export (hs : ReachableState c s) (newEpoch : CoordinatorEpoch)
    (haccepted :
      ((init c).importDurableState c s.exportDurableState newEpoch).2.allowed = true) :
    RestoredFrom s ((init c).importDurableState c s.exportDurableState newEpoch).1 := by
  rcases importDurableState_cases c (init c) s.exportDurableState newEpoch with
    ⟨_, hrefused⟩ | ⟨recovered, hsound, heq⟩
  · rw [hrefused] at haccepted
    cases haccepted
  · rw [heq]
    exact restoredFrom_applyDurableState hs.filed hsound

/-- A version serves the root scope, evidence on it is published, and a worker is about to
warm a second version, whose rollout has entered its first stage. -/
def halfRolledOut : List Operation :=
  [.registerModel [109] [] .synthetic,
    .registerVersion
      { model := ⟨1⟩, label := [49]
        artifact := { setId := ⟨1⟩, generation := ⟨1⟩, digest := [97] } },
    .publishCompatibility ⟨1⟩ { key := [101] } .compatible [] .synthetic,
    .promote
      { model := ⟨1⟩, candidate := ⟨1⟩, scope := ⟨1⟩, environmentKey := [101]
        requestImmediateCutover := true },
    .publishEvidence
      { kind := .testResult, subject := { version := ⟨1⟩ }, provenance := .synthetic },
    .registerVersion
      { model := ⟨1⟩, label := [50]
        artifact := { setId := ⟨1⟩, generation := ⟨1⟩, digest := [97] } },
    .publishCompatibility ⟨2⟩ { key := [101] } .compatible [] .synthetic,
    .promote
      { model := ⟨1⟩, candidate := ⟨2⟩, scope := ⟨1⟩, environmentKey := [101]
        rollbackTarget := ⟨1⟩ },
    .createRollout
      { model := ⟨1⟩, candidate := ⟨2⟩, rootScope := ⟨1⟩, rollbackTarget := ⟨1⟩
        cohorts := [{ name := [99], scopes := [⟨1⟩] }]
        stages := [{ name := [115], cohortIndices := [0] }] },
    .beginRollout { rollout := ⟨1⟩ },
    .registerWorker { id := ⟨1⟩, boot := ⟨7⟩ },
    .beginAttempt { worker := ⟨1⟩, boot := ⟨7⟩, model := ⟨1⟩, version := ⟨2⟩ }]

theorem import_restores_export_witness :
    RestoredFrom (runOps {} (init {}) halfRolledOut)
      ((init {}).importDurableState {} (runOps {} (init {}) halfRolledOut).exportDurableState
        ⟨2⟩).1 :=
  import_restores_export (c := {}) ⟨halfRolledOut, rfl⟩ ⟨2⟩ (by decide +kernel)

end LifecycleFabric
