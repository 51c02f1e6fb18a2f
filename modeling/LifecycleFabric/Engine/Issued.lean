import LifecycleFabric.Engine.GrantRuns
import LifecycleFabric.Engine.Identities
import LifecycleFabric.Engine.Plans

/-!
# What the operations hand out

Most parts of an operation hand out nothing. An operation that does hand out an identity
reads an allocator, keeps what it makes under that identity, and moves the allocator past it.
-/

namespace LifecycleFabric

open EngineState AuthorityTable Allocators

variable {new : IdKind → UInt64 → Prop} {c : EngineConfig} {s t u : EngineState}
  {plan : RolloutPlan}

/-! ## Records -/

/-- The lifecycle leaves the identities a version names. -/
theorem gains_of_chain {record after : ModelVersionRecord}
    (h : Relation.ReflTransGen ModelVersionRecord.Transitioned record after) :
    record.Gains new after := by
  have hsame : after.lastPromotion = record.lastPromotion ∧
      after.lastRollback = record.lastRollback ∧
      after.compatibilityGeneration = record.compatibilityGeneration := by
    induction h with
    | refl => exact ⟨rfl, rfl, rfl⟩
    | tail _ hstep ih =>
      obtain ⟨_, _, rfl⟩ := hstep
      exact ih
  exact gains_of_same hsame.1 hsame.2.1 hsame.2.2

theorem gains_transition (record : ModelVersionRecord) (target : LifecycleState) :
    record.Gains new (record.transition target).1 := by
  rcases record.transition_cases target with ⟨_, hmoved⟩ | ⟨hsame, _⟩
  · rw [hmoved]
    exact gains_of_same rfl rfl rfl
  · rw [hsame]
    exact gains_of_same rfl rfl rfl

theorem adds_advanceVersion (s : EngineState) (model : ModelId) (version : ModelVersionId)
    (target : LifecycleState) : Adds new s (s.advanceVersion model version target) :=
  adds_modifyVersion s model version fun record =>
    gains_of_chain (record.advanceLifecycleTo_chain target)

theorem adds_stampVersion (s : EngineState) (model : ModelId) (version : ModelVersionId) :
    Adds new s (s.stampVersion model version) :=
  (adds_bumpSequence s).trans
    (adds_modifyVersion _ model version fun _ => gains_of_same rfl rfl rfl)

theorem adds_recordStage (s : EngineState) (model : ModelId) (version : ModelVersionId)
    (stage : RolloutStageId) (generation : RolloutStageGeneration) :
    Adds new s (s.recordStage model version stage generation) :=
  adds_modifyVersion s model version fun _ => gains_of_same rfl rfl rfl

theorem adds_refreshRoot (s : EngineState) (rollout : RolloutId) (root : ScopeId) :
    Adds new s (s.refreshRoot rollout root) := by
  unfold refreshRoot
  split
  · exact .refl s
  · exact adds_modifyRollout s rollout fun _ => ⟨rfl, rfl, rfl, Or.inl rfl⟩

/-! ## Grants -/

/-- The promotion and the rollback a grant names have a property. -/
structure GrantRequest.Names (new : IdKind → UInt64 → Prop) (g : GrantRequest) : Prop where
  promotion : g.promotion.valid = true → new .promotion g.promotion.raw
  rollback : g.rollback.valid = true → new .rollback g.rollback.raw

theorem adds_demoteDisplaced (s : EngineState) (model : ModelId) (version : ModelVersionId) :
    Adds new s (s.demoteDisplaced model version) := by
  unfold demoteDisplaced
  split_ifs
  · exact adds_advanceVersion s model version _
  · split
    · split_ifs
      · exact adds_advanceVersion s model version _
      · exact .refl s
    · exact .refl s

/-- A retained binding names no promotion and no rollback. -/
theorem adds_settleDisplaced (s : EngineState) (g : GrantRequest)
    (scopeGeneration : ScopeGeneration) (displaced : AuthorityBinding) :
    Adds new s (s.settleDisplaced g scopeGeneration displaced).1 := by
  unfold settleDisplaced
  split
  · exact .refl s
  · rename_i previous _
    split_ifs
    · exact .refl s
    · dsimp only
      rcases grant_cases s.bumpSequence.authority
        (s.bumpSequence.retentionBinding scopeGeneration displaced previous g.scope) true with
        ⟨_, hdenied⟩ | ⟨hgranted, _⟩
      · rw [hdenied, Bool.not_false, if_pos rfl]
        exact adds_bumpSequence s
      · rw [hgranted, Decision.allowed_accepted, Bool.not_true, if_neg Bool.false_ne_true]
        refine (Adds.trans (adds_bumpSequence s) ?_).trans (adds_demoteDisplaced _ _ _)
        refine adds_push s.bumpSequence (Weakened.refl _) ⟨?_, ?_⟩
        · intro hvalid
          cases hvalid
        · intro hvalid
          cases hvalid
    · exact adds_demoteDisplaced s _ _

/-- A grant puts what it names into the table. -/
theorem adds_grantAuthority (s : EngineState) {g : GrantRequest} (hg : g.Names new) :
    Adds new s (s.grantAuthority g).1 := by
  unfold grantAuthority
  split
  · exact .refl s
  · rename_i record _
    split_ifs
    · exact .refl s
    · split
      · exact .refl s
      · rename_i scopeRecord _
        dsimp only
        rcases placeBinding_cases s.bumpSequence g
            (s.bumpSequence.grantedBinding g record scopeRecord.generation)
            (fun h => by simp [EngineState.grantedBinding, h]) with hdenied |
          ⟨mid, displaced, hplaced, hweakened, _⟩
        · rw [hdenied, Bool.not_false, if_pos rfl]
          exact adds_bumpSequence s
        · rw [hplaced, Decision.allowed_accepted, Bool.not_true, if_neg Bool.false_ne_true]
          have hgains : (s.bumpSequence.grantedBinding g record scopeRecord.generation).Gains new
              s.bumpSequence.authority :=
            ⟨fun hvalid => Or.inr (hg.promotion hvalid), fun hvalid => Or.inr (hg.rollback hvalid)⟩
          have hpushed := (adds_bumpSequence s).trans (adds_push s.bumpSequence hweakened hgains)
          cases displaced with
          | none => exact hpushed.trans (adds_touchScope _ _)
          | some displaced =>
            dsimp only
            split_ifs
            · exact hpushed.trans (adds_touchScope _ _)
            · exact hpushed.trans (adds_settleDisplaced _ _ _ _)
            · exact (hpushed.trans (adds_settleDisplaced _ _ _ _)).trans (adds_touchScope _ _)

theorem adds_grantOver {grant : ScopeId → GrantRequest} (hgrant : ∀ scope, (grant scope).Names new)
    {after : ScopeId → EngineState → EngineState} (hafter : ∀ scope t, Adds new t (after scope t))
    (scopes : List ScopeId) (s : EngineState) :
    Adds new s (grantOver grant after scopes s).1 := by
  refine grantOver_preserves (P := fun t => Adds new s t) ?_ ?_ (.refl s)
  · intro scope _ t ht _
    exact ht.trans (adds_grantAuthority t (hgrant scope))
  · intro scope _ t ht _
    exact (ht.trans (adds_grantAuthority t (hgrant scope))).trans (hafter scope _)

/-- The promotion of a plan has a property. -/
def RolloutPlan.Promoted (new : IdKind → UInt64 → Prop) (plan : RolloutPlan) : Prop :=
  plan.promotion.valid = true → new .promotion plan.promotion.raw

theorem names_stageGrant (hplan : plan.Promoted new) (stage : StageDefinition)
    (kind : AuthorityKind) (supersedeExisting : Bool) (scope : ScopeId) :
    (stageGrant plan stage kind supersedeExisting scope).Names new where
  promotion := hplan
  rollback hvalid := by cases hvalid

/-- What has a property or is in use already adds nothing but what has the property. -/
theorem Adds.of_used (h : Adds (fun kind raw => new kind raw ∨ raw ∈ s.ids kind) s t) :
    Adds new s t where
  next := h.next
  versions := h.versions
  ids kind raw hraw := by
    rcases h.ids kind raw hraw with hold | hnew | hold
    · exact Or.inl hold
    · exact Or.inr hnew
    · exact Or.inl hold

/-- The promotion of a stored plan is in use. -/
theorem promoted_of_stored (new : IdKind → UInt64 → Prop) {key : UInt64}
    (hplan : s.rollouts.get? key = some plan) :
    plan.Promoted fun kind raw => new kind raw ∨ raw ∈ s.ids kind := by
  intro hvalid
  refine Or.inr (List.mem_append_left _ (List.mem_append_right _ ?_))
  exact List.mem_map_of_mem (List.mem_filter.mpr
    ⟨List.mem_map_of_mem (OrdMap.mem_values_iff.mpr ⟨key, hplan⟩), hvalid⟩)

/-! ## Stages -/

theorem adds_drainPrevious (plan : RolloutPlan) (stage : StageDefinition) (scope : ScopeId)
    (s : EngineState) : Adds new s (drainPrevious plan stage scope s) := by
  unfold drainPrevious
  dsimp only
  split_ifs
  · have hdrained : Adds new s (s.mapAuthority (·.markDraining plan.model plan.previous scope)) :=
      adds_weakened s (weakened_markDraining _ _ _ _)
    split
    · exact hdrained
    · split_ifs
      · exact hdrained
      · exact hdrained.trans (adds_advanceVersion _ _ _ _)
  · exact .refl s

theorem adds_leaveStage (s : EngineState) (rollout : RolloutId) (hplan : plan.Promoted new) :
    Adds new s (s.leaveStage rollout plan).1 := by
  unfold leaveStage
  split_ifs
  · have hcompleted : Adds new s _ := (adds_bumpSequence s).trans (adds_modifyRollout _ rollout
      (f := completedPlan s.bumpSequence.sequence) fun _ => ⟨rfl, rfl, rfl, Or.inl rfl⟩)
    exact hcompleted.trans (adds_advanceVersion _ _ _ _)
  · have hpromoted : (nextStagePlan plan.nextStage s.bumpSequence.sequence plan).Promoted new :=
      hplan
    have hentered : Adds new s _ := (adds_bumpSequence s).trans (adds_modifyRollout _ rollout
      (f := nextStagePlan plan.nextStage s.bumpSequence.sequence)
        fun _ => ⟨rfl, rfl, rfl, Or.inl rfl⟩)
    have hadvanced := hentered.trans
      (adds_advanceVersion _ plan.model plan.candidate .partiallyPromoted)
    exact (hadvanced.trans (adds_recordStage _ _ _ _ _)).trans
      (adds_grantOver (names_stageGrant hpromoted plan.nextStage .canary false)
        (fun _ t => .refl t) _ _)

theorem adds_commitStage (s : EngineState) (rollout : RolloutId) (hplan : plan.Promoted new) :
    Adds new s (s.commitStage rollout plan).1 := by
  unfold commitStage
  dsimp only
  have hadvanced : Adds new s _ := ((adds_bumpSequence s).trans (adds_bumpSequence _)).trans
    (adds_modifyRollout _ rollout
      (f := advancedPlan s.bumpSequence.sequence s.bumpSequence.bumpSequence.sequence)
      fun _ => ⟨rfl, rfl, rfl, Or.inl rfl⟩)
  have hpromoted : (advancedPlan s.bumpSequence.sequence s.bumpSequence.bumpSequence.sequence
      plan).Promoted new := hplan
  have hgranted := hadvanced.trans (adds_grantOver
    (names_stageGrant hpromoted plan.currentStage .exclusive true)
    (adds_drainPrevious plan plan.currentStage) (plan.stageScopes plan.currentStage) _)
  split_ifs
  · exact hgranted
  · exact hgranted.trans (adds_leaveStage _ _ hpromoted)
  · exact ((hgranted.trans (adds_leaveStage _ _ hpromoted)).trans (adds_refreshRoot _ _ _)).trans
      (adds_stampVersion _ _ _)

theorem adds_commitFailure (s : EngineState) (rollout : RolloutId) (plan : RolloutPlan)
    (reasons : List Reason) (leaveStage : Bool) :
    Adds new s (s.commitFailure rollout plan reasons leaveStage) := by
  unfold commitFailure
  dsimp only
  have hfailed : Adds new s _ := ((adds_bumpSequence s).trans (adds_bumpSequence _)).trans
    (adds_modifyRollout _ rollout (f := failedPlan s.bumpSequence.sequence
      s.bumpSequence.bumpSequence.sequence reasons leaveStage) fun _ => ⟨rfl, rfl, rfl, Or.inl rfl⟩)
  exact ((hfailed.trans (adds_weakened _ (weakened_supersedeRollout _ _ _))).trans
    (adds_advanceVersion _ _ _ _)).trans (adds_stampVersion _ _ _)

theorem adds_beginRollout (s : EngineState) (request : RolloutProgressRequest) :
    Adds new s (s.beginRollout request).1 := by
  unfold beginRollout
  split
  · exact .refl s
  · rename_i plan hplan
    split
    · exact .refl s
    · split
      · exact .refl s
      · dsimp only
        split
        · exact .refl s
        · apply Adds.of_used
          have hstored := promoted_of_stored new hplan
          have hpromoted : (enterStage plan.firstStage s.bumpSequence.sequence plan).Promoted
              fun kind raw => new kind raw ∨ raw ∈ s.ids kind := hstored
          have hentered : Adds (fun kind raw => new kind raw ∨ raw ∈ s.ids kind) s _ :=
            (adds_bumpSequence s).trans (adds_modifyRollout _ request.rollout
              (f := enterStage plan.firstStage s.bumpSequence.sequence)
              fun _ => ⟨rfl, rfl, rfl, Or.inl rfl⟩)
          have hadvanced := hentered.trans
            (adds_advanceVersion _ plan.model plan.candidate .canaryActive)
          have hgranted := fun (stage : RolloutStageId) generation =>
            (((hadvanced.trans (adds_recordStage _ plan.model plan.candidate stage
              generation)).trans (adds_stampVersion _ plan.model plan.candidate)).trans
              (adds_grantOver (names_stageGrant hpromoted plan.firstStage .canary false)
                (fun _ t => .refl t) (plan.stageScopes plan.firstStage) _))
          split_ifs
          · exact hadvanced
          · exact hgranted _ _
          · exact (hgranted _ _).trans (adds_refreshRoot _ _ _)

theorem adds_failStage (s : EngineState) (request : RolloutProgressRequest) :
    Adds new s (s.failStage request).1 := by
  unfold failStage
  split
  · exact .refl s
  · split
    · exact .refl s
    · split
      · exact .refl s
      · exact adds_commitFailure s _ _ _ _

theorem adds_supersedeRollout (s : EngineState) (rollout : RolloutId)
    (generation : RolloutGeneration) (epoch : CoordinatorEpoch) (detail : Text) :
    Adds new s (s.supersedeRollout rollout generation epoch detail).1 := by
  unfold EngineState.supersedeRollout
  split
  · exact .refl s
  · rename_i plan _
    split_ifs
    · exact .refl s
    · exact .refl s
    · exact .refl s
    · dsimp only
      have hended : Adds new s _ := ((adds_bumpSequence s).trans (adds_modifyRollout _ rollout
        (f := explicitSupersession s.bumpSequence.sequence detail)
        fun _ => ⟨rfl, rfl, rfl, Or.inl rfl⟩)).trans
          (adds_weakened _ (weakened_supersedeRollout _ plan.id plan.generation))
      split
      · exact hended
      · split_ifs
        · exact hended
        · exact (hended.trans (adds_advanceVersion _ _ _ _)).trans (adds_stampVersion _ _ _)

/-! ## Versions and their standing -/

theorem adds_supersedeRevisedPlans (candidate : ModelVersionId) (keys : List UInt64)
    (s : EngineState) : Adds new s (supersedeRevisedPlans candidate keys s) := by
  induction keys generalizing s with
  | nil => exact .refl s
  | cons key keys ih =>
    unfold supersedeRevisedPlans
    split
    · exact ih s
    · dsimp only
      split_ifs
      · exact ih s
      · have hedited : Adds new s _ := (adds_bumpSequence s).trans (adds_modifyPlan _ key
          (f := revisedPlan s.bumpSequence.sequence) fun _ => ⟨rfl, rfl, rfl, Or.inl rfl⟩)
        exact (hedited.trans (adds_weakened _ (weakened_supersedeRollout _ _ _))).trans (ih _)

/-- Withdrawing facts and evidence keeps nothing that was not kept. -/
theorem adds_withdraw (s : EngineState) (version : ModelVersionId) (current : ModelGeneration) :
    Adds new s
      { s with
        compatibility := s.compatibility.invalidateVersion version
        evidence := s.evidence.invalidateModelGeneration version current } := by
  have hfacts : Adds new s
      { s with compatibility := s.compatibility.invalidateVersion version } :=
    adds_facts s fun _ hfact => Or.inl (OrdMap.values_filter_subset _ _ hfact)
  exact hfacts.trans (adds_shrinks _ (EvidenceStore.shrinks_revise s.evidence version current))

theorem adds_reviseVersion (s : EngineState) (request : ReviseVersionRequest) :
    Adds new s (s.reviseVersion c request).1 := by
  unfold reviseVersion
  cases hrecord : s.versionOf request.model request.version with
  | none => exact .refl s
  | some record =>
    dsimp only
    have hrevised : Adds new s _ := (adds_bumpSequence s).trans (adds_modifyVersions s.bumpSequence
      (versionKey request.model request.version)
      (f := fun _ => revisedRecord record request s.bumpSequence.sequence) (by
        intro stored hstored
        obtain rfl := Option.some.inj (hrecord.symm.trans hstored)
        exact ⟨Or.inl rfl, Or.inl rfl, fun hvalid => by cases hvalid⟩))
    have hwithdrawn := hrevised.trans (adds_withdraw _ record.version
      (revisedRecord record request s.bumpSequence.sequence).generation)
    split_ifs
    · exact .refl s
    · exact .refl s
    · exact .refl s
    · exact .refl s
    · exact .refl s
    · exact hwithdrawn
    · exact hwithdrawn.trans (adds_supersedeRevisedPlans _ _ _)
    · exact (hwithdrawn.trans (adds_supersedeRevisedPlans _ _ _)).trans
        (adds_modifyVersion _ _ _ fun stored => gains_transition stored _)

theorem adds_revalidate (s : EngineState) (request : RevalidationRequest) :
    Adds new s (s.revalidate request).1 := by
  unfold revalidate
  split
  · exact .refl s
  · rename_i record _
    have hsuperseded : ∀ (bindings : List AuthorityBinding) (t : EngineState),
        Adds new t (bindings.foldl (fun t binding =>
          t.mapAuthority (·.supersedeScope binding.scope)) t) := by
      intro bindings
      induction bindings with
      | nil => exact fun t => .refl t
      | cons binding bindings ih =>
        exact fun t => (adds_weakened t (weakened_supersedeScope _ _)).trans (ih _)
    have hwithdrawn : Adds new s (s.withdrawStanding request record) :=
      (adds_withdraw s record.version record.generation.nextGeneration).trans
        (adds_modifyVersion _ request.model request.version
          (f := fun record => { record with compatibilityGeneration := {} })
          fun _ => ⟨Or.inl rfl, Or.inl rfl, fun hvalid => by cases hvalid⟩)
    split_ifs
    · exact .refl s
    · exact .refl s
    · exact ((hwithdrawn.trans (hsuperseded _ _)).trans (adds_advanceVersion _ _ _ _)).trans
        (adds_stampVersion _ _ _)

theorem adds_withdrawPlans (candidate : ModelVersionId) (keys : List UInt64)
    (s : EngineState) : Adds new s (withdrawPlans candidate keys s) := by
  induction keys generalizing s with
  | nil => exact .refl s
  | cons key keys ih =>
    unfold withdrawPlans
    split
    · exact ih s
    · split_ifs
      · exact ih s
      · have hedited : Adds new s _ := (adds_bumpSequence s).trans (adds_modifyPlan _ key
          (f := retiredPlan s.bumpSequence.sequence) fun _ => ⟨rfl, rfl, rfl, Or.inl rfl⟩)
        exact hedited.trans (ih _)

theorem adds_retire (s : EngineState) (request : RetirementRequest) :
    Adds new s (s.retire request).1 := by
  unfold retire
  dsimp only
  split_ifs
  · exact .refl s
  · split
    · exact .refl s
    · rename_i record _
      have htouched : ∀ (scopes : List ScopeId) (t : EngineState),
          Adds new t (scopes.foldl touchScope t) := by
        intro scopes
        induction scopes with
        | nil => exact fun t => .refl t
        | cons scope scopes ih => exact fun t => (adds_touchScope t scope).trans (ih _)
      have hfenced : Adds new s (s.fenceVersion record) :=
        ((adds_weakened s (weakened_supersedeVersion _ _ _)).trans (htouched _ _)).trans
          (adds_withdrawPlans _ _ _)
      have hadvanced := hfenced.trans
        (adds_advanceVersion _ request.model request.version .retired)
      split_ifs
      · exact hadvanced
      · exact hadvanced.trans (adds_stampVersion _ _ _)

/-! ## Workers, attempts and restarts -/

theorem adds_modifyAttempt (s : EngineState) (key : UInt64) (f : Attempt → Attempt) :
    Adds new s { s with attempts := s.attempts.modify key f } :=
  adds_attempts s (growsBy_of_subset fun _ hkey => OrdMap.mem_keys_modify.mp hkey)

theorem adds_settleAttempt (s : EngineState) (key : UInt64) (state : AttemptState)
    (detail : Text) : Adds new s (s.settleAttempt key state detail) :=
  (adds_bumpSequence s).trans (adds_modifyAttempt _ key _)

theorem adds_settleFenced (boot : WorkerBootId) (keys : List UInt64) (s : EngineState) :
    Adds new s (settleFenced boot keys s) := by
  induction keys generalizing s with
  | nil => exact .refl s
  | cons key keys ih =>
    unfold settleFenced
    split
    · exact ih s
    · split_ifs
      · exact ih s
      · exact ((adds_bumpSequence s).trans (adds_modifyAttempt _ key _)).trans (ih _)

theorem adds_stampEntered (keys : List UInt64) (s : EngineState) :
    Adds new s (stampEntered keys s) := by
  induction keys generalizing s with
  | nil => exact .refl s
  | cons key keys ih =>
    unfold stampEntered
    split
    · exact ih s
    · split_ifs
      · exact ih s
      · have hstamped : Adds new s _ := (adds_bumpSequence s).trans (adds_modifyPlan _ key
          (f := fun plan => { plan with updatedSequence := s.bumpSequence.sequence })
          fun _ => ⟨rfl, rfl, rfl, Or.inl rfl⟩)
        exact hstamped.trans (ih _)

theorem adds_fenceWorker (s : EngineState) (worker : WorkerId) (boot : WorkerBootId)
    (epoch : CoordinatorEpoch) (reason : Text) :
    Adds new s (s.fenceWorker worker boot epoch reason).1 := by
  unfold fenceWorker
  split
  · exact .refl s
  · rename_i lease _
    split_ifs
    · exact .refl s
    · exact .refl s
    · exact .refl s
    · have hexpired : Adds new s _ := (adds_bumpSequence s).trans
        (adds_shrinks _ (EvidenceStore.shrinks_expire s.evidence lease.boot))
      dsimp only
      refine Adds.trans ?_ (adds_settleFenced _ _ _)
      exact hexpired.trans (adds_of_same rfl rfl)

theorem adds_invalidateVolatileState (s : EngineState) (cause : Text) :
    Adds new s (s.invalidateVolatileState cause) := by
  have hremoved : Adds new s _ :=
    adds_shrinks s (EvidenceStore.shrinks_removeKinds s.evidence
      (EvidenceKind.all.filter fun kind => !kind.isDurable))
  unfold invalidateVolatileState
  dsimp only
  refine Adds.trans (Adds.trans ?_ (adds_stampEntered _ _)) (adds_bumpSequence _)
  exact hremoved.trans (adds_of_same rfl rfl)

theorem adds_completeAttempt (s : EngineState) (completion : CompletionRecord) :
    Adds new s (s.completeAttempt completion).1 := by
  unfold completeAttempt
  split
  · exact .refl s
  · split
    · exact .refl s
    · split
      · exact adds_settleAttempt s _ _ _
      · exact adds_settleAttempt s _ _ _

theorem adds_reconcileAttempt (s : EngineState) (id : AttemptId) (sideEffectObserved : Bool)
    (epoch : CoordinatorEpoch) (detail : Text) :
    Adds new s (s.reconcileAttempt id sideEffectObserved epoch detail).1 := by
  unfold reconcileAttempt
  split
  · exact .refl s
  · split_ifs
    · exact .refl s
    · exact .refl s
    · exact .refl s
    · exact adds_settleAttempt s _ _ _
    · exact adds_settleAttempt s _ _ _
    · exact adds_settleAttempt s _ _ _

/-! ## Steps that hand out nothing -/

/-- An operation that may hand out an identity, or take in a durable state. -/
def Operation.issues : Operation → Bool
  | .registerModel _ _ _ | .registerVersion _ | .publishCompatibility _ _ _ _ _
  | .publishEvidence _ | .promote _ | .createRollout _ | .advanceStage _ | .rollback _
  | .beginAttempt _ | .importDurableState _ _ => true
  | _ => false

theorem step_adds {op : Operation} (hop : op.issues = false) : Adds new s (step c s op) := by
  cases op with
  | reviseVersion request => exact adds_reviseVersion s request
  | beginRollout request => exact adds_beginRollout s request
  | failStage request => exact adds_failStage s request
  | supersedeRollout rollout generation epoch detail =>
    exact adds_supersedeRollout s rollout generation epoch detail
  | retire request => exact adds_retire s request
  | revalidate request => exact adds_revalidate s request
  | fenceWorker worker boot epoch reason => exact adds_fenceWorker s worker boot epoch reason
  | completeAttempt completion => exact adds_completeAttempt s completion
  | reconcileAttempt attempt sideEffectObserved epoch detail =>
    exact adds_reconcileAttempt s attempt sideEffectObserved epoch detail
  | invalidateVolatileState cause => exact adds_invalidateVolatileState s cause
  | registerScope path => exact adds_of_same rfl rfl
  | expirePublisherEvidence boot =>
    have hexpired : Adds new s _ := adds_shrinks s (EvidenceStore.shrinks_expire s.evidence boot)
    simp only [step, perform, expirePublisherEvidence]
    split_ifs
    · exact hexpired.trans (adds_bumpSequence _)
    · exact hexpired
  | setPolicy policy =>
    simp only [step, perform, setPolicy]
    repeat' split
    all_goals exact adds_of_same rfl rfl
  | setScopePolicy refinement =>
    simp only [step, perform, setScopePolicy]
    repeat' split
    all_goals exact adds_of_same rfl rfl
  | registerWorker registration =>
    simp only [step, perform, registerWorker]
    repeat' split
    all_goals exact adds_of_same rfl rfl
  | setWorkerLiveness worker connected =>
    simp only [step, perform, setWorkerLiveness]
    split
    all_goals exact adds_of_same rfl rfl
  | advanceEpoch expectedCurrent =>
    simp only [step, perform, advanceEpoch]
    split
    all_goals exact adds_of_same rfl rfl
  | _ => cases hop

end LifecycleFabric
