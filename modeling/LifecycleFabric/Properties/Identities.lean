import LifecycleFabric.Engine.Spending
import LifecycleFabric.Properties.PlanRequests
import LifecycleFabric.Properties.Recoveries
import LifecycleFabric.Properties.StateFiles

/-!
# Identities are not handed out twice

An identity that an operation hands out is not held yet, and no two versions share one, as
long as no allocator comes to its end and every durable state that is taken in has its
allocators past what it holds. An import compares only two of the allocators with what is
held, so that the others may be behind.
-/

namespace LifecycleFabric

open EngineState Allocators Runs

variable {c : EngineConfig} {s t : EngineState} {d : DurableState}

/-! ## Durable states -/

/-- No two versions share an identity. They are kept under the identities of their model and
of the version itself. -/
def Holdings.VersionsApart (h : Holdings) : Prop :=
  ∀ key ∈ h.versions.keys, ∀ key' ∈ h.versions.keys, (ofLex key).2 = (ofLex key').2 → key = key'

-- Over the keys, not over all numbers.
instance (h : Holdings) : Decidable h.VersionsApart :=
  @List.decidableBAll _ _ (fun _ => @List.decidableBAll _ _ (fun _ => inferInstance) _) _

namespace DurableState

/-- What a durable state keeps under identities. -/
def holdings (d : DurableState) : Holdings where
  models := d.models
  versions := d.versions
  rollouts := d.rollouts
  promotions := d.committedPromotions
  authority := d.authority
  facts := d.compatibility
  evidence := d.evidence
  attempts := d.unsettledAttempts

/-- The identity of a kind that a durable state makes an engine hand out next. -/
def nextId (d : DurableState) : IdKind → UInt64
  | .model => d.nextModelId
  | .version => d.nextVersionId
  | .rollout => d.nextRolloutId
  | .stage => d.nextStageId
  | .cohort => d.nextCohortId
  | .promotion => d.nextPromotionId
  | .rollback => d.nextRollbackId
  | .compatibility => d.nextCompatibilityGeneration
  | .evidence => d.nextEvidenceId
  | .attempt => d.nextAttemptId

/-- The allocators of a durable state are past what it holds. -/
def Ahead (d : DurableState) : Prop := ∀ kind, ∀ raw ∈ d.holdings.ids kind, raw < d.nextId kind

/-- The allocators of a durable state are past what it holds, and its versions have
identities of their own. -/
structure Fresh (d : DurableState) : Prop where
  below : d.Ahead
  apart : d.holdings.VersionsApart

end DurableState

variable {newEpoch : CoordinatorEpoch} {recovered : DurableState.Recovered}

/-- A recovered engine holds what the durable state holds. -/
theorem ids_applyDurableState (h : d.Sound c s newEpoch recovered) (kind : IdKind) :
    (s.applyDurableState d newEpoch recovered).ids kind ⊆ d.holdings.ids kind := by
  have hauthority : recovered.authority.bindings = d.authority := by
    rw [(restored_authority h.authority).1]
  cases kind with
  | promotion =>
    intro raw hraw
    change raw ∈ _ ++ presentIds (recovered.authority.bindings.values.flatten.map _) at hraw
    rw [hauthority] at hraw
    exact hraw
  | rollback =>
    intro raw hraw
    change raw ∈ _ ++ presentIds (recovered.authority.bindings.values.flatten.map _) at hraw
    rw [hauthority] at hraw
    exact hraw
  | compatibility =>
    intro raw hraw
    change raw ∈ presentIds (recovered.compatibility.facts.values.map _) ++ _ at hraw
    rw [restoredFacts h.compatibility] at hraw
    exact hraw
  | evidence =>
    intro raw hraw
    obtain ⟨record, hrecord, rfl⟩ := List.mem_map.mp hraw
    obtain ⟨key, hrecord⟩ := mem_records_iff.mp hrecord
    have hgiven := (EvidenceStore.bucket_restore h.evidence key).subset hrecord
    exact List.mem_map_of_mem (List.mem_of_mem_filter hgiven)
  | attempt => exact fun raw hraw => OrdMap.mem_keys_mapValues.mp hraw
  | _ => exact List.Subset.refl _

/-- An engine that takes in a durable state whose allocators are past what it holds has its own
past what it holds. -/
theorem fresh_applyDurableState (h : d.Sound c s newEpoch recovered) (hd : d.Ahead) :
    identities.Fresh (s.applyDurableState d newEpoch recovered) := by
  intro kind raw hraw
  have hnext : (s.applyDurableState d newEpoch recovered).nextId kind = d.nextId kind := by
    cases kind <;> rfl
  change raw < (s.applyDurableState d newEpoch recovered).nextId kind
  rw [hnext]
  exact hd kind raw (ids_applyDurableState h kind hraw)

/-! ## What an operation hands out -/

/-- The identities of the stages and the cohorts of a plan. -/
def RolloutPlan.partIds (plan : RolloutPlan) : List (IdKind × UInt64) :=
  plan.stages.map (fun stage => (.stage, stage.id.raw)) ++
    plan.cohorts.map fun cohort => (.cohort, cohort.id.raw)

/-- What a decision hands out when it allows. -/
def handed (decision : Decision) (ids : List (IdKind × UInt64)) : List (IdKind × UInt64) :=
  if decision.allowed then ids else []

/-- The identities an operation hands out: the one it returns, the generation of the fact it
stores, and those of the parts of the plan it stores. -/
def EngineState.handedOut (c : EngineConfig) (s : EngineState) :
    Operation → List (IdKind × UInt64)
  | .registerModel name family provenance =>
    let reply := s.registerModel c name family provenance
    handed reply.2.1 [(.model, reply.2.2.raw)]
  | .registerVersion request =>
    let reply := s.registerVersion c request
    handed reply.2.1 [(.version, reply.2.2.raw)]
  | .publishCompatibility version environment outcome detail provenance =>
    let reply := s.publishCompatibility c version environment outcome detail provenance
    let stored := reply.1.compatibility.lookup version environment.key
    handed reply.2 (stored.toList.map fun fact => (.compatibility, fact.generation.raw))
  | .publishEvidence record =>
    let reply := s.publishEvidence record
    handed reply.2.1 [(.evidence, reply.2.2.id.raw)]
  | .promote request =>
    let outcome := (s.promote c request).2
    handed outcome.decision [(.promotion, outcome.promotion.raw)]
  | .createRollout request =>
    let reply := s.createRollout c request
    let stored := reply.1.rollouts.get? reply.2.2.1.raw
    handed reply.2.1 ((.rollout, reply.2.2.1.raw) :: stored.toList.flatMap RolloutPlan.partIds)
  | .rollback request =>
    let outcome := (s.rollback request).2
    handed outcome.decision [(.rollback, outcome.rollback.raw)]
  | .beginAttempt request =>
    let outcome := (s.beginAttempt c request).2
    handed outcome.decision [(.attempt, outcome.attempt.raw)]
  | _ => []

/-- Nothing is handed out that is held already. -/
def Operation.HandsOutFresh (c : EngineConfig) (s : EngineState) (op : Operation) : Prop :=
  ∀ e ∈ s.handedOut c op, e.2 ∉ s.ids e.1

/-- Identities that no allocator has passed yet. -/
def Unspent (s : EngineState) (ids : List (IdKind × UInt64)) : Prop :=
  ∀ e ∈ ids, s.nextId e.1 ≤ e.2

theorem unspent_handed {decision : Decision} {ids : List (IdKind × UInt64)}
    (h : decision.allowed = true → Unspent s ids) : Unspent s (handed decision ids) := by
  unfold handed
  split_ifs with hallowed
  · exact h hallowed
  · exact nofun

/-- A decision that hands out the next identity of a kind. -/
theorem unspent_next {decision : Decision} {kind : IdKind} {raw : UInt64}
    (h : decision.allowed = true → raw = s.nextId kind) :
    Unspent s (handed decision [(kind, raw)]) := by
  apply unspent_handed
  intro hallowed e he
  rw [List.mem_singleton.mp he]
  exact (h hallowed).ge

theorem registerModel_hands (s : EngineState) (name family : Text) (provenance : Provenance)
    (h : (s.registerModel c name family provenance).2.1.allowed = true) :
    (s.registerModel c name family provenance).2.2.raw = s.nextModelId := by
  unfold registerModel at h ⊢
  split_ifs at h ⊢
  · cases h
  · cases h
  · cases h
  · cases h
  · rfl

theorem predecessorRefusal_refuses {request : RegisterVersionRequest} {refusal : Decision}
    (h : s.predecessorRefusal c request = some refusal) : refusal.allowed = false := by
  unfold predecessorRefusal at h
  split at h
  · cases h
  · split at h
    · obtain rfl := Option.some.inj h
      rfl
    · split_ifs at h
      obtain rfl := Option.some.inj h
      rfl

theorem registerVersion_hands (s : EngineState) (request : RegisterVersionRequest)
    (h : (s.registerVersion c request).2.1.allowed = true) :
    (s.registerVersion c request).2.2.raw = s.nextVersionId := by
  unfold registerVersion at h ⊢
  dsimp only at h ⊢
  split_ifs at h ⊢
  · cases h
  · cases h
  · cases h
  · cases h
  · cases h
  · cases h
  · cases hrefusal : s.predecessorRefusal c request with
    | some refusal =>
      rw [hrefusal] at h
      rw [predecessorRefusal_refuses hrefusal] at h
      cases h
    | none => rfl

theorem publishEvidence_hands (s : EngineState) (record : EvidenceRecord)
    (h : (s.publishEvidence record).2.1.allowed = true) :
    (s.publishEvidence record).2.2.id.raw = s.nextEvidenceId := by
  unfold publishEvidence at h ⊢
  dsimp only at h ⊢
  split at h
  · cases h
  · split_ifs at h ⊢ with hprovenance hrefused
    · cases h
    · rw [Decision.allowed, Decision.outcome_addAll] at h
      rw [Decision.allowed] at hrefused
      rw [h] at hrefused
      cases hrefused
    · rfl

theorem beginAttempt_hands (s : EngineState) (request : AttemptRequest)
    (h : (s.beginAttempt c request).2.decision.allowed = true) :
    (s.beginAttempt c request).2.attempt.raw = s.nextAttemptId := by
  unfold beginAttempt at h ⊢
  split at h
  · rename_i refusal _
    rw [refusal.refuses] at h
    cases h
  · cases h
  · rfl

theorem promote_hands (s : EngineState) (request : PromotionRequest)
    (h : (s.promote c request).2.decision.allowed = true) :
    (s.promote c request).2.promotion.raw = s.nextPromotionId := by
  unfold promote at h ⊢
  dsimp only at h ⊢
  split_ifs at h ⊢ with hgate
  · rw [h] at hgate
    cases hgate
  · split at h
    · cases h
    · rename_i record _
      split_ifs at h ⊢ with hfree hadvanced hgranted
      · cases h
      · rw [h] at hadvanced
        cases hadvanced
      · rw [h] at hgranted
        cases hgranted
      · have hadds : Adds (fun _ _ => False) s (s.clearInflight request record) :=
          adds_clearInflight s request record
        exact congrFun hadds.next IdKind.promotion

theorem rollback_hands (s : EngineState) (request : RollbackRequest)
    (h : (s.rollback request).2.decision.allowed = true) :
    (s.rollback request).2.rollback.raw = s.nextRollbackId := by
  unfold EngineState.rollback at h ⊢
  dsimp only at h ⊢
  by_cases hgate : (s.evaluateRollback request).allowed = true
  · rw [hgate, Bool.not_true, if_neg Bool.false_ne_true] at h ⊢
    split at h
    · split at h
      · rename_i hgranted
        rw [h] at hgranted
        cases hgranted
      · rename_i hgranted
        rw [if_neg hgranted]
    · cases h
  · rw [Bool.not_eq_true] at hgate
    rw [hgate, Bool.not_false, if_pos rfl, hgate] at h
    cases h

/-- A published fact is found at the generation it was assigned. -/
theorem lookup_publish {registry : CompatibilityRegistry} {fact : CompatibilityFact}
    {assigned : CompatibilityGeneration} (h : (registry.publish fact assigned).2.allowed = true) :
    (registry.publish fact assigned).1.lookup fact.version fact.environmentKey =
      some { fact with generation := assigned } := by
  rcases registry.publish_cases fact assigned with ⟨_, hrefused⟩ | ⟨_, _, _, _, _, hstore⟩
  · rw [hrefused] at h
    cases h
  · rw [hstore, CompatibilityRegistry.lookup, OrdMap.get?_insert, if_pos rfl]

/-- The fact that a publication stores has the next generation. -/
theorem publishCompatibility_hands (s : EngineState) (version : ModelVersionId)
    (environment : EnvironmentProfile) (outcome : CompatibilityOutcome) (detail : Text)
    (provenance : Provenance)
    (h : (s.publishCompatibility c version environment outcome detail provenance).2.allowed =
      true) :
    ∃ fact, (s.publishCompatibility c version environment outcome detail
        provenance).1.compatibility.lookup version environment.key = some fact ∧
      fact.generation.raw = s.nextCompatibilityGeneration := by
  unfold publishCompatibility at h ⊢
  cases hfound : s.findVersion version with
  | none =>
    rw [hfound] at h
    cases h
  | some found =>
    obtain ⟨key, record⟩ := found
    obtain rfl : record.version = version := by simpa using List.find?_some hfound
    rw [hfound] at h
    dsimp only at h ⊢
    by_cases hretired : record.retired = true
    · rw [if_pos hretired] at h
      cases h
    · rw [if_neg hretired] at h ⊢
      by_cases henvironment : (!environment.valid) = true
      · rw [if_pos henvironment] at h
        cases h
      · rw [if_neg henvironment] at h ⊢
        split at h
        · rename_i hrefused
          rw [Decision.allowed, Decision.outcome_addAll] at h
          rw [Decision.allowed, h] at hrefused
          cases hrefused
        · rename_i hpublished
          rw [if_neg hpublished]
          exact ⟨_, lookup_publish (by simpa using hpublished), rfl⟩

/-- An accepted creation returns the identity of the plan it was asked for. -/
theorem createRollout_hands (s : EngineState) (request : RolloutPlanRequest)
    (h : (s.createRollout c request).2.1.allowed = true) :
    ∃ plan, s.plannedRollout c request = some plan ∧
      (s.createRollout c request).2.2.1 = plan.id := by
  unfold createRollout at h ⊢
  unfold plannedRollout
  cases hrecord : s.versionOf request.model request.candidate with
  | none =>
    rw [hrecord] at h
    cases h
  | some record =>
    rw [hrecord] at h
    dsimp only at h ⊢
    cases hrefusal : s.planRefusal c request record with
    | some refusal =>
      rw [hrefusal] at h
      dsimp only at h
      rw [refusal.refuses] at h
      cases h
    | none =>
      rw [hrefusal] at h
      dsimp only at h ⊢
      rw [Option.isSome_none, if_neg Bool.false_ne_true]
      rcases hbuilt : s.bumpSequence.buildCohorts c request.rootScope request.cohorts
        s.bumpSequence.nextCohortId [] with ⟨nextCohort, refusal | cohorts⟩
      · rw [hbuilt] at h
        dsimp only at h
        rw [buildCohorts_refuses hbuilt] at h
        cases h
      · rw [hbuilt] at h
        dsimp only at h ⊢
        rcases hstaged : buildStages c cohorts request.stages s.bumpSequence.nextStageId [] []
          with ⟨nextStage, refusal | stages⟩
        · rw [hstaged] at h
          dsimp only at h
          rw [buildStages_refuses hstaged] at h
          cases h
        · rw [hstaged] at h
          dsimp only at h ⊢
          by_cases hfull : c.bounds.maxRollouts ≤ s.bumpSequence.rollouts.size
          · rw [if_pos hfull] at h
            cases h
          · rw [if_neg hfull, if_neg hfull]
            exact ⟨_, rfl, rfl⟩

/-- The parts of a plan take consecutive identities. -/
theorem plannedRollout_parts {request : RolloutPlanRequest} {plan : RolloutPlan}
    (h : s.plannedRollout c request = some plan) :
    (∀ stage ∈ plan.stages, request.takes s .stage stage.id.raw) ∧
      ∀ cohort ∈ plan.cohorts, request.takes s .cohort cohort.id.raw := by
  unfold plannedRollout at h
  split at h
  · cases h
  · split_ifs at h
    dsimp only at h
    split at h
    · cases h
    · rename_i nextCohort cohorts hbuilt
      split at h
      · cases h
      · rename_i nextStage stages hstaged
        split_ifs at h
        obtain rfl := Option.some.inj h
        constructor
        · exact stages_taken hstaged
        · exact cohorts_taken hbuilt

/-- What an operation hands out no allocator has passed before it. -/
theorem handedOut_unspent (hs : identities.Fresh s) {op : Operation} (hroom : op.HasRoom s) :
    Unspent s (s.handedOut c op) := by
  unfold handedOut
  cases op with
  | registerModel name family provenance =>
    exact unspent_next (registerModel_hands s name family provenance)
  | registerVersion request => exact unspent_next (registerVersion_hands s request)
  | publishCompatibility version environment outcome detail provenance =>
    dsimp only
    apply unspent_handed
    intro hallowed e he
    obtain ⟨fact, hfact, hgeneration⟩ :=
      publishCompatibility_hands s version environment outcome detail provenance hallowed
    rw [hfact] at he
    rw [List.mem_singleton.mp he]
    exact hgeneration.ge
  | publishEvidence record => exact unspent_next (publishEvidence_hands s record)
  | promote request => exact unspent_next (promote_hands s request)
  | createRollout request =>
    dsimp only
    apply unspent_handed
    intro hallowed e he
    obtain ⟨plan, hplanned, hid⟩ := createRollout_hands s request hallowed
    have hkey : plan.id.raw = s.nextRolloutId := (planned_of_plannedRollout hplanned).id
    have hfree : s.rollouts.get? plan.id.raw = none := by
      by_contra hheld
      obtain ⟨stored, hstored⟩ := Option.ne_none_iff_exists'.mp hheld
      have hbelow : plan.id.raw < s.nextRolloutId :=
        hs .rollout plan.id.raw (OrdMap.mem_keys_iff.mpr ⟨stored, hstored⟩)
      exact hbelow.ne hkey
    have hstored : (s.createRollout c request).1.rollouts.get? plan.id.raw = some plan := by
      rw [createRollout_rollouts, hplanned]
      dsimp only
      rw [OrdMap.get?_insertNew, if_pos rfl, hfree, Option.getD_none]
    rw [hid, hstored] at he
    obtain ⟨hstages, hcohorts⟩ := plannedRollout_parts hplanned
    obtain ⟨_, hstageRoom, hcohortRoom⟩ := hroom
    rcases List.mem_cons.mp he with rfl | hpart
    · exact hkey.ge
    · rw [Option.toList_some, List.flatMap_singleton, RolloutPlan.partIds, List.mem_append,
        List.mem_map, List.mem_map] at hpart
      rcases hpart with ⟨stage, hstage, rfl⟩ | ⟨cohort, hcohort, rfl⟩
      · exact (consecutive_between hstageRoom (hstages stage hstage)).1
      · exact (consecutive_between hcohortRoom (hcohorts cohort hcohort)).1
  | rollback request => exact unspent_next (rollback_hands s request)
  | beginAttempt request => exact unspent_next (beginAttempt_hands s request)
  | _ => exact nofun

/-! ## Runs -/

/-- An operation that takes in no durable state with an allocator behind what it holds. -/
def Operation.TakesAhead (c : EngineConfig) (s : EngineState) : Operation → Prop
  | .importDurableState d newEpoch =>
    ∀ recovered, d.validate c s newEpoch = .ok recovered → d.Ahead
  | _ => True

/-- An operation that takes in no durable state that is not fresh. -/
def Operation.TakesFresh (c : EngineConfig) (s : EngineState) : Operation → Prop
  | .importDurableState d newEpoch =>
    ∀ recovered, d.validate c s newEpoch = .ok recovered → d.Fresh
  | _ => True

theorem Operation.TakesFresh.ahead {op : Operation} (h : op.TakesFresh c s) :
    op.TakesAhead c s := by
  cases op with
  | importDurableState d newEpoch => exact fun recovered hvalid => (h recovered hvalid).below
  | _ => trivial

/-- The engine is coherent, and what it will hand out it does not hold. -/
structure EngineState.HoldsAhead (s : EngineState) : Prop where
  coherent : Coherent s
  standing : Standing s
  fresh : identities.Fresh s

/-- The same, and no two versions of the engine share an identity. -/
structure EngineState.HoldsFresh (s : EngineState) : Prop extends s.HoldsAhead where
  apart : s.holdings.VersionsApart

theorem holdsAhead_init (c : EngineConfig) : HoldsAhead (init c) where
  coherent := coherent_init c
  standing := standing_init c
  fresh kind raw hraw := by cases kind <;> cases hraw

theorem holdsFresh_init (c : EngineConfig) : HoldsFresh (init c) where
  toHoldsAhead := holdsAhead_init c
  apart key hkey := by cases hkey

theorem holdsAhead_step (hs : s.HoldsAhead) {op : Operation} (hroom : op.HasRoom s)
    (htakes : op.TakesAhead c s) : (step c s op).HoldsAhead := by
  have hcase := step_cases (c := c) hs.coherent op
  refine ⟨hcase.coherent hs.coherent, hcase.standing hs.standing, ?_⟩
  cases hop : op.isImport with
  | false => exact hs.fresh.issues (step_issues hs.coherent hs.standing hop hroom)
  | true =>
    cases op with
    | importDurableState d newEpoch =>
      change identities.Fresh (s.importDurableState c d newEpoch).1
      rcases importDurableState_cases c s d newEpoch with ⟨hsame, _⟩ | ⟨recovered, hsound, heq⟩
      · rw [hsame]
        exact hs.fresh
      · rw [heq]
        exact fresh_applyDurableState hsound (htakes recovered (DurableState.validate_ok.mpr hsound))
    | _ => cases hop

/-- A version that is registered under the next identity shares it with no other. -/
theorem versionsApart_of_issued (hs : s.HoldsFresh) {model : ModelId}
    (hkeys : ∀ key ∈ t.versions.keys,
      key ∈ s.versions.keys ∨ key = versionKey model ⟨s.nextVersionId⟩) :
    t.holdings.VersionsApart := by
  have hbelow : ∀ key ∈ s.versions.keys, (ofLex key).2 < s.nextVersionId :=
    fun key hkey => hs.fresh .version _ (List.mem_map_of_mem hkey)
  intro key hkey key' hkey' hsame
  rcases hkeys key hkey with hold | rfl
  · rcases hkeys key' hkey' with hold' | rfl
    · exact hs.apart key hold key' hold' hsame
    · exact absurd hsame (hbelow key hold).ne
  · rcases hkeys key' hkey' with hold' | rfl
    · exact absurd hsame.symm (hbelow key' hold').ne
    · rfl

theorem holdsFresh_step (hs : s.HoldsFresh) {op : Operation} (hroom : op.HasRoom s)
    (htakes : op.TakesFresh c s) : (step c s op).HoldsFresh := by
  refine ⟨holdsAhead_step hs.toHoldsAhead hroom htakes.ahead, ?_⟩
  cases hop : op.isImport with
  | false =>
    rcases step_versionKeys (c := c) hs.coherent hs.standing hop with hsubset | ⟨model, hkeys⟩
    · exact fun key hkey key' hkey' => hs.apart key (hsubset hkey) key' (hsubset hkey')
    · exact versionsApart_of_issued hs hkeys
  | true =>
    cases op with
    | importDurableState d newEpoch =>
      change (s.importDurableState c d newEpoch).1.holdings.VersionsApart
      rcases importDurableState_cases c s d newEpoch with ⟨hsame, _⟩ | ⟨recovered, hsound, heq⟩
      · rw [hsame]
        exact hs.apart
      · rw [heq]
        exact (htakes recovered (DurableState.validate_ok.mpr hsound)).apart
    | _ => cases hop

/-- An operation that finds room and takes in nothing stale hands out only what is not held. -/
theorem handsOutFresh_of_room (hs : s.HoldsFresh) {op : Operation} (hroom : op.HasRoom s) :
    op.HandsOutFresh c s := by
  intro e he
  exact hs.fresh.not_held (handedOut_unspent hs.fresh hroom e he)

theorem fresh_run (hs : s.HoldsFresh) {ops : List Operation}
    (h : Along (step c) (fun t op => op.HasRoom t ∧ op.TakesFresh c t) s ops) :
    Along (step c) (fun t op => op.HandsOutFresh c t) s ops ∧
      Always (step c) (fun t => t.holdings.VersionsApart) s ops := by
  have hkeep : ∀ t op, HoldsFresh t → op.HasRoom t ∧ op.TakesFresh c t →
      op.HandsOutFresh c t ∧ HoldsFresh (step c t op) :=
    fun t op ht hop => ⟨handsOutFresh_of_room ht hop.1, holdsFresh_step ht hop.1 hop.2⟩
  refine ⟨h.of_invariant (step c) hkeep hs, ?_⟩
  intro before hbefore
  exact (always_of_along (step c) (fun t op ht hop => (hkeep t op ht hop).2) h hs before
    hbefore).apart

/-- As long as no allocator comes to its end and every durable state that is taken in has its
allocators past what it holds, every identity that is handed out is new and no two versions
share one. -/
theorem identities_fresh {ops : List Operation}
    (h : Along (step c) (fun s op => op.HasRoom s ∧ op.TakesFresh c s) (init c) ops) :
    Along (step c) (fun s op => op.HandsOutFresh c s) (init c) ops ∧
      Always (step c) (fun s => s.holdings.VersionsApart) (init c) ops :=
  fresh_run (holdsFresh_init c) h

/-- What is durable of an engine with two models, one of which has a version. -/
def oneVersion : DurableState :=
  (runOps {} (init {})
    [.registerModel [109] [] .synthetic,
      .registerVersion
        { model := ⟨1⟩, label := [49]
          artifact := { setId := ⟨1⟩, generation := ⟨1⟩, digest := [97] } },
      .registerModel [110] [] .synthetic]).exportDurableState

/-- The registration of a version of the second model. -/
def secondVersion : Operation :=
  .registerVersion
    { model := ⟨2⟩, label := [49]
      artifact := { setId := ⟨1⟩, generation := ⟨1⟩, digest := [97] } }

theorem oneVersion_fresh : oneVersion.Fresh where
  below kind raw hraw := by
    have hall : ∀ kind, ((oneVersion.holdings.ids kind).all fun raw =>
        decide (raw < oneVersion.nextId kind)) = true := by
      intro kind
      cases kind <;> decide +kernel
    exact of_decide_eq_true (List.all_eq_true.mp (hall kind) raw hraw)
  apart := by decide +kernel

theorem identities_fresh_witness :
    Along (step {}) (fun s op => op.HandsOutFresh {} s) (init {})
        [.importDurableState oneVersion ⟨2⟩, secondVersion] ∧
      Always (step {}) (fun s => s.holdings.VersionsApart) (init {})
        [.importDurableState oneVersion ⟨2⟩, secondVersion] := by
  apply identities_fresh
  refine ⟨⟨nofun, fun _ _ => oneVersion_fresh⟩, ⟨?_, trivial⟩, trivial⟩
  intro kind hkind
  obtain rfl := Option.some.inj hkind
  decide +kernel

/-! ## After an import -/

/-- An engine that took in a fresh durable state, whatever it held before. -/
theorem holdsFresh_import (hs : ReachableState c s) (hd : d.Fresh)
    (haccepted : (s.importDurableState c d newEpoch).2.allowed = true) :
    (step c s (.importDurableState d newEpoch)).HoldsFresh := by
  have hcase := step_cases (c := c) hs.coherent (.importDurableState d newEpoch)
  obtain ⟨recovered, hsound, heq⟩ := (importDurableState_cases c s d newEpoch).resolve_left
    fun hrefused => Bool.false_ne_true (hrefused.2.symm.trans haccepted)
  refine ⟨⟨hcase.coherent hs.coherent, hcase.standing hs.standing, ?_⟩, ?_⟩
  · change identities.Fresh (s.importDurableState c d newEpoch).1
    rw [heq]
    exact fresh_applyDurableState hsound hd.below
  · change (s.importDurableState c d newEpoch).1.holdings.VersionsApart
    rw [heq]
    exact hd.apart

/-- After every accepted import of a durable state that has its allocators past what it holds and
its versions apart, and along every later run of this kind, every identity that is handed out is
new and no two versions share one. -/
theorem imported_identities_fresh (hs : ReachableState c s)
    (haccepted : (s.importDurableState c d newEpoch).2.allowed = true) (hd : d.Fresh)
    {ops : List Operation}
    (h : Along (step c) (fun t op => op.HasRoom t ∧ op.TakesFresh c t)
      (step c s (.importDurableState d newEpoch)) ops) :
    Along (step c) (fun t op => op.HandsOutFresh c t)
        (step c s (.importDurableState d newEpoch)) ops ∧
      Always (step c) (fun t => t.holdings.VersionsApart)
        (step c s (.importDurableState d newEpoch)) ops :=
  fresh_run (holdsFresh_import hs hd haccepted) h

theorem imported_identities_fresh_witness :
    Along (step {}) (fun t op => op.HandsOutFresh {} t)
        (step {} (init {}) (.importDurableState oneVersion ⟨2⟩)) [secondVersion] ∧
      Always (step {}) (fun t => t.holdings.VersionsApart)
        (step {} (init {}) (.importDurableState oneVersion ⟨2⟩)) [secondVersion] := by
  refine imported_identities_fresh ⟨[], rfl⟩ (by decide +kernel) oneVersion_fresh
    ⟨⟨?_, trivial⟩, trivial⟩
  intro kind hkind
  obtain rfl := Option.some.inj hkind
  decide +kernel

/-- The same durable state with the allocator of versions at its start. -/
def understated : DurableState := { oneVersion with nextVersionId := 1 }

theorem understated_storable : StateFile.Storable {} understated where
  proper := {
    overrides := OrdMap.of_entries (by decide +kernel)
    models := OrdMap.of_entries (by decide +kernel)
    versions := OrdMap.of_entries (by decide +kernel)
    facts := OrdMap.of_entries (by decide +kernel)
    plans := OrdMap.of_entries (by decide +kernel)
    numbers := by
      intro plan hplan
      cases hplan
    grants := OrdMap.of_entries (by unfold StateFile.properGrants; decide +kernel)
    leases := OrdMap.of_entries (by decide +kernel)
    attempts := OrdMap.of_entries (by decide +kernel) }
  format := by decide +kernel
  counts := by unfold StateFile.withinCounts; decide +kernel
  payload := by decide +kernel
  carried := by decide +kernel
  within := {
    scopes := by decide +kernel
    policy := by decide +kernel
    models := by decide +kernel
    versions := by decide +kernel
    facts := by decide +kernel
    plans := by decide +kernel
    grants := by decide +kernel
    leases := by decide +kernel
    evidence := by decide +kernel
    attempts := by decide +kernel
    commits := by decide +kernel
    allocators := by decide +kernel }
  agree := by decide +kernel

/-- A state file that understates an allocator is read and taken in, and then one identity
stands for versions of two models. -/
theorem understated_shares_version :
    ¬∀ (c : EngineConfig) (limits : DecodeLimits) (bytes : ByteCodec.Bytes) (d : DurableState)
      (newEpoch : CoordinatorEpoch) (ops : List Operation),
      StateFile.deserializeDurableState limits (some bytes) = .ok d →
        ((init c).importDurableState c d newEpoch).2.allowed = true →
          Along (step c) (fun s op => op.HandsOutFresh c s) (init c)
              (.importDurableState d newEpoch :: ops) ∧
            Always (step c) (fun s => s.holdings.VersionsApart) (init c)
              (.importDurableState d newEpoch :: ops) := by
  intro h
  obtain ⟨bytes, _, hread⟩ := StateFile.state_file_round_trip understated_storable
  obtain ⟨_, halways⟩ := h {} {} bytes understated ⟨2⟩ [secondVersion] hread (by decide +kernel)
  have hapart := halways [.importDurableState understated ⟨2⟩, secondVersion] (List.prefix_refl _)
  revert hapart
  decide +kernel

end LifecycleFabric
