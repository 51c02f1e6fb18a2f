import LifecycleFabric.Engine.Admission

/-!
# The gate and the commit of a promotion

The gate of a promotion looks neither for a live rollout of the candidate nor for room in
the authority table, and the commit meets both. A live rollout refuses the promotion
before anything has changed; want of room refuses it after the lifecycle has moved.
-/

namespace LifecycleFabric

open EngineState AuthorityTable

variable {c : EngineConfig} {s s' : EngineState}

/-- Whether a promotion is committed: the gate permits it, and its candidate has no live
rollout. -/
def EngineState.reachesCommit (c : EngineConfig) (s : EngineState) (request : PromotionRequest) :
    Bool :=
  (s.evaluatePromotion c request).allowed && (s.livePlansFor request.candidate).isEmpty

/-- Whether the scope of a promotion has room for the candidate. -/
def EngineState.fitsPromotion (s : EngineState) (request : PromotionRequest) : Bool :=
  request.model.valid && request.candidate.valid && s.authority.hasRoom request.scope

/-! ## Clearing the rollouts in flight -/

/-- What clearing the rollouts of the other candidates leaves alone. -/
structure Cleared (record : ModelVersionRecord) (s s' : EngineState) : Prop where
  scopes : s'.scopes = s.scopes
  own : s'.versionOf record.model record.version = s.versionOf record.model record.version
  room : ∀ scope, s'.authority.hasRoom scope = s.authority.hasRoom scope

theorem Cleared.refl (record : ModelVersionRecord) (s : EngineState) : Cleared record s s :=
  ⟨rfl, rfl, fun _ => rfl⟩

theorem Cleared.trans {record : ModelVersionRecord} {s s' s'' : EngineState}
    (h : Cleared record s s') (h' : Cleared record s' s'') : Cleared record s s'' :=
  ⟨h'.scopes.trans h.scopes, h'.own.trans h.own, fun scope => (h'.room scope).trans (h.room scope)⟩

/-- Withdrawing the bindings of a rollout makes no room and takes none. -/
theorem hasRoom_supersedeRollout (table : AuthorityTable) (rollout : RolloutId)
    (generation : RolloutGeneration) (scope : ScopeId) :
    (table.supersedeRollout rollout generation).hasRoom scope = table.hasRoom scope := by
  have hsize : (table.supersedeRollout rollout generation).size = table.size := by
    refine OrdMap.sum_values_mapValues List.length table.bindings ?_
    intro _ bindings
    exact List.length_map _
  have hlisted : (table.supersedeRollout rollout generation).listed scope =
      table.listed scope := by
    simp only [AuthorityTable.supersedeRollout, mapAll, listed, OrdMap.contains, OrdMap.get?_mapValues,
      Option.isSome_map]
  rw [hasRoom, hasRoom, hsize, hlisted]
  rfl

/-- Moving another version of the model along the lifecycle leaves a version alone. -/
theorem cleared_advanceVersion (record : ModelVersionRecord) (s : EngineState) (model : ModelId)
    {version : ModelVersionId} (hne : version ≠ record.version) (target : LifecycleState) :
    Cleared record s (s.advanceVersion model version target) := by
  refine ⟨rfl, ?_, fun _ => rfl⟩
  rw [advanceVersion, versionOf_modifyVersion]
  cases s.versionOf record.model record.version with
  | none => rfl
  | some stored =>
    rw [Option.map_some, if_neg]
    rintro ⟨_, rfl⟩
    exact hne rfl

theorem cleared_supersedeInflight (record : ModelVersionRecord) (keys : List UInt64)
    (s : EngineState) : Cleared record s (supersedeInflight record keys s) := by
  induction keys generalizing s with
  | nil => exact Cleared.refl record s
  | cons key keys ih =>
    unfold supersedeInflight
    cases s.rollouts.get? key with
    | none => exact ih s
    | some plan =>
      dsimp only
      split_ifs with hskip
      · exact ih s
      · have hother : plan.candidate ≠ record.version := fun heq => hskip (Or.inr (Or.inr heq))
        have hweaken : Cleared record s
            (({ s.bumpSequence with
                rollouts := s.rollouts.modify key (supersededPlan s.bumpSequence.sequence
                  (text "a newer promotion superseded this rollout")) } :
              EngineState).mapAuthority (·.supersedeRollout plan.id plan.generation)) :=
          ⟨rfl, rfl, hasRoom_supersedeRollout s.authority plan.id plan.generation⟩
        refine Cleared.trans (hweaken.trans ?_) (ih _)
        split
        · exact Cleared.refl record _
        · split_ifs
          · exact Cleared.refl record _
          · exact cleared_advanceVersion record _ plan.model hother .draining

theorem cleared_clearInflight (s : EngineState) (request : PromotionRequest)
    (record : ModelVersionRecord) : Cleared record s (s.clearInflight request record) := by
  unfold clearInflight
  split_ifs
  · exact cleared_supersedeInflight record _ s
  · exact Cleared.refl record s

/-! ## The commit -/

/-- The candidate of a permitted promotion is in a state a promotion may start from. -/
theorem promotable_of_permitted {request : PromotionRequest}
    (h : (s.evaluatePromotion c request).allowed = true) {record : ModelVersionRecord}
    (hrecord : s.versionOf request.model request.candidate = some record) :
    record.state.isPromotableFrom = true := by
  obtain ⟨found, hfound, hfaults⟩ := evaluatePromotion_allowed_iff.mp h
  obtain rfl : record = found := Option.some.inj (hrecord.symm.trans hfound)
  simp only [promotionFaults, List.append_eq_nil_iff] at hfaults
  obtain ⟨⟨⟨⟨⟨⟨⟨_, hcandidate⟩, _⟩, _⟩, _⟩, _⟩, _⟩, _⟩ := hfaults
  simp only [candidateFaults, List.append_eq_nil_iff, faultIf_eq_nil, not_not] at hcandidate
  exact hcandidate.1.1.1.2

/-- The grant of an immediate promotion. -/
def PromotionRequest.grant (request : PromotionRequest) (promotion : PromotionId)
    (promotionGeneration : PromotionGeneration) : GrantRequest where
  model := request.model
  version := request.candidate
  scope := request.scope
  kind := .exclusive
  promotion
  promotionGeneration
  supersedeExisting := true
  retentionTarget := request.rollbackTarget
  retentionGeneration := request.rollbackTargetGeneration

theorem grantPromotion_eq (s : EngineState) (request : PromotionRequest) (promotion : PromotionId)
    (promotionGeneration : PromotionGeneration) :
    s.grantPromotion request promotion promotionGeneration =
      if request.immediate then s.grantAuthority (request.grant promotion promotionGeneration)
      else (s, .accepted) := rfl

/-- The state in which the grant of a promotion is asked for. -/
def EngineState.prepared (s : EngineState) (request : PromotionRequest)
    (record : ModelVersionRecord) : EngineState :=
  (s.clearInflight request record).advanceVersion request.model request.candidate
    request.targetState

theorem chain_prepared (s : EngineState) (request : PromotionRequest)
    (record : ModelVersionRecord) : Chain c request.permit s (s.prepared request record) :=
  (progresses_clearInflight s request record False.elim).chain.trans (chain_advanceTarget _ request)

section Commit

variable {request : PromotionRequest} {record : ModelVersionRecord} (hs : Coherent s)
  (hgate : (s.evaluatePromotion c request).allowed = true)
  (hrecord : s.versionOf request.model request.candidate = some record)

include hs hrecord in
/-- Clearing the rollouts of the other candidates leaves the candidate alone. -/
theorem versionOf_clearInflight :
    (s.clearInflight request record).versionOf request.model request.candidate = some record := by
  obtain ⟨hmodel, hversion⟩ := versionKey_inj.mp (hs.versions _ record hrecord)
  have hown := (cleared_clearInflight s request record).own
  rw [← hmodel, ← hversion, hrecord] at hown
  exact hown

include hs hrecord hgate in
/-- The lifecycle always takes a promotable candidate to the target of the promotion. -/
theorem advanceDecision_prepared :
    ((s.clearInflight request record).advanceDecision request.model request.candidate
      request.targetState).allowed = true := by
  have hpromotable := promotable_of_permitted hgate hrecord
  have hne : record.state ≠ .retired := by
    intro hretired
    rw [hretired] at hpromotable
    cases hpromotable
  obtain ⟨_, hcurrent, hpending, _⟩ := LifecycleState.reaches_of_ne_retired hne
  rw [advanceDecision, versionOf_clearInflight hs hrecord]
  dsimp only
  rw [ModelVersionRecord.advanceLifecycleTo_allowed, PromotionRequest.targetState]
  split_ifs
  · exact hcurrent
  · exact hpending

include hs hrecord in
theorem versionOf_prepared :
    (s.prepared request record).versionOf request.model request.candidate =
      some (record.advanceLifecycleTo request.targetState).1 := by
  rw [prepared, advanceVersion, versionOf_modifyVersion, versionOf_clearInflight hs hrecord,
    Option.map_some, if_pos ⟨rfl, rfl⟩]

include hrecord hgate in
/-- The grant of an immediate promotion is admitted exactly when the candidate fits. -/
theorem admitted_prepared (promotion : PromotionId) (promotionGeneration : PromotionGeneration) :
    (request.grant promotion promotionGeneration).admitted (s.prepared request record) =
      s.fitsPromotion request := by
  obtain ⟨_, hfound, hretired, hscope⟩ := promotion_permitted hgate
  obtain rfl := Option.some.inj (hrecord.symm.trans hfound)
  have hchain := chain_prepared (c := c) s request record
  obtain ⟨stored, hstored, hkept⟩ := hchain.version_stands (fun h => h) hrecord
  have hserves : (s.prepared request record).mayServe request.model request.candidate = true :=
    mayServe_iff.mpr ⟨stored, hstored, hkept.trans hretired⟩
  have hregistered := hchain.scope_stands hscope
  have hroom : (s.prepared request record).authority.hasRoom request.scope =
      s.authority.hasRoom request.scope :=
    (cleared_clearInflight s request record).room request.scope
  unfold GrantRequest.admitted GrantRequest.coexists fitsPromotion
  simp only [PromotionRequest.grant, hserves, hroom, Bool.true_and, Bool.true_or, Bool.and_true]
  rw [hregistered, Bool.and_true]

include hs hrecord hgate in
/-- A promotion that reaches its commit is settled by its grant. -/
theorem promote_eq (hfree : (s.livePlansFor request.candidate).isEmpty = true) :
    s.promote c request =
      let promotion : PromotionId := ⟨(s.clearInflight request record).nextPromotionId⟩
      let promotionGeneration := record.promotionGeneration.nextGeneration
      let granted :=
        (s.prepared request record).grantPromotion request promotion promotionGeneration
      if !granted.2.allowed then
        (granted.1.advanceVersion request.model request.candidate .promotionBlocked,
          { decision := granted.2 })
      else
        (granted.1.commitPromotion request promotion promotionGeneration,
          { decision := { outcome := .promotionAllowed }
            promotion
            promotionGeneration
            immediate := request.immediate }) := by
  obtain ⟨_, hversion⟩ := versionKey_inj.mp (hs.versions _ record hrecord)
  have hadvanced := advanceDecision_prepared hs hgate hrecord
  unfold promote
  rw [hversion] at hfree
  simp only [hgate, Bool.not_true, Bool.false_eq_true, if_false, hrecord, hfree, hadvanced,
    prepared]
  rfl

include hs hrecord hgate in
/-- A candidate whose grant is refused ends blocked. -/
theorem versionOf_blocked {t : EngineState}
    (ht : t = s.prepared request record ∨ t = (s.prepared request record).bumpSequence) :
    ∃ after, (t.advanceVersion request.model request.candidate .promotionBlocked).versionOf
        request.model request.candidate = some after ∧ after.state = .promotionBlocked := by
  have hprepared := versionOf_prepared hs hrecord
  have hstored : t.versionOf request.model request.candidate =
      some (record.advanceLifecycleTo request.targetState).1 := by
    rcases ht with rfl | rfl
    · exact hprepared
    · exact hprepared
  have hadvanced := advanceDecision_prepared hs hgate hrecord
  rw [advanceDecision, versionOf_clearInflight hs hrecord] at hadvanced
  dsimp only at hadvanced
  rw [ModelVersionRecord.advanceLifecycleTo_allowed] at hadvanced
  have hne : (record.advanceLifecycleTo request.targetState).1.state ≠ .retired := by
    rw [ModelVersionRecord.advanceLifecycleTo_state hadvanced, PromotionRequest.targetState]
    split_ifs <;> decide
  obtain ⟨_, _, _, _, hblocked⟩ := LifecycleState.reaches_of_ne_retired hne
  refine ⟨_, ?_, ModelVersionRecord.advanceLifecycleTo_state hblocked⟩
  rw [advanceVersion, versionOf_modifyVersion, hstored, Option.map_some, if_pos ⟨rfl, rfl⟩]

end Commit

/-- What a promotion comes to. -/
inductive Promotes (c : EngineConfig) (s : EngineState) (request : PromotionRequest) : Prop
  | stopped (hstopped : s.reachesCommit c request = false)
      (hrefused : (s.promote c request).2.decision.allowed = false)
      (hsame : (s.promote c request).1 = s)
  | committed (hcommit : s.reachesCommit c request = true)
      (hfits : request.immediate = true → s.fitsPromotion request = true)
      (hallowed : (s.promote c request).2.decision.allowed = true)
  | aborted (hcommit : s.reachesCommit c request = true) (himmediate : request.immediate = true)
      (hfull : s.fitsPromotion request = false)
      (hrefused : (s.promote c request).2.decision.allowed = false)
      (before after : ModelVersionRecord)
      (hbefore : s.versionOf request.model request.candidate = some before)
      (hafter : (s.promote c request).1.versionOf request.model request.candidate = some after)
      (hmoved : after.state ≠ before.state)

theorem promotes (hs : Coherent s) (hstanding : Standing s) (request : PromotionRequest) :
    Promotes c s request := by
  by_cases hgate : (s.evaluatePromotion c request).allowed = true
  · obtain ⟨record, hrecord, hretired, hscope⟩ := promotion_permitted hgate
    obtain ⟨hmodel, hversion⟩ := versionKey_inj.mp (hs.versions _ record hrecord)
    by_cases hfree : (s.livePlansFor request.candidate).isEmpty = true
    · have hcommit : s.reachesCommit c request = true := by
        rw [reachesCommit, hgate, hfree]
        rfl
      have hchain := chain_prepared (c := c) s request record
      have hpromote := promote_eq hs hgate hrecord hfree
      dsimp only at hpromote
      by_cases himmediate : request.immediate = true
      · have hadmitted := admitted_prepared hgate hrecord
          ⟨(s.clearInflight request record).nextPromotionId⟩
          record.promotionGeneration.nextGeneration
        rw [grantPromotion_eq, if_pos himmediate] at hpromote
        cases hfits : s.fitsPromotion request with
        | true =>
          rw [hfits] at hadmitted
          have hallowed := (grantAuthority_admitted (hchain.coherent hs)
            (hchain.standing hstanding) hadmitted).1
          refine .committed hcommit (fun _ => hfits) ?_
          rw [hpromote, hallowed]
          rfl
        | false =>
          rw [hfits] at hadmitted
          obtain ⟨hdenied, hstate⟩ := grantAuthority_refused (hchain.coherent hs)
            (hchain.standing hstanding) hadmitted
          obtain ⟨after, hafter, hblocked⟩ := versionOf_blocked hs hgate hrecord hstate
          rw [hdenied, Bool.not_false, if_pos rfl] at hpromote
          refine .aborted hcommit himmediate hfits ?_ record after hrecord ?_ ?_
          · rw [hpromote]
            exact hdenied
          · rw [hpromote]
            exact hafter
          · rw [hblocked]
            intro hsame
            have hpromotable := promotable_of_permitted hgate hrecord
            rw [← hsame] at hpromotable
            cases hpromotable
      · refine .committed hcommit (fun h => absurd h himmediate) ?_
        rw [hpromote, grantPromotion_eq, if_neg himmediate]
        rfl
    · have hstopped : s.reachesCommit c request = false := by
        rw [reachesCommit, hgate, Bool.true_and]
        simpa using hfree
      have hsame : s.promote c request =
          (s, { decision := .because .conflict .promotionCommitDuplicate
                  (text "candidate already has a live rollout under another promotion") }) := by
        unfold promote
        rw [hversion] at hfree
        simp only [hgate, Bool.not_true, Bool.false_eq_true, if_false, hrecord, hfree,
          Bool.not_false, if_true]
      refine .stopped hstopped ?_ ?_
      · rw [hsame]
        simp [OutcomeCode.isPositive]
      · rw [hsame]
  · rw [Bool.not_eq_true] at hgate
    have hsame : s.promote c request = (s, { decision := s.evaluatePromotion c request }) := by
      unfold promote
      simp only [hgate, Bool.not_false, if_true]
    refine .stopped ?_ ?_ ?_
    · rw [reachesCommit, hgate, Bool.false_and]
    · rw [hsame]
      exact hgate
    · rw [hsame]

/-! ## Refused promotions -/

/-- What a promotion must leave alone when it is refused. -/
structure Untouched (s s' : EngineState) : Prop where
  lifecycles : ∀ model version, (s'.versionOf model version).map
      (fun record => (record.state, record.lifecycleGeneration, record.generation)) =
    (s.versionOf model version).map
      fun record => (record.state, record.lifecycleGeneration, record.generation)
  authority : s'.authority = s.authority
  rollouts : s'.rollouts = s.rollouts
  scopes : s'.scopes = s.scopes
  policy : s'.policy = s.policy
  evidence : s'.evidence = s.evidence

theorem Untouched.refl (s : EngineState) : Untouched s s :=
  ⟨fun _ _ => rfl, rfl, rfl, rfl, rfl, rfl⟩

/-- A refused promotion leaves the engine alone exactly when it is not one that reaches its
commit and asks at once for a scope without room. -/
theorem refused_promotion_untouched_iff (hs : ReachableState c s) (request : PromotionRequest) :
    ((s.promote c request).2.decision.allowed = false → Untouched s (s.promote c request).1) ↔
      ¬(s.reachesCommit c request = true ∧ request.immediate = true ∧
        s.fitsPromotion request = false) := by
  cases promotes (c := c) hs.coherent hs.standing request with
  | stopped hstopped hrefused hsame =>
    rw [hsame, hstopped]
    constructor
    · rintro _ ⟨hcommit, _⟩
      cases hcommit
    · exact fun _ _ => Untouched.refl s
  | committed hcommit hfits hallowed =>
    constructor
    · rintro _ ⟨_, himmediate, hfull⟩
      rw [hfits himmediate] at hfull
      cases hfull
    · intro _ hrefused
      rw [hallowed] at hrefused
      cases hrefused
  | aborted hcommit himmediate hfull hrefused before after hbefore hafter hmoved =>
    constructor
    · intro huntouched
      have hsame := (huntouched hrefused).lifecycles request.model request.candidate
      rw [hbefore, hafter, Option.map_some, Option.map_some, Option.some.injEq,
        Prod.mk.injEq] at hsame
      exact absurd hsame.1 hmoved
    · exact fun hnot => absurd ⟨hcommit, himmediate, hfull⟩ hnot

/-- The gate and the commit of a promotion agree exactly when the gate refuses, or the
candidate has no live rollout and what is asked for at once fits. -/
theorem promotion_gate_agrees_iff (hs : ReachableState c s) (request : PromotionRequest) :
    ((s.evaluatePromotion c request).allowed = true ↔
        (s.promote c request).2.decision.allowed = true) ↔
      ((s.evaluatePromotion c request).allowed = true →
        (s.livePlansFor request.candidate).isEmpty = true ∧
          (request.immediate = true → s.fitsPromotion request = true)) := by
  have hcommits : s.reachesCommit c request = true ↔
      (s.evaluatePromotion c request).allowed = true ∧
        (s.livePlansFor request.candidate).isEmpty = true := by
    rw [reachesCommit, Bool.and_eq_true]
  cases promotes (c := c) hs.coherent hs.standing request with
  | stopped hstopped hrefused _ =>
    rw [hrefused]
    constructor
    · intro hagree hgate
      cases hagree.mp hgate
    · intro hcondition
      constructor
      · intro hgate
        rw [hcommits.mpr ⟨hgate, (hcondition hgate).1⟩] at hstopped
        cases hstopped
      · intro hfalse
        cases hfalse
  | committed hcommit hfits hallowed =>
    obtain ⟨hgate, hfree⟩ := hcommits.mp hcommit
    constructor
    · exact fun _ _ => ⟨hfree, hfits⟩
    · intro _
      rw [hgate, hallowed]
  | aborted hcommit himmediate hfull hrefused =>
    obtain ⟨hgate, _⟩ := hcommits.mp hcommit
    rw [hrefused]
    constructor
    · intro hagree
      cases hagree.mp hgate
    · intro hcondition
      rw [(hcondition hgate).2 himmediate] at hfull
      cases hfull

/-! ### A promotion into a full table -/

/-- A registry with room for one binding. -/
def singleBinding : EngineConfig := { bounds := { maxAuthorityBindings := 1 } }

/-- A version serves the root scope, which fills the table; a second one is registered. -/
def tableFilled : List Operation :=
  [.registerModel [109] [] .synthetic,
    .registerVersion
      { model := ⟨1⟩, label := [49]
        artifact := { setId := ⟨1⟩, generation := ⟨1⟩, digest := [97] } },
    .publishCompatibility ⟨1⟩ { key := [101] } .compatible [] .synthetic,
    .promote
      { model := ⟨1⟩, candidate := ⟨1⟩, scope := ⟨1⟩, environmentKey := [101]
        requestImmediateCutover := true },
    .registerScope (text "global/site:a"),
    .registerVersion
      { model := ⟨1⟩, label := [50]
        artifact := { setId := ⟨1⟩, generation := ⟨1⟩, digest := [97] } },
    .publishCompatibility ⟨2⟩ { key := [101] } .compatible [] .synthetic]

/-- The promotion of the second version into the other scope. -/
def promoteElsewhere : PromotionRequest :=
  { model := ⟨1⟩, candidate := ⟨2⟩, scope := ⟨2⟩, environmentKey := [101]
    requestImmediateCutover := true }

/-- Every scope may hold one generation. -/
def coexistenceDenied : List Operation :=
  tableFilled ++ [.setPolicy { generation := ⟨2⟩, maxActiveGenerationsPerScope := 1 }]

/-- The promotion of the second version next to the first. -/
def promoteBeside : PromotionRequest :=
  { promoteElsewhere with scope := ⟨1⟩, rollbackTarget := ⟨1⟩ }

theorem refused_promotion_untouched_witness :
    ((runOps {} (init {}) coexistenceDenied).promote {} promoteBeside).2.decision.reasons.map
        Reason.code = [.coexistenceLimitExceeded] ∧
      Untouched (runOps {} (init {}) coexistenceDenied)
        ((runOps {} (init {}) coexistenceDenied).promote {} promoteBeside).1 :=
  ⟨by decide +kernel, (refused_promotion_untouched_iff (c := {}) ⟨coexistenceDenied, rfl⟩
    promoteBeside).mpr (by decide +kernel) (by decide +kernel)⟩

/-- The refused promotion leaves its candidate blocked. -/
theorem refused_promotion_blocks_candidate :
    ¬(((runOps singleBinding (init singleBinding) tableFilled).promote singleBinding
          promoteElsewhere).2.decision.allowed = false →
        Untouched (runOps singleBinding (init singleBinding) tableFilled)
          ((runOps singleBinding (init singleBinding) tableFilled).promote singleBinding
            promoteElsewhere).1) := by
  intro huntouched
  have hrefused : ((runOps singleBinding (init singleBinding) tableFilled).promote singleBinding
      promoteElsewhere).2.decision.allowed = false := by decide +kernel
  have hsame := (huntouched hrefused).lifecycles ⟨1⟩ ⟨2⟩
  have hmoved : (((runOps singleBinding (init singleBinding) tableFilled).promote singleBinding
        promoteElsewhere).1.versionOf ⟨1⟩ ⟨2⟩).map
        (fun record => (record.state, record.lifecycleGeneration, record.generation)) ≠
      ((runOps singleBinding (init singleBinding) tableFilled).versionOf ⟨1⟩ ⟨2⟩).map
        fun record => (record.state, record.lifecycleGeneration, record.generation) := by
    decide +kernel
  exact hmoved hsame

theorem promotion_gate_agrees_witness :
    (((runOps {} (init {}) tableFilled).evaluatePromotion {} promoteElsewhere).allowed = true ↔
      ((runOps {} (init {}) tableFilled).promote {} promoteElsewhere).2.decision.allowed = true) :=
  (promotion_gate_agrees_iff (c := {}) ⟨tableFilled, rfl⟩ promoteElsewhere).mpr (by decide +kernel)

/-- The gate permits the promotion into the full table, and the commit refuses it. -/
theorem promotion_gate_misses_bound :
    ¬(((runOps singleBinding (init singleBinding) tableFilled).evaluatePromotion singleBinding
          promoteElsewhere).allowed = true ↔
      ((runOps singleBinding (init singleBinding) tableFilled).promote singleBinding
          promoteElsewhere).2.decision.allowed = true) := by
  decide +kernel

end LifecycleFabric
