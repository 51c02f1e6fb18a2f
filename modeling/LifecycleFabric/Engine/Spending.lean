import LifecycleFabric.Engine.Issued

/-!
# Operations that hand out identities

Each of them reads an allocator, keeps what it makes under what it read, and moves the
allocator on. A promotion or a rollback that is refused leaves the identity unspent, and
nothing names it.
-/

namespace LifecycleFabric

open EngineState AuthorityTable Allocators

variable {kind : IdKind} {c : EngineConfig} {s t u : EngineState}

/-- Nothing is handed out, or the next identity of a kind. -/
def MaySpend (kind : IdKind) (s t : EngineState) : Prop :=
  Adds (fun _ _ => False) s t ∨ Spends kind s t

theorem MaySpend.refl (s : EngineState) : MaySpend kind s s := Or.inl (.refl s)

theorem MaySpend.versions (h : MaySpend kind s t) (hkind : kind ≠ .version) :
    t.versions.keys ⊆ s.versions.keys :=
  h.elim Adds.versions fun hspends => hspends.versions hkind

theorem MaySpend.issues (h : MaySpend kind s t) (hroom : (s.nextId kind).toNat + 1 < 2 ^ 64) :
    identities.Issues s t :=
  h.elim Adds.issues fun hspends => hspends.issues hroom

/-! ## Registrations -/

theorem registerModel_spends (s : EngineState) (name family : Text) (provenance : Provenance) :
    MaySpend .model s (s.registerModel c name family provenance).1 := by
  unfold registerModel
  split_ifs
  · exact .refl s
  · exact .refl s
  · exact .refl s
  · exact .refl s
  · right
    refine ⟨?_, fun _ => List.Subset.refl _, ?_⟩
    · intro k
      cases k <;> rfl
    · intro k
      cases k with
      | model =>
        intro raw hraw
        exact (OrdMap.mem_keys_insertNew hraw).imp_right fun hnew => ⟨rfl, hnew⟩
      | _ => exact .refl _

/-- What a new value names, when it names nothing. -/
theorem growsBy_insertNew {κ ν : Type*} [LinearOrder κ] {P : UInt64 → Prop} {tag : IdTag}
    {g : ν → Ident tag} (m : OrdMap κ ν) (key : κ) {v : ν} (hv : (g v).valid = false) :
    GrowsBy P (presentIds (m.values.map g)) (presentIds ((m.insertNew key v).values.map g)) := by
  apply growsBy_presentIds
  intro after hafter hvalid
  rcases OrdMap.mem_values_insertNew hafter with hkept | rfl
  · exact Or.inl ⟨after, hkept, rfl⟩
  · rw [hv] at hvalid
    cases hvalid

/-- The registration of a version makes one version, which names nothing. -/
theorem registerVersion_spends (s : EngineState) (request : RegisterVersionRequest) :
    MaySpend .version s (s.registerVersion c request).1 ∧
      ∀ key ∈ (s.registerVersion c request).1.versions.keys,
        key ∈ s.versions.keys ∨ key = versionKey request.model ⟨s.nextVersionId⟩ := by
  have hsame : MaySpend .version s s ∧ ∀ key ∈ s.versions.keys,
      key ∈ s.versions.keys ∨ key = versionKey request.model ⟨s.nextVersionId⟩ :=
    ⟨.refl s, fun _ hkey => Or.inl hkey⟩
  unfold registerVersion
  dsimp only
  split_ifs
  · exact hsame
  · exact hsame
  · exact hsame
  · exact hsame
  · exact hsame
  · exact hsame
  · split
    · exact hsame
    · refine ⟨Or.inr ⟨?_, fun hkind => absurd rfl hkind, ?_⟩,
        fun key hkey => OrdMap.mem_keys_insertNew hkey⟩
      · intro k
        cases k <;> rfl
      · intro k
        cases k with
        | version =>
          apply growsBy_map
          intro key hkey
          rcases OrdMap.mem_keys_insertNew hkey with hkept | rfl
          · exact Or.inl ⟨key, hkept, rfl⟩
          · exact Or.inr ⟨rfl, rfl⟩
        | promotion =>
          exact (((GrowsBy.refl _).append (growsBy_insertNew _ _ rfl)).append (.refl _)).append
            (.refl _)
        | rollback => exact ((growsBy_insertNew _ _ rfl).append (.refl _)).append (.refl _)
        | compatibility => exact (GrowsBy.refl _).append (growsBy_insertNew _ _ rfl)
        | _ => exact .refl _

/-! ## Publications and attempts -/

/-- A publication of a fact is refused, or stores it at the assigned generation. -/
theorem CompatibilityRegistry.publish_cases (r : CompatibilityRegistry) (fact : CompatibilityFact)
    (assigned : CompatibilityGeneration) :
    ((r.publish fact assigned).1 = r ∧ (r.publish fact assigned).2.allowed = false) ∨
      fact.version.valid = true ∧ fact.environmentKey ≠ [] ∧
        fact.environmentKey.length ≤ maxEnvironmentKeyLength ∧ assigned.valid = true ∧
        (r.facts.contains (keyOf fact.version fact.environmentKey) = true ∨
          r.facts.size < r.maxFacts) ∧
        (r.publish fact assigned).1 =
          { r with
            facts := r.facts.insert (keyOf fact.version fact.environmentKey)
              { fact with generation := assigned } } := by
  unfold publish
  dsimp only
  split
  · exact .inl ⟨rfl, rfl⟩
  · rename_i hversion
    split
    · exact .inl ⟨rfl, rfl⟩
    · rename_i hkey
      split
      · exact .inl ⟨rfl, rfl⟩
      · rename_i hassigned
        have hfilled : fact.environmentKey ≠ [] ∧
            fact.environmentKey.length ≤ maxEnvironmentKeyLength := by simpa using hkey
        have hversion : fact.version.valid = true := by simpa using hversion
        have hassigned : assigned.valid = true := by simpa using hassigned
        split
        · rename_i current hcurrent
          have hheld : r.facts.contains (keyOf fact.version fact.environmentKey) = true :=
            OrdMap.contains_iff.mpr ⟨current, hcurrent⟩
          split_ifs
          · exact .inl ⟨rfl, rfl⟩
          · exact .inl ⟨rfl, rfl⟩
          · exact .inl ⟨rfl, rfl⟩
          · exact .inr ⟨hversion, hfilled.1, hfilled.2, hassigned, .inl hheld, rfl⟩
        · split_ifs with hfull
          · exact .inl ⟨rfl, rfl⟩
          · exact .inr ⟨hversion, hfilled.1, hfilled.2, hassigned, .inr (not_le.mp hfull), rfl⟩

/-- A publication stores at most the fact it publishes, at the assigned generation. -/
theorem publish_facts (registry : CompatibilityRegistry) (fact : CompatibilityFact)
    (assigned : CompatibilityGeneration) :
    ∀ stored ∈ (registry.publish fact assigned).1.facts.values,
      stored ∈ registry.facts.values ∨ stored.generation = assigned := by
  rcases registry.publish_cases fact assigned with ⟨hsame, _⟩ | ⟨_, _, _, _, _, hstore⟩
  · rw [hsame]
    exact fun _ hmem => Or.inl hmem
  · rw [hstore]
    intro stored hmem
    refine (OrdMap.mem_values_insert hmem).imp_right ?_
    rintro rfl
    rfl

theorem publishCompatibility_spends (s : EngineState) (version : ModelVersionId)
    (environment : EnvironmentProfile) (outcome : CompatibilityOutcome) (detail : Text)
    (provenance : Provenance) :
    MaySpend .compatibility s
      (s.publishCompatibility c version environment outcome detail provenance).1 := by
  unfold publishCompatibility
  split
  · exact .refl s
  · rename_i key record hfound
    split
    · exact .refl s
    · split
      · exact .refl s
      · dsimp only
        split
        · exact Or.inl (adds_bumpSequence s)
        · right
          let spent := IdKind.compatibility.only s.nextCompatibilityGeneration
          have hgains : ∀ updated : Sequence, record.Gains spent
              { record with
                compatibilityGeneration := ⟨s.nextCompatibilityGeneration⟩
                updatedSequence := updated } :=
            fun _ => ⟨Or.inl rfl, Or.inl rfl, fun _ => Or.inr ⟨rfl, rfl⟩⟩
          have hversions : Adds spent s _ := (adds_bumpSequence s).trans
            (adds_modifyVersions s.bumpSequence key (f := fun _ => if record.state = .registered
              then (ModelVersionRecord.transition { record with
                compatibilityGeneration := ⟨s.nextCompatibilityGeneration⟩
                updatedSequence := s.bumpSequence.sequence } .validating).1
              else { record with
                compatibilityGeneration := ⟨s.nextCompatibilityGeneration⟩
                updatedSequence := s.bumpSequence.sequence }) (by
              intro stored hstored
              obtain rfl := Option.some.inj ((findVersion_stored hfound).symm.trans hstored)
              split_ifs
              · exact (hgains _).trans (gains_transition _ _)
              · exact hgains _))
          refine Adds.spends (hversions.trans (adds_facts _ ?_)) rfl ?_
          · intro stored hmem
            refine (publish_facts _ _ _ stored hmem).imp_right ?_
            intro hsame
            exact ⟨rfl, congrArg Ident.raw hsame⟩
          · intro k
            cases k <;> rfl

theorem publishEvidence_spends (s : EngineState) (record : EvidenceRecord) :
    MaySpend .evidence s (s.publishEvidence record).1 := by
  unfold publishEvidence
  dsimp only
  split
  · exact .refl s
  · split
    · exact .refl s
    · split
      · exact .refl s
      · rename_i owner _ _ _
        right
        have hstored : Adds (IdKind.evidence.only s.nextEvidenceId) s
            { s with
              evidence := (s.evidence.publish (s.assignEvidence
                { s.resolveSubjectModel record with
                  subject := completeSubject (s.resolveSubjectModel record).subject owner })).1 } := by
          apply adds_evidence
          intro key stored hmem
          rcases s.evidence.publish_cases _ with ⟨hsame, _⟩ | ⟨_, _, _, room, hroom, hbucket⟩
          · rw [hsame] at hmem
            exact Or.inl hmem
          · rw [hbucket] at hmem
            split_ifs at hmem
            · rcases List.mem_append.mp hmem with hkept | hnew
              · exact Or.inl (hroom key hkept)
              · rw [List.mem_singleton.mp hnew]
                exact Or.inr ⟨rfl, rfl⟩
            · exact Or.inl (hroom key hmem)
        refine hstored.spends rfl ?_
        intro k
        cases k <;> rfl

theorem beginAttempt_spends (s : EngineState) (request : AttemptRequest) :
    MaySpend .attempt s (s.beginAttempt c request).1 := by
  unfold beginAttempt
  split
  · exact .refl s
  · exact .refl s
  · right
    refine ⟨?_, fun _ => List.Subset.refl _, ?_⟩
    · intro k
      cases k <;> rfl
    · intro k
      cases k with
      | attempt =>
        intro raw hraw
        exact (OrdMap.mem_keys_insertNew hraw).imp_right fun hnew => ⟨rfl, hnew⟩
      | _ => exact .refl _

/-! ## Promotions -/

theorem adds_supersedeInflight {new : IdKind → UInt64 → Prop} (record : ModelVersionRecord)
    (keys : List UInt64) (s : EngineState) : Adds new s (supersedeInflight record keys s) := by
  induction keys generalizing s with
  | nil => exact .refl s
  | cons key keys ih =>
    unfold supersedeInflight
    split
    · exact ih s
    · rename_i plan _
      split_ifs
      · exact ih s
      · have hedited : Adds new s _ := (adds_bumpSequence s).trans (adds_modifyPlan _ key
          (f := supersededPlan s.bumpSequence.sequence
            (text "a newer promotion superseded this rollout"))
          fun _ => ⟨rfl, rfl, rfl, Or.inl rfl⟩)
        have hfenced := hedited.trans
          (adds_weakened _ (weakened_supersedeRollout _ plan.id plan.generation))
        refine Adds.trans ?_ (ih _)
        split
        · exact hfenced
        · split_ifs
          · exact hfenced
          · exact hfenced.trans (adds_advanceVersion _ _ _ _)

theorem adds_clearInflight {new : IdKind → UInt64 → Prop} (s : EngineState)
    (request : PromotionRequest) (record : ModelVersionRecord) :
    Adds new s (s.clearInflight request record) := by
  unfold clearInflight
  split_ifs
  · exact adds_supersedeInflight record _ s
  · exact .refl s

/-- A grant that is refused adds nothing. -/
theorem adds_of_refused {new : IdKind → UInt64 → Prop} (hs : Coherent s) (hstanding : Standing s)
    {g : GrantRequest} (hrefused : (s.grantAuthority g).2.allowed = false) :
    Adds new s (s.grantAuthority g).1 := by
  rw [grantAuthority_allowed hs hstanding] at hrefused
  rcases (grantAuthority_refused hs hstanding hrefused).2 with hsame | hbumped
  · rw [hsame]
    exact .refl s
  · rw [hbumped]
    exact adds_bumpSequence s

/-- The identity of a promotion is spent with its entry among the committed ones. -/
theorem spends_promotion (h : Adds (IdKind.promotion.only s.nextPromotionId) s t) :
    Spends .promotion s
      { t with
        nextPromotionId := s.nextPromotionId + 1
        committedPromotions := t.committedPromotions.insert s.nextPromotionId () } := by
  have hcommitted : Adds (IdKind.promotion.only s.nextPromotionId) t
      { t with committedPromotions := t.committedPromotions.insert s.nextPromotionId () } := by
    refine ⟨rfl, List.Subset.refl _, fun k => ?_⟩
    cases k with
    | promotion =>
      refine ((GrowsBy.append ?_ (.refl _)).append (.refl _)).append (.refl _)
      intro raw hraw
      exact (OrdMap.mem_keys_insert hraw).imp_right fun hnew => ⟨rfl, hnew⟩
    | _ => exact .refl _
  refine (h.trans hcommitted).spends rfl ?_
  have hnext : t.nextPromotionId = s.nextPromotionId := congrFun h.next .promotion
  intro k
  cases k with
  | promotion =>
    change s.nextPromotionId + 1 = t.nextPromotionId + 1
    rw [hnext]
  | _ => rfl

theorem commitPromotion_spends (request : PromotionRequest) (generation : PromotionGeneration)
    (h : Adds (IdKind.promotion.only s.nextPromotionId) s t) :
    Spends .promotion s (t.commitPromotion request ⟨s.nextPromotionId⟩ generation) := by
  have hnamed : Adds (IdKind.promotion.only s.nextPromotionId) s _ :=
    (h.trans (adds_bumpSequence t)).trans (adds_modifyVersion _ request.model request.candidate
      (f := fun record =>
        { record with
          lastPromotion := ⟨s.nextPromotionId⟩
          promotionGeneration := generation
          updatedSequence := t.bumpSequence.sequence })
      fun _ => ⟨Or.inr ⟨rfl, rfl⟩, Or.inl rfl, fun _ => Or.inl rfl⟩)
  exact spends_promotion hnamed

/-- The grant of a promotion names the promotion, unless it is refused. -/
theorem adds_grantPromotion {new : IdKind → UInt64 → Prop} (hs : Coherent s)
    (hstanding : Standing s) (request : PromotionRequest) (promotion : PromotionId)
    (generation : PromotionGeneration)
    (hnew : (s.grantPromotion request promotion generation).2.allowed = true →
      new .promotion promotion.raw) :
    Adds new s (s.grantPromotion request promotion generation).1 := by
  unfold grantPromotion at hnew ⊢
  split_ifs at hnew ⊢
  · cases hallowed : (s.grantAuthority _).2.allowed with
    | false => exact adds_of_refused hs hstanding hallowed
    | true => exact adds_grantAuthority s ⟨fun _ => hnew hallowed, fun hvalid => by cases hvalid⟩
  · exact .refl s

theorem promote_spends (hs : Coherent s) (hstanding : Standing s) (request : PromotionRequest) :
    MaySpend .promotion s (s.promote c request).1 := by
  unfold promote
  dsimp only
  split
  · exact .refl s
  · split
    · exact .refl s
    · rename_i record _
      split
      · exact .refl s
      · have hclear : ∀ new, Adds new s ((s.clearInflight request record).advanceVersion
            request.model request.candidate request.targetState) :=
          fun _ => (adds_clearInflight s request record).trans (adds_advanceVersion _ _ _ _)
        have hchain := (progresses_clearInflight (c := c) s request record
          (False.elim : False → _)).chain.trans (chain_advanceTarget (c := c) _ request)
        have hnext := congrFun (hclear fun _ _ => False).next IdKind.promotion
        change (s.clearInflight request record).nextPromotionId = s.nextPromotionId at hnext
        have hgrant := fun new hnew => (hclear new).trans (adds_grantPromotion
          (hchain.coherent hs) (hchain.standing hstanding) request
          ⟨(s.clearInflight request record).nextPromotionId⟩
          record.promotionGeneration.nextGeneration hnew)
        rw [hnext] at hgrant ⊢
        split
        · exact Or.inl (hclear _)
        · split
          · rename_i hrefused
            left
            refine Adds.trans (hgrant _ ?_) (adds_advanceVersion _ _ _ _)
            intro hallowed
            rw [hallowed] at hrefused
            cases hrefused
          · exact Or.inr (commitPromotion_spends request _ (hgrant _ fun _ => ⟨rfl, rfl⟩))

/-! ## Rollbacks -/

/-- The identity of a rollback is spent with the entry of its plan. -/
theorem spends_rollback (rollout : UInt64) (generation : RollbackGeneration)
    (h : Adds (IdKind.rollback.only s.nextRollbackId) s t) :
    Spends .rollback s (t.commitRollback rollout ⟨s.nextRollbackId⟩ generation) := by
  refine h.spends rfl ?_
  have hnext : t.nextRollbackId = s.nextRollbackId := congrFun h.next .rollback
  intro k
  cases k with
  | rollback =>
    change s.nextRollbackId + 1 = t.nextRollbackId + 1
    rw [hnext]
  | _ => rfl

theorem Spends.then (h : Spends kind s t) (h' : ∀ new, Adds new t u) : Spends kind s u where
  next k := by rw [(h' fun _ _ => False).next, h.next]
  versions hkind := List.Subset.trans (h' fun _ _ => False).versions (h.versions hkind)
  ids k := (h.ids k).trans ((h' _).ids k)

theorem adds_recordRollback {new : IdKind → UInt64 → Prop} (s : EngineState) (model : ModelId)
    (version : ModelVersionId) {rollback : RollbackId} (generation : RollbackGeneration)
    (hnew : new .rollback rollback.raw) :
    Adds new s (s.recordRollback model version rollback generation) :=
  adds_modifyVersion s model version fun _ => ⟨Or.inl rfl, Or.inr hnew, fun _ => Or.inl rfl⟩

theorem adds_settleRollback {new : IdKind → UInt64 → Prop} (s : EngineState)
    (request : RollbackRequest) (candidate : ModelVersionRecord) (rollback : RollbackId)
    (generation : RollbackGeneration) (hnew : new .rollback rollback.raw) :
    Adds new s (s.settleRollback request candidate rollback generation) := by
  unfold settleRollback
  refine Adds.trans ?_ (adds_stampVersion _ _ _)
  refine Adds.trans ?_ (adds_recordRollback _ _ _ _ hnew)
  have hdrained : Adds new s _ := ((adds_advanceVersion s request.model request.target
    .current).trans (adds_stampVersion _ request.model request.target)).trans
      (adds_weakened _ (weakened_markDraining _ candidate.model candidate.version request.scope))
  split
  · exact hdrained.trans (adds_advanceVersion _ _ _ _)
  · exact hdrained.trans (adds_advanceVersion _ _ _ _)

theorem adds_stopRollout {new : IdKind → UInt64 → Prop} (s : EngineState) (rollout : RolloutId)
    {rollback : RollbackId} (generation : RollbackGeneration)
    (hnew : new .rollback rollback.raw) :
    Adds new s (s.stopRollout rollout rollback generation) := by
  unfold stopRollout
  split
  · exact .refl s
  · dsimp only
    refine Adds.trans ?_ (adds_modifyRollout _ rollout fun _ => ⟨rfl, rfl, rfl, Or.inr hnew⟩)
    refine Adds.trans ?_ (adds_bumpSequence _)
    split_ifs
    · exact (adds_bumpSequence s).trans
        (adds_modifyRollout _ rollout fun _ => ⟨rfl, rfl, rfl, Or.inl rfl⟩)
    · exact .refl s

theorem rollback_spends (hs : Coherent s) (hstanding : Standing s) (request : RollbackRequest) :
    MaySpend .rollback s (s.rollback request).1 := by
  unfold rollback
  dsimp only
  split
  · exact .refl s
  · split
    · rename_i candidate _ _ _
      have hfence : ∀ new, Adds new s (s.mapAuthority (·.supersedeScope request.scope)) :=
        fun _ => adds_weakened s (weakened_supersedeScope _ _)
      have hchain : Chain {} (Permit.still fun _ => False) s
          (s.mapAuthority (·.supersedeScope request.scope)) := chain_supersedeScope s request.scope
      split
      · rename_i hrefused
        left
        refine (hfence _).trans (adds_of_refused (hchain.coherent hs) (hchain.standing hstanding) ?_)
        simpa using hrefused
      · right
        let spent := IdKind.rollback.only s.nextRollbackId
        have hspent : spent .rollback s.nextRollbackId := ⟨rfl, rfl⟩
        have hgranted : Adds spent s _ := (hfence spent).trans (adds_grantAuthority
          (s.mapAuthority (·.supersedeScope request.scope))
          (g :=
            { model := request.model
              version := request.target
              scope := request.scope
              kind := .exclusive
              rollback := ⟨s.nextRollbackId⟩
              rollbackGeneration := candidate.rollbackGeneration.nextGeneration
              supersedeExisting := true }) ⟨nofun, fun _ => hspent⟩)
        have hsettled := hgranted.trans (adds_settleRollback _ request candidate
          ⟨s.nextRollbackId⟩ candidate.rollbackGeneration.nextGeneration hspent)
        refine Spends.then (spends_rollback _ _ ?_) fun _ => adds_touchScope _ _
        split
        · exact hsettled.trans (adds_stopRollout _ _ _ hspent)
        · exact hsettled
    · exact .refl s

theorem commitAutomaticRollback_spends (s : EngineState) (rollout : RolloutId)
    (plan : RolloutPlan) (record : ModelVersionRecord) :
    Spends .rollback s (s.commitAutomaticRollback rollout plan record) := by
  unfold commitAutomaticRollback
  let spent := IdKind.rollback.only s.nextRollbackId
  have hspent : spent .rollback s.nextRollbackId := ⟨rfl, rfl⟩
  have hfence : Adds spent s (s.mapAuthority (·.supersedeScope plan.rootScope)) :=
    adds_weakened s (weakened_supersedeScope _ _)
  have hgranted : Adds spent s _ := hfence.trans (adds_grantAuthority
    (s.mapAuthority (·.supersedeScope plan.rootScope))
    (g :=
      { model := plan.model
        version := plan.candidate
        scope := plan.rootScope
        kind := .exclusive
        rollback := ⟨s.nextRollbackId⟩
        rollbackGeneration := record.rollbackGeneration.nextGeneration
        supersedeExisting := true
        retentionTarget := plan.rollbackTarget
        retentionGeneration := plan.rollbackTargetGeneration }) ⟨nofun, fun _ => hspent⟩)
  refine Spends.then (Spends.then (spends_rollback _ _ ?_) fun _ => adds_advanceVersion _ _ _ _)
    fun _ => adds_touchScope _ _
  refine Adds.trans (Adds.trans ?_ (adds_recordRollback _ _ _ _ hspent))
    (adds_modifyRollout _ rollout fun _ => ⟨rfl, rfl, rfl, Or.inr hspent⟩)
  split
  · exact hgranted
  · exact (hgranted.trans (adds_advanceVersion _ _ _ _)).trans (adds_stampVersion _ _ _)

/-- What hands out nothing, and what may spend an identity after it. -/
theorem MaySpend.after (h : ∀ new, Adds new s t) (h' : MaySpend kind t u) : MaySpend kind s u := by
  rcases h' with hadds | hspends
  · exact Or.inl ((h _).trans hadds)
  · right
    have hnext := (h fun _ _ => False).next
    refine ⟨?_, ?_, ?_⟩
    · intro k
      rw [hspends.next, hnext]
    · intro hkind
      exact List.Subset.trans (hspends.versions hkind) (h fun _ _ => False).versions
    · intro k
      have hids := hspends.ids k
      rw [hnext] at hids
      exact ((h _).ids k).trans hids

theorem advanceStage_spends (s : EngineState) (request : RolloutProgressRequest) :
    MaySpend .rollback s (s.advanceStage request).1 := by
  unfold advanceStage
  dsimp only
  split
  · exact .refl s
  · rename_i plan hplan
    split
    · exact .refl s
    · split
      · exact .refl s
      · split
        · have hfailed : ∀ new, Adds new s (s.commitFailure request.rollout plan
              (s.evaluateStageAdvance request).reasons false) :=
            fun _ => adds_commitFailure s _ _ _ _
          refine MaySpend.after hfailed ?_
          unfold failCurrentStage
          dsimp only
          split
          · exact .refl _
          · split
            · exact .refl _
            · split
              · exact .refl _
              · split
                · exact .refl _
                · exact Or.inr (commitAutomaticRollback_spends _ _ _ _)
        · exact Or.inl (Adds.of_used
            (adds_commitStage s request.rollout (promoted_of_stored _ hplan)))

/-! ## Plans -/

/-- Building the cohorts takes consecutive identities, one each when all are built. -/
theorem buildCohorts_span (root : ScopeId) (specs : List CohortSpec) (next : UInt64)
    (built : List CohortDefinition) :
    ∃ count ≤ specs.length, (s.buildCohorts c root specs next built).1 = next + UInt64.ofNat count ∧
      ∀ cohorts, (s.buildCohorts c root specs next built).2 = .ok cohorts →
        count = specs.length := by
  induction specs generalizing next built with
  | nil => exact ⟨0, le_rfl, by simp [buildCohorts], fun _ _ => rfl⟩
  | cons spec specs ih =>
    unfold buildCohorts
    split_ifs
    · exact ⟨0, Nat.zero_le _, by simp, by simp⟩
    · exact ⟨0, Nat.zero_le _, by simp, by simp⟩
    · exact ⟨0, Nat.zero_le _, by simp, by simp⟩
    · split
      · exact ⟨1, by simp, by simp, by simp⟩
      · exact ⟨1, by simp, by simp, by simp⟩
    · split
      · exact ⟨1, by simp, by simp, by simp⟩
      · obtain ⟨count, hcount, hnext, hall⟩ := ih (next + 1) (built ++ [_])
        refine ⟨count + 1, by simpa using hcount, ?_, ?_⟩
        · rw [hnext, UInt64.ofNat_add, UInt64.add_assoc, UInt64.add_comm 1]
          rfl
        · intro cohorts hcohorts
          rw [hall cohorts hcohorts, List.length_cons]

theorem buildStages_span (cohorts : List CohortDefinition) (specs : List StageSpec)
    (next : UInt64) (used : List CohortId) (built : List StageDefinition) :
    ∃ count ≤ specs.length,
      (buildStages c cohorts specs next used built).1 = next + UInt64.ofNat count ∧
      ∀ stages, (buildStages c cohorts specs next used built).2 = .ok stages →
        count = specs.length := by
  induction specs generalizing next used built with
  | nil => exact ⟨0, le_rfl, by simp [buildStages], fun _ _ => rfl⟩
  | cons spec specs ih =>
    unfold buildStages
    split_ifs
    · exact ⟨0, Nat.zero_le _, by simp, by simp⟩
    · exact ⟨0, Nat.zero_le _, by simp, by simp⟩
    · split
      · exact ⟨1, by simp, by simp, by simp⟩
      · obtain ⟨count, hcount, hnext, hall⟩ := ih (next + 1) _ (built ++ [_])
        refine ⟨count + 1, by simpa using hcount, ?_, ?_⟩
        · rw [hnext, UInt64.ofNat_add, UInt64.add_assoc, UInt64.add_comm 1]
          rfl
        · intro stages hstages
          rw [hall stages hstages, List.length_cons]

/-- No allocator that the creation of a plan reads is at its end. -/
def RolloutPlanRequest.HasRoom (s : EngineState) (request : RolloutPlanRequest) : Prop :=
  s.nextRolloutId.toNat + 1 < 2 ^ 64 ∧
    s.nextStageId.toNat + request.stages.length < 2 ^ 64 ∧
    s.nextCohortId.toNat + request.cohorts.length < 2 ^ 64

theorem le_add_ofNat {next : UInt64} {count length : ℕ} (hcount : count ≤ length)
    (hroom : next.toNat + length < 2 ^ 64) :
    (next + UInt64.ofNat count).toNat = next.toNat + count := by
  rw [UInt64.toNat_add, UInt64.toNat_ofNat', Nat.mod_eq_of_lt (by omega : count < 2 ^ 64),
    Nat.mod_eq_of_lt (by omega)]

theorem le_of_counted {next : UInt64} {count length : ℕ} (hcount : count ≤ length)
    (hroom : next.toNat + length < 2 ^ 64) : next ≤ next + UInt64.ofNat count := by
  rw [UInt64.le_iff_toNat_le, le_add_ofNat hcount hroom]
  omega

/-- Consecutive identities lie between the allocator before and after them. -/
theorem consecutive_between {next raw : UInt64} {length : ℕ}
    (hroom : next.toNat + length < 2 ^ 64)
    (hraw : raw ∈ (List.range length).map fun k => next + UInt64.ofNat k) :
    next ≤ raw ∧ raw < next + UInt64.ofNat length := by
  obtain ⟨k, hk, rfl⟩ := List.mem_map.mp hraw
  rw [List.mem_range] at hk
  rw [UInt64.le_iff_toNat_le, UInt64.lt_iff_toNat_lt, le_add_ofNat hk.le hroom,
    le_add_ofNat le_rfl hroom]
  omega

/-- What the creation of a plan holds that was not held: the plan, its stages and cohorts. -/
def RolloutPlanRequest.takes (s : EngineState) (request : RolloutPlanRequest) :
    IdKind → UInt64 → Prop
  | .rollout, raw => raw = s.nextRolloutId
  | .stage, raw =>
    raw ∈ (List.range request.stages.length).map fun k => s.nextStageId + UInt64.ofNat k
  | .cohort, raw =>
    raw ∈ (List.range request.cohorts.length).map fun k => s.nextCohortId + UInt64.ofNat k
  | _, _ => False

theorem cohorts_taken {request : RolloutPlanRequest} {after : UInt64}
    {cohorts : List CohortDefinition}
    (h : s.bumpSequence.buildCohorts c request.rootScope request.cohorts
      s.bumpSequence.nextCohortId [] = (after, .ok cohorts)) :
    ∀ cohort ∈ cohorts, request.takes s .cohort cohort.id.raw := by
  intro cohort hcohort
  have hids : cohorts.map (fun cohort => cohort.id.raw) =
      (List.range request.cohorts.length).map fun k => s.nextCohortId + UInt64.ofNat k :=
    buildCohorts_ids h
  rw [RolloutPlanRequest.takes, ← hids]
  exact List.mem_map_of_mem hcohort

theorem stages_taken {request : RolloutPlanRequest} {cohorts : List CohortDefinition}
    {after : UInt64} {stages : List StageDefinition}
    (h : buildStages c cohorts request.stages s.bumpSequence.nextStageId [] [] =
      (after, .ok stages)) :
    ∀ stage ∈ stages, request.takes s .stage stage.id.raw := by
  intro stage hstage
  have hids : stages.map (fun stage => stage.id.raw) =
      (List.range request.stages.length).map fun k => s.nextStageId + UInt64.ofNat k :=
    buildStages_ids h
  rw [RolloutPlanRequest.takes, ← hids]
  exact List.mem_map_of_mem hstage

/-- The installation of a plan adds the plan and what it is made of. -/
theorem adds_installPlan {new : IdKind → UInt64 → Prop} (s : EngineState)
    (request : RolloutPlanRequest) {plan : RolloutPlan} (hkey : new .rollout plan.id.raw)
    (hstages : ∀ stage ∈ plan.stages, new .stage stage.id.raw)
    (hcohorts : ∀ cohort ∈ plan.cohorts, new .cohort cohort.id.raw)
    (hpromotion : plan.promotion.valid = true → new .promotion plan.promotion.raw)
    (hrollback : plan.lastRollback.valid = false) :
    Adds new s { s.installPlan request plan with nextRolloutId := s.nextRolloutId } := by
  have hrecorded : Adds new s _ := (adds_bumpSequence s).trans
    (adds_modifyVersion _ request.model request.candidate
      (f := fun record =>
        { record with
          rollout := plan.id
          rolloutGeneration := plan.generation
          updatedSequence := s.bumpSequence.sequence })
      fun _ => gains_of_same rfl rfl rfl)
  exact hrecorded.trans (adds_insertPlan _ hkey hstages hcohorts hpromotion hrollback)

/-- A refusal on the way keeps the identities spent until then. -/
theorem issues_of_refused {nextCohort nextStage : UInt64} (hcohort : s.nextCohortId ≤ nextCohort)
    (hstage : s.nextStageId ≤ nextStage) :
    identities.Issues s
      { s.bumpSequence with nextCohortId := nextCohort, nextStageId := nextStage } := by
  refine (Adds.refl s).issued rfl (fun k => ?_) fun _ _ => False.elim
  cases k with
  | cohort => exact hcohort
  | stage => exact hstage
  | _ => exact le_rfl

/-- The allocators move past what a request takes. -/
theorem issues_of_taken {request : RolloutPlanRequest} (hroom : request.HasRoom s)
    (h : Adds (request.takes s) s t) :
    identities.Issues s
      { t with
        nextCohortId := s.nextCohortId + UInt64.ofNat request.cohorts.length
        nextStageId := s.nextStageId + UInt64.ofNat request.stages.length
        nextRolloutId := s.nextRolloutId + 1 } := by
  obtain ⟨hrollouts, hstageRoom, hcohortRoom⟩ := hroom
  refine h.issued rfl (fun k => ?_) fun k raw htaken => ?_
  · cases k with
    | rollout => exact (lt_add_one_of_room hrollouts).le
    | stage => exact le_of_counted le_rfl hstageRoom
    | cohort => exact le_of_counted le_rfl hcohortRoom
    | _ => exact (congrFun h.next _).ge
  · cases k with
    | rollout =>
      obtain rfl : raw = s.nextRolloutId := htaken
      exact ⟨le_rfl, lt_add_one_of_room hrollouts⟩
    | stage => exact consecutive_between hstageRoom htaken
    | cohort => exact consecutive_between hcohortRoom htaken
    | _ => exact htaken.elim

/-- A plan whose parts have the identities a request takes is installed under the next one. -/
theorem installPlan_issues (request : RolloutPlanRequest) (hroom : request.HasRoom s)
    {plan : RolloutPlan} (hid : plan.id = ⟨s.nextRolloutId⟩)
    (hstages : ∀ stage ∈ plan.stages, request.takes s .stage stage.id.raw)
    (hcohorts : ∀ cohort ∈ plan.cohorts, request.takes s .cohort cohort.id.raw)
    (hpromotion : plan.promotion.valid = true → plan.promotion.raw ∈ s.ids .promotion)
    (hrollback : plan.lastRollback.valid = false) :
    identities.Issues s
      (EngineState.installPlan
        { s.bumpSequence with
          nextCohortId := s.nextCohortId + UInt64.ofNat request.cohorts.length
          nextStageId := s.nextStageId + UInt64.ofNat request.stages.length } request plan) := by
  have hadds : Adds (request.takes s) s _ := Adds.of_used <|
    (adds_bumpSequence s).trans (adds_installPlan s.bumpSequence request
      (Or.inl (congrArg Ident.raw hid)) (fun stage hstage => Or.inl (hstages stage hstage))
      (fun cohort hcohort => Or.inl (hcohorts cohort hcohort))
      (fun hvalid => Or.inr (hpromotion hvalid)) hrollback)
  have hissues := issues_of_taken hroom hadds
  have hnext : s.nextRolloutId = plan.id.raw := by rw [hid]
  rw [hnext] at hissues
  exact hissues

/-- The creation of a plan takes consecutive identities for its cohorts and stages, also
where it is refused on the way. -/
theorem createRollout_issues (request : RolloutPlanRequest) (hroom : request.HasRoom s) :
    identities.Issues s (s.createRollout c request).1 := by
  obtain ⟨hrollouts, hstages, hcohorts⟩ := hroom
  unfold createRollout
  cases hrecord : s.versionOf request.model request.candidate with
  | none => exact .refl s
  | some record =>
    dsimp only
    split
    · exact .refl s
    · obtain ⟨cohortCount, hcohortCount, hnextCohort, hallCohorts⟩ := buildCohorts_span (c := c)
        (s := s.bumpSequence) request.rootScope request.cohorts s.bumpSequence.nextCohortId []
      have hcohortLe := le_of_counted hcohortCount hcohorts
      split
      · rename_i nextCohort refusal hbuilt
        rw [hbuilt] at hnextCohort
        obtain rfl : nextCohort = s.nextCohortId + UInt64.ofNat cohortCount := hnextCohort
        exact issues_of_refused hcohortLe le_rfl
      · rename_i nextCohort cohorts hbuilt
        rw [hbuilt] at hnextCohort hallCohorts
        obtain rfl : nextCohort = s.nextCohortId + UInt64.ofNat cohortCount := hnextCohort
        obtain ⟨stageCount, hstageCount, hnextStage, hallStages⟩ := buildStages_span (c := c)
          cohorts request.stages s.bumpSequence.nextStageId [] []
        have hstageLe := le_of_counted hstageCount hstages
        split
        · rename_i nextStage refusal hstaged
          rw [hstaged] at hnextStage
          obtain rfl : nextStage = s.nextStageId + UInt64.ofNat stageCount := hnextStage
          exact issues_of_refused hcohortLe hstageLe
        · rename_i nextStage stages hstaged
          rw [hstaged] at hnextStage hallStages
          obtain rfl : nextStage = s.nextStageId + UInt64.ofNat stageCount := hnextStage
          split
          · exact issues_of_refused hcohortLe hstageLe
          · rw [hallCohorts cohorts rfl, hallStages stages rfl]
            refine installPlan_issues request ⟨hrollouts, hstages, hcohorts⟩ rfl ?_ ?_ ?_ rfl
            · exact stages_taken hstaged
            · exact cohorts_taken hbuilt
            · intro hvalid
              refine List.mem_append_left _ (List.mem_append_left _ (List.mem_append_right _ ?_))
              exact List.mem_map_of_mem (List.mem_filter.mpr
                ⟨List.mem_map_of_mem (OrdMap.mem_values_iff.mpr ⟨_, hrecord⟩), hvalid⟩)

/-- The creation of a plan registers no version. -/
theorem createRollout_versions (s : EngineState) (request : RolloutPlanRequest) :
    (s.createRollout c request).1.versions.keys ⊆ s.versions.keys := by
  unfold createRollout
  split
  · exact List.Subset.refl _
  · split
    · exact List.Subset.refl _
    · dsimp only
      split
      · exact List.Subset.refl _
      · split
        · exact List.Subset.refl _
        · split
          · exact List.Subset.refl _
          · exact fun key hkey => OrdMap.mem_keys_modify.mp hkey

/-! ## Steps -/

/-- The kind of which an operation may hand out one identity. -/
def Operation.spends : Operation → Option IdKind
  | .registerModel _ _ _ => some .model
  | .registerVersion _ => some .version
  | .publishCompatibility _ _ _ _ _ => some .compatibility
  | .publishEvidence _ => some .evidence
  | .promote _ => some .promotion
  | .rollback _ => some .rollback
  | .advanceStage _ => some .rollback
  | .beginAttempt _ => some .attempt
  | _ => none

/-- No allocator that an operation reads is at its end. -/
def Operation.HasRoom (s : EngineState) : Operation → Prop
  | .createRollout request => request.HasRoom s
  | op => ∀ kind ∈ op.spends, (s.nextId kind).toNat + 1 < 2 ^ 64

theorem step_spends (hs : Coherent s) (hstanding : Standing s) {op : Operation}
    (hkind : op.spends = some kind) : MaySpend kind s (step c s op) := by
  cases op with
  | registerModel name family provenance =>
    obtain rfl := Option.some.inj hkind
    exact registerModel_spends s name family provenance
  | registerVersion request =>
    obtain rfl := Option.some.inj hkind
    exact (registerVersion_spends s request).1
  | publishCompatibility version environment outcome detail provenance =>
    obtain rfl := Option.some.inj hkind
    exact publishCompatibility_spends s version environment outcome detail provenance
  | publishEvidence record =>
    obtain rfl := Option.some.inj hkind
    exact publishEvidence_spends s record
  | promote request =>
    obtain rfl := Option.some.inj hkind
    exact promote_spends hs hstanding request
  | rollback request =>
    obtain rfl := Option.some.inj hkind
    exact rollback_spends hs hstanding request
  | advanceStage request =>
    obtain rfl := Option.some.inj hkind
    exact advanceStage_spends s request
  | beginAttempt request =>
    obtain rfl := Option.some.inj hkind
    exact beginAttempt_spends s request
  | _ => cases hkind

/-- What a step without an import holds was held before it, or the step handed it out. -/
theorem step_issues (hs : Coherent s) (hstanding : Standing s) {op : Operation}
    (hop : op.isImport = false) (hroom : op.HasRoom s) : identities.Issues s (step c s op) := by
  cases hkind : op.spends with
  | some kind =>
    refine (step_spends hs hstanding hkind).issues ?_
    cases op with
    | createRollout request => cases hkind
    | _ => exact hroom kind hkind
  | none =>
    cases op with
    | createRollout request => exact createRollout_issues request hroom
    | importDurableState d newEpoch => cases hop
    | registerModel name family provenance => cases hkind
    | registerVersion request => cases hkind
    | publishCompatibility version environment outcome detail provenance => cases hkind
    | publishEvidence record => cases hkind
    | promote request => cases hkind
    | rollback request => cases hkind
    | advanceStage request => cases hkind
    | beginAttempt request => cases hkind
    | _ => exact (step_adds rfl).issues

/-- Only the registration of a version makes a version, and it makes one. -/
theorem step_versionKeys (hs : Coherent s) (hstanding : Standing s) {op : Operation}
    (hop : op.isImport = false) :
    (step c s op).versions.keys ⊆ s.versions.keys ∨
      ∃ model, ∀ key ∈ (step c s op).versions.keys,
        key ∈ s.versions.keys ∨ key = versionKey model ⟨s.nextVersionId⟩ := by
  cases hissues : op.issues with
  | false =>
    have hadds : Adds (fun _ _ => False) s (step c s op) := step_adds hissues
    exact Or.inl hadds.versions
  | true =>
    cases op with
    | registerVersion request => exact Or.inr ⟨_, (registerVersion_spends s request).2⟩
    | createRollout request => exact Or.inl (createRollout_versions s request)
    | importDurableState d newEpoch => cases hop
    | registerModel name family provenance =>
      exact Or.inl ((step_spends hs hstanding rfl).versions nofun)
    | publishCompatibility version environment outcome detail provenance =>
      exact Or.inl ((step_spends hs hstanding rfl).versions nofun)
    | publishEvidence record => exact Or.inl ((step_spends hs hstanding rfl).versions nofun)
    | promote request => exact Or.inl ((step_spends hs hstanding rfl).versions nofun)
    | rollback request => exact Or.inl ((step_spends hs hstanding rfl).versions nofun)
    | advanceStage request => exact Or.inl ((step_spends hs hstanding rfl).versions nofun)
    | beginAttempt request => exact Or.inl ((step_spends hs hstanding rfl).versions nofun)
    | _ => cases hissues

end LifecycleFabric
