import LifecycleFabric.Engine.Effect

/-!
# Coherence, and the effects of a grant

The tables of a coherent engine are keyed by what their entries say they are. Every
effect keeps an engine coherent. The shared routines of the composite operations, the
grant of authority first of all, are chains of effects.
-/

namespace LifecycleFabric

open AuthorityTable

/-- Keys agree with the records stored under them. -/
structure Coherent (s : EngineState) : Prop where
  versions : ∀ key record, s.versions.get? key = some record →
    key = versionKey record.model record.version
  rollouts : ∀ key plan, s.rollouts.get? key = some plan → plan.id.raw = key
  authority : ∀ scope, ∀ binding ∈ s.authority.bindingsFor scope, binding.scope = scope

variable {c : EngineConfig} {p : Permit} {s s' : EngineState}

/-! ## Lookups after an update -/

namespace EngineState

theorem versionOf_modifyVersion (s : EngineState) (model model' : ModelId)
    (version version' : ModelVersionId) (f : ModelVersionRecord → ModelVersionRecord) :
    (s.modifyVersion model version f).versionOf model' version' =
      (s.versionOf model' version').map fun record =>
        if model' = model ∧ version' = version then f record else record := by
  simp only [versionOf, modifyVersion, OrdMap.get?_modify, versionKey_inj]

theorem versionOf_bumpSequence (s : EngineState) (model : ModelId) (version : ModelVersionId) :
    s.bumpSequence.versionOf model version = s.versionOf model version := by
  rw [versionOf, bumpSequence_versions, versionOf]

theorem rollouts_modifyRollout (s : EngineState) (rollout : RolloutId)
    (f : RolloutPlan → RolloutPlan) :
    (s.modifyRollout rollout f).rollouts = s.rollouts.modify rollout.raw f := rfl

end EngineState

/-! ## Version edits -/

theorem ModelVersionRecord.Annotated.refl (record : ModelVersionRecord) :
    record.Annotated record := by
  constructor <;> rfl

/-- A chain of transitions keeps everything but the state and its generation. -/
theorem ModelVersionRecord.same_of_transitions {before after : ModelVersionRecord}
    (h : Relation.ReflTransGen ModelVersionRecord.Transitioned before after) :
    ∃ state generation, after = { before with state, lifecycleGeneration := generation } := by
  induction h with
  | refl => exact ⟨before.state, before.lifecycleGeneration, rfl⟩
  | tail _ hstep ih =>
    obtain ⟨_, _, rfl⟩ := ih
    obtain ⟨target, _, rfl⟩ := hstep
    exact ⟨target, _, rfl⟩

/-- An edit keeps whose record it is, and neither retires nor revives it. -/
theorem VersionEdit.same {before after : ModelVersionRecord} (h : VersionEdit c before after) :
    after.model = before.model ∧ after.version = before.version ∧
      (after.retired = true ↔ before.retired = true) ∧
      before.generation ≤ after.generation := by
  cases h with
  | annotate h =>
    refine ⟨h.model, h.version, ?_, h.generation.ge⟩
    simp [ModelVersionRecord.retired, h.state]
  | move h hretired =>
    obtain ⟨state, generation, heq⟩ := ModelVersionRecord.same_of_transitions h
    refine ⟨by rw [heq], by rw [heq], ⟨hretired, ?_⟩, by rw [heq]⟩
    intro hbefore
    -- No transition leaves the retired state.
    rcases Relation.ReflTransGen.cases_head h with rfl | ⟨_, ⟨target, hallowed, _⟩, _⟩
    · exact hbefore
    · simp only [ModelVersionRecord.retired, decide_eq_true_eq] at hbefore
      rw [hbefore, LifecycleState.not_isTransitionAllowed_retired] at hallowed
      cases hallowed
  | revise request updated _ =>
    refine ⟨rfl, rfl, Iff.rfl, Ident.le_nextGeneration _⟩

/-- Advancing towards a state other than the retired one retires nothing. -/
theorem versionEdit_advance (record : ModelVersionRecord) {target : LifecycleState}
    (htarget : target ≠ .retired) :
    VersionEdit c record (record.advanceLifecycleTo target).1 := by
  refine .move (ModelVersionRecord.advanceLifecycleTo_chain record target) ?_
  intro hretired
  rcases ModelVersionRecord.advanceLifecycleTo_cases record target with ⟨_, hstate⟩ | ⟨_, hsame⟩
  · simp only [ModelVersionRecord.retired, hstate, decide_eq_true_eq] at hretired
    exact absurd hretired htarget
  · rwa [hsame] at hretired

/-- A single transition to a state other than the retired one retires nothing. -/
theorem versionEdit_transition (record : ModelVersionRecord) {target : LifecycleState}
    (htarget : target ≠ .retired) : VersionEdit c record (record.transition target).1 := by
  rcases record.transition_cases target with ⟨hallowed, hstep⟩ | ⟨hsame, _⟩
  · rw [hstep]
    refine .move (Relation.ReflTransGen.single ⟨target, hallowed, rfl⟩) ?_
    intro hretired
    simp only [ModelVersionRecord.retired, ModelVersionRecord.moved] at hretired
    exact absurd (of_decide_eq_true hretired) htarget
  · rw [hsame]
    exact .annotate (ModelVersionRecord.Annotated.refl record)

/-! ## Effects keep an engine coherent -/

theorem PlanStep.refl (driven strict : Prop) (plan : RolloutPlan) :
    PlanStep driven strict plan plan where
  id := rfl
  generation := rfl
  model := rfl
  candidate := rfl
  candidateGeneration := rfl
  policyGeneration := rfl
  rootScope := rfl
  stages := rfl
  cohorts := rfl
  previous := rfl
  target := rfl
  live h := h
  history := List.prefix_rfl
  rollback _ _ := rfl
  undriven := Or.inr ⟨rfl, rfl, rfl⟩
  index := Or.inl rfl
  entered := Or.inl rfl
  edits := .refl

theorem PlanStep.trans {driven strict : Prop} {plan plan' plan'' : RolloutPlan}
    (h : PlanStep driven strict plan plan') (h' : PlanStep driven strict plan' plan'') :
    PlanStep driven strict plan plan'' where
  id := h'.id.trans h.id
  generation := h'.generation.trans h.generation
  model := h'.model.trans h.model
  candidate := h'.candidate.trans h.candidate
  candidateGeneration := h'.candidateGeneration.trans h.candidateGeneration
  policyGeneration := h'.policyGeneration.trans h.policyGeneration
  rootScope := h'.rootScope.trans h.rootScope
  stages := h'.stages.trans h.stages
  cohorts := h'.cohorts.trans h.cohorts
  previous := h'.previous.trans h.previous
  target := h'.target.trans h.target
  live hlive := h.live (h'.live hlive)
  history := h.history.trans h'.history
  edits := h.edits.trans h'.edits
  rollback hvalid hmarked := by
    have hfirst := h.rollback hvalid hmarked
    rw [h'.rollback (h.id ▸ hvalid) (hfirst ▸ hmarked), hfirst]
  undriven := by
    rcases h.undriven with hd | ⟨hi, hg, hr⟩
    · exact Or.inl hd
    · rcases h'.undriven with hd | ⟨hi', hg', hr'⟩
      · exact Or.inl hd
      · exact Or.inr ⟨hi'.trans hi, hg'.trans hg, hr'.trans hr⟩
  index := by
    have hstages := h.stages
    have hfirst := h.index
    have hsecond := h'.index
    rw [hstages] at hsecond
    omega
  entered := by
    rcases h'.entered with hsame | hhistory
    · rcases h.entered with hsame' | hhistory
      · exact Or.inl (hsame.trans hsame')
      · refine Or.inr ?_
        intro hempty
        exact hhistory (List.prefix_nil.mp (hempty ▸ h'.history))
    · exact Or.inr hhistory

private theorem coherent_editVersion {model : ModelId} {version : ModelVersionId}
    {f : ModelVersionRecord → ModelVersionRecord} (hs : Coherent s)
    (hf : ∀ record, s.versionOf model version = some record →
      (f record).model = record.model ∧ (f record).version = record.version) :
    Coherent (s.modifyVersion model version f) := by
  refine ⟨?_, hs.rollouts, hs.authority⟩
  intro key record hrecord
  simp only [EngineState.modifyVersion, OrdMap.get?_modify, Option.map_eq_some_iff] at hrecord
  obtain ⟨before, hbefore, rfl⟩ := hrecord
  have hkey := hs.versions key before hbefore
  split_ifs with h
  · obtain ⟨hmodel, hversion⟩ := hf before (by rw [EngineState.versionOf, ← h, hbefore])
    rw [hmodel, hversion]
    exact hkey
  · exact hkey

theorem Effect.coherent (h : Effect c p s s') (hs : Coherent s) : Coherent s' := by
  cases h with
  | editVersion model version f hf =>
    refine coherent_editVersion hs ?_
    intro record hrecord
    have hsame := (hf record hrecord).same
    exact ⟨hsame.1, hsame.2.1⟩
  | retire model version _ _ =>
    refine coherent_editVersion hs ?_
    intro record _
    obtain ⟨_, _, heq⟩ := ModelVersionRecord.same_of_transitions
      (record.advanceLifecycleTo_chain .retired)
    rw [heq]
    exact ⟨rfl, rfl⟩
  | weaken table htable =>
    refine ⟨hs.versions, hs.rollouts, ?_⟩
    intro scope binding hbinding
    obtain ⟨origin, horigin, hweakens⟩ := htable.exists_before hbinding
    rw [hweakens.same.1, hs.authority scope origin horigin]
  | append mid binding hmid _ _ _ =>
    refine ⟨hs.versions, hs.rollouts, ?_⟩
    intro scope b hb
    rcases mem_bindingsFor_push.mp hb with hb | ⟨rfl, rfl⟩
    · obtain ⟨origin, horigin, hweakens⟩ := hmid.exists_before hb
      rw [hweakens.same.1, hs.authority scope origin horigin]
    · rfl
  | editPlan key f _ hf =>
    refine ⟨hs.versions, ?_, hs.authority⟩
    intro key' plan hplan
    simp only [OrdMap.get?_modify, Option.map_eq_some_iff] at hplan
    obtain ⟨before, hbefore, rfl⟩ := hplan
    split_ifs with h
    · rw [(hf before (h ▸ hbefore)).id]
      exact hs.rollouts key' before hbefore
    · exact hs.rollouts key' before hbefore
  | _ => exact ⟨hs.versions, hs.rollouts, hs.authority⟩

theorem Chain.coherent (h : Chain c p s s') (hs : Coherent s) : Coherent s' :=
  Runs.chain_preserves (fun _ _ hab => hab.coherent) h hs

/-- A chain that retires nothing keeps every version, retired or not as it was. -/
theorem Chain.version_stands (h : Chain c p s s') (hp : ¬p.retires) {model : ModelId}
    {version : ModelVersionId} {record : ModelVersionRecord}
    (hrecord : s.versionOf model version = some record) :
    ∃ record', s'.versionOf model version = some record' ∧ record'.retired = record.retired := by
  refine Runs.chain_preserves (P := fun t => ∃ record', t.versionOf model version = some record' ∧
    record'.retired = record.retired) ?_ h ⟨record, hrecord, rfl⟩
  rintro a b hab ⟨before, hbefore, hretired⟩
  cases hab with
  | editVersion model' version' f hf =>
    rw [EngineState.versionOf_modifyVersion, hbefore]
    refine ⟨_, rfl, ?_⟩
    split_ifs with hsame
    · obtain ⟨rfl, rfl⟩ := hsame
      rw [← hretired, Bool.eq_iff_iff]
      exact (hf before hbefore).same.2.2.1
    · exact hretired
  | retire _ _ hretires => exact absurd hretires hp
  | _ => exact ⟨before, hbefore, hretired⟩

/-- A chain keeps every scope registered. -/
theorem Chain.scope_stands (h : Chain c p s s') {scope : ScopeId}
    (hscope : (s.scopes.find scope).isSome = true) : (s'.scopes.find scope).isSome = true := by
  refine Runs.chain_preserves (P := fun t => (t.scopes.find scope).isSome = true) ?_ h hscope
  intro a b hab ha
  cases hab with
  | touch touched =>
    simp only [EngineState.touchScope, ScopeRegistry.find_touch, Option.isSome_map, ha]
  | _ => exact ha

/-- A chain keeps every plan, edited by plan steps; it drives only what it may. -/
theorem Chain.plan_stands (h : Chain c p s s') {key : UInt64} {plan : RolloutPlan}
    (hplan : s.rollouts.get? key = some plan) :
    ∃ plan', s'.rollouts.get? key = some plan' ∧
      PlanStep (p.drives key) p.strict plan plan' := by
  refine Runs.chain_preserves (P := fun t => ∃ plan', t.rollouts.get? key = some plan' ∧
    PlanStep (p.drives key) p.strict plan plan') ?_ h ⟨plan, hplan, PlanStep.refl _ _ plan⟩
  rintro a b hab ⟨mid, hmid, hbefore⟩
  cases hab with
  | editPlan key' f _ hf =>
    refine ⟨_, by rw [OrdMap.get?_modify, hmid]; rfl, ?_⟩
    split_ifs with hkey
    · subst hkey
      exact hbefore.trans (hf mid hmid)
    · exact hbefore
  | _ => exact ⟨mid, hmid, hbefore⟩

/-- A chain creates no plan. -/
theorem Chain.plan_absent (h : Chain c p s s') {key : UInt64} (hnone : s.rollouts.get? key = none) :
    s'.rollouts.get? key = none := by
  refine Runs.chain_preserves (P := fun t => t.rollouts.get? key = none) ?_ h hnone
  intro a b hab ha
  cases hab with
  | editPlan key' f _ _ =>
    rw [OrdMap.get?_modify, ha]
    rfl
  | _ => exact ha

/-! ## Shared routines as chains -/

theorem chain_annotate (s : EngineState) (model : ModelId) (version : ModelVersionId)
    {f : ModelVersionRecord → ModelVersionRecord} (hf : ∀ r, ModelVersionRecord.Annotated r (f r)) :
    Chain c p s (s.modifyVersion model version f) :=
  (Effect.editVersion s model version f fun record _ => .annotate (hf record)).chain

theorem chain_advanceVersion (s : EngineState) (model : ModelId) (version : ModelVersionId)
    (target : LifecycleState) (htarget : target ≠ .retired) :
    Chain c p s (s.advanceVersion model version target) :=
  (Effect.editVersion s model version _ fun record _ => versionEdit_advance record htarget).chain

theorem moves_stampVersion (s : EngineState) (model : ModelId) (version : ModelVersionId) :
    Moves c p s (s.stampVersion model version) :=
  (moves_bump s).then (chain_annotate _ model version fun _ => by constructor <;> rfl)

theorem chain_recordStage (s : EngineState) (model : ModelId) (version : ModelVersionId)
    (stage : RolloutStageId) (generation : RolloutStageGeneration) :
    Chain c p s (s.recordStage model version stage generation) :=
  chain_annotate s model version fun _ => by constructor <;> rfl

theorem chain_recordRollback (s : EngineState) (model : ModelId) (version : ModelVersionId)
    (rollback : RollbackId) (generation : RollbackGeneration) :
    Chain c p s (s.recordRollback model version rollback generation) :=
  chain_annotate s model version fun _ => by constructor <;> rfl

theorem chain_touchScope (s : EngineState) (scope : ScopeId) :
    Chain c p s (s.touchScope scope) :=
  (Effect.touch s scope).chain

theorem chain_mapAuthority (s : EngineState) (f : AuthorityTable → AuthorityTable)
    (hf : ∀ table : AuthorityTable, table.Weakened (f table)) : Chain c p s (s.mapAuthority f) :=
  (Effect.weaken s _ (hf s.authority)).chain

theorem chain_supersedeScope (s : EngineState) (scope : ScopeId) :
    Chain c p s (s.mapAuthority (·.supersedeScope scope)) :=
  chain_mapAuthority s _ fun table => weakened_supersedeScope table scope

theorem chain_supersedeRolloutBindings (s : EngineState) (rollout : RolloutId)
    (generation : RolloutGeneration) :
    Chain c p s (s.mapAuthority (·.supersedeRollout rollout generation)) :=
  chain_mapAuthority s _ fun table => weakened_supersedeRollout table rollout generation

theorem chain_supersedeVersion (s : EngineState) (model : ModelId) (version : ModelVersionId) :
    Chain c p s (s.mapAuthority (·.supersedeVersion model version)) :=
  chain_mapAuthority s _ fun table => weakened_supersedeVersion table model version

theorem chain_markDraining (s : EngineState) (model : ModelId) (version : ModelVersionId)
    (scope : ScopeId) : Chain c p s (s.mapAuthority (·.markDraining model version scope)) :=
  chain_mapAuthority s _ fun table => weakened_markDraining table model version scope

theorem chain_demoteDisplaced (s : EngineState) (model : ModelId) (version : ModelVersionId) :
    Chain c p s (s.demoteDisplaced model version) := by
  unfold EngineState.demoteDisplaced
  split_ifs
  · exact chain_advanceVersion s model version _ (by decide)
  · split
    · split_ifs
      · exact chain_advanceVersion s model version _ (by decide)
      · exact Chain.refl s
    · exact Chain.refl s

/-! ## Granting authority -/

/-- The bindings a grant may append: the requested one, and a retained one. -/
def GrantRequest.Asks (g : GrantRequest) (binding : AuthorityBinding) : Prop :=
  binding.scope = g.scope ∧
    (binding.kind = .rollbackRetained ∨ binding.model = g.model ∧ binding.version = g.version)

/-- The plan a grant names is stored at the generation it is named with, and its candidate is
the version that is granted. -/
def GrantRequest.NamesStored (s : EngineState) (g : GrantRequest) : Prop :=
  ∀ plan, g.plan = some plan → ∃ stored, s.rollouts.get? plan.id.raw = some stored ∧
    stored.generation = plan.generation ∧ stored.model = g.model ∧ stored.candidate = g.version

/-- Putting a binding into the table is refused without effect, or weakens the table to
one that has room and appends the binding there. -/
theorem placeBinding_cases (s : EngineState) (g : GrantRequest) (binding : AuthorityBinding)
    (hkind : g.supersedeExisting = true → binding.kind = .exclusive) :
    (s.placeBinding g binding).2.1.allowed = false ∨
      ∃ mid displaced, s.placeBinding g binding = (mid.push binding, .accepted, displaced) ∧
        s.authority.Weakened mid ∧ malformed binding = none ∧
        (binding.kind = .exclusive → s.authority.exclusives binding.scope ≤ 1 →
          mid.exclusives binding.scope = 0) ∧
        ∀ d, displaced = some d → ∃ origin ∈ s.authority.bindingsFor binding.scope,
          origin.isLiveExclusive = true ∧ d = origin.supersede := by
  unfold EngineState.placeBinding
  split_ifs with hsupersede
  · have hbinding : { binding with kind := .exclusive } = binding := by
      rw [← hkind hsupersede]
    rcases s.authority.replaceExclusive_cases binding with ⟨_, hrefused⟩ |
      ⟨mid, displaced, heq, hweakened, hsound, hroom, hdisplaced⟩
    · exact Or.inl hrefused
    · rw [hbinding] at heq hsound
      exact Or.inr ⟨mid, displaced, heq, hweakened, hsound, fun _ => hroom, hdisplaced⟩
  · rcases s.authority.grant_cases binding
      (s.policy.effective s.scopes g.scope).allowSplitTraffic with ⟨_, hrefused⟩ |
      ⟨heq, hsound, hroom⟩
    · exact Or.inl hrefused
    · refine Or.inr ⟨s.authority, none, ?_, Weakened.refl _, hsound, fun hk _ => hroom hk, ?_⟩
      · simp only [heq]
      · intro d hd
        cases hd

/-- Retaining and demoting a displaced generation is a chain. -/
theorem chain_settleDisplaced (s : EngineState) (g : GrantRequest)
    (scopeGeneration : ScopeGeneration) (displaced : AuthorityBinding)
    {source : AuthorityBinding}
    (hscope : ∃ record, s.scopes.find g.scope = some record ∧ scopeGeneration ≤ record.generation)
    (hsource : source ∈ s.authority.bindingsFor g.scope)
    (hsame : source.model = displaced.model ∧ source.version = displaced.version ∧
      source.modelGeneration = displaced.modelGeneration ∧ source.rollout = displaced.rollout ∧
      source.rolloutGeneration = displaced.rolloutGeneration)
    (hp : ∀ b, g.Asks b → p.grants b) :
    Chain c p s (s.settleDisplaced g scopeGeneration displaced).1 := by
  unfold EngineState.settleDisplaced
  cases hprevious : s.versionOf displaced.model displaced.version with
  | none => exact Chain.refl s
  | some previous =>
    dsimp only
    split_ifs with hretired htarget hrefused
    · exact Chain.refl s
    · exact (moves_bump s).chain
    · rcases grant_cases s.bumpSequence.authority
        (s.bumpSequence.retentionBinding scopeGeneration displaced previous g.scope) true with
        ⟨_, hdenied⟩ | ⟨heq, hsound, _⟩
      · simp only [hdenied, Bool.not_false, not_true_eq_false] at hrefused
      · have hbinding : Grantable s.bumpSequence
            (s.bumpSequence.retentionBinding scopeGeneration displaced previous g.scope) :=
          { live := rfl
            sound := hsound
            scope := hscope
            sequence := ⟨Ident.nextGeneration_valid _, le_rfl⟩
            version := ⟨previous, hprevious, by simpa using hretired⟩
            origin := Or.inr ⟨source, hsource, hsame⟩ }
        have happend := Effect.append (c := c) (p := p) s.bumpSequence
          s.bumpSequence.authority _ (Weakened.refl _) (fun hk => by cases hk) hbinding
          (hp _ ⟨rfl, Or.inl rfl⟩)
        rw [heq]
        exact ((Effect.bump s).chain.tail happend).trans (chain_demoteDisplaced _ _ _)
    · exact chain_demoteDisplaced s _ _

/-- The binding a grant appends is one of a stored version that is not retired. -/
theorem grantable_granted (hs : Coherent s) {g : GrantRequest} (hplan : g.NamesStored s)
    {record : ModelVersionRecord} {scopeGeneration : ScopeGeneration}
    (hrecord : s.versionOf g.model g.version = some record) (hretired : record.retired = false)
    (hscope : ∃ record, s.scopes.find g.scope = some record ∧ scopeGeneration ≤ record.generation)
    (hsequence : s.sequence.valid = true)
    (hsound : malformed (s.grantedBinding g record scopeGeneration) = none) :
    Grantable s (s.grantedBinding g record scopeGeneration) := by
  obtain ⟨hmodel, hversion⟩ := versionKey_inj.mp (hs.versions _ record hrecord)
  have hown : s.versionOf record.model record.version = some record := by
    rw [← hmodel, ← hversion, hrecord]
  refine ⟨rfl, hsound, hscope, ⟨hsequence, le_rfl⟩, ⟨record, hown, hretired⟩, ?_⟩
  refine Or.inl ⟨⟨record, hown, rfl⟩, ?_⟩
  intro hvalid
  cases hg : g.plan with
  | none => simp [EngineState.grantedBinding, hg, Ident.valid] at hvalid
  | some plan =>
    obtain ⟨stored, hstored, hgeneration, hplanned, hcandidate⟩ := hplan plan hg
    refine ⟨stored, ?_, ?_, hplanned.trans hmodel, hcandidate.trans hversion⟩
    · simpa [EngineState.grantedBinding, hg] using hstored
    · simpa [EngineState.grantedBinding, hg] using hgeneration

/-- Granting authority for a version that is not retired, in a registered scope, always
advances the sequence, even when the table refuses the binding. -/
theorem grantAuthority_moves (hs : Coherent s) (g : GrantRequest) (hplan : g.NamesStored s)
    (hp : ∀ b, g.Asks b → p.grants b) {record : ModelVersionRecord}
    (hrecord : s.versionOf g.model g.version = some record) (hretired : record.retired = false)
    (hscope : (s.scopes.find g.scope).isSome = true) :
    Moves c p s (s.grantAuthority g).1 := by
  obtain ⟨scopeRecord, hfound⟩ := Option.isSome_iff_exists.mp hscope
  obtain ⟨hmodel, hversion⟩ := versionKey_inj.mp (hs.versions _ record hrecord)
  have hbump := (Chain.refl (c := c) (p := p) s).bump
  unfold EngineState.grantAuthority
  simp only [hrecord, hretired, Bool.false_eq_true, if_false, hfound]
  rcases placeBinding_cases s.bumpSequence g
      (s.bumpSequence.grantedBinding g record scopeRecord.generation)
      (fun h => by simp [EngineState.grantedBinding, h]) with hdenied |
    ⟨mid, displaced, heq, hweakened, hsound, hroom, hdisplaced⟩
  · simp only [hdenied, Bool.not_false, if_true]
    exact moves_bump s
  · have hplaced : ∃ record, s.bumpSequence.scopes.find g.scope = some record ∧
        scopeRecord.generation ≤ record.generation := ⟨scopeRecord, hfound, le_rfl⟩
    have hbinding := grantable_granted (hbump.coherent hs) hplan hrecord hretired hplaced
      (Ident.nextGeneration_valid _) hsound
    have happend := Effect.append (c := c) (p := p) s.bumpSequence mid _ hweakened hroom
      hbinding (hp _ ⟨rfl, Or.inr ⟨hmodel.symm, hversion.symm⟩⟩)
    have hmoved := (moves_bump s).then happend.chain
    rw [heq]
    simp only [Decision.allowed_accepted, Bool.not_true, Bool.false_eq_true, if_false]
    cases displaced with
    | none => exact hmoved.then (chain_touchScope _ _)
    | some displaced =>
      obtain ⟨origin, horigin, _, hd⟩ := hdisplaced displaced rfl
      obtain ⟨source, hsource, hweakens⟩ := hweakened.exists_after horigin
      have hsame := hweakens.same
      have hsettle := hmoved.then (chain_settleDisplaced (c := c) (p := p)
        { s.bumpSequence with authority := mid.push _ } g scopeRecord.generation
        displaced hplaced
        (mem_bindingsFor_push.mpr (Or.inl hsource))
        (by rw [hd]; exact ⟨hsame.2.1, hsame.2.2.1, hsame.2.2.2.1, hsame.2.2.2.2.1,
              hsame.2.2.2.2.2.1⟩) hp)
      dsimp only
      split_ifs
      · exact hmoved.then (chain_touchScope _ _)
      · exact hsettle
      · exact hsettle.then (chain_touchScope _ _)

/-- Granting authority either does nothing or advances the sequence. -/
theorem grantAuthority_progresses (hs : Coherent s) (g : GrantRequest)
    (hplan : g.NamesStored s) (hp : ∀ b, g.Asks b → p.grants b) :
    Progresses c p s (s.grantAuthority g).1 := by
  cases hrecord : s.versionOf g.model g.version with
  | none =>
    simp only [EngineState.grantAuthority, hrecord]
    exact Progresses.refl s
  | some record =>
    cases hretired : record.retired with
    | true =>
      simp only [EngineState.grantAuthority, hrecord, hretired, if_true]
      exact Progresses.refl s
    | false =>
      cases hscope : s.scopes.find g.scope with
      | none =>
        simp only [EngineState.grantAuthority, hrecord, hretired, hscope, Bool.false_eq_true,
          if_false]
        exact Progresses.refl s
      | some scopeRecord =>
        exact (grantAuthority_moves hs g hplan hp hrecord hretired (by rw [hscope]; rfl)).progresses

/-- Granting over a list of scopes is a chain, when what runs after each grant is one. -/
theorem chain_grantOver {grant : ScopeId → GrantRequest}
    {after : ScopeId → EngineState → EngineState} (hno : ∀ key, ¬p.edits key)
    (hafter : ∀ scope s, Chain c p s (after scope s)) {scopes : List ScopeId}
    (hs : Coherent s) (hplan : ∀ scope ∈ scopes, (grant scope).NamesStored s)
    (hp : ∀ scope ∈ scopes, ∀ b, (grant scope).Asks b → p.grants b) :
    Chain c p s (EngineState.grantOver grant after scopes s).1 := by
  induction scopes generalizing s with
  | nil => exact Chain.refl s
  | cons scope scopes ih =>
    have hgrant := (grantAuthority_progresses (c := c) hs (grant scope) (hplan scope List.mem_cons_self)
      (hp scope List.mem_cons_self)).chain
    unfold EngineState.grantOver
    dsimp only
    split_ifs
    · exact hgrant
    · have hstep := hgrant.trans (hafter scope _)
      refine hstep.trans (ih (hstep.coherent hs) ?_ ?_)
      · intro next hnext
        rw [GrantRequest.NamesStored, hstep.rollouts_eq hno]
        exact hplan next (List.mem_cons_of_mem _ hnext)
      · exact fun next hnext => hp next (List.mem_cons_of_mem _ hnext)

end LifecycleFabric
