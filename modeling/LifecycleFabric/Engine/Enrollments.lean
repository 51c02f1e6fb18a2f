import LifecycleFabric.Engine.Frames
import LifecycleFabric.Engine.Spending

/-!
# What writes the registry

Models, their names, the labels and the index of versions, the scope tree and the compatibility
facts are each written by one registration or publication, and by imports. No operation changes
which version a record is of, its label or its predecessor.
-/

namespace LifecycleFabric

open EngineState Runs

variable {c : EngineConfig} {p : Permit} {s s' : EngineState}

/-! ## Who may write -/

/-- Whether an operation may register a model. -/
def Operation.namesModels : Operation → Bool
  | .registerModel _ _ _ | .importDurableState _ _ => true
  | _ => false

/-- Whether an operation may register a version. -/
def Operation.labelsVersions : Operation → Bool
  | .registerVersion _ | .importDurableState _ _ => true
  | _ => false

/-- Whether an operation may register a scope. -/
def Operation.registersScopes : Operation → Bool
  | .registerScope _ | .importDurableState _ _ => true
  | _ => false

/-- Whether an operation may publish a compatibility fact. -/
def Operation.publishesFacts : Operation → Bool
  | .publishCompatibility _ _ _ _ _ | .importDurableState _ _ => true
  | _ => false

/-- A scope tree with some generations advanced. -/
def ScopeRegistry.Touched : ScopeRegistry → ScopeRegistry → Prop :=
  Relation.ReflTransGen fun r r' => ∃ id, r' = r.touch id

theorem ScopeRegistry.Touched.refl (r : ScopeRegistry) : r.Touched r := Relation.ReflTransGen.refl

/-- A registry of facts with some facts dropped. -/
structure CompatibilityRegistry.Drops (r r' : CompatibilityRegistry) : Prop where
  bound : r'.maxFacts = r.maxFacts
  size : r'.facts.size ≤ r.facts.size
  facts : ∀ key fact, r'.facts.get? key = some fact → r.facts.get? key = some fact

/-- What a step of an operation leaves of the registry. -/
structure Enrolled (op : Operation) (s s' : EngineState) : Prop where
  models : op.namesModels = false → s'.models = s.models ∧ s'.modelNames = s.modelNames
  versions : op.labelsVersions = false →
    s'.versionLabels = s.versionLabels ∧ s'.versionIndex = s.versionIndex
  scopes : op.registersScopes = false → s.scopes.Touched s'.scopes
  facts : op.publishesFacts = false → s.compatibility.Drops s'.compatibility

theorem CompatibilityRegistry.Drops.refl (r : CompatibilityRegistry) : r.Drops r :=
  ⟨rfl, le_rfl, fun _ _ h => h⟩

theorem CompatibilityRegistry.Drops.trans {r r' r'' : CompatibilityRegistry} (h : r.Drops r')
    (h' : r'.Drops r'') : r.Drops r'' :=
  ⟨h'.bound.trans h.bound, h'.size.trans h.size,
    fun key fact hfact => h.facts key fact (h'.facts key fact hfact)⟩

theorem drops_invalidateVersion (r : CompatibilityRegistry) (version : ModelVersionId) :
    r.Drops (r.invalidateVersion version) := by
  refine ⟨rfl, List.length_filterMap_le _ _, ?_⟩
  intro key fact hfact
  rw [CompatibilityRegistry.invalidateVersion, OrdMap.get?_filter] at hfact
  exact (Option.filter_eq_some_iff.mp hfact).1

/-! ## Chains -/

theorem Chain.enrolled (h : Chain c p s s') (op : Operation) : Enrolled op s s' := by
  have hall : (s'.models = s.models ∧ s'.modelNames = s.modelNames ∧
      s'.versionLabels = s.versionLabels ∧ s'.versionIndex = s.versionIndex) ∧
        s.scopes.Touched s'.scopes ∧ s.compatibility.Drops s'.compatibility := by
    refine Runs.chain_preserves (P := fun t => (t.models = s.models ∧
      t.modelNames = s.modelNames ∧ t.versionLabels = s.versionLabels ∧
        t.versionIndex = s.versionIndex) ∧
          s.scopes.Touched t.scopes ∧ s.compatibility.Drops t.compatibility) ?_ h
      ⟨⟨rfl, rfl, rfl, rfl⟩, .refl _, .refl _⟩
    rintro a b hab ⟨hsame, hscopes, hfacts⟩
    cases hab with
    | touch scope => exact ⟨hsame, hscopes.tail ⟨scope, rfl⟩, hfacts⟩
    | withdrawFacts version =>
      exact ⟨hsame, hscopes, hfacts.trans (drops_invalidateVersion _ version)⟩
    | _ => exact ⟨hsame, hscopes, hfacts⟩
  obtain ⟨⟨hmodels, hnames, hlabels, hindex⟩, hscopes, hfacts⟩ := hall
  exact ⟨fun _ => ⟨hmodels, hnames⟩, fun _ => ⟨hlabels, hindex⟩, fun _ => hscopes, fun _ => hfacts⟩

/-! ## Loops -/

/-- The four tables of names and records of models are the same. -/
structure SameRegistry (s s' : EngineState) : Prop where
  models : s'.models = s.models
  modelNames : s'.modelNames = s.modelNames
  versionLabels : s'.versionLabels = s.versionLabels
  versionIndex : s'.versionIndex = s.versionIndex
  scopes : s'.scopes = s.scopes
  compatibility : s'.compatibility = s.compatibility

theorem SameRegistry.enrolled (h : SameRegistry s s') (op : Operation) : Enrolled op s s' where
  models _ := ⟨h.models, h.modelNames⟩
  versions _ := ⟨h.versionLabels, h.versionIndex⟩
  scopes _ := by
    rw [h.scopes]
    exact .refl _
  facts _ := by
    rw [h.compatibility]
    exact .refl _

theorem sameRegistry_refl (s : EngineState) : SameRegistry s s := ⟨rfl, rfl, rfl, rfl, rfl, rfl⟩

theorem fenceWorker_sameRegistry (s : EngineState) (worker : WorkerId) (boot : WorkerBootId)
    (epoch : CoordinatorEpoch) (reason : Text) :
    SameRegistry s (s.fenceWorker worker boot epoch reason).1 := by
  unfold fenceWorker
  split
  · exact sameRegistry_refl s
  · split_ifs
    · exact sameRegistry_refl s
    · exact sameRegistry_refl s
    · exact sameRegistry_refl s
    · dsimp only
      rw [settleFenced_eq]
      exact ⟨rfl, rfl, rfl, rfl, rfl, rfl⟩

theorem invalidateVolatileState_sameRegistry (s : EngineState) (cause : Text) :
    SameRegistry s (s.invalidateVolatileState cause) := by
  unfold invalidateVolatileState
  dsimp only
  rw [stampEntered_eq]
  exact ⟨rfl, rfl, rfl, rfl, rfl, rfl⟩

theorem installPlan_sameRegistry (s : EngineState) (request : RolloutPlanRequest)
    (plan : RolloutPlan) : SameRegistry s (s.installPlan request plan) := by
  unfold installPlan
  exact ⟨rfl, rfl, rfl, rfl, rfl, rfl⟩

theorem createRollout_sameRegistry (s : EngineState) (request : RolloutPlanRequest) :
    SameRegistry s (s.createRollout c request).1 := by
  unfold createRollout
  split
  · exact sameRegistry_refl s
  · split
    · exact sameRegistry_refl s
    · dsimp only
      split
      · exact ⟨rfl, rfl, rfl, rfl, rfl, rfl⟩
      · split
        · exact ⟨rfl, rfl, rfl, rfl, rfl, rfl⟩
        · split
          · exact ⟨rfl, rfl, rfl, rfl, rfl, rfl⟩
          · obtain ⟨hmodels, hnames, hlabels, hindex, hscopes, hfacts⟩ :=
              installPlan_sameRegistry _ request _
            exact ⟨hmodels, hnames, hlabels, hindex, hscopes, hfacts⟩

/-! ## Steps -/

/-- Every operation leaves of the registry what it may not write. -/
theorem step_enrolled (hs : Coherent s) (op : Operation) : Enrolled op s (step c s op) := by
  cases op with
  | fenceWorker worker boot epoch reason =>
    exact (fenceWorker_sameRegistry s worker boot epoch reason).enrolled _
  | createRollout request => exact (createRollout_sameRegistry s request).enrolled _
  | invalidateVolatileState cause => exact (invalidateVolatileState_sameRegistry s cause).enrolled _
  | importDurableState d newEpoch =>
    exact ⟨fun h => Bool.noConfusion h, fun h => Bool.noConfusion h,
      fun h => Bool.noConfusion h, fun h => Bool.noConfusion h⟩
  | registerScope path =>
    exact ⟨fun _ => ⟨rfl, rfl⟩, fun _ => ⟨rfl, rfl⟩, fun h => Bool.noConfusion h, fun _ => .refl _⟩
  | registerModel name family provenance =>
    simp only [step, perform, registerModel]
    repeat' split
    all_goals
      exact ⟨fun h => Bool.noConfusion h, fun _ => ⟨rfl, rfl⟩, fun _ => .refl _, fun _ => .refl _⟩
  | registerVersion request =>
    simp only [step, perform, registerVersion]
    repeat' split
    all_goals
      exact ⟨fun _ => ⟨rfl, rfl⟩, fun h => Bool.noConfusion h, fun _ => .refl _, fun _ => .refl _⟩
  | publishCompatibility version environment outcome detail provenance =>
    simp only [step, perform, publishCompatibility]
    repeat' split
    all_goals
      exact ⟨fun _ => ⟨rfl, rfl⟩, fun _ => ⟨rfl, rfl⟩, fun _ => .refl _, fun h => Bool.noConfusion h⟩
  | publishEvidence record =>
    refine SameRegistry.enrolled ?_ _
    simp only [step, perform, publishEvidence]
    repeat' split
    all_goals exact ⟨rfl, rfl, rfl, rfl, rfl, rfl⟩
  | expirePublisherEvidence boot =>
    refine SameRegistry.enrolled ?_ _
    simp only [step, perform, expirePublisherEvidence]
    split
    all_goals exact ⟨rfl, rfl, rfl, rfl, rfl, rfl⟩
  | setWorkerLiveness worker connected =>
    refine SameRegistry.enrolled ?_ _
    simp only [step, perform, setWorkerLiveness]
    repeat' split
    all_goals exact ⟨rfl, rfl, rfl, rfl, rfl, rfl⟩
  | setPolicy policy =>
    refine SameRegistry.enrolled ?_ _
    simp only [step, perform, setPolicy]
    repeat' split
    all_goals exact ⟨rfl, rfl, rfl, rfl, rfl, rfl⟩
  | setScopePolicy refinement =>
    refine SameRegistry.enrolled ?_ _
    simp only [step, perform, setScopePolicy]
    repeat' split
    all_goals exact ⟨rfl, rfl, rfl, rfl, rfl, rfl⟩
  | advanceEpoch expectedCurrent =>
    refine SameRegistry.enrolled ?_ _
    simp only [step, perform, advanceEpoch]
    repeat' split
    all_goals exact ⟨rfl, rfl, rfl, rfl, rfl, rfl⟩
  | registerWorker registration =>
    refine SameRegistry.enrolled ?_ _
    simp only [step, perform, registerWorker]
    repeat' split
    all_goals exact ⟨rfl, rfl, rfl, rfl, rfl, rfl⟩
  | beginAttempt request =>
    refine SameRegistry.enrolled ?_ _
    simp only [step, perform, beginAttempt]
    repeat' split
    all_goals exact ⟨rfl, rfl, rfl, rfl, rfl, rfl⟩
  | completeAttempt completion =>
    refine SameRegistry.enrolled ?_ _
    simp only [step, perform, completeAttempt]
    repeat' split
    all_goals exact ⟨rfl, rfl, rfl, rfl, rfl, rfl⟩
  | reconcileAttempt attempt sideEffectObserved epoch detail =>
    refine SameRegistry.enrolled ?_ _
    simp only [step, perform, reconcileAttempt]
    repeat' split
    all_goals exact ⟨rfl, rfl, rfl, rfl, rfl, rfl⟩
  | reviseVersion request => exact (reviseVersion_progresses (c := c) s request).chain.enrolled _
  | promote request => exact (promote_progresses (c := c) hs request False.elim).chain.enrolled _
  | beginRollout request =>
    cases hplan : s.rolloutOf request.rollout with
    | none =>
      have hstep : step c s (.beginRollout request) = s := by
        simp [step, perform, beginRollout, hplan]
      rw [hstep]
      exact (sameRegistry_refl s).enrolled _
    | some plan => exact (beginRollout_progresses (c := c) hs request hplan).chain.enrolled _
  | advanceStage request =>
    cases hplan : s.rolloutOf request.rollout with
    | none =>
      have hstep : step c s (.advanceStage request) = s := by
        simp [step, perform, advanceStage, hplan]
      rw [hstep]
      exact (sameRegistry_refl s).enrolled _
    | some plan =>
      exact (advanceStage_progresses (c := c) hs request hplan False.elim).chain.enrolled _
  | failStage request => exact (failStage_progresses (c := c) s request).chain.enrolled _
  | supersedeRollout rollout generation epoch detail =>
    exact (supersedeRollout_progresses (c := c) s rollout generation epoch detail
      False.elim).chain.enrolled _
  | rollback request => exact (rollback_progresses (c := c) hs request False.elim).chain.enrolled _
  | retire request => exact (retire_progresses (c := c) hs request).chain.enrolled _
  | revalidate request => exact (revalidate_progresses (c := c) s request).chain.enrolled _

/-! ## Versions -/

/-- A record of the same version, with the label and the predecessor that it was registered
with. -/
structure ModelVersionRecord.SameOrigin (before after : ModelVersionRecord) : Prop where
  model : after.model = before.model
  version : after.version = before.version
  label : after.label = before.label
  predecessor : after.predecessor = before.predecessor

theorem ModelVersionRecord.SameOrigin.refl (record : ModelVersionRecord) :
    record.SameOrigin record := ⟨rfl, rfl, rfl, rfl⟩

theorem ModelVersionRecord.SameOrigin.trans {before mid after : ModelVersionRecord}
    (h : before.SameOrigin mid) (h' : mid.SameOrigin after) : before.SameOrigin after :=
  ⟨h'.model.trans h.model, h'.version.trans h.version, h'.label.trans h.label,
    h'.predecessor.trans h.predecessor⟩

theorem sameOrigin_of_transitions {before after : ModelVersionRecord}
    (h : Relation.ReflTransGen ModelVersionRecord.Transitioned before after) :
    before.SameOrigin after := by
  obtain ⟨state, generation, rfl⟩ := ModelVersionRecord.same_of_transitions h
  exact ⟨rfl, rfl, rfl, rfl⟩

theorem VersionEdit.sameOrigin {before after : ModelVersionRecord}
    (h : VersionEdit c before after) :
    before.SameOrigin after := by
  cases h with
  | annotate h => exact ⟨h.model, h.version, h.label, h.predecessor⟩
  | move h _ => exact sameOrigin_of_transitions h
  | revise request updated _ => exact ⟨rfl, rfl, rfl, rfl⟩

theorem sameOrigin_of_edits {before after : ModelVersionRecord}
    (h : Relation.ReflTransGen (VersionEdit c) before after) : before.SameOrigin after := by
  induction h with
  | refl => exact .refl before
  | tail _ hedit ih => exact ih.trans hedit.sameOrigin

/-- A version that is stored stays stored. -/
theorem Chain.version_origin (h : Chain c p s s') {key : VersionKey} {record : ModelVersionRecord}
    (hrecord : s.versions.get? key = some record) :
    ∃ record', s'.versions.get? key = some record' ∧ record.SameOrigin record' := by
  refine Runs.chain_preserves (P := fun t => ∃ record', t.versions.get? key = some record' ∧
    record.SameOrigin record') ?_ h ⟨record, hrecord, .refl record⟩
  rintro a b hab ⟨before, hbefore, hsame⟩
  cases hab with
  | editVersion model version f hf =>
    refine ⟨_, by rw [modifyVersion, OrdMap.get?_modify, hbefore]; rfl, ?_⟩
    split_ifs with hkey
    · subst hkey
      exact hsame.trans (hf before hbefore).sameOrigin
    · exact hsame
  | retire model version _ _ =>
    refine ⟨_, by rw [advanceVersion, modifyVersion, OrdMap.get?_modify, hbefore]; rfl, ?_⟩
    split_ifs
    · exact hsame.trans (sameOrigin_of_transitions (before.advanceLifecycleTo_chain _))
    · exact hsame
  | _ => exact ⟨before, hbefore, hsame⟩

theorem step_version_origin (hs : Coherent s) {op : Operation} (hop : op.isImport = false)
    {key : VersionKey} {record : ModelVersionRecord} (hrecord : s.versions.get? key = some record) :
    ∃ record', (step c s op).versions.get? key = some record' ∧ record.SameOrigin record' := by
  have hcase := step_cases (c := c) hs op
  generalize step c s op = t at hcase ⊢
  cases hcase with
  | aside h =>
    obtain ⟨record', hrecord', hedits⟩ := h.versions key record hrecord
    exact ⟨record', hrecord', sameOrigin_of_edits hedits⟩
  | chain p _ _ _ h => exact h.version_origin hrecord
  | recover => cases hop

/-- Only a registration makes a version. -/
theorem step_versions_subset (hs : Coherent s) (hstanding : Standing s) {op : Operation}
    (hop : op.labelsVersions = false) : (step c s op).versions.keys ⊆ s.versions.keys := by
  cases hissues : op.issues with
  | false =>
    have hadds : Adds (fun _ _ => False) s (step c s op) := step_adds hissues
    exact hadds.versions
  | true =>
    cases op with
    | createRollout request => exact createRollout_versions s request
    | registerModel name family provenance => exact (step_spends hs hstanding rfl).versions nofun
    | publishCompatibility version environment outcome detail provenance =>
      exact (step_spends hs hstanding rfl).versions nofun
    | publishEvidence record => exact (step_spends hs hstanding rfl).versions nofun
    | promote request => exact (step_spends hs hstanding rfl).versions nofun
    | rollback request => exact (step_spends hs hstanding rfl).versions nofun
    | advanceStage request => exact (step_spends hs hstanding rfl).versions nofun
    | beginAttempt request => exact (step_spends hs hstanding rfl).versions nofun
    | registerVersion request => cases hop
    | importDurableState d newEpoch => cases hop
    | _ => cases hissues

/-- An operation that registers no version leaves the versions that there are. -/
theorem step_versions_origin (hs : Coherent s) (hstanding : Standing s) {op : Operation}
    (hop : op.labelsVersions = false) (key : VersionKey) (record : ModelVersionRecord)
    (hrecord : (step c s op).versions.get? key = some record) :
    ∃ before, s.versions.get? key = some before ∧ before.SameOrigin record := by
  have himport : op.isImport = false := by
    cases op with
    | importDurableState d newEpoch => cases hop
    | _ => rfl
  have hkey := step_versions_subset hs hstanding hop (OrdMap.mem_keys_iff.mpr ⟨record, hrecord⟩)
  obtain ⟨before, hbefore⟩ := OrdMap.mem_keys_iff.mp hkey
  obtain ⟨after, hafter, hsame⟩ := step_version_origin (c := c) hs himport hbefore
  obtain rfl := Option.some.inj (hafter.symm.trans hrecord)
  exact ⟨before, hbefore, hsame⟩

/-! ## Registrations -/

/-- A model that is registered has an unused name, and is stored under the next identity. -/
structure EngineState.ModelAdded (c : EngineConfig) (s s' : EngineState) (record : ModelRecord) :
    Prop where
  id : record.id = ⟨s.nextModelId⟩
  unused : s.modelNames.get? record.name = none
  room : s.models.size < c.bounds.maxModels
  names : s'.modelNames = s.modelNames.insertNew record.name record.id
  models : s'.models = s.models.insertNew s.nextModelId record
  versions : s'.versions = s.versions

theorem registerModel_added (s : EngineState) (name family : Text) (provenance : Provenance) :
    (s.registerModel c name family provenance).1 = s ∨
      ∃ record, s.ModelAdded c (s.registerModel c name family provenance).1 record := by
  unfold registerModel
  split_ifs with _ _ hused hfull
  · exact .inl rfl
  · exact .inl rfl
  · exact .inl rfl
  · exact .inl rfl
  · have hunused := OrdMap.contains_eq_false_iff.mp (Bool.eq_false_of_not_eq_true hused)
    exact .inr ⟨_, rfl, hunused, not_le.mp hfull, rfl, rfl, rfl⟩

/-- A version that is registered has an unused label of a stored model, a stored predecessor if
it names one, and the next identity. -/
structure EngineState.VersionAdded (c : EngineConfig) (s s' : EngineState)
    (record : ModelVersionRecord) : Prop where
  version : record.version = ⟨s.nextVersionId⟩
  model : s.models.contains record.model.raw = true
  unused : s.versionLabels.get? (toLex (record.model.raw, record.label)) = none
  room : s.versionCount record.model < c.bounds.maxVersionsPerModel
  predecessor : record.predecessor.valid = true →
    ∃ parent, s.versionOf record.model record.predecessor = some parent
  labels : s'.versionLabels =
    s.versionLabels.insertNew (toLex (record.model.raw, record.label)) record.version
  index : s'.versionIndex =
    s.versionIndex.insertNew s.nextVersionId (versionKey record.model record.version)
  versions : s'.versions = s.versions.insertNew (versionKey record.model record.version) record

theorem registerVersion_added (s : EngineState) (request : RegisterVersionRequest) :
    (s.registerVersion c request).1 = s ∨
      ∃ record, s.VersionAdded c (s.registerVersion c request).1 record := by
  unfold registerVersion
  dsimp only
  split_ifs with hmodel hlabel hartifact hdigest hused hfull
  · exact .inl rfl
  · exact .inl rfl
  · exact .inl rfl
  · exact .inl rfl
  · exact .inl rfl
  · exact .inl rfl
  · split
    · exact .inl rfl
    · rename_i hrefusal
      have hmodel : s.models.contains request.model.raw = true := by simpa using hmodel
      have hunused := OrdMap.contains_eq_false_iff.mp (Bool.eq_false_of_not_eq_true hused)
      right
      exists ({ s with nextVersionId := s.nextVersionId + 1 } : EngineState).bumpSequence.newVersion
        c request ⟨s.nextVersionId⟩
      refine ⟨rfl, hmodel, hunused, not_le.mp hfull, ?_, rfl, rfl, rfl⟩
      · intro hdeclared
        have hdeclared : request.predecessor.valid = true := hdeclared
        unfold predecessorRefusal at hrefusal
        rw [hdeclared] at hrefusal
        cases hparent : s.versionOf request.model request.predecessor with
        | none =>
          rw [hparent] at hrefusal
          cases hrefusal
        | some parent => exact ⟨parent, hparent⟩

end LifecycleFabric
