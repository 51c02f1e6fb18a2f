import LifecycleFabric.Properties.Consistency
import LifecycleFabric.Properties.Recoveries
import LifecycleFabric.Properties.StateFiles

/-!
# Exports pass the checks of a load

A state file is read back only if its sections agree with one another. In every run what the
engine exports agrees: whatever an entry names is in the section that it names it from. So only
the limits of the decoder can stand between an export and the state read back from it.
-/

namespace LifecycleFabric

open EngineState Runs AuthorityTable StateFile ByteCodec

variable {c : EngineConfig} {s : EngineState} {d : DurableState}

/-! ## What the checks say -/

theorem scopeStored_iff {scope : ScopeId} :
    scopeStored d scope = true ↔ scope.raw ≠ 0 ∧ scope.raw.toNat ≤ d.scopes.length :=
  decide_eq_true_iff

/-- A scope is registered when its identity counts up to it. -/
theorem ScopeRegistry.find_isSome_iff {r : ScopeRegistry} {scope : ScopeId} :
    (r.find scope).isSome = true ↔ scope.raw ≠ 0 ∧ scope.raw.toNat ≤ r.records.length := by
  have hvalid : scope.valid = true ↔ scope.raw ≠ 0 := by simp [Ident.valid]
  rw [Option.isSome_iff_exists]
  constructor
  · rintro ⟨record, hfind⟩
    exact ⟨hvalid.mp (find_eq_some_iff.mp hfind).1, find_le_length hfind⟩
  · rintro ⟨hraw, hle⟩
    have hpos := Ident.valid_iff_pos.mp (hvalid.mpr hraw)
    have hindex : scope.raw.toNat - 1 < r.records.length := by omega
    exact ⟨_, find_eq_some_iff.mpr ⟨hvalid.mpr hraw, List.getElem?_eq_getElem hindex⟩⟩

theorem versionAgrees_iff {record : ModelVersionRecord} :
    versionAgrees d record = true ↔ d.models.contains record.model.raw = true ∧
      (record.predecessor.valid = true → record.predecessor ≠ record.version ∧
        ∃ parent, d.versions.get? (versionKey record.model record.predecessor) = some parent ∧
          parent.predecessor ≠ record.version) := by
  unfold versionAgrees
  rw [Bool.and_eq_true]
  refine and_congr_right fun _ => ?_
  cases hvalid : record.predecessor.valid with
  | false => simp
  | true =>
    cases hparent : d.versions.get? (versionKey record.model record.predecessor) with
    | none => simp
    | some parent => simp

theorem rolloutAgrees_iff {binding : AuthorityBinding} :
    rolloutAgrees d binding = true ↔ (binding.rollout.valid = true →
      ∃ plan, d.rollouts.get? binding.rollout.raw = some plan ∧
        plan.generation = binding.rolloutGeneration) := by
  unfold rolloutAgrees
  cases hvalid : binding.rollout.valid with
  | false => simp
  | true =>
    cases hplan : d.rollouts.get? binding.rollout.raw with
    | none => simp
    | some plan => simp

theorem bindingAgrees_iff {binding : AuthorityBinding} :
    bindingAgrees d binding = true ↔
      ∃ record, d.versions.get? (versionKey binding.model binding.version) = some record ∧
        scopeStored d binding.scope = true ∧ rolloutAgrees d binding = true ∧
        record.retired = false ∧ binding.modelGeneration ≤ record.generation := by
  unfold bindingAgrees
  cases hrecord : d.versions.get? (versionKey binding.model binding.version) with
  | none => simp
  | some record => simp [and_assoc]

theorem planAgrees_iff {plan : RolloutPlan} :
    planAgrees d plan = true ↔
      d.versions.contains (versionKey plan.model plan.candidate) = true ∧ plan.stages ≠ [] ∧
        (plan.live = false → plan.currentStageGeneration.valid = true → plan.history ≠ []) ∧
        (∀ cohort ∈ plan.cohorts, ∀ scope ∈ cohort.scopes, scopeStored d scope = true) ∧
        (∀ stage ∈ plan.stages, ∀ id ∈ stage.cohorts,
          ∃ cohort ∈ plan.cohorts, cohort.id = id) ∧
        (plan.live = true → plan.currentStageIndex < plan.stages.length) := by
  have hlive : (plan.stages.length ≤ plan.currentStageIndex → plan.live = false) ↔
      (plan.live = true → plan.currentStageIndex < plan.stages.length) := by
    rw [← Bool.not_eq_true, ← not_lt]
    exact not_imp_not
  unfold planAgrees
  simp only [Bool.and_eq_true, Bool.not_eq_true', List.isEmpty_eq_false_iff, List.all_eq_true,
    List.any_eq_true, decide_eq_true_eq, Bool.and_eq_false_imp, and_assoc, hlive, and_imp]

theorem sectionsAgree_iff :
    sectionsAgree d = true ↔ scopesAgree d = true ∧
      (∀ key record, d.versions.get? key = some record → versionAgrees d record = true) ∧
      (∀ key fact, d.compatibility.get? key = some fact → factAgrees d fact = true) ∧
      (∀ key plan, d.rollouts.get? key = some plan → planAgrees d plan = true) ∧
      (∀ key bindings, d.authority.get? key = some bindings →
        ∀ binding ∈ bindings, bindingAgrees d binding = true) ∧
      (∀ key ∈ d.policyOverrides.keys, scopeStored d ⟨key⟩ = true) ∧
      ∀ record ∈ d.evidence, evidenceAgrees d record = true := by
  unfold sectionsAgree
  simp only [Bool.and_eq_true, List.all_eq_true, OrdMap.mem_values_iff, and_assoc,
    forall_exists_index]
  constructor
  · rintro ⟨hscopes, hversions, hfacts, hplans, hbindings, hrest⟩
    exact ⟨hscopes, fun key record => hversions record key, fun key fact => hfacts fact key,
      fun key plan => hplans plan key, fun key bindings => hbindings bindings key, hrest⟩
  · rintro ⟨hscopes, hversions, hfacts, hplans, hbindings, hrest⟩
    exact ⟨hscopes, fun record key => hversions key record, fun fact key => hfacts key fact,
      fun plan key => hplans key plan, fun bindings key => hbindings key bindings, hrest⟩

/-! ## Exports -/

theorem scopesAgree_export (h : Consistent s) : scopesAgree s.exportDurableState = true := by
  have hsize := h.scopes.size
  have hfilled : s.exportDurableState.scopes ≠ [] := h.scopes.filled
  unfold scopesAgree
  rw [Bool.and_eq_true, decide_eq_true_eq]
  refine ⟨by simpa using hfilled, ?_⟩
  apply List.ext_getElem
  · simp
  · intro i hi _
    rw [List.getElem_map, List.getElem_map, List.getElem_range]
    have hbound : i < s.exportDurableState.scopes.length := by simpa using hi
    have hposition := h.scopes.treeSound.position i _ (List.getElem?_eq_getElem hbound)
    apply UInt64.toNat.inj
    rw [UInt64.toNat_ofNat']
    have hlength : s.exportDurableState.scopes.length = s.scopes.records.length := rfl
    have hroom : i + 1 < 2 ^ 64 := by omega
    calc _ = i + 1 := hposition
      _ = _ := by omega

theorem scopeStored_export {scope : ScopeId} :
    scopeStored s.exportDurableState scope = true ↔ (s.scopes.find scope).isSome = true :=
  scopeStored_iff.trans ScopeRegistry.find_isSome_iff.symm

/-- What is durable of a table are the live bindings of its scopes. -/
theorem mem_durable {table : AuthorityTable} {key : UInt64} {bindings : List AuthorityBinding}
    (h : table.durable.get? key = some bindings) {binding : AuthorityBinding}
    (hbinding : binding ∈ bindings) :
    binding ∈ table.bindingsFor ⟨key⟩ ∧ binding.live = true := by
  rw [AuthorityTable.durable, OrdMap.get?_filterMap] at h
  obtain ⟨all, hall, hlive⟩ := Option.bind_eq_some_iff.mp h
  dsimp only at hlive
  split_ifs at hlive
  obtain rfl := Option.some.inj hlive
  obtain ⟨hmem, hlive⟩ := List.mem_filter.mp hbinding
  refine ⟨?_, hlive⟩
  rw [bindingsFor, hall]
  exact hmem

/-- What is durable of a store are records of its buckets, of durable kinds. -/
theorem mem_durable_evidence {store : EvidenceStore} {record : EvidenceRecord}
    (h : record ∈ store.durable) :
    (∃ key, record ∈ store.bucket key) ∧ record.kind.isDurable = true := by
  unfold EvidenceStore.durable EvidenceStore.byGeneration at h
  rw [List.mem_insertionSort, List.mem_filter] at h
  obtain ⟨hmem, hkind⟩ := h
  obtain ⟨bucket, hbucket, hrecord⟩ := List.mem_flatten.mp hmem
  obtain ⟨key, hkey⟩ := OrdMap.mem_values_iff.mp hbucket
  refine ⟨⟨key, ?_⟩, hkind⟩
  rw [EvidenceStore.bucket, hkey]
  exact hrecord

theorem contains_export {model : ModelId} {version : ModelVersionId}
    (h : (s.versionOf model version).isSome = true) :
    s.exportDurableState.versions.contains (versionKey model version) = true := h

/-- What a consistent engine exports agrees. -/
theorem agrees_export (h : Consistent s) (hstanding : Standing s) :
    s.exportDurableState.Agrees where
  sections := by
    rw [sectionsAgree_iff]
    refine ⟨scopesAgree_export h, ?_, ?_, ?_, ?_, ?_, ?_⟩
    · intro key record hrecord
      have hrefers := h.versions key record hrecord
      exact versionAgrees_iff.mpr ⟨hrefers.model, hrefers.predecessor⟩
    · intro key fact hfact
      exact contains_export (h.facts key fact hfact)
    · intro key plan hplan
      have hrefers := h.plans key plan hplan
      rw [planAgrees_iff]
      refine ⟨contains_export hrefers.candidate, hrefers.stages, fun _ => hrefers.history, ?_,
        hrefers.cohorts, hrefers.index⟩
      intro cohort hcohort scope hscope
      exact scopeStored_export.mpr (hrefers.scopes cohort hcohort scope hscope)
    · intro key bindings hbindings binding hbinding
      obtain ⟨hheld, hlive⟩ := mem_durable hbindings hbinding
      have hcites := h.bindings ⟨key⟩ binding hheld
      obtain ⟨record, hrecord, hgeneration, hserves⟩ :=
        (hstanding.bindings ⟨key⟩ binding hheld).served
      exact bindingAgrees_iff.mpr ⟨record, hrecord, scopeStored_export.mpr hcites.scope,
        rolloutAgrees_iff.mpr hcites.rollout, hserves hlive, hgeneration⟩
    · intro key hkey
      exact scopeStored_export.mpr (h.overrides key hkey)
    · intro record hrecord
      obtain ⟨⟨key, hheld⟩, hkind⟩ := mem_durable_evidence hrecord
      unfold evidenceAgrees
      rw [Bool.and_eq_true]
      exact ⟨contains_export (h.evidence key record hheld), hkind⟩
  histories key plan hplan := (h.plans key plan hplan).history

/-! ## Files -/

/-- What the encoder makes of a state is read back as that state unless a record of it is beyond
a limit of the decoder. -/
def DurableState.ReadBack (d : DurableState) : Prop :=
  ∀ (limits : DecodeLimits) (bytes : Bytes), ProperState d → (writePayload d).length < 2 ^ 32 →
    serializeDurableState limits d = .ok bytes →
      (deserializeDurableState limits (some bytes) = .ok d ↔ WithinState limits d)

theorem DurableState.Agrees.readBack (h : d.Agrees)
    (hformat : d.formatVersion = stateFormatVersion) : d.ReadBack := by
  intro limits bytes hproper hcarried hencoded
  obtain ⟨_, hpayload, rfl⟩ := serialize_eq_ok_iff.mp hencoded
  rw [deserialize_fileBytes hproper hformat hpayload hcarried]
  constructor
  · rintro ⟨_, hwithin, _⟩
    exact hwithin
  · intro hwithin
    exact ⟨rfl, hwithin, h.sections⟩

/-! ## Imports -/

theorem find_applyDurableState {newEpoch : CoordinatorEpoch} {recovered : DurableState.Recovered}
    (hsound : d.Sound c s newEpoch recovered) {scope : ScopeId} :
    ((s.applyDurableState d newEpoch recovered).scopes.find scope).isSome = true ↔
      scope.raw ≠ 0 ∧ scope.raw.toNat ≤ d.scopes.length := by
  rw [← (restoredScopes hsound.scopes).1]
  exact ScopeRegistry.find_isSome_iff

theorem isSome_applyDurableState {newEpoch : CoordinatorEpoch}
    {recovered : DurableState.Recovered} {model : ModelId} {version : ModelVersionId}
    (h : d.versions.contains (versionKey model version) = true) :
    ((s.applyDurableState d newEpoch recovered).versionOf model version).isSome = true := h

/-- What a recovery rebuilds of a durable state that agrees is consistent. -/
theorem consistent_applyDurableState {newEpoch : CoordinatorEpoch}
    {recovered : DurableState.Recovered} (hsound : d.Sound c s newEpoch recovered)
    (hagrees : d.Agrees) : Consistent (s.applyDurableState d newEpoch recovered) := by
  obtain ⟨_, hversions, hfacts, hplans, hbindings, hoverrides, hevidence⟩ :=
    sectionsAgree_iff.mp hagrees.sections
  have hscope : ∀ scope : ScopeId, scopeStored d scope = true →
      ((s.applyDurableState d newEpoch recovered).scopes.find scope).isSome = true :=
    fun scope hstored => (find_applyDurableState hsound).mpr (scopeStored_iff.mp hstored)
  constructor
  · exact ScopeRegistry.Shaped.of_restore (r := { maxScopes := c.bounds.maxScopes })
      c.bounds.maxScopes_lt hsound.scopes
  · intro key record hrecord
    obtain ⟨hmodel, hpredecessor⟩ := versionAgrees_iff.mp (hversions key record hrecord)
    exact ⟨hmodel, hpredecessor⟩
  · intro key fact hfact
    have hstored : d.compatibility.get? key = some fact := by
      rw [← restoredFacts hsound.compatibility]
      exact hfact
    exact isSome_applyDurableState (hfacts key fact hstored)
  · intro key plan hplan
    obtain ⟨hcandidate, hstages, _, hscopes, hcohorts, hindex⟩ :=
      planAgrees_iff.mp (hplans key plan hplan)
    refine ⟨isSome_applyDurableState hcandidate, hstages, hagrees.histories key plan hplan, ?_,
      hcohorts, hindex⟩
    intro cohort hcohort scope hmem
    exact hscope scope (hscopes cohort hcohort scope hmem)
  · intro scope binding hbinding
    obtain ⟨hown, _, hmem⟩ := restored_binding hsound.authority hbinding
    obtain ⟨list, hlist, hin⟩ := List.mem_flatten.mp hmem
    obtain ⟨key, hkey⟩ := OrdMap.mem_values_iff.mp hlist
    obtain ⟨record, _, hstored, hrollout, _⟩ :=
      bindingAgrees_iff.mp (hbindings key list hkey binding hin)
    exact ⟨hscope binding.scope hstored, rolloutAgrees_iff.mp hrollout⟩
  · intro key hkey
    have hstored : key ∈ d.policyOverrides.keys := by
      have hsame : recovered.policy.overrides = d.policyOverrides :=
        congrArg PolicySet.overrides (restoredPolicy hsound.policy)
      rw [← hsame]
      exact hkey
    exact hscope ⟨key⟩ (hoverrides key hstored)
  · intro key record hrecord
    have hmem := (EvidenceStore.bucket_restore hsound.evidence key).mem_iff.mp hrecord
    have hagree := hevidence record (List.mem_filter.mp hmem).1
    unfold evidenceAgrees at hagree
    exact isSome_applyDurableState (Bool.and_eq_true_iff.mp hagree).1

/-! ## Runs -/

theorem consistent_init (c : EngineConfig) : Consistent (init c) where
  scopes := ScopeRegistry.Shaped.init c.bounds.maxScopes_lt
  versions key record hrecord := by cases hrecord
  facts key fact hfact := by cases hfact
  plans key plan hplan := by cases hplan
  bindings scope binding hbinding := by cases hbinding
  overrides key hkey := by cases hkey
  evidence key record hrecord := by cases hrecord

theorem Consistent.step (h : Consistent s) (hs : s.HoldsAhead) {op : Operation}
    (htakes : op.TakesAgreed c s) : Consistent (EngineState.step c s op) := by
  cases hop : op.isImport with
  | false =>
    have hcoherent := hs.coherent
    exact
      { scopes := step_shaped hcoherent hop h.scopes
        versions := step_versionRefers hs hop h.versions
        facts := step_factRefers hcoherent hop h.facts
        plans := step_planRefers hcoherent hop h.plans
        bindings := step_cites hcoherent hop h.bindings
        overrides := step_overrides hcoherent hop h.overrides
        evidence := step_evidenceRefers hcoherent hop h.evidence }
  | true =>
    cases op with
    | importDurableState d newEpoch =>
      change Consistent (s.importDurableState c d newEpoch).1
      rcases importDurableState_cases c s d newEpoch with ⟨hsame, _⟩ | ⟨recovered, hsound, heq⟩
      · rwa [hsame]
      · rw [heq]
        exact consistent_applyDurableState hsound
          (htakes recovered (DurableState.validate_ok.mpr hsound))
    | _ => cases hop

/-- As long as no allocator comes to its end and every durable state that is taken in agrees and
has its allocators past what it holds, what the engine would export agrees and is read back from
its file, in every state of a run. -/
theorem exports_agree {ops : List Operation}
    (h : Along (step c) (fun s op => op.HasRoom s ∧ op.TakesAhead c s ∧ op.TakesAgreed c s)
      (init c) ops) :
    Always (step c) (fun s => s.exportDurableState.Agrees ∧ s.exportDurableState.ReadBack)
      (init c) ops := by
  have hkeep : ∀ s op, s.HoldsAhead ∧ Consistent s →
      op.HasRoom s ∧ op.TakesAhead c s ∧ op.TakesAgreed c s →
        (EngineState.step c s op).HoldsAhead ∧ Consistent (EngineState.step c s op) := by
    rintro s op ⟨hahead, hconsistent⟩ ⟨hroom, hallocators, hagreed⟩
    exact ⟨holdsAhead_step hahead hroom hallocators, hconsistent.step hahead hagreed⟩
  intro before hbefore
  obtain ⟨hahead, hconsistent⟩ := always_of_along (step c) hkeep h
    ⟨holdsAhead_init c, consistent_init c⟩ before hbefore
  have hagrees := agrees_export hconsistent hahead.standing
  exact ⟨hagrees, hagrees.readBack rfl⟩

theorem oneVersion_agrees : oneVersion.Agrees where
  sections := by decide +kernel
  histories key plan hplan := by cases hplan

theorem exports_agree_witness :
    Always (step {}) (fun s => s.exportDurableState.Agrees ∧ s.exportDurableState.ReadBack)
      (init {}) [.importDurableState oneVersion ⟨2⟩, secondVersion] := by
  refine exports_agree ⟨⟨nofun, fun _ _ => oneVersion_fresh.below, fun _ _ => oneVersion_agrees⟩,
    ⟨?_, trivial, trivial⟩, trivial⟩
  intro kind hkind
  obtain rfl := Option.some.inj hkind
  decide +kernel

end LifecycleFabric
