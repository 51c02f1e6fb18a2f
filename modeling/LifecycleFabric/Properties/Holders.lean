import LifecycleFabric.Engine.Reachable

/-!
# Who holds a scope

No scope ever has two exclusive holders, and a retired version never holds one again.
-/

namespace LifecycleFabric

open EngineState AuthorityTable

variable {c : EngineConfig} {p : Permit} {s s' : EngineState}

/-! ## Bindings by scope -/

namespace AuthorityTable

theorem mem_allBindings_iff {table : AuthorityTable} {binding : AuthorityBinding} :
    binding ∈ table.allBindings ↔ ∃ scope, binding ∈ table.bindingsFor scope := by
  simp only [allBindings, List.mem_flatten, OrdMap.mem_values_iff]
  constructor
  · rintro ⟨list, ⟨key, hkey⟩, hbinding⟩
    refine ⟨⟨key⟩, ?_⟩
    rw [bindingsFor, hkey]
    exact hbinding
  · rintro ⟨scope, hbinding⟩
    cases hlist : table.bindings.get? scope.raw with
    | none =>
      rw [bindingsFor, hlist] at hbinding
      cases hbinding
    | some list =>
      rw [bindingsFor, hlist] at hbinding
      exact ⟨list, ⟨scope.raw, hlist⟩, hbinding⟩

/-- When every binding is stored under its scope, the bindings of a scope are those the
whole table has for it. -/
theorem filter_allBindings {table : AuthorityTable}
    (h : ∀ scope, ∀ binding ∈ table.bindingsFor scope, binding.scope = scope) (scope : ScopeId) :
    table.allBindings.filter (fun binding => decide (binding.scope = scope)) =
      table.bindingsFor scope := by
  obtain ⟨⟨entries, hsorted⟩, maxBindings⟩ := table
  have hscopes : ∀ e ∈ entries, ∀ binding ∈ e.2, binding.scope = ⟨e.1⟩ := by
    intro e he binding hbinding
    refine h ⟨e.1⟩ binding ?_
    have hget : OrdMap.get? ⟨entries, hsorted⟩ e.1 = some e.2 := OrdMap.get?_of_mem he
    rw [bindingsFor, hget]
    exact hbinding
  clear h
  simp only [allBindings, OrdMap.values, bindingsFor, OrdMap.get?]
  induction entries with
  | nil => rfl
  | cons e entries ih =>
    have hrest := ih (List.pairwise_cons.mp hsorted).2
      fun e' he' => hscopes e' (List.mem_cons_of_mem e he')
    have hhead := hscopes e List.mem_cons_self
    simp only [List.map_cons, List.flatten_cons, List.filter_append, hrest, List.find?_cons]
    by_cases hkey : e.1 = scope.raw
    · -- The keys are distinct, so the scope occurs only in this entry.
      have hkept : e.2.filter (fun binding => decide (binding.scope = scope)) = e.2 := by
        refine List.filter_eq_self.mpr ?_
        intro binding hbinding
        rw [hhead binding hbinding, hkey, decide_eq_true_eq]
      have hlater : entries.find? (fun e' => decide (e'.1 = scope.raw)) = none := by
        refine List.find?_eq_none.mpr ?_
        intro e' he'
        have hlt := (List.pairwise_cons.mp hsorted).1 e' he'
        simpa [← hkey] using hlt.ne'
      simp [hkey, hkept, hlater]
    · have hdropped : e.2.filter (fun binding => decide (binding.scope = scope)) = [] := by
        refine List.filter_eq_nil_iff.mpr ?_
        intro binding hbinding
        rw [hhead binding hbinding, decide_eq_true_eq]
        rintro rfl
        exact hkey rfl
      simp [hkey, hdropped]

end AuthorityTable

/-! ## The single exclusive holder -/

/-- Every scope has at most one live exclusive binding. -/
def SingleHolder (s : EngineState) : Prop := ∀ scope, s.authority.exclusives scope ≤ 1

theorem Effect.singleHolder (h : Effect c p s s') (hs : SingleHolder s) : SingleHolder s' := by
  cases h with
  | weaken table htable =>
    intro scope
    exact (htable.exclusives_le scope).trans (hs scope)
  | append mid binding hmid hroom _ _ =>
    intro scope
    have hmidScope := (hmid.exclusives_le scope).trans (hs scope)
    change (mid.push binding).exclusives scope ≤ 1
    rw [exclusives_push]
    split_ifs with hnew
    · obtain ⟨rfl, hexclusive⟩ := hnew
      have hkind : binding.kind = .exclusive := by
        rw [AuthorityBinding.isLiveExclusive_iff] at hexclusive
        exact hexclusive.2
      rw [hroom hkind (hs binding.scope)]
    · exact hmidScope
  | _ => exact hs

/-- The bindings of a recovered scope are all live, and at most one is exclusive. -/
theorem singleHolder_applyDurableState {d : DurableState} {newEpoch : CoordinatorEpoch}
    {recovered : DurableState.Recovered} (h : d.Sound c s newEpoch recovered) :
    SingleHolder (s.applyDurableState d newEpoch recovered) := by
  intro scope
  obtain ⟨heq, hall⟩ := restored_authority h.authority
  change recovered.authority.exclusives scope ≤ 1
  rw [heq, exclusives, bindingsFor]
  cases hlist : d.authority.get? scope.raw with
  | none => exact Nat.zero_le 1
  | some list =>
    have hscope := hall scope.raw list hlist
    simp only [restorableScope, Bool.and_eq_true, decide_eq_true_eq] at hscope
    rw [Option.getD_some]
    refine le_trans ?_ hscope.2
    rw [← List.countP_eq_length_filter]
    refine List.countP_mono_left ?_
    intro binding _ hexclusive
    simp only [AuthorityBinding.isLiveExclusive, Bool.and_eq_true] at hexclusive
    exact hexclusive.2

theorem StepCase.singleHolder {op : Operation} (h : StepCase c s op s') (hs : SingleHolder s) :
    SingleHolder s' := by
  cases h with
  | aside h =>
    intro scope
    rw [h.authority]
    exact hs scope
  | chain p _ _ _ h =>
    exact Runs.chain_preserves (P := SingleHolder) (fun _ _ hab => hab.singleHolder) h hs
  | recover d newEpoch recovered h => exact singleHolder_applyDurableState h

theorem EngineState.ReachableState.singleHolder (h : ReachableState c s) : SingleHolder s := by
  have hboth : Coherent s ∧ SingleHolder s :=
    Runs.reachable_invariant (P := fun s => Coherent s ∧ SingleHolder s) (step c)
      (fun s op hs => ⟨(step_cases hs.1 op).coherent hs.1, (step_cases hs.1 op).singleHolder hs.2⟩)
      ⟨coherent_init c, fun _ => Nat.zero_le 1⟩ h
  exact hboth.2

/-- After any operations on a constructed engine, every scope has at most one binding
that is exclusive and not superseded. -/
theorem exclusive_holder_unique (c : EngineConfig) (ops : List Operation) (scope : ScopeId) :
    ((runOps c (init c) ops).authority.allBindings.filter fun binding =>
      decide (binding.scope = scope ∧ binding.kind = .exclusive ∧ binding.superseded = false)).length
        ≤ 1 := by
  have hreachable : ReachableState c (runOps c (init c) ops) := ⟨ops, rfl⟩
  have hsplit : (runOps c (init c) ops).authority.allBindings.filter (fun binding =>
      decide (binding.scope = scope ∧ binding.kind = .exclusive ∧ binding.superseded = false)) =
      ((runOps c (init c) ops).authority.bindingsFor scope).filter
        AuthorityBinding.isLiveExclusive := by
    rw [← filter_allBindings hreachable.coherent.authority scope, List.filter_filter]
    refine List.filter_congr ?_
    intro binding _
    rw [Bool.eq_iff_iff]
    simp only [AuthorityBinding.isLiveExclusive, AuthorityBinding.live, Bool.and_eq_true,
      decide_eq_true_eq, Bool.not_eq_true']
    tauto
  rw [hsplit, ← List.countP_eq_length_filter]
  exact hreachable.singleHolder scope

/-! ## Retirement is final -/

namespace EngineState

/-- A version is registered and retired. -/
def RetiredIn (s : EngineState) (model : ModelId) (version : ModelVersionId) : Prop :=
  ∃ record, s.versionOf model version = some record ∧ record.retired = true

/-- No binding of a retired version is live. -/
def RetiredHoldNothing (s : EngineState) : Prop :=
  ∀ model version, s.RetiredIn model version → ∀ scope, ∀ b ∈ s.authority.bindingsFor scope,
    b.ofVersion model version = true → b.live = false

end EngineState

/-- No effect revives a retired version. -/
theorem Effect.retired_stays (h : Effect c p s s') {model : ModelId} {version : ModelVersionId}
    (hretired : s.RetiredIn model version) : s'.RetiredIn model version := by
  obtain ⟨record, hrecord, hretired⟩ := hretired
  cases h with
  | editVersion model' version' f hf =>
    refine ⟨_, by rw [versionOf_modifyVersion, hrecord]; rfl, ?_⟩
    split_ifs with hsame
    · obtain ⟨rfl, rfl⟩ := hsame
      exact (hf record hrecord).same.2.2.1.mpr hretired
    · exact hretired
  | retire model' version' _ _ =>
    refine ⟨_, by rw [advanceVersion, versionOf_modifyVersion, hrecord]; rfl, ?_⟩
    split_ifs
    · change (record.advanceLifecycleTo .retired).1.retired = true
      rcases record.advanceLifecycleTo_cases .retired with ⟨_, hstate⟩ | ⟨_, hsame⟩
      · simp [ModelVersionRecord.retired, hstate]
      · rwa [hsame]
    · exact hretired
  | _ => exact ⟨record, hrecord, hretired⟩

/-- An effect retires only what holds nothing, and grants only to what is not retired. -/
theorem Effect.retiredHoldNothing (h : Effect c p s s') (hs : s.RetiredHoldNothing) :
    s'.RetiredHoldNothing := by
  cases h with
  | editVersion model' version' f hf =>
    rintro model version ⟨record, hrecord, hretired⟩
    rw [versionOf_modifyVersion, Option.map_eq_some_iff] at hrecord
    obtain ⟨before, hbefore, rfl⟩ := hrecord
    refine hs model version ⟨before, hbefore, ?_⟩
    split_ifs at hretired with hsame
    · obtain ⟨rfl, rfl⟩ := hsame
      exact (hf before hbefore).same.2.2.1.mp hretired
    · exact hretired
  | retire model' version' _ hfree =>
    rintro model version ⟨record, hrecord, hretired⟩
    rw [advanceVersion, versionOf_modifyVersion, Option.map_eq_some_iff] at hrecord
    obtain ⟨before, hbefore, rfl⟩ := hrecord
    split_ifs at hretired with hsame
    · obtain ⟨rfl, rfl⟩ := hsame
      exact hfree
    · exact hs model version ⟨before, hbefore, hretired⟩
  | weaken table htable =>
    intro model version hretired scope b hb hown
    exact htable.idle (hs model version hretired scope) hb hown
  | append mid binding hmid _ hbinding _ =>
    rintro model version ⟨record, hrecord, hretired⟩ scope b hb hown
    rcases mem_bindingsFor_push.mp hb with hb | ⟨_, rfl⟩
    · exact hmid.idle (hs model version ⟨record, hrecord, hretired⟩ scope) hb hown
    · -- The appended binding is of a version that is not retired.
      obtain ⟨stored, hstored, hactive⟩ := hbinding.version
      rw [AuthorityBinding.ofVersion_iff] at hown
      rw [hown.1, hown.2] at hstored
      obtain rfl := Option.some.inj (hstored.symm.trans hrecord)
      rw [hretired] at hactive
      cases hactive
  | _ => exact hs

theorem Aside.retired_stays (h : Aside c s s') {model : ModelId} {version : ModelVersionId}
    (hretired : s.RetiredIn model version) : s'.RetiredIn model version := by
  obtain ⟨record, hrecord, hretired⟩ := hretired
  obtain ⟨record', hrecord', hedits⟩ := h.versions _ record hrecord
  exact ⟨record', hrecord', (VersionEdit.same_of_chain hedits).2.2.1.mpr hretired⟩

theorem Aside.retiredHoldNothing (h : Aside c s s') (hs : s.RetiredHoldNothing) :
    s'.RetiredHoldNothing := by
  rintro model version ⟨record, hrecord, hretired⟩ scope b hb hown
  rw [h.authority] at hb
  cases hstored : s.versionOf model version with
  | none =>
    rw [(h.newVersions _ record hrecord hstored).1] at hretired
    cases hretired
  | some stored =>
    obtain ⟨record', hrecord', hedits⟩ := h.versions _ stored hstored
    obtain rfl := Option.some.inj (hrecord'.symm.trans hrecord)
    have hbefore := (VersionEdit.same_of_chain hedits).2.2.1.mp hretired
    exact hs model version ⟨stored, hstored, hbefore⟩ scope b hb hown

/-- Recovery refuses the bindings of retired versions. -/
theorem retiredHoldNothing_applyDurableState {d : DurableState} {newEpoch : CoordinatorEpoch}
    {recovered : DurableState.Recovered} (h : d.Sound c s newEpoch recovered) :
    (s.applyDurableState d newEpoch recovered).RetiredHoldNothing := by
  rintro model version ⟨record, hrecord, hretired⟩ scope b hb hown
  have hmem := (restored_binding h.authority hb).2.2
  obtain ⟨stored, hstored, hactive, _⟩ := (h.bindings b hmem).version
  rw [AuthorityBinding.ofVersion_iff] at hown
  rw [hown.1, hown.2] at hstored
  obtain rfl := Option.some.inj (hstored.symm.trans hrecord)
  rw [hretired] at hactive
  cases hactive

theorem StepCase.retiredHoldNothing {op : Operation} (h : StepCase c s op s')
    (hs : s.RetiredHoldNothing) : s'.RetiredHoldNothing := by
  cases h with
  | aside h => exact h.retiredHoldNothing hs
  | chain p _ _ _ h =>
    exact Runs.chain_preserves (P := RetiredHoldNothing)
      (fun _ _ hab => hab.retiredHoldNothing) h hs
  | recover d newEpoch recovered h => exact retiredHoldNothing_applyDurableState h

/-- Only an import can bring a retired version back. -/
theorem StepCase.retired_stays {op : Operation} (h : StepCase c s op s')
    (hop : op.isImport = false) {model : ModelId} {version : ModelVersionId}
    (hretired : s.RetiredIn model version) : s'.RetiredIn model version := by
  cases h with
  | aside h => exact h.retired_stays hretired
  | chain p _ _ _ h =>
    exact Runs.chain_preserves (P := fun t => t.RetiredIn model version)
      (fun _ _ hab => hab.retired_stays) h hretired
  | recover d newEpoch recovered h => cases hop

theorem EngineState.ReachableState.retiredHoldNothing (h : ReachableState c s) :
    s.RetiredHoldNothing := by
  have hboth : Coherent s ∧ s.RetiredHoldNothing :=
    Runs.reachable_invariant (P := fun s => Coherent s ∧ s.RetiredHoldNothing) (step c)
      (fun s op hs => ⟨(step_cases hs.1 op).coherent hs.1,
        (step_cases hs.1 op).retiredHoldNothing hs.2⟩)
      ⟨coherent_init c, fun _ _ ⟨_, hrecord, _⟩ => by cases hrecord⟩ h
  exact hboth.2

/-- Once a version is retired it stays retired and holds nothing, whatever operations
other than an import follow. -/
theorem retirement_final (hs : ReachableState c s) {model : ModelId} {version : ModelVersionId}
    {record : ModelVersionRecord} (hrecord : s.versionOf model version = some record)
    (hretired : record.state = .retired) {ops : List Operation}
    (hops : ∀ op ∈ ops, op.isImport = false) :
    (∃ record', (runOps c s ops).versionOf model version = some record' ∧
        record'.state = .retired) ∧
      ∀ binding ∈ (runOps c s ops).authority.allBindings,
        binding.model = model → binding.version = version → binding.superseded = true := by
  have hstays : ReachableState c (runOps c s ops) ∧ (runOps c s ops).RetiredIn model version := by
    refine ⟨Runs.Reachable.run (step c) hs ops, ?_⟩
    have hin : s.RetiredIn model version := ⟨record, hrecord, by
      simp [ModelVersionRecord.retired, hretired]⟩
    clear hrecord hretired
    induction ops generalizing s with
    | nil => exact hin
    | cons op ops ih =>
      have hstep : (step c s op).RetiredIn model version :=
        (step_cases hs.coherent op).retired_stays (hops op List.mem_cons_self) hin
      exact ih (Runs.Reachable.run (step c) hs [op])
        (fun op' hop' => hops op' (List.mem_cons_of_mem op hop')) hstep
  obtain ⟨hreachable, hin⟩ := hstays
  have hidle := hreachable.retiredHoldNothing model version hin
  obtain ⟨record', hrecord', hretired'⟩ := hin
  refine ⟨⟨record', hrecord', by simpa [ModelVersionRecord.retired] using hretired'⟩, ?_⟩
  intro binding hbinding hmodel hversion
  obtain ⟨scope, hscope⟩ := mem_allBindings_iff.mp hbinding
  have hdead := hidle scope binding hscope (by simp [AuthorityBinding.ofVersion, hmodel, hversion])
  simpa [AuthorityBinding.live] using hdead

/-- One version is registered and retired. -/
def retiringOps : List Operation :=
  [.registerModel [109] [] .synthetic,
    .registerVersion
      { model := ⟨1⟩, label := [49]
        artifact := { setId := ⟨1⟩, generation := ⟨1⟩, digest := [97] } },
    .retire { model := ⟨1⟩, version := ⟨1⟩ }]

/-- A promotion of the retired version. -/
def promoteRetired : Operation := .promote { model := ⟨1⟩, candidate := ⟨1⟩, scope := ⟨1⟩ }

theorem retirement_final_witness :
    (∃ record', (runOps {} (runOps {} (init {}) retiringOps) [promoteRetired]).versionOf ⟨1⟩ ⟨1⟩ =
        some record' ∧ record'.state = .retired) ∧
      ∀ binding ∈ (runOps {} (runOps {} (init {}) retiringOps) [promoteRetired]).authority.allBindings,
        binding.model = ⟨1⟩ → binding.version = ⟨1⟩ → binding.superseded = true := by
  have hretired : ((runOps {} (init {}) retiringOps).versionOf ⟨1⟩ ⟨1⟩).map
      ModelVersionRecord.state = some .retired := by decide +kernel
  obtain ⟨record, hrecord, hstate⟩ := Option.map_eq_some_iff.mp hretired
  exact retirement_final ⟨retiringOps, rfl⟩ hrecord hstate (by decide)

end LifecycleFabric
