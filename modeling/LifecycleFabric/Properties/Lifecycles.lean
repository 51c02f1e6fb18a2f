import LifecycleFabric.Engine.Generations

/-!
# The lifecycle generation of a version

Whatever an operation does to a version, its lifecycle state moves only along the
transition table, and its lifecycle generation counts the transitions. Two observations
with one lifecycle generation therefore agree on the state.
-/

namespace LifecycleFabric

open EngineState

variable {c : EngineConfig} {p : Permit} {s s' : EngineState}
  {before mid after : ModelVersionRecord}

/-! ## Walks along the table -/

/-- A record comes from another along a path of the transition table, and each step of the
path advances the lifecycle generation once. -/
structure Walked (before after : ModelVersionRecord) (path : List LifecycleState) : Prop where
  legal : before.state.LegalPath path
  state : path.getLast?.getD before.state = after.state
  generation : after.lifecycleGeneration =
    Ident.nextGeneration^[path.length] before.lifecycleGeneration

theorem legalPath_append {source : LifecycleState} {path path' : List LifecycleState}
    (h : source.LegalPath path) (h' : (path.getLast?.getD source).LegalPath path') :
    source.LegalPath (path ++ path') := by
  induction path generalizing source with
  | nil => exact h'
  | cons next path ih =>
    obtain ⟨hallowed, hrest⟩ := List.isChain_cons_cons.mp h
    have hlast : (next :: path).getLast?.getD source = path.getLast?.getD next := by
      cases path with
      | nil => rfl
      | cons later path => simp [List.getLast?_cons]
    rw [hlast] at h'
    exact List.isChain_cons_cons.mpr ⟨hallowed, ih hrest h'⟩

theorem getLast?_append_getD (path path' : List LifecycleState) (source : LifecycleState) :
    (path ++ path').getLast?.getD source = path'.getLast?.getD (path.getLast?.getD source) := by
  rw [List.getLast?_append]
  cases path'.getLast? <;> rfl

/-- A record with the same lifecycle, whatever else of it changed. -/
theorem Walked.stay (hstate : after.state = before.state)
    (hgeneration : after.lifecycleGeneration = before.lifecycleGeneration) :
    Walked before after [] where
  legal := List.isChain_singleton _
  state := hstate.symm
  generation := hgeneration

theorem Walked.trans {path path' : List LifecycleState} (h : Walked before mid path)
    (h' : Walked mid after path') : Walked before after (path ++ path') where
  legal := legalPath_append h.legal (by rw [h.state]; exact h'.legal)
  state := by
    rw [getLast?_append_getD, h.state]
    exact h'.state
  generation := by
    rw [h'.generation, h.generation, List.length_append, Nat.add_comm, Function.iterate_add_apply]

theorem walked_of_transitions
    (h : Relation.ReflTransGen ModelVersionRecord.Transitioned before after) :
    ∃ path, Walked before after path := by
  induction h with
  | refl => exact ⟨[], Walked.stay rfl rfl⟩
  | tail _ hstep ih =>
    obtain ⟨path, hpath⟩ := ih
    obtain ⟨target, hallowed, rfl⟩ := hstep
    refine ⟨path ++ [target], hpath.trans ⟨?_, rfl, rfl⟩⟩
    exact List.isChain_cons_cons.mpr ⟨hallowed, List.isChain_singleton _⟩

/-! ## Edits of a version -/

theorem VersionEdit.walked (h : VersionEdit c before after) : ∃ path, Walked before after path := by
  cases h with
  | annotate h => exact ⟨[], Walked.stay h.state h.lifecycleGeneration⟩
  | move h _ => exact walked_of_transitions h
  | revise request updated _ => exact ⟨[], Walked.stay rfl rfl⟩

theorem walked_of_edits (h : Relation.ReflTransGen (VersionEdit c) before after) :
    ∃ path, Walked before after path := by
  induction h with
  | refl => exact ⟨[], Walked.stay rfl rfl⟩
  | tail _ hedit ih =>
    obtain ⟨path, hpath⟩ := ih
    obtain ⟨path', hpath'⟩ := hedit.walked
    exact ⟨path ++ path', hpath.trans hpath'⟩

/-! ## Steps and runs -/

/-- A version is stored, and its record comes from an earlier one along the table. -/
def WalksFrom (before : ModelVersionRecord) (model : ModelId) (version : ModelVersionId)
    (s : EngineState) : Prop :=
  ∃ after, s.versionOf model version = some after ∧ ∃ path, Walked before after path

variable {model : ModelId} {version : ModelVersionId}

/-- An update of one version that walks keeps every version walking. -/
theorem WalksFrom.modify {model' : ModelId} {version' : ModelVersionId}
    {f : ModelVersionRecord → ModelVersionRecord} (h : WalksFrom before model version s)
    (hf : ∀ record, s.versionOf model' version' = some record → ∃ path, Walked record (f record) path) :
    WalksFrom before model version (s.modifyVersion model' version' f) := by
  obtain ⟨mid, hmid, path, hpath⟩ := h
  refine ⟨_, by rw [versionOf_modifyVersion, hmid]; rfl, ?_⟩
  split_ifs with hsame
  · obtain ⟨rfl, rfl⟩ := hsame
    obtain ⟨path', hpath'⟩ := hf mid hmid
    exact ⟨path ++ path', hpath.trans hpath'⟩
  · exact ⟨path, hpath⟩

theorem Effect.walks (h : Effect c p s s') (hs : WalksFrom before model version s) :
    WalksFrom before model version s' := by
  cases h with
  | editVersion model' version' f hf => exact hs.modify fun record hrecord => (hf record hrecord).walked
  | retire model' version' _ _ =>
    exact hs.modify fun record _ => walked_of_transitions (record.advanceLifecycleTo_chain .retired)
  | _ => exact hs

theorem StepCase.walks {op : Operation} (h : StepCase c s op s') (hop : op.isImport = false)
    (hs : WalksFrom before model version s) : WalksFrom before model version s' := by
  cases h with
  | aside h =>
    obtain ⟨mid, hmid, path, hpath⟩ := hs
    obtain ⟨after, hafter, hedits⟩ := h.versions _ mid hmid
    obtain ⟨path', hpath'⟩ := walked_of_edits hedits
    exact ⟨after, hafter, path ++ path', hpath.trans hpath'⟩
  | chain p _ _ _ h => exact Runs.chain_preserves (fun _ _ hab => hab.walks) h hs
  | recover => cases hop

/-- Every run without imports keeps a version, and walks its lifecycle along the table. -/
theorem walks_along (hs : Coherent s) {ops : List Operation}
    (hops : ∀ op ∈ ops, op.isImport = false) {record : ModelVersionRecord}
    (hrecord : s.versionOf model version = some record) :
    WalksFrom record model version (runOps c s ops) := by
  have hboth : Coherent (runOps c s ops) ∧ WalksFrom record model version (runOps c s ops) :=
    Runs.run_preserves (P := fun t => Coherent t ∧ WalksFrom record model version t) (step c)
      (fun t op ht hop => ⟨(step_cases ht.1 op).coherent ht.1,
        (step_cases ht.1 op).walks hop ht.2⟩)
      (Runs.along_of_forall (step c) hops)
      ⟨hs, record, hrecord, [], Walked.stay rfl rfl⟩
  exact hboth.2

/-! ## Counting -/

/-- Short of saturation a generation counts how often it was advanced. -/
theorem toNat_iterate_nextGeneration {tag : IdTag} (a : Ident tag) (n : ℕ)
    (h : ¬(Ident.nextGeneration^[n] a).Saturated) :
    (Ident.nextGeneration^[n] a).raw.toNat = a.raw.toNat + n := by
  induction n with
  | zero => rfl
  | succ n ih =>
    rw [Function.iterate_succ_apply'] at h ⊢
    have hearlier : ¬(Ident.nextGeneration^[n] a).Saturated := by
      intro hsaturated
      rw [Ident.nextGeneration_of_saturated hsaturated] at h
      exact h hsaturated
    have hcount := ih hearlier
    have hnext := Ident.toNat_nextGeneration (Ident.nextGeneration^[n] a)
    rw [Ident.saturated_iff_toNat] at h
    omega

/-- The lifecycle went along a legal path whose steps the lifecycle generation counts. -/
def CountedWalk (before after : ModelVersionRecord) : Prop :=
  ∃ path : List LifecycleState, before.state.LegalPath path ∧
    path.getLast?.getD before.state = after.state ∧
    after.lifecycleGeneration.raw.toNat = before.lifecycleGeneration.raw.toNat + path.length

theorem Walked.counted {path : List LifecycleState} (h : Walked before after path)
    (hbelow : ¬after.lifecycleGeneration.Saturated) : CountedWalk before after := by
  refine ⟨path, h.legal, h.state, ?_⟩
  rw [h.generation] at hbelow ⊢
  exact toNat_iterate_nextGeneration _ _ hbelow

/-- A walk that does not advance the generation does not change the state. -/
theorem CountedWalk.state_eq (h : CountedWalk before after)
    (hsame : after.lifecycleGeneration = before.lifecycleGeneration) :
    after.state = before.state := by
  obtain ⟨path, _, hstate, hcount⟩ := h
  rw [hsame] at hcount
  have hnone : path = [] := List.length_eq_zero_iff.mp (by omega)
  rw [hnone] at hstate
  exact hstate.symm

/-- From any reachable state, a run without imports keeps every version. As long as its
lifecycle generation is short of saturation, the lifecycle of the version goes along legal
transitions, each of which advances the generation by one, and an unchanged generation
means an unchanged state. -/
theorem lifecycle_generation_counts (hs : ReachableState c s) {ops : List Operation}
    (hops : ∀ op ∈ ops, op.isImport = false) {record : ModelVersionRecord}
    (hrecord : s.versionOf model version = some record) :
    ∃ record', (runOps c s ops).versionOf model version = some record' ∧
      (¬record'.lifecycleGeneration.Saturated → CountedWalk record record' ∧
        (record'.lifecycleGeneration = record.lifecycleGeneration →
          record'.state = record.state)) := by
  obtain ⟨record', hrecord', path, hpath⟩ := walks_along hs.coherent hops hrecord
  refine ⟨record', hrecord', ?_⟩
  intro hbelow
  have hcounted := hpath.counted hbelow
  exact ⟨hcounted, hcounted.state_eq⟩

/-- A version is registered. -/
def versionRegistered : List Operation :=
  [.registerModel [109] [] .synthetic,
    .registerVersion
      { model := ⟨1⟩, label := [49]
        artifact := { setId := ⟨1⟩, generation := ⟨1⟩, digest := [97] } }]

/-- Its compatibility is published, it is promoted, and it is revised. -/
def versionServed : List Operation :=
  [.publishCompatibility ⟨1⟩ { key := [101] } .compatible [] .synthetic,
    .promote
      { model := ⟨1⟩, candidate := ⟨1⟩, scope := ⟨1⟩, environmentKey := [101]
        requestImmediateCutover := true },
    .reviseVersion
      { model := ⟨1⟩, version := ⟨1⟩
        artifact := { setId := ⟨1⟩, generation := ⟨2⟩, digest := [98] } }]

theorem lifecycle_generation_counts_witness :
    ∃ record record' : ModelVersionRecord,
      (runOps {} (init {}) versionRegistered).versionOf ⟨1⟩ ⟨1⟩ = some record ∧
      (runOps {} (runOps {} (init {}) versionRegistered) versionServed).versionOf ⟨1⟩ ⟨1⟩ =
        some record' ∧
      record.state = .registered ∧ record'.state = .revalidationRequired ∧
      CountedWalk record record' := by
  have hstored : ((runOps {} (init {}) versionRegistered).versionOf ⟨1⟩ ⟨1⟩).any
      (fun record => decide (record.state = .registered)) = true := by
    decide +kernel
  obtain ⟨record, hrecord, hregistered⟩ := (Option.any_eq_true _ _).mp hstored
  obtain ⟨record', hrecord', hcounts⟩ := lifecycle_generation_counts (c := {})
    ⟨versionRegistered, rfl⟩ (by decide : ∀ op ∈ versionServed, op.isImport = false) hrecord
  have hend : ∀ after ∈ (runOps {} (runOps {} (init {}) versionRegistered)
      versionServed).versionOf ⟨1⟩ ⟨1⟩,
      ¬after.lifecycleGeneration.Saturated ∧ after.state = .revalidationRequired := by
    decide +kernel
  obtain ⟨hbelow, hstate⟩ := hend record' hrecord'
  exact ⟨record, record', hrecord, hrecord', of_decide_eq_true hregistered, hstate,
    (hcounts hbelow).1⟩

end LifecycleFabric
