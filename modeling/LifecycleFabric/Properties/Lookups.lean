import LifecycleFabric.Properties.Indexes

/-!
# Lookups find what a search finds

The indexes of names, labels and version identities are kept beside the tables by each
registration and are rebuilt by a recovery. In every run they answer as a search of the tables
would.
-/

namespace LifecycleFabric

open EngineState Runs SecondaryIndex

variable {c : EngineConfig} {s : EngineState}

/-- Every lookup in an index finds what a search of its table finds. -/
structure EngineState.SearchesAgree (s : EngineState) : Prop where
  modelByName : ∀ name, s.findModelByName name =
    (s.modelRecords.find? fun record => decide (record.name = name)).map ModelRecord.id
  modelById : ∀ raw, s.findModelById raw =
    (s.modelRecords.find? fun record => decide (record.id.raw = raw)).map ModelRecord.id
  versionByLabel : ∀ model label, s.findVersionByLabel model label =
    ((s.versionRecords model).find? fun record => decide (record.label = label)).map
      ModelVersionRecord.version
  versionById : ∀ version, s.versionOfId version =
    s.allVersions.find? fun record => decide (record.version = version)

theorem EngineState.Indexed.modelByName (h : s.Indexed) (name : Text) :
    s.findModelByName name =
      (s.modelRecords.find? fun record => decide (record.name = name)).map ModelRecord.id := by
  rw [findModelByName, h.names.get?_eq, modelRecords, OrdMap.values, List.find?_map,
    Option.map_map]
  -- The two searches decide equality of names by different instances.
  congr!
  exact decide_eq_decide.mpr Iff.rfl

theorem EngineState.Indexed.modelById (h : s.Indexed) (raw : UInt64) :
    s.findModelById raw =
      (s.modelRecords.find? fun record => decide (record.id.raw = raw)).map ModelRecord.id := by
  unfold findModelById modelRecords
  congr 1
  cases hfind : s.models.values.find? fun record => decide (record.id.raw = raw) with
  | none =>
    rw [Option.eq_none_iff_forall_ne_some]
    intro record hrecord
    have hmiss := List.find?_eq_none.mp hfind _ (OrdMap.mem_values_iff.mpr ⟨raw, hrecord⟩)
    rw [h.models raw record hrecord] at hmiss
    exact hmiss (decide_eq_true rfl)
  | some record =>
    have hraw : record.id.raw = raw := by simpa using List.find?_some hfind
    obtain ⟨key, hrecord⟩ := OrdMap.mem_values_iff.mp (List.mem_of_find?_eq_some hfind)
    rw [h.models key record hrecord] at hraw
    exact hraw ▸ hrecord

/-- The versions listed of a model are the stored ones that belong to it. -/
theorem mem_versionRecords (hs : Coherent s) {model : ModelId} {record : ModelVersionRecord} :
    record ∈ s.versionRecords model ↔
      (∃ key, s.versions.get? key = some record) ∧ record.model = model := by
  unfold versionRecords
  simp only [OrdMap.mem_values_iff, OrdMap.get?_filter, Option.filter_eq_some_iff, beq_iff_eq]
  constructor
  · rintro ⟨key, hrecord, hmodel⟩
    rw [hs.versions key record hrecord] at hmodel
    exact ⟨⟨key, hrecord⟩, Ident.ext hmodel⟩
  · rintro ⟨⟨key, hrecord⟩, rfl⟩
    refine ⟨key, hrecord, ?_⟩
    rw [hs.versions key record hrecord]
    rfl

theorem EngineState.Indexed.versionByLabel (h : s.Indexed) (hs : Coherent s) (model : ModelId)
    (label : Text) :
    s.findVersionByLabel model label =
      ((s.versionRecords model).find? fun record => decide (record.label = label)).map
        ModelVersionRecord.version := by
  unfold findVersionByLabel
  cases hfind : (s.versionRecords model).find? fun record => decide (record.label = label) with
  | none =>
    rw [Option.map_none, Option.eq_none_iff_forall_ne_some]
    intro version hversion
    obtain ⟨key, record, hrecord, hname, _⟩ := (h.labels _ _).mp hversion
    obtain ⟨hmodel, hlabel⟩ := Prod.ext_iff.mp (toLex.injective hname)
    have hmiss := List.find?_eq_none.mp hfind record
      ((mem_versionRecords hs).mpr ⟨⟨key, hrecord⟩, Ident.ext hmodel⟩)
    exact hmiss (decide_eq_true hlabel)
  | some record =>
    have hlabel : record.label = label := by simpa using List.find?_some hfind
    obtain ⟨⟨key, hrecord⟩, hmodel⟩ :=
      (mem_versionRecords hs).mp (List.mem_of_find?_eq_some hfind)
    rw [Option.map_some, h.labels]
    refine ⟨key, record, hrecord, ?_, rfl⟩
    dsimp only
    rw [hmodel, hlabel]

theorem EngineState.Indexed.versionById (h : s.Indexed) (version : ModelVersionId) :
    s.versionOfId version =
      s.allVersions.find? fun record => decide (record.version = version) := by
  unfold versionOfId allVersions
  cases hfind : s.versions.values.find? fun record => decide (record.version = version) with
  | none =>
    have hnone : s.versionIndex.get? version.raw = none := by
      rw [Option.eq_none_iff_forall_ne_some]
      intro key hkey
      obtain ⟨key', record, hrecord, hraw, _⟩ := (h.index _ _).mp hkey
      have hmiss := List.find?_eq_none.mp hfind record (OrdMap.mem_values_iff.mpr ⟨key', hrecord⟩)
      exact hmiss (decide_eq_true (Ident.ext hraw))
    rw [hnone]
  | some record =>
    have hversion : record.version = version := by simpa using List.find?_some hfind
    obtain ⟨key, hrecord⟩ := OrdMap.mem_values_iff.mp (List.mem_of_find?_eq_some hfind)
    have hkey : s.versionIndex.get? version.raw = some key :=
      (h.index _ _).mpr ⟨key, record, hrecord, congrArg Ident.raw hversion, rfl⟩
    rw [hkey]
    exact hrecord

/-- As long as no allocator comes to its end and every durable state that is taken in has its
allocators past what it holds, each lookup finds what a search of the tables finds, in every
state of a run. -/
theorem lookups_find {ops : List Operation}
    (h : Along (step c) (fun s op => op.HasRoom s ∧ op.TakesFresh c s) (init c) ops) :
    Always (step c) EngineState.SearchesAgree (init c) ops := by
  have hkeep : ∀ s op, s.HoldsFresh ∧ s.Indexed → op.HasRoom s ∧ op.TakesFresh c s →
      (step c s op).HoldsFresh ∧ (step c s op).Indexed :=
    fun s op hs hop => ⟨holdsFresh_step hs.1 hop.1 hop.2, hs.2.step hs.1 hop.2⟩
  intro before hbefore
  obtain ⟨hfresh, hindexed⟩ := always_of_along (step c) hkeep h
    ⟨holdsFresh_init c, indexed_init c⟩ before hbefore
  exact ⟨hindexed.modelByName, hindexed.modelById, hindexed.versionByLabel hfresh.coherent,
    hindexed.versionById⟩

theorem lookups_find_witness :
    let s := run (step {}) (init {}) [.importDurableState oneVersion ⟨2⟩, secondVersion]
    Always (step {}) EngineState.SearchesAgree (init {})
        [.importDurableState oneVersion ⟨2⟩, secondVersion] ∧
      s.findVersionByLabel ⟨2⟩ [49] = some ⟨2⟩ ∧ s.findModelByName [110] = some ⟨2⟩ := by
  refine ⟨lookups_find ⟨⟨nofun, fun _ _ => oneVersion_fresh⟩, ⟨?_, trivial⟩, trivial⟩,
    by decide +kernel⟩
  intro kind hkind
  obtain rfl := Option.some.inj hkind
  decide +kernel

end LifecycleFabric
